import RmmCaec.RealmHandlers

/-!
# The slot buffer

Each CPU has a window of pages in its high address range into which the monitor maps
granules for a short time. Slots are numbers, since the slots of an object with several
granules are counted from its first one.
-/
namespace RmmCaec

def slotNs : ℕ := 0
def slotDelegated : ℕ := 1
def slotRd : ℕ := 2
def slotRd2 : ℕ := 3
def slotRec : ℕ := 4
def slotRec2 : ℕ := 5
def slotRecTarget : ℕ := 6
def slotRecAux0 : ℕ := 7
def slotRtt : ℕ := slotRecAux0 + maxRecAuxGranules
def slotRtt2 : ℕ := slotRtt + 1
def slotRsiCall : ℕ := slotRtt + 2
def slotEl3TokenSignRec : ℕ := slotRtt + 3
def slotEl3TokenSignAux0 : ℕ := slotRtt + 4

/-- The slots for attachment tables follow the first auxiliary slot for signing, so they
are also its second and third. -/
def slotApt : ℕ := slotEl3TokenSignAux0 + 1
def slotApt2 : ℕ := slotEl3TokenSignAux0 + 2

def nrCpuSlots : ℕ := slotEl3TokenSignAux0 + maxRecAuxGranules

/-- The window has 45 pages at the end of the address space. -/
def slotVirt : ℕ := 2 ^ 64 - 45 * 4096

def slotToVa (slot : ℕ) : ℕ := slotVirt + 4096 * slot

/-- The granule behind an address of the window. -/
def vaGranule (mapped : ℕ → Option Word) (va : ℕ) : Option Word :=
  if va < slotVirt then none else mapped ((va - slotVirt) / 4096)

theorem vaGranule_slotToVa (mapped : ℕ → Option Word) {slot i off : ℕ} (h : off < 4096) :
    vaGranule mapped (slotToVa slot + 4096 * i + off) = mapped (slot + i) := by
  have hge : ¬ slotToVa slot + 4096 * i + off < slotVirt := by
    simp only [slotToVa]
    omega
  have hdiv : (slotToVa slot + 4096 * i + off - slotVirt) / 4096 = slot + i := by
    simp only [slotToVa]
    omega
  rw [vaGranule, if_neg hge, hdiv]

end RmmCaec
