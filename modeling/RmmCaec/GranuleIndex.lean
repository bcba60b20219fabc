import RmmCaec.DramManifest
import RmmCaec.RangeSearch

/-!
# Granule indices

The granules of all DRAM banks are the elements of one array, bank after bank. A binary
search among the banks turns an address into an index, another one turns the index back.
On sound banks the two are inverse and keep the order. Where a bank wraps, the addresses
before the end of the address space are in no bank for the search.
-/
namespace RmmCaec

open RangeSearch

structure ArmDramBank where
  base : Word
  size : Word
  startGranIdx : Word
  deriving DecidableEq, Repr, Inhabited

structure ArmDramLayout where
  bank : List ArmDramBank
  numGranules : Word

/-- The loop of `arm_set_dram_layout`, with the granules of the banks before. -/
def armLayoutLoop : List NsDramBank → Word → List ArmDramBank × Word
  | [], numGranules => ([], numGranules)
  | b :: rest, numGranules =>
    let (banks, total) := armLayoutLoop rest (numGranules + b.size >>> 12)
    (⟨b.base, b.size, numGranules⟩ :: banks, total)

/-- The assertions on the number of banks and of granules repeat checks of the manifest. -/
def armSetDramLayout (banks : List NsDramBank) : ArmDramLayout :=
  ⟨(armLayoutLoop banks 0#64).1, (armLayoutLoop banks 0#64).2⟩

def ArmDramLayout.at (d : ArmDramLayout) (i : ℕ) : ArmDramBank := d.bank.getD i default

def uint64Max : Word := BitVec.allOnes 64

/-- No result stands for a loop that does not end. -/
def platGranuleAddrToIdx (d : ArmDramLayout) (addr : Word) : Option Word :=
  if !granuleAligned addr then some uint64Max
  else
    match search (fun i => (d.at i).base.toNat)
      (fun i => ((d.at i).base + (d.at i).size - 1#64).toNat)
      addr.toNat d.bank.length 0 (d.bank.length - 1) with
    | .found i => some ((d.at i).startGranIdx + (addr - (d.at i).base) >>> 12)
    | .missing => some uint64Max
    | .exhausted => none

/-- No result stands for a failed assertion or a loop that does not end. -/
def platGranuleIdxToAddr (d : ArmDramLayout) (idx : Word) : Option Word :=
  if d.numGranules ≤ idx then none
  else
    match search (fun i => (d.at i).startGranIdx.toNat)
      (fun i => ((d.at i).startGranIdx + (d.at i).size >>> 12 - 1#64).toNat)
      idx.toNat d.bank.length 0 (d.bank.length - 1) with
    | .found i => some ((d.at i).base + (idx - (d.at i).startGranIdx) <<< 12)
    | .missing => none
    | .exhausted => none

section
variable {banks : List NsDramBank} {i j : ℕ}

/-- The granules of the banks before the bank `i`. -/
def granulesBefore (banks : List NsDramBank) (i : ℕ) : ℕ := numGranules (banks.take i)

theorem granulesBefore_zero (banks : List NsDramBank) : granulesBefore banks 0 = 0 := rfl

theorem granulesBefore_cons (b : NsDramBank) (rest : List NsDramBank) (i : ℕ) :
    granulesBefore (b :: rest) (i + 1) = b.granules + granulesBefore rest i := numGranules_cons b _

theorem granulesBefore_succ (hi : i < banks.length) :
    granulesBefore banks (i + 1) = granulesBefore banks i + banks[i].granules := by
  induction banks generalizing i with
  | nil => simp at hi
  | cons b rest ih =>
    cases i with
    | zero => simp [granulesBefore_cons, granulesBefore_zero]
    | succ i =>
      have hrest := @ih i (by simpa using hi)
      rw [granulesBefore_cons, hrest, granulesBefore_cons, List.getElem_cons_succ, Nat.add_assoc]

theorem granulesBefore_le (banks : List NsDramBank) (h : i ≤ j) :
    granulesBefore banks i ≤ granulesBefore banks j := by
  obtain ⟨k, rfl⟩ := Nat.exists_eq_add_of_le h
  simp [granulesBefore, numGranules, List.take_add]

theorem granulesBefore_total (h : banks.length ≤ i) :
    granulesBefore banks i = numGranules banks := by
  rw [granulesBefore, List.take_of_length_le h]

theorem length_armLayoutLoop (banks : List NsDramBank) (n : Word) :
    (armLayoutLoop banks n).1.length = banks.length := by
  induction banks generalizing n with
  | nil => rfl
  | cons b rest ih => simp [armLayoutLoop, ih]

theorem granules_shift (b : NsDramBank) : (b.size >>> 12 : Word) = BitVec.ofNat 64 b.granules := by
  apply BitVec.eq_of_toNat_eq
  have := b.size.isLt
  rw [BitVec.toNat_ushiftRight, BitVec.toNat_ofNat, Nat.shiftRight_eq_div_pow, NsDramBank.granules,
    granuleSize]
  omega

/-- The index of the first granule of a bank counts the granules of the banks before. -/
theorem armLayoutLoop_getElem (banks : List NsDramBank) (n : Word) (i : ℕ)
    (hi : i < banks.length) :
    (armLayoutLoop banks n).1[i]? =
      some ⟨banks[i].base, banks[i].size, n + BitVec.ofNat 64 (granulesBefore banks i)⟩ := by
  induction banks generalizing n i with
  | nil => simp at hi
  | cons b rest ih =>
    cases i with
    | zero => simp [armLayoutLoop, granulesBefore_zero]
    | succ i =>
      have hrest := ih (n + b.size >>> 12) i (by simpa using hi)
      rw [granules_shift] at hrest
      simp only [armLayoutLoop, List.getElem?_cons_succ, hrest, List.getElem_cons_succ,
        granulesBefore_cons, granules_shift, BitVec.ofNat_add, BitVec.add_assoc]

theorem armLayoutLoop_total (banks : List NsDramBank) (n : Word) :
    (armLayoutLoop banks n).2 = n + BitVec.ofNat 64 (numGranules banks) := by
  induction banks generalizing n with
  | nil => simp [armLayoutLoop, numGranules]
  | cons b rest ih =>
    simp only [armLayoutLoop, ih, granules_shift, numGranules_cons, BitVec.ofNat_add,
      BitVec.add_assoc]

theorem layout_at (hi : i < banks.length) : (armSetDramLayout banks).at i =
    ⟨banks[i].base, banks[i].size, BitVec.ofNat 64 (granulesBefore banks i)⟩ := by
  have h := armLayoutLoop_getElem banks 0#64 i hi
  rw [BitVec.zero_add] at h
  rw [ArmDramLayout.at, List.getD_eq_getElem?_getD, armSetDramLayout, h]
  rfl

theorem layout_length (banks : List NsDramBank) :
    (armSetDramLayout banks).bank.length = banks.length := length_armLayoutLoop banks 0#64

/-- Every index below the number of granules belongs to a bank. -/
theorem exists_bank_of_lt {g : ℕ} (hg : g < numGranules banks) : ∃ i, ∃ hi : i < banks.length,
    granulesBefore banks i ≤ g ∧ g < granulesBefore banks i + banks[i].granules := by
  induction banks generalizing g with
  | nil => simp [numGranules] at hg
  | cons b rest ih =>
    by_cases hb : g < b.granules
    · exact ⟨0, by simp, Nat.zero_le _, by simpa [granulesBefore_zero] using hb⟩
    · rw [numGranules_cons] at hg
      obtain ⟨i, hi, hle, hlt⟩ := @ih (g - b.granules) (by omega)
      refine ⟨i + 1, by simpa using hi, ?_⟩
      rw [granulesBefore_cons, List.getElem_cons_succ]
      omega

end

/-- The address of a granule of one of the banks. -/
def GranuleIn (banks : List NsDramBank) (addr : Word) : Prop :=
  granuleAligned addr = true ∧
    ∃ b ∈ banks, b.base.toNat ≤ addr.toNat ∧ addr.toNat < b.base.toNat + b.size.toNat

/-- The granule `g` is at `addr`, in the bank `i`. -/
structure AtIndex (banks : List NsDramBank) (i : ℕ) (addr : Word) (g : ℕ) : Prop where
  bank : i < banks.length
  aligned : granuleAligned addr = true
  first : banks[i].base.toNat ≤ addr.toNat
  last : addr.toNat < banks[i].base.toNat + banks[i].size.toNat
  idx : g = granulesBefore banks i + (addr.toNat - banks[i].base.toNat) / granuleSize

section
variable {cfg : BootConfig} {banks : List NsDramBank} {i j g : ℕ} {addr : Word}

theorem granuleIn_iff : GranuleIn banks addr ↔ ∃ i g, AtIndex banks i addr g := by
  constructor
  · rintro ⟨hal, b, hb, hfirst, hlast⟩
    obtain ⟨i, hi, rfl⟩ := List.getElem_of_mem hb
    exact ⟨i, _, hi, hal, hfirst, hlast, rfl⟩
  · rintro ⟨i, g, h⟩
    exact ⟨h.aligned, _, List.getElem_mem h.bank, h.first, h.last⟩

namespace DramSound

variable (h : DramSound cfg banks)
include h

/-- The size of a bank, in granules. -/
theorem size_eq (hi : i < banks.length) : banks[i].size.toNat = banks[i].granules * granuleSize :=
  (Nat.div_mul_cancel (h.aligned _ (List.getElem_mem hi)).2).symm

theorem granules_pos (hi : i < banks.length) : 0 < banks[i].granules := by
  have hpos := h.pos _ (List.getElem_mem hi)
  rw [h.size_eq hi] at hpos
  exact Nat.pos_of_mul_pos_right hpos

theorem behind (hij : i < j) (hj : j < banks.length) :
    banks[i].base.toNat + banks[i].size.toNat ≤ banks[j].base.toNat :=
  List.pairwise_iff_getElem.mp h.disjoint i j (by omega) hj hij

/-- The granules of the banks up to `i` fit into 32 bits. -/
theorem before_lt (hi : i < banks.length) :
    granulesBefore banks i + banks[i].granules ≤ numGranules banks ∧
      numGranules banks < 2 ^ 32 := by
  have hle := granulesBefore_le banks (show i + 1 ≤ banks.length from hi)
  rw [granulesBefore_succ hi, granulesBefore_total (Nat.le_refl _)] at hle
  exact ⟨hle, Nat.lt_of_le_of_lt h.counted cfg.maxGranules_lt⟩

theorem stop_toNat (hi : i < banks.length) : (banks[i].base + banks[i].size - 1#64).toNat =
    banks[i].base.toNat + banks[i].size.toNat - 1 := by
  have hpos := h.pos _ (List.getElem_mem hi)
  have hwrap := h.noWrap _ (List.getElem_mem hi)
  simp only [BitVec.toNat_sub, BitVec.toNat_add, BitVec.toNat_ofNat]
  omega

/-- The first index of a bank, and its last one. -/
theorem start_toNat (hi : i < banks.length) :
    (BitVec.ofNat 64 (granulesBefore banks i) : Word).toNat = granulesBefore banks i ∧
      (BitVec.ofNat 64 (granulesBefore banks i) + banks[i].size >>> 12 - 1#64 : Word).toNat =
        granulesBefore banks i + banks[i].granules - 1 := by
  have hlt := h.before_lt hi
  have hpos := h.granules_pos hi
  rw [granules_shift]
  simp only [BitVec.toNat_sub, BitVec.toNat_add, BitVec.toNat_ofNat]
  omega

theorem addr_ascending : Ascending (fun i => ((armSetDramLayout banks).at i).base.toNat)
    (fun i => (((armSetDramLayout banks).at i).base +
    ((armSetDramLayout banks).at i).size - 1#64).toNat)
    banks.length := by
  refine ⟨fun i hi => ?_, fun i j hij hj => ?_⟩
  · have hpos := h.pos _ (List.getElem_mem hi)
    simp only [layout_at hi, h.stop_toNat hi]
    omega
  · have hi : i < banks.length := by omega
    have hbehind := h.behind hij hj
    have hpos := h.pos _ (List.getElem_mem hi)
    simp only [layout_at hi, layout_at hj, h.stop_toNat hi]
    omega

theorem idx_ascending : Ascending (fun i => ((armSetDramLayout banks).at i).startGranIdx.toNat)
    (fun i => (((armSetDramLayout banks).at i).startGranIdx +
      ((armSetDramLayout banks).at i).size >>> 12 - 1#64).toNat) banks.length := by
  refine ⟨fun i hi => ?_, fun i j hij hj => ?_⟩
  · have hpos := h.granules_pos hi
    simp only [layout_at hi, h.start_toNat hi]
    omega
  · have hi : i < banks.length := by omega
    have hle := granulesBefore_le banks (show i + 1 ≤ j from hij)
    have hpos := h.granules_pos hi
    rw [granulesBefore_succ hi] at hle
    simp only [layout_at hi, layout_at hj, h.start_toNat hi, h.start_toNat hj]
    omega

/-- The granule of an address lies in the part of its bank. -/
theorem index_lt (ha : AtIndex banks i addr g) :
    granulesBefore banks i ≤ g ∧ ∃ hi : i < banks.length, g < granulesBefore banks i +
      banks[i].granules := by
  refine ⟨ha.idx ▸ Nat.le_add_right _ _, ha.bank, ?_⟩
  have hsize := h.size_eq ha.bank
  have hlast := ha.last
  have hfirst := ha.first
  have hidx := ha.idx
  unfold granuleSize at hsize hidx
  omega

theorem index_total (ha : AtIndex banks i addr g) : g < numGranules banks ∧ g < 2 ^ 32 := by
  obtain ⟨-, hi, hlt⟩ := h.index_lt ha
  have := h.before_lt hi
  omega

/-- The address of a granule, from its index. -/
theorem addr_eq (ha : AtIndex banks i addr g) : ∃ hi : i < banks.length,
    addr.toNat = banks[i].base.toNat + (g - granulesBefore banks i) * granuleSize := by
  refine ⟨ha.bank, ?_⟩
  have halign := granuleAligned_iff.mp ha.aligned
  obtain ⟨x, hx⟩ := (h.aligned _ (List.getElem_mem ha.bank)).1
  have hfirst := ha.first
  have hidx := ha.idx
  unfold granuleSize at hx hidx ⊢
  omega

theorem addrToIdx_eq (ha : AtIndex banks i addr g) :
    platGranuleAddrToIdx (armSetDramLayout banks) addr = some (BitVec.ofNat 64 g) := by
  have hi := ha.bank
  have hfirst := ha.first
  have hin : banks[i].base.toNat ≤ addr.toNat ∧
      addr.toNat ≤ banks[i].base.toNat + banks[i].size.toNat - 1 := by
    have := ha.last
    omega
  have hsearch : search _ _ addr.toNat banks.length 0 (banks.length - 1) = .found i :=
    h.addr_ascending.search_eq (by omega) (by omega) (Nat.zero_le i) (by omega)
      (by simpa only [layout_at hi, h.stop_toNat hi] using hin)
  unfold platGranuleAddrToIdx
  rw [layout_length, hsearch, ha.aligned]
  simp only [Bool.not_true, Bool.false_eq_true, if_false, layout_at hi, Option.some.injEq]
  rw [ha.idx, BitVec.ofNat_add]
  congr 1
  apply BitVec.eq_of_toNat_eq
  rw [BitVec.toNat_ushiftRight, BitVec.toNat_sub_of_le (BitVec.le_def.mpr hfirst),
    BitVec.toNat_ofNat,
    Nat.shiftRight_eq_div_pow, granuleSize]
  have := addr.isLt
  omega

theorem idxToAddr_eq (ha : AtIndex banks i addr g) :
    platGranuleIdxToAddr (armSetDramLayout banks) (BitVec.ofNat 64 g) = some addr := by
  obtain ⟨hle, hi, hlt⟩ := h.index_lt ha
  obtain ⟨htotal, hg⟩ := h.index_total ha
  obtain ⟨_, haddr⟩ := h.addr_eq ha
  have hgn : (BitVec.ofNat 64 g : Word).toNat = g := by
    rw [BitVec.toNat_ofNat]
    omega
  have hrange : granulesBefore banks i ≤ g ∧
      g ≤ granulesBefore banks i + banks[i].granules - 1 := by
    omega
  have hsearch : search _ _ g banks.length 0 (banks.length - 1) = .found i :=
    h.idx_ascending.search_eq (by omega) (by omega) (Nat.zero_le i) (by omega)
      (by simpa only [layout_at hi, h.start_toNat hi] using hrange)
  have hin : ¬ (armSetDramLayout banks).numGranules ≤ BitVec.ofNat 64 g := by
    have hcount := h.before_lt hi
    rw [BitVec.le_def, hgn, armSetDramLayout, armLayoutLoop_total, BitVec.zero_add,
      BitVec.toNat_ofNat]
    omega
  unfold platGranuleIdxToAddr
  rw [if_neg hin, layout_length, hgn, hsearch]
  simp only [layout_at hi, Option.some.injEq]
  apply BitVec.eq_of_toNat_eq
  have hbase := h.noWrap _ (List.getElem_mem hi)
  have hsize := h.size_eq hi
  have hstart : (BitVec.ofNat 64 (granulesBefore banks i) : Word) ≤ BitVec.ofNat 64 g := by
    rw [BitVec.le_def, (h.start_toNat hi).1, hgn]
    exact hle
  rw [BitVec.toNat_add, BitVec.toNat_shiftLeft, BitVec.toNat_sub_of_le hstart, hgn,
    (h.start_toNat hi).1, Nat.shiftLeft_eq, haddr]
  unfold granuleSize at hsize ⊢
  omega

/-- Every index has an address. -/
theorem exists_addr (hg : g < numGranules banks) : ∃ i addr, AtIndex banks i addr g := by
  obtain ⟨i, hi, hle, hlt⟩ := exists_bank_of_lt hg
  have hwrap := h.noWrap _ (List.getElem_mem hi)
  have hsize := h.size_eq hi
  obtain ⟨x, hx⟩ := (h.aligned _ (List.getElem_mem hi)).1
  unfold granuleSize at hsize hx
  have haddr : (BitVec.ofNat 64 (banks[i].base.toNat +
      (g - granulesBefore banks i) * 4096) : Word).toNat =
      banks[i].base.toNat + (g - granulesBefore banks i) * 4096 := by
    rw [BitVec.toNat_ofNat]
    omega
  refine ⟨i, BitVec.ofNat 64 (banks[i].base.toNat + (g - granulesBefore banks i) * 4096), hi,
    granuleAligned_iff.mpr ?_, ?_, ?_, ?_⟩ <;> rw [haddr]
  · omega
  · omega
  · omega
  · unfold granuleSize
    omega

/-- The indices ascend with the addresses. -/
theorem idx_strictMono {addr' : Word} {g' : ℕ} (ha : AtIndex banks i addr g)
    (ha' : AtIndex banks j addr' g')
    (hlt : addr < addr') : g < g' := by
  rw [BitVec.lt_def] at hlt
  obtain ⟨hle, hi, hgi⟩ := h.index_lt ha
  obtain ⟨hle', hj, hgj⟩ := h.index_lt ha'
  obtain ⟨_, haddr⟩ := h.addr_eq ha
  obtain ⟨_, haddr'⟩ := h.addr_eq ha'
  rcases Nat.lt_trichotomy i j with hij | rfl | hij
  · have hmono := granulesBefore_le banks (show i + 1 ≤ j from hij)
    rw [granulesBefore_succ hi] at hmono
    omega
  · unfold granuleSize at haddr haddr'
    omega
  · have hbehind := h.behind hij hi
    have hlast := ha'.last
    have hfirst := ha.first
    omega

/-- Granules that follow each other in memory do so in the array, also across banks. -/
theorem idx_next {g' : ℕ} (ha : AtIndex banks i addr g)
    (ha' : AtIndex banks j (addr + 0x1000#64) g')
    (hwrap : addr.toNat + 4096 < 2 ^ 64) : g' = g + 1 := by
  obtain ⟨hle, hi, hgi⟩ := h.index_lt ha
  obtain ⟨hle', hj, hgj⟩ := h.index_lt ha'
  obtain ⟨_, haddr⟩ := h.addr_eq ha
  obtain ⟨_, haddr'⟩ := h.addr_eq ha'
  have hnext : (addr + 0x1000#64).toNat = addr.toNat + 4096 := by
    rw [BitVec.toNat_add, BitVec.toNat_ofNat]
    omega
  rw [hnext] at haddr'
  have hlast := ha.last
  have hfirst' := ha'.first
  rw [hnext] at hfirst'
  have hsize := h.size_eq hi
  unfold granuleSize at haddr haddr' hsize
  rcases Nat.lt_trichotomy i j with hij | rfl | hij
  · -- there is no room for a bank in between
    have hbehind := h.behind hij hj
    have hj1 : j = i + 1 := by
      by_contra hne
      have hi1 : i + 1 < banks.length := by omega
      have h1 := h.behind (show i < i + 1 by omega) hi1
      have h2 := h.behind (show i + 1 < j by omega) hj
      have hpos := h.pos _ (List.getElem_mem hi1)
      obtain ⟨x, hx⟩ := (h.aligned _ (List.getElem_mem hi1)).1
      obtain ⟨y, hy⟩ := (h.aligned _ (List.getElem_mem hi)).1
      obtain ⟨z, hz⟩ := (h.aligned _ (List.getElem_mem hj)).1
      obtain ⟨w, hw⟩ := (h.aligned _ (List.getElem_mem hi1)).2
      unfold granuleSize at hx hy hz hw
      omega
    subst hj1
    rw [granulesBefore_succ hi] at hle' haddr'
    obtain ⟨y, hy⟩ := (h.aligned _ (List.getElem_mem hi)).1
    obtain ⟨z, hz⟩ := (h.aligned _ (List.getElem_mem hj)).1
    unfold granuleSize at hy hz
    omega
  · omega
  · have hbehind := h.behind hij hi
    have hlast' := ha'.last
    rw [hnext] at hlast'
    have hfirst := ha.first
    omega

end DramSound

/-- The searches end on every address. -/
theorem platGranuleAddrToIdx_isSome (banks : List NsDramBank) (hne : banks ≠ []) (addr : Word) :
    (platGranuleAddrToIdx (armSetDramLayout banks) addr).isSome = true := by
  have hpos : 0 < banks.length := List.length_pos_of_ne_nil hne
  unfold platGranuleAddrToIdx
  split_ifs with hal
  · rfl
  · rw [layout_length]
    split
    · rfl
    · rfl
    case h_3 hex => exact absurd hex (search_ne_exhausted (by omega))

/-- Outside the banks nothing is found. -/
theorem addrToIdx_outside (hne : banks ≠ []) (hout : ¬ granuleAligned addr = true ∨
    ∀ i, ∀ hi : i < banks.length, ¬ (banks[i].base.toNat ≤ addr.toNat ∧
      addr.toNat ≤ (banks[i].base + banks[i].size - 1#64).toNat)) :
    platGranuleAddrToIdx (armSetDramLayout banks) addr = some uint64Max := by
  have hpos : 0 < banks.length := List.length_pos_of_ne_nil hne
  unfold platGranuleAddrToIdx
  split_ifs with hal
  · rfl
  · rw [layout_length]
    split
    case h_1 i hi =>
      obtain ⟨-, hle, hin⟩ := search_sound hi
      have hlt : i < banks.length := by omega
      rw [layout_at hlt] at hin
      exact absurd hin (hout.resolve_left (by simpa using hal) i hlt)
    · rfl
    case h_3 hex => exact absurd hex (search_ne_exhausted (by omega))

end

/-- The two maps as the monitor uses them: inverse bijections between the granules of the
banks and the indices below their number, in the order of the addresses. -/
structure GranuleMaps (banks : List NsDramBank) : Prop where
  ends : ∀ addr, (platGranuleAddrToIdx (armSetDramLayout banks) addr).isSome = true
  toIdx : ∀ addr, GranuleIn banks addr → ∃ idx,
    platGranuleAddrToIdx (armSetDramLayout banks) addr = some idx ∧
      idx < (armSetDramLayout banks).numGranules ∧
      platGranuleIdxToAddr (armSetDramLayout banks) idx = some addr
  onto : ∀ idx, idx < (armSetDramLayout banks).numGranules → ∃ addr, GranuleIn banks addr ∧
    platGranuleIdxToAddr (armSetDramLayout banks) idx = some addr ∧
      platGranuleAddrToIdx (armSetDramLayout banks) addr = some idx
  outside : ∀ addr, platGranuleAddrToIdx (armSetDramLayout banks) addr = some uint64Max ↔
    ¬ GranuleIn banks addr
  increasing : ∀ a b i j, GranuleIn banks a → GranuleIn banks b → a < b →
    platGranuleAddrToIdx (armSetDramLayout banks) a = some i →
    platGranuleAddrToIdx (armSetDramLayout banks) b = some j → i < j

section
variable {cfg : BootConfig} {banks : List NsDramBank}

theorem DramSound.numGranules_eq (h : DramSound cfg banks) :
    (armSetDramLayout banks).numGranules = BitVec.ofNat 64 (numGranules banks) ∧
      numGranules banks < 2 ^ 32 := by
  refine ⟨?_, Nat.lt_of_le_of_lt h.counted cfg.maxGranules_lt⟩
  rw [armSetDramLayout, armLayoutLoop_total, BitVec.zero_add]

theorem DramSound.granuleMaps (h : DramSound cfg banks) (hne : banks ≠ []) :
    GranuleMaps banks := by
  obtain ⟨hcount, hfew⟩ := h.numGranules_eq
  have hword : ∀ g, g < 2 ^ 32 → (BitVec.ofNat 64 g : Word).toNat = g := by
    intro g hg
    rw [BitVec.toNat_ofNat]
    omega
  refine ⟨platGranuleAddrToIdx_isSome banks hne, ?_, ?_, ?_, ?_⟩
  · intro addr hin
    obtain ⟨i, g, ha⟩ := granuleIn_iff.mp hin
    obtain ⟨htotal, hg⟩ := h.index_total ha
    refine ⟨_, h.addrToIdx_eq ha, ?_, h.idxToAddr_eq ha⟩
    rw [hcount, BitVec.lt_def, hword g hg, hword _ hfew]
    exact htotal
  · intro idx hidx
    rw [hcount, BitVec.lt_def, hword _ hfew] at hidx
    obtain ⟨i, addr, ha⟩ := h.exists_addr hidx
    have hback : (BitVec.ofNat 64 idx.toNat : Word) = idx := by simp
    refine ⟨addr, granuleIn_iff.mpr ⟨i, _, ha⟩, ?_, ?_⟩
    · rw [← hback]
      exact h.idxToAddr_eq ha
    · rw [h.addrToIdx_eq ha, hback]
  · intro addr
    constructor
    · intro hmax hin
      obtain ⟨i, g, ha⟩ := granuleIn_iff.mp hin
      obtain ⟨-, hg⟩ := h.index_total ha
      rw [h.addrToIdx_eq ha] at hmax
      have := congrArg BitVec.toNat (Option.some.inj hmax)
      rw [hword g hg] at this
      simp only [uint64Max, BitVec.toNat_allOnes] at this
      omega
    · intro hout
      refine addrToIdx_outside hne ?_
      by_cases hal : granuleAligned addr = true
      · refine .inr fun i hi hin => hout ⟨hal, banks[i], List.getElem_mem hi, hin.1, ?_⟩
        rw [h.stop_toNat hi] at hin
        have := h.pos _ (List.getElem_mem hi)
        omega
      · exact .inl hal
  · intro a b i j ha hb hlt hi hj
    obtain ⟨x, g, hag⟩ := granuleIn_iff.mp ha
    obtain ⟨y, g', hbg⟩ := granuleIn_iff.mp hb
    rw [h.addrToIdx_eq hag] at hi
    rw [h.addrToIdx_eq hbg] at hj
    cases hi
    cases hj
    rw [BitVec.lt_def, hword g (h.index_total hag).2, hword g' (h.index_total hbg).2]
    exact h.idx_strictMono hag hbg hlt

/-- The first address of a bank that starts above the physical address space is in the bank,
but the search takes it for one that is in no bank. -/
theorem DramAccepted.not_granuleMaps (h : DramAccepted cfg banks) {b : NsDramBank}
    (hb : b ∈ banks)
    (hbase : 2 ^ cfg.paWidth ≤ b.base.toNat) : ¬ GranuleMaps banks := by
  intro hmaps
  have hpass := h.passes b hb
  have hin : GranuleIn banks b.base := by
    refine ⟨granuleAligned_iff.mpr ?_, b, hb, Nat.le_refl _, ?_⟩
    · exact Nat.mod_eq_zero_of_dvd hpass.aligned.1
    · have := hpass.pos
      omega
  refine (hmaps.outside b.base).mp (addrToIdx_outside h.some_bank (.inr fun i hi hle => ?_)) hin
  have hstop := (h.passes _ (List.getElem_mem hi)).stop
  omega

end

/-- On the banks of an accepted manifest the maps are inverse bijections exactly if every
bank starts within the physical address space. -/
theorem granuleMaps_iff (cfg : BootConfig) (m : RmmCoreManifest) {maxNumBanks : Word}
    (hmax : maxNumBanks.toNat ≤ 4096)
    (hok : (rmmEl3IfcGetDramDataValidatedPa cfg m maxNumBanks).1 = eRmmBootSuccess) :
    GranuleMaps m.platDram.bankList ↔
      ∀ b ∈ m.platDram.bankList, b.base.toNat < 2 ^ cfg.paWidth := by
  obtain ⟨-, hacc⟩ := dramAccepted_of_success hmax hok
  constructor
  · intro hmaps b hb
    by_contra hge
    exact hacc.not_granuleMaps hb (Nat.le_of_not_lt hge) hmaps
  · intro hbase
    exact (hacc.sound hbase).granuleMaps hacc.some_bank

/-- Two banks with a gap: the granules of the second one follow those of the first one. -/
theorem granuleMaps_iff_low : GranuleMaps (demoManifest demoBanks).platDram.bankList ∧
    platGranuleAddrToIdx (armSetDramLayout (demoManifest demoBanks).platDram.bankList)
      0x880000000#64 = some 2#64 ∧
    platGranuleAddrToIdx (armSetDramLayout (demoManifest demoBanks).platDram.bankList)
      0x80002000#64 = some uint64Max :=
  ⟨(@granuleMaps_iff demoBoot (demoManifest demoBanks) 4#64 (by decide) demoBanks_accepted).mpr
    (by decide), by decide, by decide⟩

/-- The bank that wraps: its first granule has no index. -/
theorem granuleMaps_wrapping_bank : ¬ ∀ (cfg : BootConfig) (m : RmmCoreManifest)
    (maxNumBanks : Word),
    maxNumBanks.toNat ≤ 4096 →
    (rmmEl3IfcGetDramDataValidatedPa cfg m maxNumBanks).1 = eRmmBootSuccess →
    GranuleMaps m.platDram.bankList := by
  intro h
  have hmaps := h demoBoot (demoManifest [⟨0xFFFFFFFFFFFFF000#64, 0x2000#64⟩]) 4#64 (by decide)
    (by decide)
  refine (hmaps.outside 0xFFFFFFFFFFFFF000#64).mp (by decide) ?_
  exact ⟨by decide, ⟨0xFFFFFFFFFFFFF000#64, 0x2000#64⟩, by decide, by decide, by decide⟩

end RmmCaec
