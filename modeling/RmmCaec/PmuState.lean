import RmmCaec.GicState

/-!
# The performance monitors

The mask registers of the performance monitors come in pairs: a write to one sets bits and
a write to the other clears bits, and both read the same. The register that PMSELR selects
shows up in two more registers. All of them change hands with the CPU.
-/
namespace RmmCaec

def pmcrEl0EBit : Word := 0x1#64
def pmcrEl0PBit : Word := 0x2#64
def pmcrEl0CBit : Word := 0x4#64

/-- The registers of the monitors as the hardware has them: 31 event counters, the cycle
counter and the instruction counter have a bit each in the masks. `total` counters are
implemented. -/
structure PmuRegs where
  pmcr : Word
  noReset : pmcr &&& (pmcrEl0PBit ||| pmcrEl0CBit) = 0#64
  pmccfiltr : Word
  pmccntr : Word
  pmcnten : BitVec 33
  pminten : BitVec 33
  pmovs : BitVec 33
  pmselr : Word
  pmuserenr : Word
  pmevcntr : ℕ → Word
  pmevtyper : ℕ → Word
  total : ℕ
  total_le : total ≤ 31

/-- `struct pmu_state`. -/
structure PmuState where
  pmccfiltr : Word
  pmccntr : Word
  pmcntenset : Word
  pmcntenclr : Word
  pmintenset : Word
  pmintenclr : Word
  pmovsset : Word
  pmovsclr : Word
  pmselr : Word
  pmuserenr : Word
  pmxevcntr : Word
  pmxevtyper : Word
  pmevcntr : ℕ → Word
  pmevtyper : ℕ → Word

def pmuClearAll : Word := 0x1FFFFFFFF#64

/-- The counter that PMSELR_EL0 selects. -/
def pmSelected (pmselr : Word) : ℕ := (pmselr &&& 0x1F#64).toNat

namespace PmuRegs

/-- A write to PMCR_EL0 at EL2: two of its bits reset counters and read as zero. -/
def writePmcr (h : PmuRegs) (v : Word) : PmuRegs :=
  { h with
    pmcr := v &&& ~~~(pmcrEl0PBit ||| pmcrEl0CBit)
    noReset :=
      by rw [BitVec.and_assoc, BitVec.and_comm (~~~_), BitVec.and_not_self]; exact BitVec.and_zero
    pmevcntr := if v &&& pmcrEl0PBit = 0#64 then h.pmevcntr else fun _ => 0#64
    pmccntr := if v &&& pmcrEl0CBit = 0#64 then h.pmccntr else 0#64 }

/-- A counter that is not implemented reads as zero and ignores writes. -/
def pmxevcntr (h : PmuRegs) : Word :=
  if pmSelected h.pmselr < h.total then h.pmevcntr (pmSelected h.pmselr) else 0#64

/-- Number 31 selects the filter of the cycle counter. -/
def pmxevtyper (h : PmuRegs) : Word :=
  if pmSelected h.pmselr = 31 then h.pmccfiltr
  else if pmSelected h.pmselr < h.total then h.pmevtyper (pmSelected h.pmselr) else 0#64

def writePmxevcntr (h : PmuRegs) (v : Word) : PmuRegs :=
  if pmSelected h.pmselr < h.total then
    { h with pmevcntr := Function.update h.pmevcntr (pmSelected h.pmselr) v }
  else h

def writePmxevtyper (h : PmuRegs) (v : Word) : PmuRegs :=
  if pmSelected h.pmselr = 31 then { h with pmccfiltr := v }
  else if pmSelected h.pmselr < h.total then
    { h with pmevtyper := Function.update h.pmevtyper (pmSelected h.pmselr) v }
  else h

end PmuRegs

/-- The counters that the switch over `num_cnts - 1` falls through to. -/
def pmevCounters (numCnts : ℕ) : List ℕ :=
  if numCnts = 0 then [] else if numCnts - 1 ≤ 30 then List.range numCnts else [0]

def pmuSaveState (h : PmuRegs) (pmu : PmuState) (numCnts : ℕ) : PmuState where
  pmccfiltr := h.pmccfiltr
  pmccntr := h.pmccntr
  pmcntenset := h.pmcnten.setWidth 64
  pmcntenclr := h.pmcnten.setWidth 64
  pmintenset := h.pminten.setWidth 64
  pmintenclr := h.pminten.setWidth 64
  pmovsset := h.pmovs.setWidth 64
  pmovsclr := h.pmovs.setWidth 64
  pmselr := h.pmselr
  pmuserenr := h.pmuserenr
  pmxevcntr := h.pmxevcntr
  pmxevtyper := h.pmxevtyper
  pmevcntr := fun n => if n ∈ pmevCounters numCnts then h.pmevcntr n else pmu.pmevcntr n
  pmevtyper := fun n => if n ∈ pmevCounters numCnts then h.pmevtyper n else pmu.pmevtyper n

/-- A write to the set register and one to the clear register of a pair. -/
def setAndClear (mask : BitVec 33) (set clr : Word) : BitVec 33 :=
  (mask ||| set.setWidth 33) &&& ~~~(clr ^^^ pmuClearAll).setWidth 33

def pmuRestoreState (pmu : PmuState) (h : PmuRegs) (numCnts : ℕ) : PmuRegs :=
  let h := { h with
    pmccfiltr := pmu.pmccfiltr
    pmccntr := pmu.pmccntr
    pmcnten := setAndClear h.pmcnten pmu.pmcntenset pmu.pmcntenclr
    pminten := setAndClear h.pminten pmu.pmintenset pmu.pmintenclr
    pmovs := setAndClear h.pmovs pmu.pmovsset pmu.pmovsclr
    pmselr := pmu.pmselr
    pmuserenr := pmu.pmuserenr }
  let h := (h.writePmxevcntr pmu.pmxevcntr).writePmxevtyper pmu.pmxevtyper
  { h with
    pmevcntr := fun n => if n ∈ pmevCounters numCnts then pmu.pmevcntr n else h.pmevcntr n
    pmevtyper := fun n => if n ∈ pmevCounters numCnts then pmu.pmevtyper n else h.pmevtyper n }

/-- The overflow status for the host. -/
def pmuUpdateRecExit (h : PmuRegs) : Bool :=
  (h.pmovs.setWidth 64 &&& h.pminten.setWidth 64 &&& h.pmcnten.setWidth 64 != (0#64 : Word)) &&
    (h.pmcr &&& pmcrEl0EBit != 0#64)

variable {h : PmuRegs} {pmu : PmuState} {numCnts n : ℕ}

theorem mem_pmevCounters (hnum : numCnts ≤ 31) : n ∈ pmevCounters numCnts ↔ n < numCnts := by
  unfold pmevCounters
  split_ifs <;> simp <;> omega

/-- A mask that was read from both registers of a pair comes back, whatever was in its place. -/
theorem setAndClear_same (mask : BitVec 33) (saved : Word) :
    setAndClear mask saved saved = saved.setWidth 33 := by
  refine BitVec.eq_of_getLsbD_eq fun k hk => ?_
  have hall : pmuClearAll.getLsbD k = true := by
    have hbits : ∀ k : Fin 33, pmuClearAll.getLsbD k = true := by decide
    exact hbits ⟨k, hk⟩
  simp only [setAndClear, BitVec.getLsbD_and, BitVec.getLsbD_or, BitVec.getLsbD_not,
    BitVec.getLsbD_setWidth, BitVec.getLsbD_xor, hall, hk, decide_true, Bool.true_and]
  cases mask.getLsbD k <;> cases saved.getLsbD k <;> rfl

theorem PmuRegs.writePmxevcntr_pmevcntr (v : Word) (n : ℕ) :
    (h.writePmxevcntr v).pmevcntr n =
      if n = pmSelected h.pmselr ∧ n < h.total then v else h.pmevcntr n := by
  unfold PmuRegs.writePmxevcntr
  by_cases hn : n = pmSelected h.pmselr
  · subst hn
    by_cases hlt : pmSelected h.pmselr < h.total <;> simp [hlt]
  · by_cases hlt : pmSelected h.pmselr < h.total <;> simp [hlt, hn]

theorem PmuRegs.writePmxevtyper_pmevtyper (v : Word) (n : ℕ) :
    (h.writePmxevtyper v).pmevtyper n =
      if n = pmSelected h.pmselr ∧ n ≠ 31 ∧ n < h.total then v else h.pmevtyper n := by
  unfold PmuRegs.writePmxevtyper
  by_cases hn : n = pmSelected h.pmselr
  · subst hn
    by_cases h31 : pmSelected h.pmselr = 31
    · simp [h31]
    · by_cases hlt : pmSelected h.pmselr < h.total <;> simp [hlt, h31]
  · by_cases h31 : pmSelected h.pmselr = 31
    · rw [if_pos h31, if_neg (fun hc => hn hc.1)]
    · by_cases hlt : pmSelected h.pmselr < h.total <;> simp [hlt, h31, hn]

/-- Apart from the counters a restore writes what was saved. The filter of the cycle counter is
written once more when it is selected. -/
theorem pmuRestoreState_rest (pmu : PmuState) (h : PmuRegs) (numCnts : ℕ) :
    ∃ cntr typer, pmuRestoreState pmu h numCnts =
      { h with
        pmccfiltr := if pmSelected pmu.pmselr = 31 then pmu.pmxevtyper else pmu.pmccfiltr
        pmccntr := pmu.pmccntr
        pmcnten := setAndClear h.pmcnten pmu.pmcntenset pmu.pmcntenclr
        pminten := setAndClear h.pminten pmu.pmintenset pmu.pmintenclr
        pmovs := setAndClear h.pmovs pmu.pmovsset pmu.pmovsclr
        pmselr := pmu.pmselr
        pmuserenr := pmu.pmuserenr
        pmevcntr := cntr
        pmevtyper := typer } := by
  unfold pmuRestoreState PmuRegs.writePmxevcntr PmuRegs.writePmxevtyper
  by_cases hlt : pmSelected pmu.pmselr < h.total
  · by_cases h31 : pmSelected pmu.pmselr = 31
    · exact ⟨_, _, by simp only [if_pos hlt, if_pos h31]; rfl⟩
    · exact ⟨_, _, by simp only [if_pos hlt, if_neg h31]; rfl⟩
  · by_cases h31 : pmSelected pmu.pmselr = 31
    · exact ⟨_, _, by simp only [if_neg hlt, if_pos h31]; rfl⟩
    · exact ⟨_, _, by simp only [if_neg hlt, if_neg h31]; rfl⟩

theorem PmuRegs.writePmxevcntr_rest (v : Word) :
    (h.writePmxevcntr v).pmselr = h.pmselr ∧ (h.writePmxevcntr v).total = h.total ∧
    (h.writePmxevcntr v).pmevtyper = h.pmevtyper := by
  unfold PmuRegs.writePmxevcntr
  split_ifs <;> exact ⟨rfl, rfl, rfl⟩

theorem PmuRegs.writePmxevtyper_rest (v : Word) :
    (h.writePmxevtyper v).pmevcntr = h.pmevcntr := by
  unfold PmuRegs.writePmxevtyper
  split_ifs <;> rfl

/-- The counters after a restore: those that were saved one by one, the selected one, and the
others as they were. -/
theorem pmuRestoreState_pmevcntr (hnum : numCnts ≤ 31) (n : ℕ) :
    (pmuRestoreState pmu h numCnts).pmevcntr n =
      if n < numCnts then pmu.pmevcntr n
      else if n = pmSelected pmu.pmselr ∧ n < h.total then pmu.pmxevcntr else h.pmevcntr n := by
  simp only [pmuRestoreState, mem_pmevCounters hnum, PmuRegs.writePmxevtyper_rest,
    PmuRegs.writePmxevcntr_pmevcntr]

theorem pmuRestoreState_pmevtyper (hnum : numCnts ≤ 31) (n : ℕ) :
    (pmuRestoreState pmu h numCnts).pmevtyper n =
      if n < numCnts then pmu.pmevtyper n
      else if n = pmSelected pmu.pmselr ∧ n ≠ 31 ∧ n < h.total then pmu.pmxevtyper
      else h.pmevtyper n := by
  simp only [pmuRestoreState, mem_pmevCounters hnum, PmuRegs.writePmxevtyper_pmevtyper,
    PmuRegs.writePmxevcntr_rest]

/-- The monitors as their owner sees them, with the first `numCnts` counters. -/
structure PmuView where
  pmccfiltr : Word
  pmccntr : Word
  pmcnten : BitVec 33
  pminten : BitVec 33
  pmovs : BitVec 33
  pmselr : Word
  pmuserenr : Word
  pmevcntr : ℕ → Word
  pmevtyper : ℕ → Word

def PmuRegs.view (h : PmuRegs) (numCnts : ℕ) : PmuView where
  pmccfiltr := h.pmccfiltr
  pmccntr := h.pmccntr
  pmcnten := h.pmcnten
  pminten := h.pminten
  pmovs := h.pmovs
  pmselr := h.pmselr
  pmuserenr := h.pmuserenr
  pmevcntr n := if n < numCnts then h.pmevcntr n else 0#64
  pmevtyper n := if n < numCnts then h.pmevtyper n else 0#64

def PmuState.view (pmu : PmuState) (numCnts : ℕ) : PmuView where
  pmccfiltr := pmu.pmccfiltr
  pmccntr := pmu.pmccntr
  pmcnten := pmu.pmcntenset.setWidth 33
  pminten := pmu.pmintenset.setWidth 33
  pmovs := pmu.pmovsset.setWidth 33
  pmselr := pmu.pmselr
  pmuserenr := pmu.pmuserenr
  pmevcntr n := if n < numCnts then pmu.pmevcntr n else 0#64
  pmevtyper n := if n < numCnts then pmu.pmevtyper n else 0#64

/-- Both registers of a pair were read, and the selected filter is that of its counter. -/
structure PmuState.Paired (pmu : PmuState) : Prop where
  pmcnten : pmu.pmcntenclr = pmu.pmcntenset
  pminten : pmu.pmintenclr = pmu.pmintenset
  pmovs : pmu.pmovsclr = pmu.pmovsset
  filter : pmSelected pmu.pmselr = 31 → pmu.pmxevtyper = pmu.pmccfiltr

theorem pmuSaveState_paired : (pmuSaveState h pmu numCnts).Paired :=
  ⟨rfl, rfl, rfl, fun h31 => if_pos h31⟩

theorem pmuSaveState_view (hnum : numCnts ≤ 31) :
    (pmuSaveState h pmu numCnts).view numCnts = h.view numCnts := by
  simp only [PmuState.view, PmuRegs.view, pmuSaveState, mem_pmevCounters hnum,
    BitVec.setWidth_setWidth_of_le _ (show 33 ≤ 64 by omega), BitVec.setWidth_eq]
  congr 1 <;>
  · funext n
    split_ifs <;> rfl

theorem pmuRestoreState_view (hp : pmu.Paired) (hnum : numCnts ≤ 31) :
    (pmuRestoreState pmu h numCnts).view numCnts = pmu.view numCnts := by
  have hcntr := @pmuRestoreState_pmevcntr h pmu numCnts hnum
  have htyper := @pmuRestoreState_pmevtyper h pmu numCnts hnum
  obtain ⟨cntr, typer, hrest⟩ := pmuRestoreState_rest pmu h numCnts
  have hfilter : (if pmSelected pmu.pmselr = 31 then pmu.pmxevtyper else pmu.pmccfiltr) =
      pmu.pmccfiltr := by
    split_ifs with h31
    · exact hp.filter h31
    · rfl
  rw [hrest] at hcntr htyper ⊢
  simp only [PmuState.view, PmuRegs.view, hp.pmcnten, hp.pminten, hp.pmovs, setAndClear_same,
    hfilter] at hcntr htyper ⊢
  congr 1
  · funext n
    by_cases hn : n < numCnts
    · rw [if_pos hn, if_pos hn, hcntr n, if_pos hn]
    · rw [if_neg hn, if_neg hn]
  · funext n
    by_cases hn : n < numCnts
    · rw [if_pos hn, if_pos hn, htyper n, if_pos hn]
    · rw [if_neg hn, if_neg hn]

end RmmCaec
