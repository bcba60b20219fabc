import RmmCaec.Tables

/-!
# Virtual interrupts

The host passes the list registers of a REC and a few bits of the control register with
every entry. They are checked against what the interrupt controller implements, which
`gic_get_virt_features` reads once, and then copied to the REC.
-/
namespace RmmCaec

open Outcome

/-- `MASK` of a field. -/
def fieldMask (shift width : ℕ) : Word := (~~~0#64 >>> (64 - width)) <<< shift

/-- `EXTRACT` of a field. -/
def fieldOf (shift width : ℕ) (reg : Word) : Word := (reg &&& fieldMask shift width) >>> shift

theorem getLsbD_fieldMask {shift width : ℕ} (h : shift + width ≤ 64) (k : ℕ) :
    (fieldMask shift width).getLsbD k = decide (shift ≤ k ∧ k < shift + width) := by
  simp only [fieldMask, BitVec.getLsbD_shiftLeft, BitVec.getLsbD_ushiftRight, BitVec.getLsbD_not,
    BitVec.getLsbD_zero, Bool.not_false, Bool.and_true]
  rw [Bool.eq_iff_iff]
  simp only [Bool.and_eq_true, Bool.not_eq_true', decide_eq_true_eq, decide_eq_false_iff_not]
  omega

theorem getLsbD_fieldOf {shift width : ℕ} (h : shift + width ≤ 64) (reg : Word) (k : ℕ) :
    (fieldOf shift width reg).getLsbD k = (decide (k < width) && reg.getLsbD (shift + k)) := by
  simp only [fieldOf, BitVec.getLsbD_ushiftRight, BitVec.getLsbD_and, getLsbD_fieldMask h]
  rw [Bool.and_comm]
  congr 1
  rw [decide_eq_decide]
  omega

theorem fieldOf_toNat {shift width : ℕ} (h : shift + width ≤ 64) (reg : Word) :
    (fieldOf shift width reg).toNat = reg.toNat / 2 ^ shift % 2 ^ width := by
  refine Nat.eq_of_testBit_eq fun k => ?_
  rw [Nat.testBit_mod_two_pow, ← Nat.shiftRight_eq_div_pow, Nat.testBit_shiftRight]
  exact getLsbD_fieldOf h reg k

/-- The mask of the low bits. -/
theorem getLsbD_lowMask {n : ℕ} (h : n < 64) (k : ℕ) :
    ((1#64 <<< n) - 1#64).getLsbD k = decide (k < n) := by
  have hlt : 2 ^ n < 2 ^ 64 := Nat.pow_lt_pow_right (by omega) h
  have hone : (1#64 <<< n).toNat = 2 ^ n := by
    rw [BitVec.toNat_shiftLeft, show (1#64).toNat = 1 from rfl, Nat.one_shiftLeft,
      Nat.mod_eq_of_lt hlt]
  have hpos : 0 < 2 ^ n := Nat.two_pow_pos n
  have hval : ((1#64 <<< n) - 1#64).toNat = 2 ^ n - 1 := by
    rw [BitVec.toNat_sub_of_le (by rw [BitVec.le_def, hone]; exact hpos), hone]
    rfl
  rw [← BitVec.testBit_toNat, hval, Nat.testBit_two_pow_sub_one]

/-- Two words have no bit in common. -/
theorem and_eq_zero_iff {w : ℕ} (a b : BitVec w) :
    a &&& b = 0#w ↔ ∀ k, a.getLsbD k = true → b.getLsbD k = false := by
  constructor
  · intro h k ha
    have := congrArg (BitVec.getLsbD · k) h
    simpa [ha] using this
  · intro h
    refine BitVec.eq_of_getLsbD_eq fun k _ => ?_
    cases ha : a.getLsbD k with
    | false => simp [ha]
    | true => simp [ha, h k ha]

theorem getLsbD_oneBit {n : ℕ} (h : n < 64) (k : ℕ) :
    (1#64 <<< n).getLsbD k = decide (k = n) := by
  rw [BitVec.getLsbD_shiftLeft, BitVec.getLsbD_one, Bool.eq_iff_iff]
  simp only [Bool.and_eq_true, Bool.not_eq_true', decide_eq_true_eq, decide_eq_false_iff_not]
  omega

theorem and_oneBit_eq_zero {n : ℕ} (h : n < 64) (w : Word) :
    w &&& (1#64 <<< n) = 0#64 ↔ w.getLsbD n = false := by
  rw [BitVec.and_comm, and_eq_zero_iff]
  simp only [getLsbD_oneBit h, decide_eq_true_eq, forall_eq]

structure GicVirtFeature where
  nrLrs : ℕ
  nrAprs : ℕ
  priRes0Mask : Word
  maxVintid : Word
  extRange : Bool
  deriving DecidableEq, Repr

def ichMaxLrs : ℕ := 16
def ichLrPriorityWidth : ℕ := 8
def iccCtlrEl1ExtRangeBit : Word := 1#64 <<< 19

/-- The features that the values of ICH_VTR_EL2 and ICC_CTLR_EL1 stand for. -/
def gicGetVirtFeatures (vtr ctlr : Word) : Rmm GicVirtFeature := do
  let nrLrs := (fieldOf 0 5 vtr).toNat
  assertThat (decide (nrLrs < ichMaxLrs)) .outOfBounds
  let nrPreBits := (fieldOf 26 3 vtr + 1#64).toNat
  assertThat (decide (5 ≤ nrPreBits)) .outOfBounds
  let maxVintid := if fieldOf 23 3 vtr = 0#64 then (1#64 <<< 16) - 1#64 else (1#64 <<< 24) - 1#64
  let nrPriBits := (fieldOf 29 3 vtr + 1#64).toNat
  return {
    nrLrs := nrLrs
    nrAprs := ((1#64 <<< (nrPreBits - 5)) - 1#64).toNat
    priRes0Mask := (1#64 <<< (ichLrPriorityWidth - nrPriBits)) - 1#64
    maxVintid := maxVintid
    extRange := ctlr &&& iccCtlrEl1ExtRangeBit != 0#64 }

def ichHcrEl2NsMask : Word := 0x40FE#64
def ichLrHwBit : Word := 1#64 <<< 61
def ichLrEoiBit : Word := 1#64 <<< 41
def ichLrPintidMask : Word := fieldMask 32 13
def ichLrStateMask : Word := fieldMask 62 2
def ichLrStateInvalid : Word := 0#64

def lrVintid (lr : Word) : Word := fieldOf 0 32 lr
def lrPriority (lr : Word) : Word := fieldOf 48 8 lr
def lrInvalid (lr : Word) : Bool := lr &&& ichLrStateMask == ichLrStateInvalid

def maxSpiId : Word := 1019#64
def minEppiId : Word := 1056#64
def maxEppiId : Word := 1119#64
def minEspiId : Word := 4096#64
def maxEspiId : Word := 5119#64
def minLpiId : Word := 8192#64

/-- The interrupt registers of `rmi_rec_enter`. -/
structure GicEnter where
  gicv3Hcr : Word
  gicv3Lrs : ℕ → Word

structure GicCpuState where
  ichAp0rEl2 : ℕ → Word
  ichAp1rEl2 : ℕ → Word
  ichVmcrEl2 : Word
  ichHcrEl2 : Word
  ichLrEl2 : ℕ → Word
  ichMisrEl2 : Word

def isValidVintid (f : GicVirtFeature) (intid : Word) : Bool :=
  if intid ≤ maxSpiId ∨ (minLpiId ≤ intid ∧ intid ≤ f.maxVintid) then true
  else if f.extRange then
    decide ((minEppiId ≤ intid ∧ intid ≤ maxEppiId) ∨
      (minEspiId ≤ intid ∧ intid ≤ maxEspiId))
  else false

/-- The checks of one list register that is not invalid. -/
def lrAllowed (f : GicVirtFeature) (lr : Word) : Bool :=
  !(lr &&& ichLrHwBit != 0#64 || lrPriority lr &&& f.priRes0Mask != 0#64 ||
    lr &&& ichLrPintidMask &&& ~~~ichLrEoiBit != 0#64 || !isValidVintid f (lrVintid lr))

def gicValidateState (f : GicVirtFeature) (e : GicEnter) : Bool :=
  if e.gicv3Hcr &&& ~~~ichHcrEl2NsMask ≠ 0#64 then false
  else
    (List.range (f.nrLrs + 1)).all fun i =>
      let lr := e.gicv3Lrs i
      lrInvalid lr || (lrAllowed f lr &&
        (List.range' (i + 1) (f.nrLrs - i)).all fun j =>
          lrInvalid (e.gicv3Lrs j) || lrVintid lr != lrVintid (e.gicv3Lrs j))

def gicCopyStateFromRecEntry (f : GicVirtFeature) (gicstate : GicCpuState) (e : GicEnter) :
    GicCpuState :=
  let lrs := (List.range (f.nrLrs + 1)).foldl (fun lrs i => Function.update lrs i (e.gicv3Lrs i))
    gicstate.ichLrEl2
  let hcr := gicstate.ichHcrEl2 &&& ~~~ichHcrEl2NsMask
  { gicstate with ichLrEl2 := lrs, ichHcrEl2 := hcr ||| (e.gicv3Hcr &&& ichHcrEl2NsMask) }

/-- A virtual interface of the interrupt controller: its list registers, the priority bits
and the bits of an interrupt number that it implements, and whether it has the extended
ranges. -/
structure VirtualGic where
  lrs : ℕ
  priorityBits : ℕ
  intidBits : ℕ
  extended : Bool

/-- The interface that the two registers describe. -/
def virtualGic (vtr ctlr : Word) : VirtualGic where
  lrs := vtr.toNat % 2 ^ 5 + 1
  priorityBits := vtr.toNat / 2 ^ 29 % 2 ^ 3 + 1
  intidBits := if vtr.toNat / 2 ^ 23 % 2 ^ 3 = 0 then 16 else 24
  extended := ctlr.getLsbD 19

/-- The bits of the control register that the host sets and clears. -/
def HostBit (k : ℕ) : Prop := (1 ≤ k ∧ k ≤ 7) ∨ k = 14

instance (k : ℕ) : Decidable (HostBit k) := inferInstanceAs (Decidable (_ ∨ _))

/-- The state of a list register is not invalid. -/
def Live (lr : Word) : Prop := lr.getLsbD 62 = true ∨ lr.getLsbD 63 = true

/-- The virtual interrupt that a list register is about. -/
def vintidOf (lr : Word) : ℕ := lr.toNat % 2 ^ 32

/-- The numbers of SGIs, PPIs, SPIs and LPIs, and of the extended PPIs and SPIs. -/
def VintidPermitted (g : VirtualGic) (v : ℕ) : Prop :=
  v ≤ 1019 ∨ (8192 ≤ v ∧ v < 2 ^ g.intidBits) ∨
  (g.extended = true ∧ ((1056 ≤ v ∧ v ≤ 1119) ∨ (4096 ≤ v ∧ v ≤ 5119)))

structure LrPermitted (g : VirtualGic) (lr : Word) : Prop where
  software : lr.getLsbD 61 = false
  priority : ∀ k < 8 - g.priorityBits, lr.getLsbD (48 + k) = false
  pintid : ∀ k, 32 ≤ k → k < 45 → k ≠ 41 → lr.getLsbD k = false
  vintid : VintidPermitted g (vintidOf lr)

structure GicPermitted (g : VirtualGic) (e : GicEnter) : Prop where
  hcr : ∀ k, e.gicv3Hcr.getLsbD k = true → HostBit k
  lrs : ∀ i < g.lrs, Live (e.gicv3Lrs i) → LrPermitted g (e.gicv3Lrs i)
  distinct : ∀ i < g.lrs, ∀ j < g.lrs, i ≠ j → Live (e.gicv3Lrs i) →
    Live (e.gicv3Lrs j) →
    vintidOf (e.gicv3Lrs i) ≠ vintidOf (e.gicv3Lrs j)

/-- The features that were read are those of the interface. -/
structure Describes (f : GicVirtFeature) (g : VirtualGic) : Prop where
  lrs : f.nrLrs + 1 = g.lrs
  priority : ∀ k, f.priRes0Mask.getLsbD k = decide (k < 8 - g.priorityBits)
  intid : f.maxVintid.toNat + 1 = 2 ^ g.intidBits
  extended : f.extRange = g.extended

section
variable {f : GicVirtFeature} {g : VirtualGic} {vtr ctlr lr : Word} {e : GicEnter}

theorem describes_of_read (h : gicGetVirtFeatures vtr ctlr = .ok f) :
    Describes f (virtualGic vtr ctlr) := by
  have hsat : Sat (gicGetVirtFeatures vtr ctlr) (fun f => Describes f (virtualGic vtr ctlr))
      fun _ => True := by
    unfold gicGetVirtFeatures
    refine assertThat_sat (fun _ => trivial) fun _ => assertThat_sat (fun _ => trivial) fun _ => ?_
    refine Sat.pure ⟨?_, fun k => ?_, ?_, ?_⟩
    · simp [fieldOf_toNat, virtualGic]
    · have hbits : (fieldOf 29 3 vtr + 1#64).toNat = (virtualGic vtr ctlr).priorityBits := by
        rw [BitVec.toNat_add, fieldOf_toNat (by omega)]
        simp only [virtualGic, BitVec.toNat_ofNat]
        omega
      dsimp only
      rw [hbits, ichLrPriorityWidth, getLsbD_lowMask (by omega)]
    · have hzero : fieldOf 23 3 vtr = 0#64 ↔ vtr.toNat / 2 ^ 23 % 2 ^ 3 = 0 := by
        rw [← BitVec.toNat_inj, fieldOf_toNat (by omega)]
        rfl
      simp only [virtualGic, hzero]
      split_ifs <;> rfl
    · dsimp only [virtualGic]
      rw [Bool.eq_iff_iff, bne_iff_ne, ne_eq, iccCtlrEl1ExtRangeBit, and_oneBit_eq_zero (by omega),
        Bool.not_eq_false]
  exact hsat.of_ok h

theorem nsMask_bit (k : ℕ) : ichHcrEl2NsMask.getLsbD k = decide (HostBit k) := by
  by_cases hk : k < 64
  · have hall : ∀ k : Fin 64, ichHcrEl2NsMask.getLsbD k = decide (HostBit k) := by decide
    exact hall ⟨k, hk⟩
  · rw [BitVec.getLsbD_of_ge _ _ (by omega)]
    exact (decide_eq_false (by unfold HostBit; omega)).symm

theorem lrInvalid_iff : lrInvalid lr = false ↔ Live lr := by
  rw [lrInvalid, beq_eq_false_iff_ne, ne_eq, ichLrStateInvalid, BitVec.and_comm, and_eq_zero_iff,
    ichLrStateMask]
  simp only [getLsbD_fieldMask (show 62 + 2 ≤ 64 by omega), decide_eq_true_eq, not_forall,
    Bool.not_eq_false]
  constructor
  · rintro ⟨k, hk, hbit⟩
    obtain rfl | rfl : k = 62 ∨ k = 63 := by omega
    · exact .inl hbit
    · exact .inr hbit
  · rintro (h | h)
    · exact ⟨62, by omega, h⟩
    · exact ⟨63, by omega, h⟩

theorem lrVintid_toNat (lr : Word) : (lrVintid lr).toNat = vintidOf lr := by
  simp [lrVintid, fieldOf_toNat, vintidOf]

theorem isValidVintid_iff (h : Describes f g) (v : Word) :
    isValidVintid f v = true ↔ VintidPermitted g v.toNat := by
  have := h.intid
  unfold isValidVintid VintidPermitted
  rw [h.extended]
  simp only [maxSpiId, minLpiId, minEppiId, maxEppiId, minEspiId, maxEspiId, BitVec.le_def,
    BitVec.toNat_ofNat, Nat.reducePow, Nat.reduceMod]
  cases g.extended <;> simp <;> omega

theorem lrAllowed_iff (h : Describes f g) : lrAllowed f lr = true ↔ LrPermitted g lr := by
  have hpri : lrPriority lr &&& f.priRes0Mask = 0#64 ↔
      ∀ k < 8 - g.priorityBits, lr.getLsbD (48 + k) = false := by
    rw [BitVec.and_comm, and_eq_zero_iff]
    simp only [h.priority, decide_eq_true_eq, lrPriority,
      getLsbD_fieldOf (show 48 + 8 ≤ 64 by omega)]
    refine forall₂_congr fun k hk => ?_
    rw [decide_eq_true (by omega), Bool.true_and]
  have hpint : lr &&& ichLrPintidMask &&& ~~~ichLrEoiBit = 0#64 ↔
      ∀ k, 32 ≤ k → k < 45 → k ≠ 41 → lr.getLsbD k = false := by
    rw [BitVec.and_assoc, BitVec.and_comm, and_eq_zero_iff]
    simp only [BitVec.getLsbD_and, BitVec.getLsbD_not, ichLrPintidMask, ichLrEoiBit,
      getLsbD_fieldMask (show 32 + 13 ≤ 64 by omega), getLsbD_oneBit (show 41 < 64 by omega),
      Bool.and_eq_true, Bool.not_eq_true', decide_eq_true_eq, decide_eq_false_iff_not]
    constructor
    · intro h k h32 h45 h41
      exact h k ⟨⟨h32, h45⟩, by omega, h41⟩
    · rintro h k ⟨⟨h32, h45⟩, -, h41⟩
      exact h k h32 h45 h41
  simp only [lrAllowed, Bool.not_eq_true', Bool.or_eq_false_iff, bne_eq_false_iff_eq,
    Bool.not_eq_false', hpri, hpint, isValidVintid_iff h, lrVintid_toNat, ichLrHwBit,
    and_oneBit_eq_zero (show 61 < 64 by omega)]
  constructor
  · rintro ⟨⟨⟨hw, hp⟩, hpi⟩, hv⟩
    exact ⟨hw, hp, hpi, hv⟩
  · rintro ⟨hw, hp, hpi, hv⟩
    exact ⟨⟨⟨hw, hp⟩, hpi⟩, hv⟩

theorem nsMask_clear_iff (w : Word) :
    w &&& ~~~ichHcrEl2NsMask = 0#64 ↔ ∀ k, w.getLsbD k = true → HostBit k := by
  rw [and_eq_zero_iff]
  refine forall₂_congr fun k hk => ?_
  have hlt : k < 64 := by
    by_contra hge
    rw [BitVec.getLsbD_of_ge _ _ (by omega)] at hk
    cases hk
  rw [BitVec.getLsbD_not, nsMask_bit, decide_eq_true hlt, Bool.true_and, Bool.not_eq_false',
    decide_eq_true_eq]

theorem gicValidateState_permitted (h : Describes f g) :
    gicValidateState f e = true ↔ GicPermitted g e := by
  have hlrs := h.lrs
  unfold gicValidateState
  by_cases hhcr : e.gicv3Hcr &&& ~~~ichHcrEl2NsMask = 0#64
  · rw [if_neg (not_not.mpr hhcr)]
    rw [nsMask_clear_iff] at hhcr
    have hlive : ∀ i, lrInvalid (e.gicv3Lrs i) = true ↔ ¬ Live (e.gicv3Lrs i) := by
      intro i
      rw [← lrInvalid_iff, Bool.not_eq_false]
    have hsame : ∀ i j, lrVintid (e.gicv3Lrs i) = lrVintid (e.gicv3Lrs j) ↔
        vintidOf (e.gicv3Lrs i) = vintidOf (e.gicv3Lrs j) := by
      intro i j
      rw [← BitVec.toNat_inj, lrVintid_toNat, lrVintid_toNat]
    simp only [List.all_eq_true, List.mem_range, List.mem_range'_1, Bool.or_eq_true, hlive,
      Bool.and_eq_true, lrAllowed_iff h, bne_iff_ne, ne_eq, hsame]
    constructor
    · intro hall
      have hbelow : ∀ i j, i < j → j < g.lrs → Live (e.gicv3Lrs i) → Live (e.gicv3Lrs j) →
          vintidOf (e.gicv3Lrs i) ≠ vintidOf (e.gicv3Lrs j) := by
        intro i j hij hj hi hj'
        obtain hdead | ⟨-, hnext⟩ := hall i (by omega)
        · exact absurd hi hdead
        · exact (hnext j (by omega)).resolve_left (not_not.mpr hj')
      refine ⟨hhcr, fun i hi hl => ?_, fun i hi j hj hij hli hlj => ?_⟩
      · exact ((hall i (by omega)).resolve_left (not_not.mpr hl)).1
      · obtain hlt | hlt := Nat.lt_or_gt_of_ne hij
        · exact hbelow i j hlt hj hli hlj
        · exact (hbelow j i hlt hi hlj hli).symm
    · intro hperm i hi
      by_cases hl : Live (e.gicv3Lrs i)
      · refine .inr ⟨hperm.lrs i (by omega) hl, fun j hj => ?_⟩
        by_cases hlj : Live (e.gicv3Lrs j)
        · exact .inr (hperm.distinct i (by omega) j (by omega) (by omega) hl hlj)
        · exact .inl hlj
      · exact .inl hl
  · rw [if_pos hhcr]
    exact iff_of_false (by simp) fun hperm => hhcr ((nsMask_clear_iff _).mpr hperm.hcr)

end

theorem copyLrs_apply (lrs new : ℕ → Word) (n i : ℕ) :
    (List.range n).foldl (fun lrs i => Function.update lrs i (new i)) lrs i =
      if i < n then new i else lrs i := by
  induction n with
  | zero => rfl
  | succ n ih =>
    rw [List.range_succ, List.foldl_append, List.foldl_cons, List.foldl_nil]
    by_cases hi : i = n
    · subst hi
      simp
    · rw [Function.update_of_ne hi, ih]
      exact if_congr (by omega) rfl rfl

theorem copyHcr_bit (hcr new : Word) (k : ℕ) :
    ((hcr &&& ~~~ichHcrEl2NsMask) ||| (new &&& ichHcrEl2NsMask)).getLsbD k =
      if HostBit k then new.getLsbD k else hcr.getLsbD k := by
  simp only [BitVec.getLsbD_or, BitVec.getLsbD_and, BitVec.getLsbD_not, nsMask_bit]
  by_cases hk : k < 64
  · by_cases hb : HostBit k <;> simp [hb, hk]
  · simp [BitVec.getLsbD_of_ge _ _ (Nat.le_of_not_lt hk)]

/-- The checks of the host's registers, and what the REC gets of them. -/
theorem gicValidateState_iff {vtr ctlr : Word} {f : GicVirtFeature}
    (h : gicGetVirtFeatures vtr ctlr = .ok f) (e : GicEnter) (gicstate : GicCpuState) :
    (gicValidateState f e = true ↔ GicPermitted (virtualGic vtr ctlr) e) ∧
    (∀ i, (gicCopyStateFromRecEntry f gicstate e).ichLrEl2 i =
      if i < (virtualGic vtr ctlr).lrs then e.gicv3Lrs i else gicstate.ichLrEl2 i) ∧
    (∀ k, (gicCopyStateFromRecEntry f gicstate e).ichHcrEl2.getLsbD k =
      if HostBit k then e.gicv3Hcr.getLsbD k else gicstate.ichHcrEl2.getLsbD k) ∧
    gicCopyStateFromRecEntry f gicstate e =
      { gicstate with
        ichLrEl2 := (gicCopyStateFromRecEntry f gicstate e).ichLrEl2
        ichHcrEl2 := (gicCopyStateFromRecEntry f gicstate e).ichHcrEl2 } := by
  have hdesc := describes_of_read h
  refine ⟨gicValidateState_permitted hdesc, fun i => ?_, copyHcr_bit _ _, rfl⟩
  rw [← hdesc.lrs]
  exact copyLrs_apply _ _ _ _

/-- The list registers of a host: interrupt 32 pending, interrupt `second` active, and an entry of
interrupt 32 that is neither. -/
def demoLrs (second : Word) (i : ℕ) : Word :=
  if i = 0 then 0x40F8000000000020#64
  else if i = 1 then 0x80F0000000000000#64 ||| second
  else if i = 2 then 0x00F8000000000020#64
  else 0#64

/-- Four list registers, five priority bits and interrupt numbers of 16 bits. Two live entries of
different interrupts are accepted next to a dead one, and copied; two of one interrupt are not. -/
theorem gicValidateState_iff_spi :
    GicPermitted (virtualGic 0x90000003#64 0#64) ⟨2#64, demoLrs 33#64⟩ ∧
      ¬ GicPermitted (virtualGic 0x90000003#64 0#64) ⟨2#64, demoLrs 32#64⟩ ∧
      (gicCopyStateFromRecEntry ⟨3, 0, 7#64, 0xFFFF#64, false⟩
        ⟨fun _ => 0#64, fun _ => 0#64, 0#64, 0#64, fun _ => 0#64, 0#64⟩
        ⟨2#64, demoLrs 33#64⟩).ichLrEl2 1 = 0x80F0000000000021#64 := by
  have hspi := fun second => @gicValidateState_iff 0x90000003#64 0#64
    ⟨3, 0, 7#64, 0xFFFF#64, false⟩
    rfl ⟨2#64, demoLrs second⟩ ⟨fun _ => 0#64, fun _ => 0#64, 0#64, 0#64,
      fun _ => 0#64, 0#64⟩
  have hrefused : gicValidateState ⟨3, 0, 7#64, 0xFFFF#64, false⟩
      ⟨2#64, demoLrs 32#64⟩ = false := by
    decide
  refine ⟨(hspi 33#64).1.mp (by decide), fun hperm => ?_, ((hspi 33#64).2.1 1).trans rfl⟩
  rw [(hspi 32#64).1.mpr hperm] at hrefused
  cases hrefused

end RmmCaec
