import RmmCaec.DescriptorBits
import RmmCaec.Outcome

/-!
# Descriptors of stage 1

The translation tables of the monitor itself. A descriptor has an output address and
attributes, which do not overlap: with FEAT_LPA2 the two top bits of the address are where
the shareability is without it.
-/
namespace RmmCaec

open Outcome

/-- What the build and the processor decide about stage 1. -/
structure XlatArch where
  opencca : Bool
  lpa2 : Bool
  paWidth : ℕ
  /-- FEAT_LPA2 is reported absent in a build with `ENABLE_OPENCCA`. -/
  opencca_lpa2 : opencca = true → lpa2 = false
  paWidth_le : paWidth ≤ 52

/-- A processor without FEAT_LPA2. -/
def XlatArch.plain : XlatArch := ⟨false, false, 48, by simp, pa48_le_52⟩

/-- A processor with 52 bit physical addresses that has them for larger pages only. -/
def XlatArch.wide : XlatArch := ⟨false, false, 52, by simp, by decide⟩

/-- The assertions and panics of the translation library. -/
inductive XlatFault
  | noFreeTable
  | memoryType
  | misaligned
  | level
  | tableEntries
  | descriptor
  deriving DecidableEq, Repr

abbrev Xlat := Except XlatFault

def xlatAssert (b : Bool) (f : XlatFault) : Xlat Unit := if b then .ok () else .error f

def pageSizeMask : Word := 0xfff#64

def isPageAligned (addr : Word) : Bool := addr &&& pageSizeMask == 0#64

def xlatTableLevelMax : ℤ := 3

def xlatTableLevelMin (arch : XlatArch) : ℤ := if arch.opencca then 0 else -1

def xlatTableEntries : ℕ := 512

def xlatLm1TableEntries : ℕ := 16

def xlatGetTableEntries (arch : XlatArch) (level : ℤ) : ℕ :=
  if level = xlatTableLevelMin arch then xlatLm1TableEntries else xlatTableEntries

def xlatAddrShift (level : ℤ) : ℕ := 12 + (xlatTableLevelMax - level).toNat * 9

def xlatBlockSize (level : ℤ) : Word := 1#64 <<< xlatAddrShift level

def xlatBlockMask (level : ℤ) : Word := xlatBlockSize level - 1#64

def xlatTableIdx (va : Word) (level : ℤ) : ℕ :=
    ((va >>> xlatAddrShift level) &&& 0x1ff#64).toNat

/-- The first level that allows block descriptors. -/
def xlatMinBlockLvl (arch : XlatArch) : ℤ :=
  if arch.lpa2 then xlatTableLevelMin arch + 1 else xlatTableLevelMin arch + 2

/-- `GET_XLAT_TABLE_LEVEL_BASE`: the level at which the walk of a VA space starts. -/
def getXlatTableLevelBase (arch : XlatArch) (vaSize : Word) : ℤ :=
  if arch.opencca then
    if vaSize > 1#64 <<< 39 then 0 else if vaSize > 1#64 <<< 30 then 1 else 2
  else if vaSize > 1#64 <<< 48 then -1
  else if vaSize > 1#64 <<< 39 then 0
  else if vaSize > 1#64 <<< 30 then 1
  else if vaSize > 1#64 <<< 21 then 2 else 3

def xlatArchGetMaxSupportedPa (arch : XlatArch) : Word := (1#64 <<< arch.paWidth) - 1#64

def invalidDesc : Word := 0#64
def blockDesc : Word := 1#64
def tableDesc : Word := 3#64
def pageDesc : Word := 3#64
def descMask : Word := 3#64

def transientDesc : Word := 1#64 <<< 55

def upperAttrs (x : Word) : Word := (x <<< 50) &&& bitMaskUll 54 50
def lowerAttrs (x : Word) : Word := (x <<< 2) &&& bitMaskUll 11 2

def uxn : Word := 1#64 <<< 4
def pxn : Word := 1#64 <<< 3
def gp : Word := 1#64 <<< 0

def lowerNs : Word := 1#64 <<< 3
def accessFlag : Word := 1#64 <<< 8
def apRo : Word := 1#64 <<< 5
def apRw : Word := 0#64 <<< 5
def apAccessUnprivileged : Word := 1#64 <<< 4
def attrDeviceIndex : Word := 1#64
def attrIwbwaOwbwaNtrIndex : Word := 0#64
def ngHint : Word := 1#64 <<< 9
def lowerAttrShIsh : Word := 3#64 <<< 8

def mtType (attr : Word) : Word := attr &&& 0xf#64
def mtDevice : Word := 0#64
def mtMemory : Word := 2#64
def mtTransient : Word := 3#64
def mtRw : Word := 1#64 <<< 4
def mtExecuteNever : Word := 1#64 <<< 5
def mtNg : Word := 1#64 <<< 7
def mtPasMask : Word := 1#64 <<< 8
def mtApUnpriv : Word := 1#64 <<< 9
def mtExecUnpriv : Word := 1#64 <<< 10

/-- The memory types that `xlat_desc` knows. -/
def MtSupported (attr : Word) : Prop :=
  mtType attr = mtDevice ∨ mtType attr = mtMemory ∨ mtType attr = mtTransient

instance (attr : Word) : Decidable (MtSupported attr) := by
  unfold MtSupported
  infer_instance

def setOaToTte (arch : XlatArch) (outputAddr : Word) : Word :=
  if arch.lpa2 then
    (outputAddr &&& bitMaskUll 49 12) ||| (((outputAddr &&& bitMaskUll 51 50) >>> 50) <<< 8)
  else outputAddr &&& bitMaskUll 47 12

def xlatGetOaFromTte (arch : XlatArch) (tte : Word) : Word :=
  if arch.lpa2 then
    (tte &&& bitMaskUll 49 12) ||| (((tte &&& bitMaskUll 9 8) >>> 8) <<< 50)
  else tte &&& bitMaskUll 47 12

def xlatArchGetPas (arch : XlatArch) (attr : Word) : Word :=
  if arch.opencca then lowerAttrs lowerNs
  else if attr &&& mtPasMask = 0#64 then 0#64 else lowerAttrs lowerNs

/-- `xlat_desc`: a block or page descriptor. -/
def xlatDesc (arch : XlatArch) (attr addrPa : Word) (level : ℤ) : Xlat Word :=
  if mtType attr = mtTransient then .ok transientDesc
  else do
    xlatAssert (addrPa &&& xlatBlockMask level == 0#64) .misaligned
    let desc := setOaToTte arch addrPa
    let desc := desc ||| if level = xlatTableLevelMax then pageDesc else blockDesc
    let desc := desc ||| lowerAttrs accessFlag
    let desc := desc ||| xlatArchGetPas arch attr
    let desc := desc ||| if attr &&& mtRw ≠ 0#64 then lowerAttrs apRw else lowerAttrs apRo
    let desc := if arch.opencca ∨ attr &&& mtNg ≠ 0#64 then desc ||| lowerAttrs ngHint else desc
    let desc := if attr &&& mtExecUnpriv = 0#64 then desc ||| upperAttrs uxn else desc
    let desc := if attr &&& mtApUnpriv ≠ 0#64 then desc ||| lowerAttrs apAccessUnprivileged
      else desc
    if mtType attr = mtDevice then
      return desc ||| lowerAttrs attrDeviceIndex ||| upperAttrs pxn
    else
      xlatAssert (mtType attr == mtMemory) .memoryType
      let desc := if attr &&& mtRw ≠ 0#64 ∨ attr &&& mtExecuteNever ≠ 0#64 then
          desc ||| upperAttrs pxn else desc ||| upperAttrs gp
      let desc := desc ||| lowerAttrs attrIwbwaOwbwaNtrIndex
      return if arch.lpa2 then desc else desc ||| lowerAttrShIsh

/-- The bits outside the output address. -/
def XlatAttrBits (lpa2 : Bool) (a : Word) : Prop :=
  ∀ i < 64, a.getLsbD i = true → (i < 12 ∨ 50 ≤ i) ∧ (lpa2 = true → i < 8 ∨ 10 ≤ i)

instance (lpa2 : Bool) (a : Word) : Decidable (XlatAttrBits lpa2 a) := by
  unfold XlatAttrBits
  infer_instance

theorem XlatAttrBits.or {lpa2 : Bool} {a b : Word} (ha : XlatAttrBits lpa2 a)
    (hb : XlatAttrBits lpa2 b) : XlatAttrBits lpa2 (a ||| b) := by
  intro i hi hbit
  rw [BitVec.getLsbD_or, Bool.or_eq_true] at hbit
  obtain h | h := hbit
  · exact ha i hi h
  · exact hb i hi h

theorem XlatAttrBits.ite {lpa2 : Bool} {a b : Word} {c : Prop} [Decidable c]
    (ha : XlatAttrBits lpa2 a) (hb : XlatAttrBits lpa2 b) :
    XlatAttrBits lpa2 (if c then a else b) := by
  split_ifs
  · exact ha
  · exact hb

/-- The output addresses that a descriptor can hold. -/
def xlatOaMask (arch : XlatArch) : Word := bitMaskUll (if arch.lpa2 then 51 else 47) 12

theorem xlatGetOaFromTte_or {arch : XlatArch} {pa a : Word} (ha : XlatAttrBits arch.lpa2 a) :
    xlatGetOaFromTte arch (setOaToTte arch pa ||| a) = pa &&& xlatOaMask arch := by
  apply BitVec.eq_of_getLsbD_eq
  intro i hi
  have ha1 := ha i hi
  have ha2 := ha (i - 42) (by omega)
  have e : 50 ≤ i → i - 42 + 42 = i := by omega
  unfold xlatGetOaFromTte setOaToTte xlatOaMask
  cases hlpa : arch.lpa2
  · simp only [hlpa, Bool.false_eq_true, if_false, BitVec.getLsbD_and, BitVec.getLsbD_or,
      getLsbD_bitMaskUll 47 12 _ (by omega)] at ha1 ⊢
    rw [Bool.eq_iff_iff]
    simp only [Bool.or_eq_true, Bool.and_eq_true, decide_eq_true_eq]
    grind
  · simp only [hlpa, if_true, BitVec.getLsbD_and, BitVec.getLsbD_or, BitVec.getLsbD_shiftLeft,
      BitVec.getLsbD_ushiftRight, getLsbD_bitMaskUll 49 12 _ (by omega),
      getLsbD_bitMaskUll 9 8 _ (by omega), getLsbD_bitMaskUll 51 50 _ (by omega),
      getLsbD_bitMaskUll 51 12 _ (by omega)] at ha1 ha2 ⊢
    rw [Bool.eq_iff_iff]
    simp only [Bool.or_eq_true, Bool.and_eq_true, Bool.not_eq_true', decide_eq_true_eq,
      decide_eq_false_iff_not]
    grind

/-- Everything in a descriptor but its address. -/
def xlatAttrs (arch : XlatArch) (attr : Word) (level : ℤ) : Word :=
  (if level = xlatTableLevelMax then pageDesc else blockDesc) ||| lowerAttrs accessFlag |||
    xlatArchGetPas arch attr |||
    (if attr &&& mtRw ≠ 0#64 then lowerAttrs apRw else lowerAttrs apRo) |||
    (if arch.opencca ∨ attr &&& mtNg ≠ 0#64 then lowerAttrs ngHint else 0#64) |||
    (if attr &&& mtExecUnpriv = 0#64 then upperAttrs uxn else 0#64) |||
    (if attr &&& mtApUnpriv ≠ 0#64 then lowerAttrs apAccessUnprivileged else 0#64) |||
    if mtType attr = mtDevice then lowerAttrs attrDeviceIndex ||| upperAttrs pxn
    else
      (if attr &&& mtRw ≠ 0#64 ∨ attr &&& mtExecuteNever ≠ 0#64 then upperAttrs pxn
        else upperAttrs gp) |||
      lowerAttrs attrIwbwaOwbwaNtrIndex ||| if arch.lpa2 then 0#64 else lowerAttrShIsh

section
variable {arch : XlatArch} {attr pa : Word} {level : ℤ}

theorem xlatAttrs_bits (arch : XlatArch) (attr : Word) (level : ℤ) :
    XlatAttrBits arch.lpa2 (xlatAttrs arch attr level) := by
  have hpas : XlatAttrBits arch.lpa2 (xlatArchGetPas arch attr) := by
    unfold xlatArchGetPas
    refine .ite ?_ (.ite ?_ ?_) <;> cases arch.lpa2 <;> decide
  have hsh : XlatAttrBits arch.lpa2 (if arch.lpa2 then 0#64 else lowerAttrShIsh) := by
    cases arch.lpa2 <;> decide
  unfold xlatAttrs
  refine .or (.or (.or (.or (.or (.or (.or (.ite ?_ ?_) ?_) hpas) (.ite ?_ ?_)) (.ite ?_ ?_))
    (.ite ?_ ?_)) (.ite ?_ ?_)) (.ite (.or ?_ ?_) (.or (.or (.ite ?_ ?_) ?_) hsh)) <;>
    cases arch.lpa2 <;> decide

theorem xlatDesc_transient (h : mtType attr = mtTransient) :
    xlatDesc arch attr pa level = .ok transientDesc := if_pos h

theorem ite_or (c : Prop) [Decidable c] (d x : Word) :
    (if c then d ||| x else d) = d ||| if c then x else 0#64 := by
  split_ifs
  · rfl
  · exact BitVec.or_zero.symm

theorem ite_or_or (c : Prop) [Decidable c] (d x y : Word) :
    (if c then d ||| x else d ||| y) = d ||| if c then x else y := by
  split_ifs <;> rfl

/-- An aligned address and a memory type that is known. -/
theorem xlatDesc_eq (hmt : MtSupported attr) (h : mtType attr ≠ mtTransient)
    (hpa : pa &&& xlatBlockMask level = 0#64) :
    xlatDesc arch attr pa level = .ok (setOaToTte arch pa ||| xlatAttrs arch attr level) := by
  have hshare (d : Word) : (if arch.lpa2 then d else d ||| lowerAttrShIsh) =
      d ||| if arch.lpa2 then 0#64 else lowerAttrShIsh := by
    cases arch.lpa2
    · rfl
    · exact BitVec.or_zero.symm
  unfold xlatDesc xlatAttrs
  rw [if_neg h, hpa]
  simp only [ite_or, ite_or_or, hshare]
  obtain hdev | hmem | htr := hmt
  · simp [xlatAssert, hdev, BitVec.or_assoc, bind, Except.bind, pure, Except.pure]
  · have hne : mtMemory ≠ mtDevice := by decide
    simp [xlatAssert, hmem, hne, BitVec.or_assoc, bind, Except.bind, pure, Except.pure]
  · exact absurd htr h

/-- The descriptor of an address, or the marker of a transient region. -/
def XlatDescOf (arch : XlatArch) (attr pa : Word) (level : ℤ) (desc : Word) : Prop :=
  if mtType attr = mtTransient then desc = transientDesc
  else desc = setOaToTte arch pa ||| xlatAttrs arch attr level

theorem xlatDesc_sat (hpa : pa &&& xlatBlockMask level = 0#64) :
    Sat (xlatDesc arch attr pa level)
      (fun desc => MtSupported attr ∧ XlatDescOf arch attr pa level desc)
      (fun f => f = .memoryType ∧ ¬ MtSupported attr) := by
  unfold XlatDescOf
  by_cases htr : mtType attr = mtTransient
  · rw [xlatDesc_transient htr]
    exact Sat.ok ⟨.inr (.inr htr), (if_pos htr).mpr rfl⟩
  by_cases hmt : MtSupported attr
  · rw [xlatDesc_eq hmt htr hpa]
    exact Sat.ok ⟨hmt, (if_neg htr).mpr rfl⟩
  · have hdev : mtType attr ≠ mtDevice := fun h => hmt (.inl h)
    have hmem : mtType attr ≠ mtMemory := fun h => hmt (.inr (.inl h))
    have herr : xlatDesc arch attr pa level = .error .memoryType := by
      unfold xlatDesc
      rw [if_neg htr, hpa]
      simp [xlatAssert, hdev, hmem, bind, Except.bind]
    rw [herr]
    exact Sat.error ⟨rfl, hmt⟩

theorem setOaToTte_type (arch : XlatArch) (pa : Word) : setOaToTte arch pa &&& descMask = 0#64 := by
  have hmask : descMask = bitMaskUll 1 0 := by decide
  apply BitVec.eq_of_getLsbD_eq
  intro i hi
  unfold setOaToTte
  rw [hmask]
  cases arch.lpa2
  · simp only [Bool.false_eq_true, if_false, BitVec.getLsbD_and,
      getLsbD_bitMaskUll 47 12 _ (by omega),
      getLsbD_bitMaskUll 1 0 _ (by omega), BitVec.getLsbD_zero]
    grind
  · simp only [if_true, BitVec.getLsbD_and, BitVec.getLsbD_or, BitVec.getLsbD_shiftLeft,
      getLsbD_bitMaskUll 49 12 _ (by omega), getLsbD_bitMaskUll 1 0 _ (by omega),
        BitVec.getLsbD_zero]
    grind

/-- The attributes leave the type as it is. -/
theorem xlatAttrs_type (arch : XlatArch) (attr : Word) (level : ℤ) :
    xlatAttrs arch attr level &&& descMask =
      if level = xlatTableLevelMax then pageDesc else blockDesc := by
  have clear : ∀ {c : Prop} [Decidable c] {a b : Word}, a &&& descMask = 0#64 →
      b &&& descMask = 0#64 → (if c then a else b) &&& descMask = 0#64 := by
    intro c _ a b ha hb
    split_ifs
    · exact ha
    · exact hb
  have both : ∀ {a b : Word}, a &&& descMask = 0#64 → b &&& descMask = 0#64 →
      (a ||| b) &&& descMask = 0#64 := by
    intro a b ha hb
    rw [BitVec.and_or_distrib_right, ha, hb]
    rfl
  have htype : (if level = xlatTableLevelMax then pageDesc else blockDesc) &&& descMask =
      if level = xlatTableLevelMax then pageDesc else blockDesc := by
    split_ifs <;> decide
  have hpas : xlatArchGetPas arch attr &&& descMask = 0#64 := by
    unfold xlatArchGetPas
    exact clear (by decide) (clear (by decide) (by decide))
  have hkind : (if mtType attr = mtDevice then lowerAttrs attrDeviceIndex ||| upperAttrs pxn
      else
        (if attr &&& mtRw ≠ 0#64 ∨ attr &&& mtExecuteNever ≠ 0#64 then upperAttrs pxn
          else upperAttrs gp) |||
        lowerAttrs attrIwbwaOwbwaNtrIndex ||| if arch.lpa2 then 0#64 else lowerAttrShIsh) &&&
      descMask = 0#64 := by
    refine clear (by decide) (both (both (clear ?_ ?_) ?_) (clear ?_ ?_)) <;> decide
  unfold xlatAttrs
  simp only [BitVec.and_or_distrib_right] at hkind ⊢
  rw [htype, hpas, hkind]
  split_ifs <;> decide

/-- The type of a descriptor. -/
theorem XlatDescOf.type {desc : Word} (h : XlatDescOf arch attr pa level desc) :
    desc &&& descMask = if mtType attr = mtTransient then invalidDesc
      else if level = xlatTableLevelMax then pageDesc else blockDesc := by
  unfold XlatDescOf at h
  split_ifs at h with htr
  · rw [h, if_pos htr]
    decide
  · rw [h, if_neg htr, BitVec.and_or_distrib_right, setOaToTte_type, xlatAttrs_type,
      BitVec.zero_or]

theorem XlatDescOf.ne_invalid {desc : Word} (h : XlatDescOf arch attr pa level desc) :
    desc ≠ invalidDesc := by
  rintro rfl
  have htype := h.type
  unfold XlatDescOf at h
  split_ifs at h htype with htr hlevel
  · revert h
    decide
  · revert htype
    decide
  · revert htype
    decide

/-- Only a page has the type of a table. -/
theorem XlatDescOf.not_table {desc : Word} (h : XlatDescOf arch attr pa level desc)
    (hlevel : level ≠ xlatTableLevelMax) : desc &&& descMask ≠ tableDesc := by
  rw [h.type, if_neg hlevel]
  split_ifs <;> decide

/-- The address of a descriptor, as far as it can be held. -/
theorem XlatDescOf.oa {desc : Word} (h : XlatDescOf arch attr pa level desc)
    (htr : mtType attr ≠ mtTransient) : xlatGetOaFromTte arch desc = pa &&& xlatOaMask arch := by
  unfold XlatDescOf at h
  rw [if_neg htr] at h
  rw [h, xlatGetOaFromTte_or (xlatAttrs_bits arch attr level)]

end

end RmmCaec
