import RmmCaec.Descriptor

/-!
# Bits of stage 2 descriptors

Which bits the masks, the address encodings and the attribute fields occupy.
With FEAT_LPA2 the two top address bits move into the shareability field, so
every fact is stated for both encodings at once.
-/
namespace RmmCaec

theorem getLsbD_bitMaskUll (msb lsb i : ℕ) (hm : msb ≤ 63) :
    (bitMaskUll msb lsb).getLsbD i = (decide (lsb ≤ i) && decide (i ≤ msb)) := by
  unfold bitMaskUll
  simp only [BitVec.getLsbD_and, BitVec.getLsbD_ushiftRight, BitVec.getLsbD_shiftLeft,
    BitVec.getLsbD_allOnes]
  by_cases h : i ≤ msb
  · have h1 : 63 - msb + i < 64 := by omega
    have h2 : i < 64 := by omega
    by_cases hl : lsb ≤ i
    · have h3 : i - lsb < 64 := by omega
      simp [h, h1, h2, hl, h3]
    · simp [h, hl]
  · have h1 : ¬ 63 - msb + i < 64 := by omega
    simp [h, h1]

/-- Addresses without FEAT_LPA2 fit in those with it. -/
theorem pa48_le_52 : 48 ≤ 52 := by decide

theorem levelLsb_ge (level : ℤ) : 12 ≤ levelLsb level := by
  unfold levelLsb
  omega

/-- The bits of an address that fits a level lie between the level's lowest bit
and the output address size. -/
theorem bit_of_addrLvlAligned {ctx : S2ttContext} {pa : Word} {level : ℤ} {i : ℕ}
    (h : s2tteIsAddrLvlAligned ctx pa level = true) (hi : pa.getLsbD i = true) :
    levelLsb level ≤ i ∧ i < s2tteOaBits ctx.enableLpa2 := by
  have heq : pa = pa &&& bitMaskUll (s2tteOaBits ctx.enableLpa2 - 1) (levelLsb level) := by
    simpa [s2tteIsAddrLvlAligned] using h
  have hb : s2tteOaBits ctx.enableLpa2 - 1 ≤ 63 ∧ 0 < s2tteOaBits ctx.enableLpa2 := by
    unfold s2tteOaBits
    split <;> omega
  rw [heq, BitVec.getLsbD_and, getLsbD_bitMaskUll _ _ _ hb.1] at hi
  simp only [Bool.and_eq_true, decide_eq_true_eq] at hi
  omega

theorem getLsbD_paToS2tte (pa : Word) (lpa2 : Bool) (i : ℕ) :
    (paToS2tte pa lpa2).getLsbD i =
      (if lpa2 then
        (pa.getLsbD i && !(decide (50 ≤ i) && decide (i ≤ 51))) ||
          (decide (8 ≤ i) && decide (i ≤ 9) && pa.getLsbD (i + 42))
      else pa.getLsbD i) := by
  cases lpa2
  · simp [paToS2tte]
  · simp only [paToS2tte, if_true, BitVec.getLsbD_or, BitVec.getLsbD_and, BitVec.getLsbD_not,
      BitVec.getLsbD_shiftLeft, BitVec.getLsbD_ushiftRight, lpa2Oa5150,
      getLsbD_bitMaskUll 51 50 _ (by omega)]
    by_cases h64 : i < 64
    · by_cases h8 : 8 ≤ i
      · by_cases h9 : i ≤ 9
        · have e1 : 50 + (i - 8) = i + 42 := by omega
          have h50 : ¬ 50 ≤ i := by omega
          have h92 : 50 ≤ i + 42 ∧ i + 42 ≤ 51 := by omega
          have h98 : ¬ i < 8 := by omega
          simp [h64, h8, h9, e1, h50, h92.1, h92.2, h98]
        · have e1 : ¬ (50 + (i - 8) ≤ 51) := by omega
          simp [h64, h9, e1]
      · have h8' : i < 8 := by omega
        simp [h64, h8, h8']
    · have hpa : pa.getLsbD i = false := BitVec.getLsbD_of_ge _ _ (by omega)
      have h9 : ¬ i ≤ 9 := by omega
      simp [h64, hpa, h9]

theorem getLsbD_s2tteLvlMask (level : ℤ) (lpa2 : Bool) (i : ℕ) :
    (s2tteLvlMask level lpa2).getLsbD i =
      ((decide (levelLsb level ≤ i) && decide (i ≤ 47)) ||
        (lpa2 && ((decide (8 ≤ i) && decide (i ≤ 9)) ||
        (decide (48 ≤ i) && decide (i ≤ 49))))) := by
  cases lpa2 <;>
    simp [s2tteLvlMask, lpa2S2tte5150, lpa2Oa4948, getLsbD_bitMaskUll]

theorem getLsbD_s2tteToPa (w : Word) (level : ℤ) (lpa2 : Bool) (i : ℕ) :
    (s2tteToPa w level lpa2).getLsbD i =
      ((w.getLsbD i && decide (levelLsb level ≤ i) && decide (i ≤ 47)) ||
        (lpa2 && ((w.getLsbD i && decide (48 ≤ i) && decide (i ≤ 49)) ||
          (decide (50 ≤ i) && decide (i ≤ 51) && w.getLsbD (i - 42))))) := by
  have hl := levelLsb_ge level
  cases lpa2
  · simp [s2tteToPa, getLsbD_s2tteLvlMask, Bool.and_assoc]
  · have hw : 64 ≤ i → w.getLsbD i = false := BitVec.getLsbD_of_ge _ _
    have hshift : 50 ≤ i → 8 + (i - 50) = i - 42 := by omega
    simp only [s2tteToPa, if_true, BitVec.getLsbD_or, BitVec.getLsbD_and, BitVec.getLsbD_not,
      BitVec.getLsbD_shiftLeft, BitVec.getLsbD_ushiftRight, lpa2S2tte5150,
      getLsbD_bitMaskUll 9 8 _ (by omega), getLsbD_s2tteLvlMask]
    rw [Bool.eq_iff_iff]
    simp only [Bool.or_eq_true, Bool.and_eq_true, Bool.not_eq_true', decide_eq_true_eq,
      Bool.and_eq_false_iff, decide_eq_false_iff_not, Bool.true_and]
    grind

/-- The bits outside the address field of every level. -/
def AttrBits (lpa2 : Bool) (a : Word) : Prop :=
  ∀ i, a.getLsbD i = true → (i < 12 ∨ 52 ≤ i) ∧ (lpa2 = true → i < 8 ∨ 10 ≤ i)

theorem s2tteToPa_paToS2tte_or {ctx : S2ttContext} {pa a : Word} {level : ℤ}
    (hpa : s2tteIsAddrLvlAligned ctx pa level = true) (ha : AttrBits ctx.enableLpa2 a) :
    s2tteToPa (paToS2tte pa ctx.enableLpa2 ||| a) level ctx.enableLpa2 = pa := by
  have hl := levelLsb_ge level
  have hbit := fun j => bit_of_addrLvlAligned (i := j) hpa
  apply BitVec.eq_of_getLsbD_eq
  intro i hi
  rw [getLsbD_s2tteToPa]
  simp only [BitVec.getLsbD_or, getLsbD_paToS2tte]
  have hi1 := hbit i
  have hi2 := hbit (i - 42)
  have ha1 := ha i
  have ha2 := ha (i - 42)
  have e : 50 ≤ i → i - 42 + 42 = i := by omega
  rw [Bool.eq_iff_iff]
  cases hlpa : ctx.enableLpa2 <;> simp only [hlpa, s2tteOaBits] at hi1 hi2 ha1 ha2 ⊢ <;>
    simp only [Bool.or_eq_true, Bool.and_eq_true, Bool.not_eq_true', decide_eq_true_eq,
      Bool.and_eq_false_iff, decide_eq_false_iff_not, Bool.true_and, Bool.false_and,
      Bool.false_eq_true, if_true, if_false] at * <;>
    grind
/-- The bits that no output address uses, in either encoding. -/
def FieldBits (m : Word) : Prop := ∀ i < 64, m.getLsbD i = true → i < 8 ∨ 52 ≤ i

instance (m : Word) : Decidable (FieldBits m) := by unfold FieldBits; infer_instance

theorem paToS2tte_and_field {ctx : S2ttContext} {pa m : Word} {level : ℤ}
    (hpa : s2tteIsAddrLvlAligned ctx pa level = true) (hm : FieldBits m) :
    paToS2tte pa ctx.enableLpa2 &&& m = 0#64 := by
  have hl := levelLsb_ge level
  have hbit := fun j => bit_of_addrLvlAligned (i := j) hpa
  apply BitVec.eq_of_getLsbD_eq
  intro i hi
  have hi1 := hbit i
  have hi2 := hbit (i + 42)
  have hm1 := hm i hi
  simp only [BitVec.getLsbD_and, getLsbD_paToS2tte, BitVec.getLsbD_zero]
  cases hlpa : ctx.enableLpa2 <;> simp only [hlpa, s2tteOaBits] at hi1 hi2 ⊢ <;>
    rw [Bool.eq_false_iff] <;> intro h <;>
    simp only [Bool.or_eq_true, Bool.and_eq_true, Bool.not_eq_true', decide_eq_true_eq,
      Bool.and_eq_false_iff, decide_eq_false_iff_not, Bool.false_eq_true, if_true,
      if_false] at * <;>
    grind

/-- A field reader sees only the attributes of a word built from an address. -/
theorem paToS2tte_or_and_field {ctx : S2ttContext} {pa a m : Word} {level : ℤ}
    (hpa : s2tteIsAddrLvlAligned ctx pa level = true) (hm : FieldBits m) :
    (paToS2tte pa ctx.enableLpa2 ||| a) &&& m = a &&& m := by
  rw [BitVec.and_comm, BitVec.and_or_distrib_left, BitVec.and_comm m, BitVec.and_comm m,
    paToS2tte_and_field hpa hm, BitVec.zero_or]

theorem lvlMask_and_field (level : ℤ) (lpa2 : Bool) {m : Word} (hm : FieldBits m) :
    s2tteLvlMask level lpa2 &&& m = 0#64 := by
  have hl := levelLsb_ge level
  apply BitVec.eq_of_getLsbD_eq
  intro i hi
  have hm1 := hm i hi
  simp only [BitVec.getLsbD_and, getLsbD_s2tteLvlMask, BitVec.getLsbD_zero]
  rw [Bool.eq_false_iff]
  intro h
  simp only [Bool.or_eq_true, Bool.and_eq_true, decide_eq_true_eq] at *
  grind

/-- Alignment to a level, as arithmetic. -/
theorem addrLvlAligned_iff {ctx : S2ttContext} {a : Word} {level : ℤ} :
    s2tteIsAddrLvlAligned ctx a level = true ↔
      a.toNat % s2tteMapSize level = 0 ∧ a.toNat < 2 ^ s2tteOaBits ctx.enableLpa2 := by
  have hoa : s2tteOaBits ctx.enableLpa2 - 1 ≤ 63 ∧ 0 < s2tteOaBits ctx.enableLpa2 := by
    unfold s2tteOaBits
    split <;> omega
  constructor
  · intro h
    have hbit := fun j => bit_of_addrLvlAligned (i := j) h
    constructor
    · apply Nat.eq_of_testBit_eq
      intro i
      rw [s2tteMapSize, Nat.testBit_mod_two_pow, Nat.zero_testBit, BitVec.testBit_toNat]
      by_cases hi : a.getLsbD i = true
      · have := (hbit i hi).1
        simp [show ¬ i < levelLsb level by omega]
      · simp [hi]
    · apply Nat.lt_pow_two_of_testBit
      intro i hi
      rw [BitVec.testBit_toNat]
      by_contra hc
      have := (hbit i (by simpa using hc)).2
      omega
  · rintro ⟨hmod, hlt⟩
    simp only [s2tteIsAddrLvlAligned, beq_iff_eq]
    apply BitVec.eq_of_getLsbD_eq
    intro i hi
    rw [BitVec.getLsbD_and, getLsbD_bitMaskUll _ _ _ hoa.1]
    cases hb : a.getLsbD i with
    | false => rfl
    | true =>
      have h1 : levelLsb level ≤ i := by
        by_contra hc
        have := congrArg (fun n => n.testBit i) hmod
        simp only [s2tteMapSize, Nat.testBit_mod_two_pow, Nat.zero_testBit, BitVec.testBit_toNat,
          hb] at this
        simp at this
        omega
      have h2 : i < s2tteOaBits ctx.enableLpa2 := by
        by_contra hc
        have h3 : a.toNat.testBit i = false :=
          Nat.testBit_lt_two_pow (lt_of_lt_of_le hlt (Nat.pow_le_pow_right (by omega) (by omega)))
        rw [BitVec.testBit_toNat, hb] at h3
        cases h3
      have h3 : i ≤ s2tteOaBits ctx.enableLpa2 - 1 := by omega
      simp [h1, h3]

theorem s2tteMapSize_succ {level : ℤ} (h : level < 3) :
    s2tteMapSize level = 512 * s2tteMapSize (level + 1) := by
  have : levelLsb level = 9 + levelLsb (level + 1) := by
    unfold levelLsb
    omega
  rw [s2tteMapSize, this, pow_add, s2tteMapSize]
  norm_num

theorem s2tteMapSize_pos (level : ℤ) : 0 < s2tteMapSize level := Nat.two_pow_pos _

end RmmCaec
