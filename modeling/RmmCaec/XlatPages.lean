import RmmCaec.XlatForest

/-!
# Pages of a last level table

A context hands out the table in which the walk of an address ends. The functions that map
and unmap single pages find the entry of an address in that table by its distance from the
base address, and see from the bits of the entry whether it is transient and whether it is
mapped.
-/
namespace RmmCaec

open Outcome

/-- `xlat_get_tte_ptr`: the index of the entry in the table, if there is one. -/
def xlatGetTtePtr (arch : XlatArch) (llt : XlatLltInfo) (va : Word) : Xlat (Option ℕ) := do
  xlatAssert (llt.level ≤ xlatTableLevelMax) .level
  xlatAssert (llt.level ≥ xlatTableLevelMin arch) .level
  if va < llt.lltBaseVa then return none
  else
    let offset := va - llt.lltBaseVa
    let index := (offset >>> xlatAddrShift llt.level).toNat % 2 ^ 32
    return if index < xlatGetTableEntries arch llt.level then some index else none

/-- A level that the assertions on a table description let through. -/
def XlatLltInfo.LevelOk (arch : XlatArch) (llt : XlatLltInfo) : Prop :=
  xlatTableLevelMin arch ≤ llt.level ∧ llt.level ≤ xlatTableLevelMax

/-- The number of bytes that one entry of the table covers. -/
def XlatLltInfo.blockSize (llt : XlatLltInfo) : ℕ := (xlatBlockSize llt.level).toNat

/-- The addresses of a table. -/
def XlatLltInfo.Covers (arch : XlatArch) (llt : XlatLltInfo) (va : Word) : Prop :=
  llt.lltBaseVa.toNat ≤ va.toNat ∧
    va.toNat < llt.lltBaseVa.toNat + xlatGetTableEntries arch llt.level * llt.blockSize

instance (arch : XlatArch) (llt : XlatLltInfo) (va : Word) : Decidable (llt.Covers arch va) := by
  unfold XlatLltInfo.Covers
  infer_instance

/-- The number of the block of an address, counted from the base of the table. -/
def XlatLltInfo.blockOf (llt : XlatLltInfo) (va : Word) : ℕ :=
  (va.toNat - llt.lltBaseVa.toNat) / llt.blockSize

/-- An address so far above the table that the number of its block does not fit into the index,
while what is left of it is an index of the table. -/
def XlatLltInfo.Aliases (arch : XlatArch) (llt : XlatLltInfo) (va : Word) : Prop :=
  llt.lltBaseVa.toNat ≤ va.toNat ∧ 2 ^ 32 ≤ llt.blockOf va ∧
    llt.blockOf va % 2 ^ 32 < xlatGetTableEntries arch llt.level

section
variable {arch : XlatArch} {llt : XlatLltInfo} {va : Word}

theorem XlatLltInfo.LevelOk.levelOf (h : llt.LevelOk arch) :
    ∃ k ≤ 4, llt.level = levelOf k := by
  obtain ⟨hmin, hmax⟩ := h
  refine ⟨(3 - llt.level).toNat, ?_, ?_⟩
  · unfold xlatTableLevelMin at hmin
    split_ifs at hmin <;> omega
  · unfold xlatTableLevelMax at hmax
    unfold RmmCaec.levelOf
    omega

theorem XlatLltInfo.LevelOk.blockSize_eq (h : llt.LevelOk arch) :
    llt.blockSize = 2 ^ xlatAddrShift llt.level := by
  obtain ⟨k, hk, hlevel⟩ := h.levelOf
  rw [XlatLltInfo.blockSize, hlevel, xlatBlockSize_toNat hk, rttShape_span_pow,
    xlatAddrShift_levelOf]

theorem xlatGetTableEntries_bounds (arch : XlatArch) (level : ℤ) :
    0 < xlatGetTableEntries arch level ∧ xlatGetTableEntries arch level ≤ 512 := by
  unfold xlatGetTableEntries
  split_ifs <;> decide

/-- The assertions pass: what the function computes from the distance. -/
theorem xlatGetTtePtr_eq (h : llt.LevelOk arch) :
    xlatGetTtePtr arch llt va = .ok (if llt.lltBaseVa.toNat ≤ va.toNat ∧
      llt.blockOf va % 2 ^ 32 < xlatGetTableEntries arch llt.level
      then some (llt.blockOf va % 2 ^ 32) else none) := by
  have hassert1 : xlatAssert (llt.level ≤ xlatTableLevelMax) .level = .ok () := by
    simp [xlatAssert, h.2]
  have hassert2 : xlatAssert (llt.level ≥ xlatTableLevelMin arch) .level = .ok () := by
    simp [xlatAssert, h.1]
  unfold xlatGetTtePtr
  rw [hassert1, ok_bind_eq, hassert2, ok_bind_eq]
  by_cases hlt : va < llt.lltBaseVa
  · have hle : ¬ llt.lltBaseVa.toNat ≤ va.toNat := not_le.mpr hlt
    rw [if_pos hlt, if_neg fun hin => hle hin.1]
    rfl
  · have hle : llt.lltBaseVa.toNat ≤ va.toNat := not_lt.mp hlt
    have hidx : ((va - llt.lltBaseVa) >>> xlatAddrShift llt.level).toNat = llt.blockOf va := by
      have hb := va.isLt
      have hsub : (va - llt.lltBaseVa).toNat = va.toNat - llt.lltBaseVa.toNat := by
        rw [BitVec.toNat_sub]
        omega
      rw [BitVec.toNat_ushiftRight, Nat.shiftRight_eq_div_pow, hsub, XlatLltInfo.blockOf,
        h.blockSize_eq]
    rw [if_neg hlt]
    simp only [hidx, hle, true_and]
    rfl

/-- An address lies in the table if its block has a number below the number of entries. -/
theorem XlatLltInfo.LevelOk.covers_iff (h : llt.LevelOk arch) :
    llt.Covers arch va ↔ llt.lltBaseVa.toNat ≤ va.toNat ∧
      llt.blockOf va < xlatGetTableEntries arch llt.level := by
  have hpos : 0 < llt.blockSize := by
    rw [h.blockSize_eq]
    exact Nat.two_pow_pos _
  unfold XlatLltInfo.Covers XlatLltInfo.blockOf
  rw [Nat.div_lt_iff_lt_mul hpos]
  constructor <;> rintro ⟨hle, hlt⟩ <;> exact ⟨hle, by omega⟩

end

/-- The entry of an address is found exactly in its table, if and only if the address is not one
of those that alias an entry. -/
theorem xlatGetTtePtr_exact_iff {arch : XlatArch} {llt : XlatLltInfo} (h : llt.LevelOk arch)
    (va : Word) :
    xlatGetTtePtr arch llt va =
        .ok (if llt.Covers arch va then some (llt.blockOf va) else none) ↔
      ¬ llt.Aliases arch va := by
  have hentries := (xlatGetTableEntries_bounds arch llt.level).2
  rw [xlatGetTtePtr_eq h, Except.ok.injEq]
  simp only [h.covers_iff, XlatLltInfo.Aliases]
  by_cases hle : llt.lltBaseVa.toNat ≤ va.toNat
  · simp only [hle, true_and]
    by_cases hfar : 2 ^ 32 ≤ llt.blockOf va
    · have hout : ¬ llt.blockOf va < xlatGetTableEntries arch llt.level := by omega
      rw [if_neg hout, and_iff_right hfar]
      split_ifs with hidx
      · exact ⟨fun hsome => hsome.elim, fun hal => absurd hidx hal⟩
      · exact ⟨fun _ => hidx, fun _ => rfl⟩
    · rw [Nat.mod_eq_of_lt (not_le.mp hfar)]
      exact ⟨fun _ hal => hfar hal.1, fun _ => rfl⟩
  · simp [hle]

/-- The last page of a table of level 3 in the high half, and a page behind it. -/
theorem xlatGetTtePtr_exact_iff_high :
    (xlatGetTtePtr .plain ⟨0x1000#64, 3, 0xffffffffffe00000#64⟩ 0xfffffffffffff000#64 =
        .ok (some 511)) ∧
      (xlatGetTtePtr .plain ⟨0x1000#64, 3, 0xffffffffff000000#64⟩ 0xfffffffffffff000#64 =
        .ok none) := by
  have hthree : xlatTableLevelMin .plain ≤ 3 ∧ (3 : ℤ) ≤ xlatTableLevelMax := by decide
  have hlevel (base : Word) : (⟨0x1000#64, 3, base⟩ : XlatLltInfo).LevelOk .plain := hthree
  constructor
  · exact (xlatGetTtePtr_exact_iff (hlevel 0xffffffffffe00000#64) _).mpr
      fun hal => absurd hal.2.1 (by decide)
  · exact (xlatGetTtePtr_exact_iff (hlevel 0xffffffffff000000#64) _).mpr
      fun hal => absurd hal.2.1 (by decide)

/-- An address 2^44 bytes above a table of level 3 has an entry there. -/
theorem xlatGetTtePtr_far :
    xlatGetTtePtr .plain ⟨0x1000#64, 3, 0#64⟩ (1#64 <<< 44) = .ok (some 0) ∧
      ¬ XlatLltInfo.Covers .plain ⟨0x1000#64, 3, 0#64⟩ (1#64 <<< 44) := by
  decide

end RmmCaec
