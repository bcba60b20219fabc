import Mathlib.Tactic

/-!
# Numbers in scattered bits

A number of `n` bits is kept in a word with its bit `i` at position `pos i`. Reading the
number forgets nothing about a word that uses only these positions, and every number of
`n` bits can be kept.
-/
namespace BitGather

variable {pos pos' : ℕ → ℕ} {n k k' : ℕ}

/-- The number in a word. -/
def gather (pos : ℕ → ℕ) (n : ℕ) (w : BitVec k) : ℕ := Nat.ofBits fun i :
    Fin n => w.getLsbD (pos i)

/-- The word uses no other positions. -/
def Within (pos : ℕ → ℕ) (n : ℕ) (w : BitVec k) : Prop :=
  ∀ j, w.getLsbD j = true → ∃ i < n, pos i = j

/-- The word that keeps a number. -/
def scatter (pos : ℕ → ℕ) (n k v : ℕ) : BitVec k :=
  BitVec.ofNat k (Nat.ofBits fun j : Fin k => decide (∃ i < n, pos i = j ∧ v.testBit i = true))

@[simp] theorem testBit_gather (w : BitVec k) (i : ℕ) :
    (gather pos n w).testBit i = (decide (i < n) && w.getLsbD (pos i)) := by
  by_cases hi : i < n <;> simp [gather, Nat.testBit_ofBits, hi]

theorem gather_lt (w : BitVec k) : gather pos n w < 2 ^ n := Nat.ofBits_lt_two_pow _

/-- A number is the one in a word if its bits are there. -/
theorem eq_gather {v : ℕ} {w : BitVec k}
    (h : ∀ i, v.testBit i = (decide (i < n) && w.getLsbD (pos i))) : v = gather pos n w := by
  apply Nat.eq_of_testBit_eq
  intro i
  rw [h, testBit_gather]

/-- Two words keep one number, perhaps at different positions. -/
theorem gather_congr {w : BitVec k} {w' : BitVec k'}
    (h : ∀ i < n, w.getLsbD (pos i) = w'.getLsbD (pos' i)) :
    gather pos n w = gather pos' n w' := by
  apply eq_gather
  intro i
  by_cases hi : i < n
  · simp [hi, h i hi]
  · simp [hi]

theorem gather_injOn : Set.InjOn (gather pos n) {w : BitVec k | Within pos n w} := by
  intro w hw w' hw' he
  have hbit : ∀ i < n, w.getLsbD (pos i) = w'.getLsbD (pos i) := by
    intro i hi
    have hi' := congrArg (fun v => v.testBit i) he
    simpa [hi] using hi'
  apply BitVec.eq_of_getLsbD_eq
  intro j _
  rw [Bool.eq_iff_iff]
  constructor
  · intro hj
    obtain ⟨i, hi, rfl⟩ := hw j hj
    rwa [← hbit i hi]
  · intro hj
    obtain ⟨i, hi, rfl⟩ := hw' j hj
    rwa [hbit i hi]

@[simp] theorem getLsbD_scatter (v j : ℕ) : (scatter pos n k v).getLsbD j =
    (decide (j < k) && decide (∃ i < n, pos i = j ∧ v.testBit i = true)) := by
  rw [scatter, BitVec.getLsbD_ofNat, Nat.testBit_ofBits]
  by_cases hj : j < k <;> simp [hj]

theorem within_scatter (v : ℕ) : Within pos n (scatter pos n k v) := by
  intro j hj
  simp only [getLsbD_scatter, Bool.and_eq_true, decide_eq_true_eq] at hj
  obtain ⟨-, i, hi, hpos, -⟩ := hj
  exact ⟨i, hi, hpos⟩

/-- A number is read back when no two of its bits share a position of the word. -/
theorem gather_scatter {v : ℕ} (hpos : Set.InjOn pos (Set.Iio n)) (hk : ∀ i < n, pos i < k)
    (hv : v < 2 ^ n) : gather pos n (scatter pos n k v) = v := by
  symm
  apply eq_gather
  intro i
  by_cases hi : i < n
  · have hbit : (∃ i' < n, pos i' = pos i ∧ v.testBit i' = true) ↔ v.testBit i = true := by
      constructor
      · rintro ⟨i', hi', he, hv'⟩
        rwa [← hpos hi' hi he]
      · exact fun hv' => ⟨i, hi, rfl, hv'⟩
    rw [getLsbD_scatter]
    simp [hi, hk i hi, hbit]
  · have hbig : v < 2 ^ i := hv.trans_le (Nat.pow_le_pow_right (by decide) (by omega))
    simp [hi, Nat.testBit_lt_two_pow hbig]

/-- The numbers that words of this kind keep are those of `n` bits. -/
theorem gather_image (hpos : Set.InjOn pos (Set.Iio n)) (hk : ∀ i < n, pos i < k) :
    Set.image (gather pos n) {w : BitVec k | Within pos n w} = Set.Iio (2 ^ n) := by
  ext v
  constructor
  · rintro ⟨w, -, rfl⟩
    exact gather_lt w
  · exact fun hv => ⟨scatter pos n k v, within_scatter v, gather_scatter hpos hk hv⟩

end BitGather
