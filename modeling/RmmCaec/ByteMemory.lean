import Mathlib.Tactic

/-!
# Numbers in byte memory

A memory holds one byte at each address. A number of `n` bytes lies there with its lowest
byte first. Storing writes these bytes and no others, and loading reads only them.
-/
namespace ByteMemory

abbrev Bytes := ℕ → BitVec 8

def loadLe (m : Bytes) : ℕ → ℕ → ℕ
  | 0, _ => 0
  | n + 1, a => (m a).toNat + 256 * loadLe m n (a + 1)

def storeLe (m : Bytes) (n a v : ℕ) : Bytes := fun x =>
  if a ≤ x ∧ x < a + n then BitVec.ofNat 8 (v / 256 ^ (x - a)) else m x

/-- `memset`. -/
def fill (m : Bytes) (a n : ℕ) (b : BitVec 8) : Bytes := fun x =>
  if a ≤ x ∧ x < a + n then b else m x

variable {m m' : Bytes} {n a v : ℕ}

theorem loadLe_lt (m : Bytes) (n a : ℕ) : loadLe m n a < 256 ^ n := by
  induction n generalizing a with
  | zero => simp [loadLe]
  | succ n ih =>
    have hbyte := (m a).isLt
    have hrest := ih (a + 1)
    rw [loadLe, pow_succ]
    omega

theorem loadLe_congr (h : ∀ x, a ≤ x → x < a + n → m' x = m x) :
    loadLe m' n a = loadLe m n a := by
  induction n generalizing a with
  | zero => rfl
  | succ n ih =>
    rw [loadLe, loadLe, h a (by omega) (by omega), ih fun x h1 h2 => h x (by omega) (by omega)]

theorem storeLe_of_not_mem {x : ℕ} (h : ¬ (a ≤ x ∧ x < a + n)) : storeLe m n a v x = m x :=
  if_neg h

theorem fill_of_not_mem {x : ℕ} {b : BitVec 8} (h : ¬ (a ≤ x ∧ x < a + n)) :
    fill m a n b x = m x := if_neg h

theorem fill_of_mem {x : ℕ} {b : BitVec 8} (h1 : a ≤ x) (h2 : x < a + n) : fill m a n b x = b :=
  if_pos ⟨h1, h2⟩

/-- A part of a stored number. -/
theorem loadLe_storeLe_part (k i : ℕ) (h : i + k ≤ n) :
    loadLe (storeLe m n a v) k (a + i) = v / 256 ^ i % 256 ^ k := by
  induction k generalizing i with
  | zero => simp [loadLe, Nat.mod_one]
  | succ k ih =>
    have hbyte : (storeLe m n a v (a + i)).toNat = v / 256 ^ i % 256 := by
      rw [storeLe, if_pos (by omega), Nat.add_sub_cancel_left, BitVec.toNat_ofNat]
    have hrest : v / 256 ^ (i + 1) = v / 256 ^ i / 256 := by
      rw [pow_succ, Nat.div_div_eq_div_mul]
    rw [loadLe, hbyte, add_assoc, ih (i + 1) (by omega), hrest, pow_succ, mul_comm (256 ^ k),
      Nat.mod_mul]

theorem loadLe_storeLe (m : Bytes) (n a v : ℕ) : loadLe (storeLe m n a v) n a = v % 256 ^ n := by
  simpa using loadLe_storeLe_part (m := m) (a := a) (v := v) n 0 (by omega)

theorem loadLe_storeLe_of_apart {k b : ℕ} (h : a + n ≤ b ∨ b + k ≤ a) :
    loadLe (storeLe m n a v) k b = loadLe m k b :=
  loadLe_congr fun _ _ _ => storeLe_of_not_mem (by omega)

theorem loadLe_fill_of_apart {k b : ℕ} {x : BitVec 8} (h : a + n ≤ b ∨ b + k ≤ a) :
    loadLe (fill m a n x) k b = loadLe m k b :=
  loadLe_congr fun _ _ _ => fill_of_not_mem (by omega)

theorem loadLe_fill_zero {k b : ℕ} (h1 : a ≤ b) (h2 : b + k ≤ a + n) :
    loadLe (fill m a n 0) k b = 0 := by
  induction k generalizing b with
  | zero => rfl
  | succ k ih =>
    rw [loadLe, fill_of_mem h1 (by omega), ih (by omega) (by omega)]
    rfl

end ByteMemory
