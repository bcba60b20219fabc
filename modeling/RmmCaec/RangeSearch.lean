import Mathlib.Order.Basic
import Mathlib.Tactic.SplitIfs

/-!
# Binary search among ranges

Numbered ranges that ascend and do not overlap, and the search for the one that contains
a key. The search ends, and a range that is found contains the key, whatever the ranges
are; that a range is found needs their order.
-/
namespace RangeSearch

/-- How a search ends. Fuel that runs out stands for a loop that goes on. -/
inductive Found
  | found (i : ℕ)
  | missing
  | exhausted
  deriving DecidableEq, Repr

/-- Search the ranges `l` to `r` by halves, as a loop with unsigned bounds. -/
def search (lo hi : ℕ → ℕ) (key : ℕ) : ℕ → ℕ → ℕ → Found
  | fuel, l, r =>
    if l ≤ r then
      match fuel with
      | 0 => .exhausted
      | fuel + 1 =>
        let i := l + (r - l) / 2
        if key < lo i then
          -- there is nothing before the first range
          if i = 0 then .missing else search lo hi key fuel l (i - 1)
        else if hi i < key then search lo hi key fuel (i + 1) r
        else .found i
    else .missing

/-- The first `n` ranges have elements and are in ascending order. -/
structure Ascending (lo hi : ℕ → ℕ) (n : ℕ) : Prop where
  le : ∀ i < n, lo i ≤ hi i
  lt : ∀ i j, i < j → j < n → hi i < lo j

section
variable {lo hi : ℕ → ℕ} {key n : ℕ}

/-- Every turn shrinks the window, so its width is enough fuel. -/
theorem search_ne_exhausted {fuel l r : ℕ} (h : r + 1 ≤ l + fuel) :
    search lo hi key fuel l r ≠ .exhausted := by
  induction fuel generalizing l r with
  | zero =>
    have hlr : ¬ l ≤ r := by omega
    simp [search, hlr]
  | succ fuel ih =>
    unfold search
    split_ifs with hlr
    · dsimp only
      split_ifs with hbelow hzero habove
      · simp
      · exact ih (by omega)
      · exact ih (by omega)
      · simp
    · simp

/-- A range that is found is in the window and contains the key. -/
theorem search_sound {fuel l r i : ℕ} (h : search lo hi key fuel l r = .found i) :
    l ≤ i ∧ i ≤ r ∧ lo i ≤ key ∧ key ≤ hi i := by
  induction fuel generalizing l r with
  | zero =>
    unfold search at h
    split_ifs at h
  | succ fuel ih =>
    unfold search at h
    split_ifs at h with hlr
    dsimp only at h
    split_ifs at h with hbelow hzero habove
    · have hleft := ih h
      omega
    · have hright := ih h
      omega
    · obtain rfl := Found.found.inj h
      omega

/-- Two ranges that contain the key are the same. -/
theorem Ascending.unique (h : Ascending lo hi n) {i j : ℕ} (hi' : i < n) (hj : j < n)
    (hik : lo i ≤ key ∧ key ≤ hi i) (hjk : lo j ≤ key ∧ key ≤ hi j) : i = j := by
  rcases Nat.lt_trichotomy i j with hij | hij | hij
  · have := h.lt i j hij hj
    omega
  · exact hij
  · have := h.lt j i hij hi'
    omega

/-- If a range starts above the key, the one that contains the key comes before it. -/
theorem Ascending.lt_of_below (h : Ascending lo hi n) {i m : ℕ} (hin : i < n)
    (hbelow : key < lo m)
    (hik : lo i ≤ key ∧ key ≤ hi i) : i < m := by
  rcases Nat.lt_trichotomy i m with him | rfl | him
  · exact him
  · omega
  · have hlt := h.lt m i him hin
    have hle := h.le m (by omega)
    omega

/-- If a range ends below the key, the one that contains the key comes after it. -/
theorem Ascending.lt_of_above (h : Ascending lo hi n) {i m : ℕ} (hm : m < n) (habove : hi m < key)
    (hik : lo i ≤ key ∧ key ≤ hi i) : m < i := by
  rcases Nat.lt_trichotomy i m with him | rfl | him
  · have hlt := h.lt i m him hm
    have hle := h.le m hm
    omega
  · omega
  · exact him

/-- A range of the window that contains the key is found. -/
theorem Ascending.search_eq (h : Ascending lo hi n) {fuel l r i : ℕ} (hr : r < n)
    (hfuel : r + 1 ≤ l + fuel) (hl : l ≤ i) (hir : i ≤ r)
    (hik : lo i ≤ key ∧ key ≤ hi i) :
    search lo hi key fuel l r = .found i := by
  induction fuel generalizing l r with
  | zero => omega
  | succ fuel ih =>
    have hlr : l ≤ r := by omega
    unfold search
    rw [if_pos hlr]
    dsimp only
    have hmid : l ≤ l + (r - l) / 2 ∧ l + (r - l) / 2 ≤ r := by omega
    generalize l + (r - l) / 2 = m at hmid ⊢
    split_ifs with hbelow hzero habove
    · have him := h.lt_of_below (by omega) hbelow hik
      omega
    · have him := h.lt_of_below (by omega) hbelow hik
      exact ih (by omega) (by omega) hl (by omega)
    · have hmi := h.lt_of_above (by omega) habove hik
      exact ih hr (by omega) (by omega) hir
    · exact congrArg Found.found (h.unique (by omega) (by omega) ⟨by omega, by omega⟩ hik)

end

end RangeSearch
