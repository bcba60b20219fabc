import Mathlib.Algebra.Group.End
import Mathlib.Order.Basic
import Mathlib.Tactic.SplitIfs

/-!
# Insertion sort in place

An array is a function on the naturals of which the first cells count. The inner loop moves
the elements above the saved one to the right and leaves a gap; filling the gap swaps
neighbours, which gives the permutation, and keeps the cells below the gap, which gives the
order.
-/
namespace InPlaceSort

variable {α : Type*}

/-- Move the elements above `temp` one cell to the right, down from cell `j`. Yields the
cell of the gap. -/
def shift (key : α → ℕ) (temp : α) : ℕ → (ℕ → α) → ℕ × (ℕ → α)
  | 0, a => (0, a)
  | j + 1, a =>
    if key temp < key (a j) then shift key temp j (Function.update a (j + 1) (a j)) else (j + 1, a)

/-- Insert the element of cell `i` into the cells before it. -/
def insertCell (key : α → ℕ) (a : ℕ → α) (i : ℕ) : ℕ → α :=
  let temp := a i
  let (j, a') := shift key temp i a
  if i ≠ j then Function.update a' j temp else a'

/-- Sort the first `n` cells. -/
def sort (key : α → ℕ) (n : ℕ) (a : ℕ → α) : ℕ → α :=
  (List.range' 1 (n - 1)).foldl (insertCell key) a

/-- The first `n` cells are in order. -/
def SortedTo (key : α → ℕ) (n : ℕ) (a : ℕ → α) : Prop :=
  ∀ p q, p < q → q < n → key (a p) ≤ key (a q)

/-- The first `n` cells are rearranged, and the others are as before. -/
def Rearranged (n : ℕ) (a b : ℕ → α) : Prop :=
  ∃ σ : Equiv.Perm ℕ, (∀ k, n ≤ k → σ k = k) ∧ b = a ∘ σ

variable {key : α → ℕ} {n : ℕ} {a b c : ℕ → α}

theorem Rearranged.refl (n : ℕ) (a : ℕ → α) : Rearranged n a a :=
    ⟨1, fun _ _ => rfl, rfl⟩

theorem Rearranged.trans (h : Rearranged n a b) (h' : Rearranged n b c) : Rearranged n a c := by
  obtain ⟨σ, hσ, rfl⟩ := h
  obtain ⟨τ, hτ, rfl⟩ := h'
  exact ⟨σ * τ, fun k hk => by rw [Equiv.Perm.mul_apply, hτ k hk, hσ k hk], rfl⟩

theorem Rearranged.mono {m : ℕ} (h : Rearranged n a b) (hnm : n ≤ m) : Rearranged m a b := by
  obtain ⟨σ, hσ, rfl⟩ := h
  exact ⟨σ, fun k hk => hσ k (by omega), rfl⟩

/-- A cell of the rearranged part holds the element of such a cell, and the other way. -/
theorem Rearranged.cell (h : Rearranged n a b) {k : ℕ} (hk : k < n) : ∃ l < n, b k = a l := by
  obtain ⟨σ, hσ, rfl⟩ := h
  refine ⟨σ k, ?_, rfl⟩
  by_contra hge
  have hfix := hσ (σ k) (by omega)
  have := σ.injective hfix
  omega

theorem Rearranged.symm (h : Rearranged n a b) : Rearranged n b a := by
  obtain ⟨σ, hσ, rfl⟩ := h
  refine ⟨σ⁻¹, fun k hk => ?_, ?_⟩
  · rw [Equiv.Perm.inv_eq_iff_eq, hσ k hk]
  · funext k
    simp

/-- What is asked of any two cells does not depend on their arrangement. -/
theorem Rearranged.pairs {R : α → α → Prop} (h : Rearranged n a b)
    (hb : ∀ p < n, ∀ q < n, p ≠ q → R (b p) (b q)) :
      ∀ p < n, ∀ q < n, p ≠ q → R (a p) (a q) := by
  obtain ⟨σ, hσ, rfl⟩ := h.symm
  have hlt : ∀ k < n, σ k < n := by
    intro k hk
    by_contra hge
    have := σ.injective (hσ (σ k) (by omega))
    omega
  intro p hp q hq hpq
  exact hb (σ p) (hlt p hp) (σ q) (hlt q hq) (σ.injective.ne hpq)

/-- Filling the gap after moving one element is a swap of neighbours. -/
theorem update_gap (a : ℕ → α) (temp : α) (j : ℕ) :
    Function.update (Function.update a (j + 1) (a j)) j temp =
      Function.update a (j + 1) temp ∘ Equiv.swap j (j + 1) := by
  funext k
  by_cases hj : k = j
  · subst hj
    simp
  · by_cases hj1 : k = j + 1
    · subst hj1
      simp
    · rw [Function.comp_apply, Equiv.swap_apply_of_ne_of_ne hj hj1]
      simp [hj, hj1]

/-- What the inner loop leaves: the gap, the moved elements behind it and the smaller ones
before it. -/
structure Shifted (key : α → ℕ) (temp : α) (j : ℕ) (a : ℕ → α) (gap : ℕ)
    (b : ℕ → α) : Prop where
  le : gap ≤ j
  before : ∀ k < gap, b k = a k
  moved : ∀ k, gap < k → k ≤ j → b k = a (k - 1) ∧ key temp < key (a (k - 1))
  after : ∀ k, j < k → b k = a k
  still : gap = j → b = a
  small : 0 < gap → key (a (gap - 1)) ≤ key temp
  swapped : Rearranged (j + 1) (Function.update a j temp) (Function.update b gap temp)

theorem shift_spec (temp : α) (j : ℕ) (a : ℕ → α) :
    Shifted key temp j a (shift key temp j a).1 (shift key temp j a).2 := by
  induction j generalizing a with
  | zero =>
    exact ⟨Nat.le_refl 0, fun _ _ => rfl, fun k h h' => by omega, fun _ _ => rfl, fun _ => rfl,
      fun h => absurd h (Nat.lt_irrefl 0), Rearranged.refl _ _⟩
  | succ j ih =>
    unfold shift
    split_ifs with hlt
    · have hs := ih (Function.update a (j + 1) (a j))
      generalize shift key temp j (Function.update a (j + 1) (a j)) = r at hs ⊢
      obtain ⟨gap, b⟩ := r
      have hle := hs.le
      refine ⟨Nat.le_succ_of_le hle, fun k hk => ?_, fun k hk hkj => ?_, fun k hk => ?_,
        fun hg => by omega, fun hg => ?_, ?_⟩
      · rw [hs.before k hk, Function.update_of_ne (by omega)]
      · by_cases hk1 : k = j + 1
        · subst hk1
          rw [hs.after (j + 1) (by omega), Function.update_self]
          exact ⟨rfl, hlt⟩
        · have hm := hs.moved k hk (by omega)
          rwa [Function.update_of_ne (by omega)] at hm
      · rw [hs.after k (by omega), Function.update_of_ne (by omega)]
      · have hsm := hs.small hg
        rwa [Function.update_of_ne (by omega)] at hsm
      · obtain ⟨σ, hσ, hb⟩ := hs.swapped
        refine ⟨Equiv.swap j (j + 1) * σ, fun k hk => ?_, ?_⟩
        · rw [Equiv.Perm.mul_apply, hσ k (by omega),
            Equiv.swap_apply_of_ne_of_ne (by omega) (by omega)]
        · rw [hb, update_gap]
          rfl
    · exact ⟨Nat.le_refl _, fun _ _ => rfl, fun k h h' => by omega, fun _ _ => rfl,
        fun _ => rfl, fun _ => by simpa using Nat.le_of_not_lt hlt, Rearranged.refl _ _⟩

/-- Where the gap is the saved element's own cell, filling it changes nothing. -/
theorem insertCell_eq (key : α → ℕ) (a : ℕ → α) (i : ℕ) : insertCell key a i =
    Function.update (shift key (a i) i a).2 (shift key (a i) i a).1 (a i) := by
  have hs : Shifted key (a i) i a (shift key (a i) i a).1 (shift key (a i) i a).2 :=
    shift_spec (a i) i a
  unfold insertCell
  dsimp only
  split_ifs with hne
  · rfl
  · have hgap : (shift key (a i) i a).1 = i := (Decidable.not_not.mp hne).symm
    rw [hgap, hs.still hgap, Function.update_eq_self]

theorem insertCell_rearranged (key : α → ℕ) (a : ℕ → α) (i : ℕ) :
    Rearranged (i + 1) a (insertCell key a i) := by
  rw [insertCell_eq]
  have hshift : Shifted key (a i) i a (shift key (a i) i a).1 (shift key (a i) i a).2 :=
    shift_spec (a i) i a
  have hs := hshift.swapped
  rwa [Function.update_eq_self] at hs

/-- Inserting the next cell extends the sorted part. -/
theorem insertCell_sorted {i : ℕ} (h : SortedTo key i a) :
    SortedTo key (i + 1) (insertCell key a i) := by
  have hs : Shifted key (a i) i a (shift key (a i) i a).1 (shift key (a i) i a).2 :=
    shift_spec (a i) i a
  rw [insertCell_eq]
  generalize shift key (a i) i a = r at hs ⊢
  obtain ⟨gap, b⟩ := r
  dsimp only at hs ⊢
  have hle := hs.le
  -- the elements before the gap are at most the saved one
  have hsmall : ∀ p < gap, key (a p) ≤ key (a i) := by
    intro p hp
    have hlast := hs.small (by omega)
    by_cases hpg : p = gap - 1
    · rwa [hpg]
    · exact Nat.le_trans (h p (gap - 1) (by omega) (by omega)) hlast
  have hcell : ∀ k ≤ i, Function.update b gap (a i) k =
      if k < gap then a k else if k = gap then a i else a (k - 1) := by
    intro k hk
    rcases Nat.lt_trichotomy k gap with hkg | rfl | hkg
    · rw [Function.update_of_ne (by omega), if_pos hkg, hs.before k hkg]
    · rw [Function.update_self, if_neg (Nat.lt_irrefl k), if_pos rfl]
    · rw [Function.update_of_ne (by omega), if_neg (by omega), if_neg (by omega),
        (hs.moved k hkg hk).1]
  intro p q hpq hq
  rw [hcell p (by omega), hcell q (by omega)]
  split_ifs with hp hq' hqg hpg hq' hqg hq' hqg
  · exact h p q hpq (by omega)
  · exact hsmall p hp
  · by_cases hpq1 : p = q - 1
    · rw [hpq1]
    · exact h p (q - 1) (by omega) (by omega)
  · omega
  · omega
  · exact Nat.le_of_lt (hs.moved q (by omega) (by omega)).2
  · omega
  · omega
  · exact h (p - 1) (q - 1) (by omega) (by omega)

/-- The sort leaves a sorted rearrangement of its cells. -/
theorem sort_spec (key : α → ℕ) (n : ℕ) (a : ℕ → α) :
    SortedTo key n (sort key n a) ∧ Rearranged n a (sort key n a) := by
  have hloop : ∀ m, SortedTo key (m + 1) ((List.range' 1 m).foldl (insertCell key) a) ∧
      Rearranged (m + 1) a ((List.range' 1 m).foldl (insertCell key) a) := by
    intro m
    induction m with
    | zero => exact ⟨fun p q hpq hq => by omega, Rearranged.refl _ _⟩
    | succ m ih =>
      rw [List.range'_concat, List.foldl_append, List.foldl_cons, List.foldl_nil, Nat.one_mul,
        Nat.add_comm 1 m]
      exact ⟨insertCell_sorted ih.1, (ih.2.mono (by omega)).trans
        (insertCell_rearranged key _ _)⟩
  unfold sort
  by_cases hn : n = 0
  · subst hn
    exact ⟨fun p q _ hq => by omega, Rearranged.refl _ _⟩
  · have := hloop (n - 1)
    rwa [Nat.sub_add_cancel (by omega)] at this

end InPlaceSort
