import Mathlib.Tactic

/-!
# Removing the first match

A table of `n` cells, each with a key and a mark that it is in use. A removal by key
clears the first used cell with that key. After a list of removals a cell is still in
use if and only if the list holds its key at most as often as there are used cells with
that key before it, and each removal finds the cell whose number among them is the
number of earlier removals of the key.
-/
namespace FirstMatch

section
variable {κ : Type} [DecidableEq κ] (n : ℕ) (key : ℕ → κ)

/-- The first used cell with a key. -/
def first (used : ℕ → Bool) (k : κ) : Option ℕ :=
  (List.range n).find? fun i => used i && key i == k

def removeFirst (used : ℕ → Bool) (k : κ) : ℕ → Bool :=
  match first n key used k with
  | none => used
  | some i => Function.update used i false

/-- The number of used cells before a cell that have its key. -/
def rank (used : ℕ → Bool) (i : ℕ) : ℕ :=
  ((Finset.range i).filter fun j => used j = true ∧ key j = key i).card

variable {n key} {used : ℕ → Bool} {i : ℕ} {k : κ}

theorem rank_eq_zero_iff : rank key used i = 0 ↔ ∀ j < i, used j = true →
    key j ≠ key i := by
  rw [rank, Finset.card_eq_zero, Finset.filter_eq_empty_iff]
  simp

theorem first_eq_some_iff :
    first n key used k = some i ↔ i < n ∧ used i = true ∧ key i = k ∧
      rank key used i = 0 := by
  rw [first, List.find?_range_eq_some, rank_eq_zero_iff]
  simp only [Bool.and_eq_true, beq_iff_eq, List.mem_range, Bool.not_eq_true', Bool.and_eq_false_iff,
    beq_eq_false_iff_ne]
  constructor
  · rintro ⟨⟨hu, rfl⟩, hi, hj⟩
    exact ⟨hi, hu, rfl, fun j hji huj => (hj j hji).resolve_left (by simp [huj])⟩
  · rintro ⟨hi, hu, rfl, hj⟩
    refine ⟨⟨hu, rfl⟩, hi, fun j hji => ?_⟩
    cases huj : used j with
    | false => exact .inl rfl
    | true => exact .inr (hj j hji huj)

theorem first_eq_none_iff : first n key used k = none ↔ ∀ j < n, used j = true →
    key j ≠ k := by
  rw [first, List.find?_range_eq_none]
  refine forall₂_congr fun j _ => ?_
  cases used j <;> simp

/-- Keys of cells that are not used do not matter. -/
theorem first_congr {key' : ℕ → κ} (h : ∀ j < n, used j = true → key' j = key j) (k : κ) :
    first n key' used k = first n key used k := by
  unfold first
  refine List.find?_congr fun j hj => ?_
  rw [List.mem_range] at hj
  cases hu : used j with
  | false => rfl
  | true => rw [h j hj hu]

theorem removeFirst_of_ne (h : key i ≠ k) : removeFirst n key used k i = used i := by
  unfold removeFirst
  cases hf : first n key used k with
  | none => rfl
  | some j =>
    obtain ⟨-, -, hk, -⟩ := first_eq_some_iff.mp hf
    refine Function.update_of_ne ?_ _ _
    rintro rfl
    exact h hk

/-- The first cell with the key is cleared, the later ones are not. -/
theorem removeFirst_self (hi : i < n) :
    removeFirst n key used (key i) i = true ↔ used i = true ∧ 0 < rank key used i := by
  unfold removeFirst
  cases hf : first n key used (key i) with
  | none =>
    have hu : used i ≠ true := fun hc => first_eq_none_iff.mp hf i hi hc rfl
    simp [hu]
  | some j =>
    obtain ⟨hj, huj, hk, hr⟩ := first_eq_some_iff.mp hf
    by_cases hij : i = j
    · subst hij
      simp [hr]
    · simp only [Function.update_of_ne hij]
      refine (and_iff_left_of_imp fun hu => ?_).symm
      by_contra hc
      have h0 : rank key used i = 0 := by omega
      rcases Nat.lt_or_gt_of_ne hij with hlt | hlt
      · exact rank_eq_zero_iff.mp hr i hlt hu hk.symm
      · exact rank_eq_zero_iff.mp h0 j hlt huj hk

theorem rank_removeFirst_of_ne (h : key i ≠ k) :
    rank key (removeFirst n key used k) i = rank key used i := by
  unfold rank
  congr 1
  refine Finset.filter_congr fun j _ => ?_
  refine and_congr_left fun hj => ?_
  rw [removeFirst_of_ne (hj ▸ h)]

theorem rank_removeFirst_self (hi : i < n) (h : 0 < rank key used i) :
    rank key (removeFirst n key used (key i)) i + 1 = rank key used i := by
  obtain ⟨j, hj⟩ : ∃ j, first n key used (key i) = some j := by
    refine Option.ne_none_iff_exists'.mp fun hc => ?_
    rw [first_eq_none_iff] at hc
    have : rank key used i = 0 := rank_eq_zero_iff.mpr fun j hj hu => hc j (hj.trans hi) hu
    omega
  obtain ⟨-, huj, hk, hr⟩ := first_eq_some_iff.mp hj
  have hji : j < i := by
    by_contra hc
    obtain ⟨l, hl⟩ := Finset.card_pos.mp h
    rw [Finset.mem_filter, Finset.mem_range] at hl
    exact rank_eq_zero_iff.mp hr l (by omega) hl.2.1 (hl.2.2.trans hk.symm)
  have herase : ((Finset.range i).filter fun l =>
      removeFirst n key used (key i) l = true ∧ key l = key i) =
        ((Finset.range i).filter fun l => used l = true ∧ key l = key i).erase j := by
    ext l
    rw [Finset.mem_filter, Finset.mem_erase, Finset.mem_filter, removeFirst, hj]
    by_cases hl : l = j
    · simp [hl]
    · simp [hl]
  unfold rank
  rw [herase, Finset.card_erase_add_one]
  rw [Finset.mem_filter, Finset.mem_range]
  exact ⟨hji, huj, hk⟩

theorem foldl_removeFirst (ks : List κ) (used : ℕ → Bool) (hi : i < n) :
    (ks.foldl (removeFirst n key) used i = true ↔
      used i = true ∧ ks.count (key i) ≤ rank key used i) ∧
    (used i = true → ks.count (key i) ≤ rank key used i →
      rank key (ks.foldl (removeFirst n key) used) i + ks.count (key i) = rank key used i) := by
  induction ks generalizing used with
  | nil => simp
  | cons k ks ih =>
    obtain ⟨h1, h2⟩ := ih (removeFirst n key used k)
    rw [List.foldl_cons]
    by_cases hk : key i = k
    · subst hk
      rw [List.count_cons_self]
      by_cases hr : 0 < rank key used i
      · have hdec := rank_removeFirst_self hi hr
        refine ⟨?_, fun hu hc => ?_⟩
        · rw [h1, removeFirst_self hi]
          refine ⟨fun ⟨⟨hu, _⟩, hc⟩ => ⟨hu, by omega⟩,
            fun ⟨hu, hc⟩ => ⟨⟨hu, hr⟩, by omega⟩⟩
        · have := h2 ((removeFirst_self hi).mpr ⟨hu, hr⟩) (by omega)
          omega
      · refine ⟨?_, fun _ hc => by omega⟩
        rw [h1, removeFirst_self hi]
        exact ⟨fun ⟨⟨_, hc⟩, _⟩ => absurd hc hr, fun ⟨_, hc⟩ => by omega⟩
    · rw [List.count_cons_of_ne (Ne.symm hk), ← @rank_removeFirst_of_ne κ _ n key used i k hk,
        ← @removeFirst_of_ne κ _ n key used i k hk]
      exact ⟨h1, h2⟩

/-- A removal after others finds the cell whose rank is the number of earlier removals. -/
theorem first_foldl (ks : List κ) : first n key (ks.foldl (removeFirst n key) used) k = some i ↔
    i < n ∧ used i = true ∧ key i = k ∧ rank key used i = ks.count k := by
  rw [first_eq_some_iff]
  refine and_congr_right fun hi => ?_
  obtain ⟨h1, h2⟩ := @foldl_removeFirst κ _ n key i ks used hi
  rw [h1]
  constructor
  · rintro ⟨⟨hu, hc⟩, rfl, h0⟩
    have := h2 hu hc
    exact ⟨hu, rfl, by omega⟩
  · rintro ⟨hu, rfl, hr⟩
    have := h2 hu hr.ge
    exact ⟨⟨hu, hr.ge⟩, rfl, by omega⟩

end

/-- If every step of a fold acts on each cell of a family by itself, then so does the fold. -/
theorem foldl_apply {ι α β : Type} (step : (ι → β) → α → ι → β)
    (at_ : ι → β → α → β)
    (h : ∀ m x g, step m x g = at_ g (m g) x) (l : List α) (m : ι → β) (g : ι) :
    l.foldl step m g = l.foldl (at_ g) (m g) := by
  induction l generalizing m with
  | nil => rfl
  | cons x l ih => rw [List.foldl_cons, List.foldl_cons, ih, h]

end FirstMatch
