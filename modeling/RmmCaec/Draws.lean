import Mathlib.Tactic
import Mathlib.Data.Finset.Card

/-!
# Bounded draws

A generator hands out values one after the other, and a caller takes the first
one that is not taken, giving up after a fixed number of attempts. The attempts
suffice as soon as they show more different values than are taken.
-/
namespace Draws

universe u v

variable {σ : Type u} {α : Type v}

/-- The values of the first `n` calls of a generator. -/
def values (gen : σ → σ × α) : ℕ → σ → List α
  | 0, _ => []
  | n + 1, s => (gen s).2 :: values gen n (gen s).1

/-- Draw until a value is not taken. When all attempts failed, one more value is drawn
and dropped. -/
def draw (gen : σ → σ × α) (taken : α → Bool) : ℕ → σ → σ × Option α
  | 0, s => ((gen s).1, none)
  | n + 1, s =>
    if taken (gen s).2 then draw gen taken n (gen s).1 else ((gen s).1, some (gen s).2)

variable {gen : σ → σ × α} {taken : α → Bool}

theorem length_values (n : ℕ) (s : σ) : (values gen n s).length = n := by
  induction n generalizing s with
  | zero => rfl
  | succ n ih => rw [values, List.length_cons, ih]

/-- A draw fails only if every value that was tried is taken. -/
theorem taken_of_draw_none {n : ℕ} {s : σ} (h : (draw gen taken n s).2 = none) :
    ∀ x ∈ values gen n s, taken x = true := by
  induction n generalizing s with
  | zero =>
    intro x hx
    cases hx
  | succ n ih =>
    intro x hx
    rw [draw] at h
    split at h
    · next ht =>
      rcases List.mem_cons.mp hx with rfl | hx
      · exact ht
      · exact ih h x hx
    · cases h

/-- What is drawn is not taken. -/
theorem free_of_draw_some {n : ℕ} {s : σ} {x : α} (h : (draw gen taken n s).2 = some x) :
    taken x = false ∧ x ∈ values gen n s := by
  induction n generalizing s with
  | zero => cases h
  | succ n ih =>
    rw [draw] at h
    split at h
    · obtain ⟨h1, h2⟩ := ih h
      exact ⟨h1, List.mem_cons_of_mem _ h2⟩
    · next ht =>
      cases h
      exact ⟨by simpa using ht, List.mem_cons_self⟩

/-- With more different values among the attempts than taken ones, a draw succeeds. -/
theorem draw_isSome [DecidableEq α] {T : Finset α} {n : ℕ} {s : σ}
    (hT : ∀ x, taken x = true → x ∈ T) (hcard : T.card < (values gen n s).toFinset.card) :
    (draw gen taken n s).2.isSome = true := by
  by_contra hnone
  rw [Option.not_isSome_iff_eq_none] at hnone
  have hsub : (values gen n s).toFinset ⊆ T := by
    intro x hx
    exact hT x (taken_of_draw_none hnone x (List.mem_toFinset.mp hx))
  have hle := Finset.card_le_card hsub
  omega

/-- What holds of everything that is generated. -/
theorem values_all {P : α → Prop} (hP : ∀ s, P (gen s).2) (n : ℕ) (s : σ) :
    ∀ x ∈ values gen n s, P x := by
  induction n generalizing s with
  | zero =>
    intro x hx
    cases hx
  | succ n ih =>
    intro x hx
    rcases List.mem_cons.mp hx with rfl | hx
    · exact hP s
    · exact ih _ x hx

/-- An invariant of the generator holds after a draw. -/
theorem draw_inv {I : σ → Prop} (hI : ∀ s, I s → I (gen s).1) (n : ℕ) {s : σ} (h : I s) :
    I (draw gen taken n s).1 := by
  induction n generalizing s with
  | zero => exact hI s h
  | succ n ih =>
    rw [draw]
    split
    · exact ih (hI s h)
    · exact hI s h

/-- A part of the state that the generator keeps is the same after a draw. -/
theorem draw_keeps {β : Type*} {f : σ → β} (hf : ∀ s, f (gen s).1 = f s) (n : ℕ) (s : σ) :
    f (draw gen taken n s).1 = f s := by
  induction n generalizing s with
  | zero => exact hf s
  | succ n ih =>
    rw [draw]
    split
    · rw [ih, hf]
    · exact hf s

/-- A generator that only looks at a part of its state. -/
theorem values_map {τ : Type*} {gen' : τ → τ × α} {f : σ → τ}
    (hf : ∀ s, gen' (f s) = (f (gen s).1, (gen s).2)) (n : ℕ) (s : σ) :
    values gen n s = values gen' n (f s) := by
  induction n generalizing s with
  | zero => rfl
  | succ n ih => rw [values, values, hf, ih]

end Draws
