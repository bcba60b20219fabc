import Mathlib.Tactic

/-!
# Outcomes of fallible computations

A postcondition on results together with a condition on errors, and the rules
by which it passes through a computation in the `Except` monad. The rule for
folds carries an invariant indexed by the part of the list already processed,
so that one statement covers a completed loop and a loop that stops at an error.
-/
namespace Outcome

universe u v

variable {ε : Type u} {α β : Type v}

/-- A result satisfies `Q`, an error satisfies `E`. -/
def Sat (x : Except ε α) (Q : α → Prop) (E : ε → Prop) : Prop :=
  match x with
  | .ok a => Q a
  | .error e => E e

theorem ok_bind_eq (a : α) (f : α → Except ε β) : (Except.ok a >>= f) = f a := rfl

theorem ok_of_map {x : Except ε α} {f : α → β} {b : β} (h : x.map f = .ok b) :
    ∃ a, x = .ok a ∧ f a = b := by
  cases x with
  | ok a => exact ⟨a, rfl, Except.ok.inj h⟩
  | error e => cases h

namespace Sat

variable {x : Except ε α} {f : α → Except ε β} {Q Q' : α → Prop} {R : β → Prop}
  {E E' : ε → Prop}

theorem of_ok {a : α} (h : Sat x Q E) (hx : x = .ok a) : Q a := by
  subst hx
  exact h

theorem of_error {e : ε} (h : Sat x Q E) (hx : x = .error e) : E e := by
  subst hx
  exact h

theorem of_eq {a : α} (hx : x = .ok a) (h : Q a) : Sat x Q E := by
  subst hx
  exact h

theorem pure {a : α} (h : Q a) : Sat (Pure.pure a : Except ε α) Q E := h

theorem ok {a : α} (h : Q a) : Sat (Except.ok a) Q E := h

theorem error {e : ε} (h : E e) : Sat (Except.error e) Q E := h

theorem mono (h : Sat x Q E) (hQ : ∀ a, Q a → Q' a) (hE : ∀ e, E e → E' e) :
    Sat x Q' E' := by
  cases x with
  | ok a => exact hQ a h
  | error e => exact hE e h

theorem imp (h : Sat x Q E) (hQ : ∀ a, Q a → Q' a) : Sat x Q' E :=
  h.mono hQ fun _ he => he

theorem and (h : Sat x Q E) (h' : Sat x Q' E') :
    Sat x (fun a => Q a ∧ Q' a) fun e => E e ∧ E' e := by
  cases x with
  | ok a => exact ⟨h, h'⟩
  | error e => exact ⟨h, h'⟩

/-- A computation satisfies what it yields by itself. -/
theorem self (h : ∀ e, x = .error e → E e) : Sat x (fun a => x = .ok a) E := by
  cases x with
  | ok a => rfl
  | error e => exact h e rfl

/-- What holds of the result holds of it as the result. -/
theorem withEq (h : Sat x Q E) : Sat x (fun a => x = .ok a ∧ Q a) E := by
  cases x with
  | ok a => exact ⟨rfl, h⟩
  | error e => exact h

theorem bind (hx : Sat x Q E) (hf : ∀ a, Q a → Sat (f a) R E) : Sat (x >>= f) R E := by
  cases x with
  | ok a => exact hf a hx
  | error e => exact hx

theorem ok_bind {a : α} (h : Sat (f a) R E) : Sat (Except.ok a >>= f) R E := h

theorem error_bind {e : ε} (h : E e) : Sat (Except.error e >>= f) R E := h

theorem ite {c : Prop} [Decidable c] {y : Except ε α} (ht : c → Sat x Q E)
    (he : ¬ c → Sat y Q E) : Sat (if c then x else y) Q E := by
  by_cases h : c
  · rw [if_pos h]
    exact ht h
  · rw [if_neg h]
    exact he h

/-- The invariant of a fold speaks about the elements already processed. -/
theorem foldlM {σ : Type v} {step : σ → β → Except ε σ}
    (I : List β → σ → Prop) (l : List β)
    {s : σ} (h0 : I [] s)
    (hstep : ∀ done b rest cur, l = done ++ b :: rest → I done cur →
      Sat (step cur b) (I (done ++ [b])) E) :
    Sat (l.foldlM step s) (I l) E := by
  have key : ∀ rest done cur, l = done ++ rest → I done cur →
      Sat (rest.foldlM step cur) (I l) E := by
    intro rest
    induction rest with
    | nil =>
      intro done cur hl hI
      rw [List.append_nil] at hl
      subst hl
      exact pure hI
    | cons b rest ih =>
      intro done cur hl hI
      rw [List.foldlM_cons]
      refine bind (hstep done b rest cur hl hI) fun next hnext => ?_
      exact ih (done ++ [b]) next (by simp [hl]) hnext
  exact key l [] s rfl h0

/-- A fold with an invariant that does not look at the list. -/
theorem foldlM_inv {σ : Type v} {step : σ → β → Except ε σ} {I : σ → Prop}
    {l : List β} {s : σ}
    (h0 : I s) (hstep : ∀ b ∈ l, ∀ cur, I cur → Sat (step cur b) I E) :
    Sat (l.foldlM step s) I E := by
  refine foldlM (fun _ => I) l h0 fun done b rest cur hl hI => ?_
  exact hstep b (by simp [hl]) cur hI

end Sat

-- from here on only the rules are used: evaluating a computation is never wanted
attribute [irreducible] Sat

end Outcome
