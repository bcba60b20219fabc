import RmmCaec.Outcome

/-!
# Exact conditions for a return

A computation together with the condition under which it returns, and the rules by
which the condition of a program is put together from those of its parts. The
postcondition carries what the later parts need to know about the result.
-/
namespace Outcome

universe u v

variable {ε : Type u} {α β : Type v}

/-- The computation returns exactly if `C` holds, and then with a result that
satisfies `Q`. -/
def Exact (x : Except ε α) (C : Prop) (Q : α → Prop) : Prop :=
  Sat x (fun a => C ∧ Q a) fun _ => ¬ C

namespace Exact

variable {x y : Except ε α} {f : α → Except ε β} {C D : Prop} {Q Q' : α → Prop}
  {R : β → Prop}

theorem sat (h : Exact x C Q) : Sat x (fun a => C ∧ Q a) fun _ => ¬ C := h

theorem of_ok (h : Exact x C Q) {a : α} (hx : x = .ok a) : C ∧ Q a := h.sat.of_ok hx

theorem not_of_error (h : Exact x C Q) {e : ε} (hx : x = .error e) : ¬ C := h.sat.of_error hx

theorem returns_iff (h : Exact x C Q) : (∃ a, x = .ok a) ↔ C := by
  cases x with
  | ok a => exact ⟨fun _ => (h.of_ok rfl).1, fun _ => ⟨a, rfl⟩⟩
  | error e =>
    refine ⟨?_, fun hC => absurd hC (h.not_of_error rfl)⟩
    rintro ⟨a, ha⟩
    cases ha

theorem ok_of (h : Exact x C Q) (hC : C) : ∃ a, x = .ok a ∧ Q a := by
  obtain ⟨a, ha⟩ := h.returns_iff.mpr hC
  exact ⟨a, ha, (h.of_ok ha).2⟩

/-- A computation whose return is known from elsewhere. -/
theorem of_returns (hx : (∃ a, x = .ok a) ↔ C) (hQ : ∀ a, x = .ok a → Q a) :
    Exact x C Q := by
  cases x with
  | ok a => exact Sat.ok ⟨hx.mp ⟨a, rfl⟩, hQ a rfl⟩
  | error e =>
    refine Sat.error fun hC => ?_
    obtain ⟨a, ha⟩ := hx.mpr hC
    cases ha

theorem congr (h : Exact x C Q) (hC : C ↔ D) : Exact x D Q := by
  rwa [← propext hC]

theorem imp (h : Exact x C Q) (hQ : ∀ a, Q a → Q' a) : Exact x C Q' :=
  h.sat.imp fun a ha => ⟨ha.1, hQ a ha.2⟩

theorem ok {a : α} (h : Q a) : Exact (Except.ok a : Except ε α) True Q := Sat.ok ⟨trivial, h⟩

theorem pure {a : α} (h : Q a) : Exact (Pure.pure a : Except ε α) True Q := ok h

theorem error (e : ε) : Exact (Except.error e : Except ε α) False Q := Sat.error id

/-- A computation returns if its first part does and then the rest does. -/
theorem bind (hx : Exact x C Q) (hf : ∀ a, C → Q a → Exact (f a) D R) :
    Exact (x >>= f) (C ∧ D) R := by
  cases x with
  | ok a =>
    obtain ⟨hC, hQ⟩ := hx.of_ok rfl
    exact (hf a hC hQ).sat.mono (fun b hb => ⟨⟨hC, hb.1⟩, hb.2⟩) fun e he hc => he hc.2
  | error e => exact Sat.error fun hc => hx.not_of_error rfl hc.1

/-- The first part is known to return. -/
theorem ok_bind {a : α} (h : Exact (f a) D R) : Exact (Except.ok a >>= f) D R := h

theorem ite {c : Prop} [Decidable c] (ht : c → Exact x C Q) (he : ¬ c → Exact y D Q) :
    Exact (if c then x else y) ((c → C) ∧ (¬ c → D)) Q := by
  by_cases h : c
  · rw [if_pos h]
    exact (ht h).congr ⟨fun hC => ⟨fun _ => hC, fun hn => absurd h hn⟩, fun hc => hc.1 h⟩
  · rw [if_neg h]
    exact (he h).congr ⟨fun hD => ⟨fun hc => absurd hc h, fun _ => hD⟩, fun hc => hc.2 h⟩

/-- Both branches return under the same condition. -/
theorem ite_same {c : Prop} [Decidable c] (ht : c → Exact x C Q) (he : ¬ c → Exact y C Q) :
    Exact (if c then x else y) C Q := by
  by_cases h : c
  · rw [if_pos h]
    exact ht h
  · rw [if_neg h]
    exact he h

/-- What is known about every result holds of the results here. -/
theorem and_sat {E : ε → Prop} (h : Exact x C Q) (h' : Sat x Q' E) :
    Exact x C fun a => Q a ∧ Q' a := by
  cases x with
  | ok a => exact Sat.ok ⟨(h.of_ok rfl).1, (h.of_ok rfl).2, h'.of_ok rfl⟩
  | error e => exact Sat.error (h.not_of_error rfl)

/-- A fold returns if every step does. The invariant speaks about the elements already
processed. -/
theorem foldlM {σ : Type v} {step : σ → β → Except ε σ} {P : β → Prop}
    (I : List β → σ → Prop)
    (l : List β) {s : σ} (h0 : I [] s)
    (hstep : ∀ done b rest cur, l = done ++ b :: rest → I done cur →
      Exact (step cur b) (P b) (I (done ++ [b]))) :
    Exact (l.foldlM step s) (∀ b ∈ l, P b) (I l) := by
  have key : ∀ rest done cur, l = done ++ rest → I done cur →
      Exact (rest.foldlM step cur) (∀ b ∈ rest, P b) (I l) := by
    intro rest
    induction rest with
    | nil =>
      intro done cur hl hI
      rw [List.append_nil] at hl
      subst hl
      exact (pure hI).congr (by simp)
    | cons b rest ih =>
      intro done cur hl hI
      rw [List.foldlM_cons]
      refine (bind (hstep done b rest cur hl hI) fun next _ hnext => ?_).congr
        List.forall_mem_cons.symm
      exact ih (done ++ [b]) next (by simp [hl]) hnext
  exact key l [] s rfl h0

end Exact

-- the rules say all that is needed
attribute [irreducible] Exact

end Outcome
