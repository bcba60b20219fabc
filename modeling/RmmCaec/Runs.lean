import Mathlib.Tactic

/-!
# Runs of a transition system

States that are reached by steps which all satisfy a guard on the state before
the step and the action taken. The guard says under which conditions a law holds
over whole runs; without a guard these are the reachable states.
-/
namespace Runs

universe u v

variable {σ : Type u} {ι : Type v}

inductive Reach (init : σ) (next : σ → ι → σ → Prop)
  (guard : σ → ι → Prop) : σ → Prop
  | init : Reach init next guard init
  | step {s : σ} {a : ι} {s' : σ} (before : Reach init next guard s) (allowed : guard s a)
      (taken : next s a s') : Reach init next guard s'

namespace Reach

variable {init : σ} {next : σ → ι → σ → Prop} {guard guard' : σ → ι → Prop} {s : σ}

theorem mono (h : Reach init next guard s) (hg : ∀ s a, guard s a → guard' s a) :
    Reach init next guard' s := by
  induction h with
  | init => exact .init
  | step _ allowed taken ih => exact .step ih (hg _ _ allowed) taken

theorem trans {s' : σ} (h : Reach init next guard s) (h' : Reach s next guard s') :
    Reach init next guard s' := by
  induction h' with
  | init => exact h
  | step _ allowed taken ih => exact .step ih allowed taken

/-- What holds at the start and is kept by every allowed step of a reached state
holds in every reached state. -/
theorem invariant {I : σ → Prop} (h0 : I init)
    (hstep : ∀ s a s', Reach init next guard s → I s → guard s a → next s a s' → I s')
    (h : Reach init next guard s) : I s := by
  induction h with
  | init => exact h0
  | step before allowed taken ih => exact hstep _ _ _ before ih allowed taken

end Reach

/-- A run through a list of actions. -/
inductive Path (next : σ → ι → σ → Prop) : σ → List ι → σ → Prop
  | nil {s : σ} : Path next s [] s
  | cons {s : σ} {a : ι} {s1 : σ} {as : List ι} {s' : σ} (taken : next s a s1)
      (rest : Path next s1 as s') : Path next s (a :: as) s'

theorem Path.append {next : σ → ι → σ → Prop} {s t u : σ} {as bs : List ι}
    (h : Path next s as t)
    (h' : Path next t bs u) : Path next s (as ++ bs) u := by
  induction h with
  | nil => exact h'
  | cons taken _ ih => exact .cons taken (ih h')

/-- What every step with an action of some kind keeps is kept by a run with such actions. -/
theorem Path.keeps {next : σ → ι → σ → Prop} (kind : ι → Prop)
    (I : σ → Prop) {s s' : σ}
    {as : List ι} (hstep : ∀ s a s', kind a → next s a s' → I s → I s')
    (h : Path next s as s') (has : ∀ a ∈ as, kind a) (hs : I s) : I s' := by
  induction h with
  | nil => exact hs
  | cons taken _ ih =>
    exact ih (fun a ha => has a (List.mem_cons_of_mem _ ha))
      (hstep _ _ _ (has _ List.mem_cons_self) taken hs)

end Runs
