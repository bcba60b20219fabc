import Mathlib.Data.Finset.Basic
import Mathlib.Data.Finset.Lattice.Lemmas
import Mathlib.Data.List.Basic

/-!
# Traces of locks

What a sequential program does to its locks, as the list of its operations. A lock that
is held cannot be taken again, so the locks that are held are a set, but nothing stops
a program from releasing a lock that it does not hold. A trace that never does so is
disciplined, and one that also releases every lock takes and releases each lock equally
often.
-/
namespace LockTrace

inductive LockOp (α : Type)
  | lock (g : α)
  | unlock (g : α)
  deriving DecidableEq, Repr

section
variable {α : Type}

/-- Take and release each lock of a list in turn. -/
def sections (gs : List α) : List (LockOp α) := gs.flatMap fun g => [.lock g, .unlock g]

theorem sections_nil : sections ([] : List α) = [] := rfl

theorem sections_cons (g : α) (gs : List α) :
    sections (g :: gs) = .lock g :: .unlock g :: sections gs := rfl

/-- The locks that a trace takes, in their order. -/
def taken (trace : List (LockOp α)) : List α :=
  trace.filterMap fun
    | .lock g => some g
    | .unlock _ => none

@[simp] theorem taken_nil : taken ([] : List (LockOp α)) = [] := rfl

@[simp] theorem taken_append (trace trace' : List (LockOp α)) :
    taken (trace ++ trace') = taken trace ++ taken trace' := List.filterMap_append

@[simp] theorem taken_lock (g : α) (trace : List (LockOp α)) :
    taken (.lock g :: trace) = g :: taken trace := rfl

@[simp] theorem taken_unlock (g : α) (trace : List (LockOp α)) :
    taken (.unlock g :: trace) = taken trace := rfl

@[simp] theorem taken_locks (gs : List α) : taken (gs.map .lock) = gs := by
  induction gs with
  | nil => rfl
  | cons g gs ih => simp [ih]

@[simp] theorem taken_unlocks (gs : List α) : taken (gs.map .unlock) = [] := by
  induction gs with
  | nil => rfl
  | cons g gs ih => simp [ih]

/-- Take locks, do something that leaves them, and release them again, the last one first. -/
def nested (gs : List α) (body : List (LockOp α)) : List (LockOp α) :=
  gs.map .lock ++ body ++ gs.reverse.map .unlock

theorem taken_nested (gs : List α) (body : List (LockOp α)) :
    taken (nested gs body) = gs ++ taken body := by
  simp [nested, -List.map_reverse]

theorem nested_cons (g : α) (gs : List α) (body : List (LockOp α)) :
    nested (g :: gs) body = .lock g :: (nested gs body ++ [.unlock g]) := by
  simp [nested]

variable [DecidableEq α]

/-- The locks that are held after an operation. -/
def LockOp.apply (held : Finset α) : LockOp α → Finset α
  | .lock g => insert g held
  | .unlock g => held.erase g

/-- A free lock is taken, or a lock that is held is released. -/
def LockOp.Allowed (held : Finset α) : LockOp α → Prop
  | .lock g => g ∉ held
  | .unlock g => g ∈ held

/-- The locks that are held after a trace. -/
def heldAfter (held : Finset α) (trace : List (LockOp α)) : Finset α :=
  trace.foldl LockOp.apply held

/-- Every operation of the trace is allowed where it happens. -/
def Disciplined : Finset α → List (LockOp α) → Prop
  | _, [] => True
  | held, op :: rest => op.Allowed held ∧ Disciplined (op.apply held) rest

instance (held : Finset α) (op : LockOp α) : Decidable (op.Allowed held) :=
  match op with
  | .lock g => inferInstanceAs (Decidable (g ∉ held))
  | .unlock g => inferInstanceAs (Decidable (g ∈ held))

instance decidableDisciplined : (held : Finset α) → (trace : List (LockOp α)) →
    Decidable (Disciplined held trace)
  | _, [] => .isTrue trivial
  | held, op :: rest =>
    have := decidableDisciplined (op.apply held) rest
    inferInstanceAs (Decidable (op.Allowed held ∧ Disciplined (op.apply held) rest))

variable {held held' : Finset α} {trace trace' : List (LockOp α)}

@[simp] theorem heldAfter_nil (held : Finset α) : heldAfter held [] = held := rfl

@[simp] theorem heldAfter_cons (held : Finset α) (op : LockOp α) (trace : List (LockOp α)) :
    heldAfter held (op :: trace) = heldAfter (op.apply held) trace := rfl

@[simp] theorem heldAfter_append (held : Finset α) (trace trace' : List (LockOp α)) :
    heldAfter held (trace ++ trace') = heldAfter (heldAfter held trace) trace' :=
  List.foldl_append

@[simp] theorem disciplined_nil (held : Finset α) : Disciplined held [] := trivial

@[simp] theorem disciplined_cons (held : Finset α) (op : LockOp α) (trace : List (LockOp α)) :
    Disciplined held (op :: trace) ↔ op.Allowed held ∧ Disciplined (op.apply held) trace :=
  Iff.rfl

@[simp] theorem disciplined_append (held : Finset α) (trace trace' : List (LockOp α)) :
    Disciplined held (trace ++ trace') ↔
      Disciplined held trace ∧ Disciplined (heldAfter held trace) trace' := by
  induction trace generalizing held with
  | nil => simp
  | cons op rest ih => simp [ih, and_assoc]

/-- Releasing a lock that is not held is never disciplined. -/
theorem not_disciplined_of_unlock {g : α} (h : g ∉ heldAfter held trace)
    (rest : List (LockOp α)) :
    ¬ Disciplined held (trace ++ .unlock g :: rest) := by
  rw [disciplined_append, disciplined_cons]
  exact fun hd => h hd.2.1

/-- A disciplined trace takes each lock as often as it releases it, up to the locks that
are held before and after. -/
theorem Disciplined.count_eq (h : Disciplined held trace) (g : α) :
    trace.count (.lock g) + (if g ∈ held then 1 else 0) =
      trace.count (.unlock g) + if g ∈ heldAfter held trace then 1 else 0 := by
  induction trace generalizing held with
  | nil => rw [List.count_nil, List.count_nil, heldAfter_nil]
  | cons op rest ih =>
    obtain ⟨hop, hrest⟩ := h
    have hcount := ih hrest
    rw [heldAfter_cons]
    cases op with
    | lock x =>
      change x ∉ held at hop
      rw [show LockOp.apply held (.lock x) = insert x held from rfl] at hcount ⊢
      by_cases hx : x = g
      · subst hx
        simp only [Finset.mem_insert_self, if_true] at hcount
        simp only [List.count_cons, hop, if_false, beq_self_eq_true, if_true, Nat.add_zero]
        rw [if_neg (by simp)]
        omega
      · simp only [Finset.mem_insert, Ne.symm hx, false_or] at hcount
        simpa [List.count_cons, hx] using hcount
    | unlock x =>
      change x ∈ held at hop
      rw [show LockOp.apply held (.unlock x) = held.erase x from rfl] at hcount ⊢
      by_cases hx : x = g
      · subst hx
        simp only [Finset.notMem_erase, if_false] at hcount
        simp only [List.count_cons, hop, if_true, beq_self_eq_true]
        rw [if_neg (by simp)]
        omega
      · simp only [Finset.mem_erase, Ne.symm hx, not_false_eq_true, ne_eq, true_and] at hcount
        simpa [List.count_cons, hx] using hcount

/-- A disciplined trace that starts and ends without locks releases each lock exactly as
often as it takes it. -/
theorem Disciplined.balanced (h : Disciplined ∅ trace)
    (hend : heldAfter ∅ trace = ∅) (g : α) :
    trace.count (.lock g) = trace.count (.unlock g) := by
  have := h.count_eq g
  rw [hend] at this
  simpa using this

@[simp] theorem heldAfter_sections (gs : List α) : heldAfter ∅ (sections gs) = ∅ := by
  induction gs with
  | nil => rfl
  | cons g gs ih => simpa [sections_cons, LockOp.apply] using ih

@[simp] theorem disciplined_sections (gs : List α) : Disciplined ∅ (sections gs) := by
  induction gs with
  | nil => trivial
  | cons g gs ih => simpa [sections_cons, LockOp.apply, LockOp.Allowed] using ih

@[simp] theorem heldAfter_unlocks (gs : List α) :
    heldAfter ∅ (gs.map .unlock) = (∅ : Finset α) := by
  induction gs with
  | nil => rfl
  | cons g gs ih => simpa [LockOp.apply] using ih

theorem heldAfter_locks (held : Finset α) (gs : List α) :
    heldAfter held (gs.map .lock) = held ∪ gs.toFinset := by
  induction gs generalizing held with
  | nil => simp
  | cons g gs ih =>
    rw [List.map_cons, heldAfter_cons, ih, List.toFinset_cons, LockOp.apply, Finset.insert_union,
      Finset.union_insert]

theorem disciplined_locks {gs : List α} (hnd : gs.Nodup) (hfree : ∀ g ∈ gs, g ∉ held) :
    Disciplined held (gs.map .lock) := by
  induction gs generalizing held with
  | nil => trivial
  | cons g gs ih =>
    obtain ⟨hg, hnd⟩ := List.nodup_cons.mp hnd
    refine ⟨hfree g (List.mem_cons_self ..), ih hnd fun x hx => ?_⟩
    have hxg : x ≠ g := by
      rintro rfl
      exact hg hx
    simpa [LockOp.apply, hxg] using hfree x (List.mem_cons_of_mem _ hx)

/-- Locks that are held can be released in any order. -/
theorem disciplined_unlocks {gs : List α} (hnd : gs.Nodup) (hheld : ∀ g ∈ gs, g ∈ held) :
    Disciplined held (gs.map .unlock) ∧ heldAfter held (gs.map .unlock) = held \ gs.toFinset := by
  induction gs generalizing held with
  | nil => simp
  | cons g gs ih =>
    obtain ⟨hg, hnd⟩ := List.nodup_cons.mp hnd
    obtain ⟨hdis, hafter⟩ := @ih (held.erase g) hnd fun x hx => by
      have hxg : x ≠ g := by
        rintro rfl
        exact hg hx
      simpa [hxg] using hheld x (List.mem_cons_of_mem _ hx)
    rw [List.map_cons, disciplined_cons, heldAfter_cons, LockOp.apply, hafter, List.toFinset_cons]
    exact ⟨⟨hheld g (List.mem_cons_self ..), hdis⟩, by grind⟩

/-- Nested locks are disciplined and end as they began, if what is done inside is. -/
theorem nested_disciplined {gs : List α} {body : List (LockOp α)} (hnd : gs.Nodup)
    (hfree : ∀ g ∈ gs, g ∉ held) (hbody : Disciplined (held ∪ gs.toFinset) body)
    (hkeep : heldAfter (held ∪ gs.toFinset) body = held ∪ gs.toFinset) :
    Disciplined held (nested gs body) ∧ heldAfter held (nested gs body) = held := by
  induction gs generalizing held with
  | nil =>
    rw [List.toFinset_nil, Finset.union_empty] at hbody hkeep
    simpa [nested] using And.intro hbody hkeep
  | cons g gs ih =>
    obtain ⟨hg, hnd⟩ := List.nodup_cons.mp hnd
    have hgh := hfree g (List.mem_cons_self ..)
    have hsets : insert g held ∪ gs.toFinset = held ∪ (g :: gs).toFinset := by
      rw [List.toFinset_cons, Finset.insert_union, Finset.union_insert]
    obtain ⟨hdis, hafter⟩ := @ih (insert g held) hnd
      (fun x hx => by
        have hxg : x ≠ g := by
          rintro rfl
          exact hg hx
        simpa [hxg] using hfree x (List.mem_cons_of_mem _ hx))
      (by rwa [hsets]) (by rwa [hsets])
    rw [nested_cons, disciplined_cons, heldAfter_cons, disciplined_append, heldAfter_append]
    simp only [LockOp.apply, hafter]
    refine ⟨⟨hgh, hdis, Finset.mem_insert_self g held, trivial⟩, ?_⟩
    exact Finset.erase_insert hgh

end

end LockTrace
