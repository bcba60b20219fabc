import RmmCaec.LockTrace
import RmmCaec.PageReturns

/-!
# Handlers that log their locks

The other modules model the lock of a granule only where a handler would wait for itself.
Here every operation on a lock is kept in a trace, also a release of a lock that is not
held: only an assertion stops it, and a build without assertions clears the lock bit
once more.
-/
namespace RmmCaec

open RadixForest Outcome Runs LockTrace

/-- What a handler has done to the locks of granules. -/
abbrev Trace := List (LockOp Word)

/-- Spin until the lock is free. -/
def granuleBitlockAcquire (tr : Trace) (addr : Word) : Rmm Trace :=
  if addr ∈ heldAfter ∅ tr then .error .deadlock else .ok (tr ++ [.lock addr])

def findLockGranuleTraced (plat : Platform) (s : State) (tr : Trace) (addr : Word)
    (expected : GranuleState) : Rmm (Bool × Trace) := do
  if !findGranule plat addr then return (false, tr)
  else
    let tr ← granuleBitlockAcquire tr addr
    if (s.granule addr).state ≠ expected then return (false, tr ++ [.unlock addr])
    else return (true, tr)

def granuleLockTraced (s : State) (tr : Trace) (addr : Word) (expected : GranuleState) :
    Rmm Trace := do
  let tr ← granuleBitlockAcquire tr addr
  assertThat ((s.granule addr).state == expected) .lockState
  return tr

/-- Release a lock. That it is held is not checked here: the trace shows it. -/
def granuleUnlockTraced (s : State) (tr : Trace) (addr : Word) : Rmm Trace := do
  assertThat (unlockedInvariant (s.granule addr)) .unlockInvariant
  return tr ++ [.unlock addr]

def granuleUnlockTransitionTraced (s : State) (tr : Trace) (addr : Word) (state : GranuleState) :
    Rmm (State × Trace) := do
  let s' := s.setState addr state
  let tr ← granuleUnlockTraced s' tr addr
  return (s', tr)

/-- Lock a sorted list of granules. A duplicate and a granule that cannot be locked
release those that were taken, the last one first. -/
def findLockGranulesTraced (plat : Platform) (s : State) :
    List (Word × GranuleState) → List Word → Trace → Rmm (Bool × Trace)
  | [], _, tr => .ok (true, tr)
  | (addr, expected) :: rest, taken, tr => do
    if taken.head? = some addr then
      let tr ← taken.foldlM (granuleUnlockTraced s) tr
      return (false, tr)
    else
      let (found, tr) ← findLockGranuleTraced plat s tr addr expected
      if !found then
        let tr ← taken.foldlM (granuleUnlockTraced s) tr
        return (false, tr)
      else findLockGranulesTraced plat s rest (addr :: taken) tr

def findLockTwoGranulesTraced (plat : Platform) (s : State) (tr : Trace) (addr1 : Word)
    (expected1 : GranuleState) (addr2 : Word) (expected2 : GranuleState) : Rmm (Bool × Trace) :=
  findLockGranulesTraced plat s
    (List.insertionSort (fun a b => a.1 ≤ b.1) [(addr1, expected1), (addr2, expected2)]) [] tr

section
variable {plat : Platform} {s : State} {tr : Trace} {addr : Word} {expected : GranuleState}

theorem granuleBitlockAcquire_ok (h : addr ∉ heldAfter ∅ tr) :
    granuleBitlockAcquire tr addr = .ok (tr ++ [.lock addr]) := if_neg h

/-- The operations of a failed attempt to lock a granule. -/
def probe (plat : Platform) (addr : Word) : Trace :=
  if findGranule plat addr then [.lock addr, .unlock addr] else []

@[simp] theorem heldAfter_probe (plat : Platform) (addr : Word) :
    heldAfter ∅ (probe plat addr) = ∅ := by
  unfold probe
  split
  · simp [LockOp.apply]
  · rfl

@[simp] theorem disciplined_probe (plat : Platform) (addr : Word) :
    Disciplined ∅ (probe plat addr) := by
  unfold probe
  split
  · simp [LockOp.apply, LockOp.Allowed]
  · trivial

theorem findLockGranuleTraced_ok (h : addr ∉ heldAfter ∅ tr) :
    findLockGranuleTraced plat s tr addr expected =
      .ok (if lockable plat s addr expected then (true, tr ++ [.lock addr])
        else (false, tr ++ probe plat addr)) := by
  unfold findLockGranuleTraced lockable probe
  cases hg : findGranule plat addr with
  | false => simp [pure, Except.pure]
  | true =>
    rw [granuleBitlockAcquire_ok h]
    by_cases hst : (s.granule addr).state = expected
    · simp [hst, bind, Except.bind, pure, Except.pure]
    · simp [hst, bind, Except.bind, pure, Except.pure]

theorem granuleLockTraced_ok (h : addr ∉ heldAfter ∅ tr)
    (hst : (s.granule addr).state = expected) :
    granuleLockTraced s tr addr expected = .ok (tr ++ [.lock addr]) := by
  unfold granuleLockTraced
  rw [granuleBitlockAcquire_ok h]
  simp [assertThat, hst, bind, Except.bind, pure, Except.pure]

theorem granuleUnlockTraced_ok (tr : Trace) (h : unlockedInvariant (s.granule addr) = true) :
    granuleUnlockTraced s tr addr = .ok (tr ++ [.unlock addr]) := by
  unfold granuleUnlockTraced
  rw [h]
  rfl

theorem granuleUnlockTransitionTraced_ok {st : GranuleState} (tr : Trace)
    (h : unlockedInvariant ⟨st, (s.granule addr).refcount⟩ = true) :
    granuleUnlockTransitionTraced s tr addr st =
      .ok (s.setState addr st, tr ++ [.unlock addr]) := by
  have hinv : unlockedInvariant ((s.setState addr st).granule addr) = true := by
    simpa [State.setState] using h
  have hunlock := granuleUnlockTraced_ok tr hinv
  simp [granuleUnlockTransitionTraced, hunlock, bind, Except.bind, pure, Except.pure]

theorem granuleUnlocksTraced_ok {addrs : List Word}
    (h : ∀ a ∈ addrs, unlockedInvariant (s.granule a) = true) (tr : Trace) :
    addrs.foldlM (granuleUnlockTraced s) tr = .ok (tr ++ addrs.map .unlock) := by
  induction addrs generalizing tr with
  | nil => simp [pure, Except.pure]
  | cons a rest ih =>
    rw [List.foldlM_cons, granuleUnlockTraced_ok tr (h a (List.mem_cons_self ..))]
    change rest.foldlM (granuleUnlockTraced s) (tr ++ [.unlock a]) = _
    rw [ih (fun x hx => h x (List.mem_cons_of_mem _ hx)), List.append_assoc]
    rfl

/-- Two granules that are locked in the order of their addresses. -/
theorem findLockGranulesTraced_two {a b : Word} {ea eb : GranuleState}
    (htr : heldAfter ∅ tr = ∅) (hinv : (s.granule a).state = ea →
      unlockedInvariant (s.granule a) = true) :
    ∃ ops, findLockGranulesTraced plat s [(a, ea), (b, eb)] [] tr =
        .ok (a != b && lockable plat s a ea && lockable plat s b eb, tr ++ ops) ∧
      Disciplined ∅ ops ∧
      heldAfter ∅ ops =
        if a != b && lockable plat s a ea && lockable plat s b eb then {a, b} else ∅ := by
  unfold findLockGranulesTraced
  simp only [List.head?_nil, reduceCtorEq, if_false]
  rw [findLockGranuleTraced_ok (by simp [htr])]
  cases ha : lockable plat s a ea with
  | false =>
    refine ⟨probe plat a, ?_, by simp, by simp⟩
    simp [bind, Except.bind, pure, Except.pure]
  | true =>
    have hall : ∀ x ∈ [a], unlockedInvariant (s.granule x) = true := by
      simpa using hinv (lockable_state ha)
    have hunlock := granuleUnlocksTraced_ok hall
    simp only [if_true, bind, Except.bind, Bool.not_true, Bool.false_eq_true, if_false]
    unfold findLockGranulesTraced
    by_cases hab : a = b
    · subst hab
      refine ⟨[.lock a, .unlock a], ?_, by simp [LockOp.apply, LockOp.Allowed],
        by simp [LockOp.apply]⟩
      simp only [List.head?_cons, if_true, hunlock]
      simp [bind, Except.bind, pure, Except.pure]
    · have hhead : ¬ (List.head? [a] = some b) := by simpa using hab
      simp only [hhead, if_false]
      have hfree : b ∉ heldAfter ∅ (tr ++ [.lock a]) := by
        simpa [htr, LockOp.apply] using Ne.symm hab
      rw [findLockGranuleTraced_ok hfree]
      cases hb : lockable plat s b eb with
      | false =>
        have hprobe : heldAfter {a} (probe plat b) = {a} ∧ Disciplined {a} (probe plat b) := by
          unfold probe
          split
          · refine ⟨?_, ?_⟩
            · simp only [heldAfter_cons, LockOp.apply, heldAfter_nil]
              rw [Finset.erase_insert (by simpa using Ne.symm hab)]
            · simp [LockOp.apply, LockOp.Allowed, Ne.symm hab]
          · exact ⟨rfl, trivial⟩
        refine ⟨[.lock a] ++ probe plat b ++ [.unlock a], ?_, ?_, ?_⟩
        · simp only [if_false, Bool.false_eq_true, bind, Except.bind, Bool.not_false,
            if_true, hunlock]
          simp [pure, Except.pure]
        · simp [LockOp.apply, LockOp.Allowed, hprobe.1, hprobe.2]
        · simp [LockOp.apply, hprobe.1]
      | true =>
        refine ⟨[.lock a, .lock b], ?_, ?_, ?_⟩
        · simp only [if_true, bind, Except.bind, Bool.not_true, Bool.false_eq_true, if_false,
            findLockGranulesTraced, bne_iff_ne.mpr hab, Bool.and_self, List.append_assoc]
          rfl
        · simp [LockOp.apply, LockOp.Allowed, Ne.symm hab]
        · simp [LockOp.apply, hab, Finset.pair_comm]

theorem findLockTwoGranulesTraced_ok {a b : Word} {ea eb : GranuleState}
    (htr : heldAfter ∅ tr = ∅) (ha : (s.granule a).state = ea →
      unlockedInvariant (s.granule a) = true)
    (hb : (s.granule b).state = eb → unlockedInvariant (s.granule b) = true) :
    ∃ ops, findLockTwoGranulesTraced plat s tr a ea b eb =
        .ok (findLockTwoGranules plat s a ea b eb, tr ++ ops) ∧ Disciplined ∅ ops ∧
      heldAfter ∅ ops = if findLockTwoGranules plat s a ea b eb then {a, b} else ∅ := by
  have hfind : findLockTwoGranules plat s a ea b eb =
      (a != b && lockable plat s a ea && lockable plat s b eb) := by
    simp only [findLockTwoGranules, lockable, Bool.and_assoc]
  rw [hfind]
  unfold findLockTwoGranulesTraced
  simp only [List.insertionSort, List.foldr_cons, List.foldr_nil, List.orderedInsert]
  by_cases hle : a ≤ b
  · rw [if_pos hle]
    exact findLockGranulesTraced_two htr ha
  · rw [if_neg hle]
    have hswap : (b != a && lockable plat s b eb && lockable plat s a ea) =
        (a != b && lockable plat s a ea && lockable plat s b eb) := by
      rw [Bool.and_right_comm, bne_comm]
    have htwo := @findLockGranulesTraced_two plat s tr b a eb ea htr hb
    rw [hswap, Finset.pair_comm] at htwo
    exact htwo

end

end RmmCaec
