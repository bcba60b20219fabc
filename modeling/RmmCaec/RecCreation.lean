import RmmCaec.Locking
import RmmCaec.MeasurementLog
import RmmCaec.Steady

/-!
# The locks of a REC creation

The auxiliary granules of a REC are claimed one by one before the other checks, each in a
section of its own. If one cannot be claimed, the error path first releases the locks of
those before it, which are no longer held, and then gives them back. Otherwise every lock
is released once, and a call that fails has changed nothing.
-/
namespace RmmCaec

open RadixForest Outcome Runs LockTrace

/-- One turn of `free_rec_aux_granules` without scrubbing. -/
def freeRecAuxGranuleTraced (st : State × Trace) (a : Word) : Rmm (State × Trace) := do
  let tr ← granuleLockTraced st.1 st.2 a .REC_AUX
  granuleUnlockTransitionTraced st.1 tr a .DELEGATED

def freeRecAuxGranulesTraced (recAux : List Word) (s : State) (tr : Trace) : Rmm (State × Trace) :=
  recAux.foldlM freeRecAuxGranuleTraced (s, tr)

/-- The loop over the auxiliary granules, with those that it has claimed. -/
def claimRecAuxTraced (plat : Platform) : List Word → List Word → State → Trace →
    Rmm (Bool × State × Trace)
  | [], _, s, tr => .ok (true, s, tr)
  | a :: rest, claimed, s, tr => do
    let (found, tr) ← findLockGranuleTraced plat s tr a .DELEGATED
    if !found then
      -- the loop has released these locks itself
      let tr ← claimed.foldlM (granuleUnlockTraced s) tr
      let (s, tr) ← freeRecAuxGranulesTraced claimed s tr
      return (false, s, tr)
    else
      let (s, tr) ← granuleUnlockTransitionTraced s tr a .REC_AUX
      claimRecAuxTraced plat rest (claimed ++ [a]) s tr

def smcRecCreateTraced (plat : Platform) (h : Hasher) (ms : MeasuredState)
    (rdAddr recAddr paramsAddr : Word) (nsRead : Option RecPage) :
    Rmm (MeasuredState × SmcResult × Trace) := do
  let s := ms.mem
  if !(findGranule plat paramsAddr && (s.granule paramsAddr).state == .NS) then
    return (ms, smcRet rmiErrorInput, [])
  else match nsRead with
  | none => return (ms, smcRet rmiErrorInput, [])
  | some p =>
    if maxRecAuxGranules < p.aux.length then return (ms, smcRet rmiErrorInput, [])
    else
      let (claimed, s1, tr) ← claimRecAuxTraced plat p.aux [] s []
      if !claimed then return (ms.setMem s1, smcRet rmiErrorInput, tr)
      else
        let (locked, tr) ← findLockTwoGranulesTraced plat s1 tr recAddr .DELEGATED rdAddr .RD
        if !locked then
          let (s2, tr) ← freeRecAuxGranulesTraced p.aux s1 tr
          return (ms.setMem s2, smcRet rmiErrorInput, tr)
        else
          let rd := s1.rd rdAddr
          let ret : ReturnCode :=
            if (s1.granule rdAddr).refcount = refcountMax then rmiErrorRealm
            else if rd.state ≠ .NEW then rmiErrorRealm
            else if p.mpidrIdx ≠ some rd.recCount then rmiErrorInput
            else if p.aux.length ≠ rd.numRecAux then rmiErrorInput
            else rmiSuccess
          if ret ≠ rmiSuccess then
            let tr ← granuleUnlockTraced s1 tr rdAddr
            let (s2, tr) ← granuleUnlockTransitionTraced s1 tr recAddr .DELEGATED
            let (s3, tr) ← freeRecAuxGranulesTraced p.aux s2 tr
            return (ms.setMem s3, smcRet ret, tr)
          else
            let r : Rec := { s1.recs recAddr with
              recIdx := rd.recCount, gRd := rdAddr, s2Ctx := rd.s2Ctx, gAux := p.aux }
            let ms1 := if p.runnable then
                ms.setRim rdAddr (measurementRecParamsMeasure h (ms.rim rdAddr)
                  (ms.algorithm rdAddr) p)
              else ms
            let s2 ← atomicGranuleGet (s1.setRec recAddr r) rdAddr
            let s3 := s2.setRd rdAddr { rd with recCount := rd.recCount + 1 }
            let tr ← granuleUnlockTraced s3 tr rdAddr
            let (s4, tr) ← granuleUnlockTransitionTraced s3 tr recAddr .REC
            return (ms1.setMem s4, smcRet rmiSuccess, tr)

section
variable {plat : Platform} {s : State}

/-- The granules are DELEGATED and named once. -/
structure Claimable (plat : Platform) (s : State) (aux : List Word) : Prop where
  free : ∀ a ∈ aux, lockable plat s a .DELEGATED = true
  nodup : aux.Nodup

theorem freeRecAuxGranulesTraced_ok {aux : List Word} (hnd : aux.Nodup) {s : State} {tr : Trace}
    (htr : heldAfter ∅ tr = ∅) (haux : ∀ a ∈ aux, s.granule a = ⟨.REC_AUX, 0⟩) :
    freeRecAuxGranulesTraced aux s tr = .ok (s.setStates aux .DELEGATED, tr ++ sections aux) := by
  unfold freeRecAuxGranulesTraced
  induction aux generalizing s tr with
  | nil => simp [State.setStates_nil, sections_nil, pure, Except.pure]
  | cons a rest ih =>
    obtain ⟨hne, hnd⟩ := List.nodup_cons.mp hnd
    have ha := haux a (List.mem_cons_self ..)
    have hstep : freeRecAuxGranuleTraced (s, tr) a =
        .ok (s.setState a .DELEGATED, tr ++ [.lock a] ++ [.unlock a]) := by
      unfold freeRecAuxGranuleTraced
      rw [granuleLockTraced_ok (by simp [htr]) (by rw [ha])]
      exact granuleUnlockTransitionTraced_ok _ (by rw [ha]; rfl)
    have hrest : ∀ x ∈ rest, (s.setState a .DELEGATED).granule x = ⟨.REC_AUX, 0⟩ := by
      intro x hx
      rw [State.setState_of_ne _ (by rintro rfl; exact hne hx)]
      exact haux x (List.mem_cons_of_mem _ hx)
    rw [List.foldlM_cons, hstep]
    refine (ih hnd (by simp [htr, LockOp.apply]) hrest).trans ?_
    rw [State.setStates_cons, sections_cons]
    simp

theorem Claimable.head {a : Word} {rest : List Word} (h : Claimable plat s (a :: rest)) :
    lockable plat s a .DELEGATED = true ∧ Claimable plat (s.setState a .REC_AUX) rest := by
  obtain ⟨hne, hnd⟩ := List.nodup_cons.mp h.nodup
  refine ⟨h.free a (List.mem_cons_self ..), fun x hx => ?_, hnd⟩
  have hxa : x ≠ a := by
    rintro rfl
    exact hne hx
  rw [lockable, State.setState_of_ne _ hxa]
  exact h.free x (List.mem_cons_of_mem _ hx)

theorem Claimable.granule {F : Tables} (hw : Wf s F) {aux : List Word} (h : Claimable plat s aux)
    {a : Word} (ha : a ∈ aux) : s.granule a = ⟨.DELEGATED, 0⟩ := by
  have hst := lockable_state (h.free a ha)
  rw [← hst, ← hw.plain a (by rw [hst]; rfl)]

/-- Either all granules can be claimed, or the claim stops at one of them. -/
theorem claimable_or_stopped (plat : Platform) (s : State) (aux : List Word) :
    Claimable plat s aux ∨ ∃ claimed a rest, aux = claimed ++ a :: rest ∧
      Claimable plat s claimed ∧ ¬ (lockable plat s a .DELEGATED = true ∧ a ∉ claimed) := by
  induction aux using List.reverseRecOn with
  | nil => exact .inl ⟨by simp, List.nodup_nil⟩
  | append_singleton aux b ih =>
    rcases ih with hc | ⟨claimed, a, rest, rfl, hc, ha⟩
    · by_cases hb : lockable plat s b .DELEGATED = true ∧ b ∉ aux
      · refine .inl ⟨fun x hx => ?_, ?_⟩
        · rcases List.mem_append.mp hx with hx | hx
          · exact hc.free x hx
          · rw [List.mem_singleton.mp hx]
            exact hb.1
        · exact List.nodup_append.mpr ⟨hc.nodup, List.nodup_singleton b, by
            rintro x hx y hy rfl
            rw [List.mem_singleton.mp hy] at hx
            exact hb.2 hx⟩
      · exact .inr ⟨aux, b, [], rfl, hc, hb⟩
    · exact .inr ⟨claimed, a, rest ++ [b], by simp, hc, ha⟩

theorem lockable_setStates {claimed : List Word} (a : Word) :
    lockable plat (s.setStates claimed .REC_AUX) a .DELEGATED = true ↔
      lockable plat s a .DELEGATED = true ∧ a ∉ claimed := by
  unfold lockable State.setStates
  by_cases ha : a ∈ claimed
  · simp [ha]
  · simp [ha]

/-- The loop up to a granule that it cannot claim. -/
theorem claimRecAuxTraced_append {F : Tables} {claimed : List Word} {s : State} (hw : Wf s F)
    (hc : Claimable plat s claimed) (done rest : List Word) {tr : Trace}
    (htr : heldAfter ∅ tr = ∅) :
    claimRecAuxTraced plat (claimed ++ rest) done s tr =
      claimRecAuxTraced plat rest (done ++ claimed) (s.setStates claimed .REC_AUX)
        (tr ++ sections claimed) := by
  have hzero : ∀ a ∈ claimed, (s.granule a).refcount = 0 := by
    intro a ha
    rw [hc.granule hw ha]
  clear hw
  induction claimed generalizing s done tr with
  | nil => simp [State.setStates_nil, sections_nil]
  | cons a claimed ih =>
    obtain ⟨ha, hc'⟩ := hc.head
    have hz : ∀ x ∈ claimed, ((s.setState a .REC_AUX).granule x).refcount = 0 := by
      intro x hx
      rw [State.setState_of_ne _ (by rintro rfl; exact (List.nodup_cons.mp hc.nodup).1 hx)]
      exact hzero x (List.mem_cons_of_mem _ hx)
    have hinv : unlockedInvariant ⟨.REC_AUX, (s.granule a).refcount⟩ = true := by
      rw [hzero a (List.mem_cons_self ..)]
      rfl
    have hunlock := granuleUnlockTransitionTraced_ok (tr ++ [.lock a]) hinv
    have hfree : heldAfter ∅ (tr ++ [.lock a] ++ [.unlock a]) = ∅ := by
      simp [htr, LockOp.apply]
    have hih := ih hc' (done ++ [a]) hfree hz
    rw [State.setStates_cons, List.append_assoc done] at hih
    rw [List.cons_append, claimRecAuxTraced, findLockGranuleTraced_ok (by simp [htr]), ha]
    simp only [if_true, bind, Except.bind, Bool.not_true, Bool.false_eq_true, if_false, hunlock]
    rw [hih, sections_cons]
    simp

theorem claimRecAux_append {F : Tables} {claimed : List Word} {s : State} (hw : Wf s F)
    (hc : Claimable plat s claimed) (n : ℕ) (rest : List Word) :
    claimRecAux plat (claimed ++ rest) s n =
      claimRecAux plat rest (s.setStates claimed .REC_AUX) (n + claimed.length) := by
  have hzero : ∀ a ∈ claimed, (s.granule a).refcount = 0 := by
    intro a ha
    rw [hc.granule hw ha]
  clear hw
  induction claimed generalizing s n with
  | nil => simp [State.setStates_nil]
  | cons a claimed ih =>
    obtain ⟨ha, hc'⟩ := hc.head
    have hz : ∀ x ∈ claimed, ((s.setState a .REC_AUX).granule x).refcount = 0 := by
      intro x hx
      rw [State.setState_of_ne _ (by rintro rfl; exact (List.nodup_cons.mp hc.nodup).1 hx)]
      exact hzero x (List.mem_cons_of_mem _ hx)
    have hinv : unlockedInvariant ((s.setState a .REC_AUX).granule a) = true := by
      simp [State.setState, unlockedInvariant, hzero a (List.mem_cons_self ..)]
    have hunlock := granuleUnlockTransition_ok hinv
    rw [List.cons_append, claimRecAux, findLockGranule_free, ha]
    simp only [bind, Except.bind, Bool.not_true, Bool.false_eq_true, if_false, hunlock]
    rw [ih hc' (n + 1) hz, State.setStates_cons, List.length_cons]
    congr 1
    omega

theorem freeGranules_ok {aux : List Word} (hnd : aux.Nodup) {s : State}
    (haux : ∀ a ∈ aux, s.granule a = ⟨.REC_AUX, 0⟩) :
    freeGranules s aux .REC_AUX false = .ok (s.setStates aux .DELEGATED) := by
  unfold freeGranules
  induction aux generalizing s with
  | nil => simp [State.setStates_nil, pure, Except.pure]
  | cons a rest ih =>
    obtain ⟨hne, hnd⟩ := List.nodup_cons.mp hnd
    have ha := haux a (List.mem_cons_self ..)
    have hinv : unlockedInvariant ((s.setState a .DELEGATED).granule a) = true := by
      simp [State.setState, unlockedInvariant, ha]
    have hrest : ∀ x ∈ rest, (s.setState a .DELEGATED).granule x = ⟨.REC_AUX, 0⟩ := by
      intro x hx
      rw [State.setState_of_ne _ (by rintro rfl; exact hne hx)]
      exact haux x (List.mem_cons_of_mem _ hx)
    have hih := ih hnd hrest
    rw [State.setStates_cons] at hih
    rw [List.foldlM_cons, granuleLock_ok (by rw [ha])]
    simp only [Bool.false_eq_true, if_false, bind, Except.bind,
      granuleUnlockTransition_ok hinv] at hih ⊢
    exact hih

/-- The trace of a claim that fails after some granules. -/
def failedClaim (plat : Platform) (claimed : List Word) (a : Word) : Trace :=
  sections claimed ++ probe plat a ++ claimed.map .unlock ++ sections claimed

theorem heldAfter_failedClaim (plat : Platform) (claimed : List Word) (a : Word) :
    heldAfter ∅ (failedClaim plat claimed a) = ∅ := by
  simp [failedClaim]

/-- The locks that are released once more are not held. -/
theorem disciplined_failedClaim_iff (plat : Platform) (claimed : List Word) (a : Word) :
    Disciplined ∅ (failedClaim plat claimed a) ↔ claimed = [] := by
  cases claimed with
  | nil => simp [failedClaim, sections_nil]
  | cons c rest =>
    have hfree : c ∉ heldAfter ∅ (sections (c :: rest) ++ probe plat a) := by simp
    refine iff_of_false (fun hd => ?_) (by simp)
    rw [failedClaim, List.map_cons, List.append_assoc, List.cons_append] at hd
    exact not_disciplined_of_unlock hfree _ hd

/-- How the claim ends: with all granules, or with none of them after it stopped. -/
theorem claimRecAux_cases {F : Tables} (hw : Wf s F) (aux : List Word) :
    (Claimable plat s aux ∧
      claimRecAuxTraced plat aux [] s [] = .ok (true, s.setStates aux .REC_AUX, sections aux) ∧
      claimRecAux plat aux s 0 = .ok (some (s.setStates aux .REC_AUX))) ∨
    ∃ claimed a rest, aux = claimed ++ a :: rest ∧ Claimable plat s claimed ∧
      ¬ (lockable plat s a .DELEGATED = true ∧ a ∉ claimed) ∧
      claimRecAuxTraced plat aux [] s [] = .ok (false, s, failedClaim plat claimed a) ∧
      claimRecAux plat aux s 0 = if claimed = [] then .ok none else .error .doubleUnlock := by
  rcases claimable_or_stopped plat s aux with hc | ⟨claimed, a, rest, rfl, hc, ha⟩
  · refine .inl ⟨hc, ?_, ?_⟩
    · have h := claimRecAuxTraced_append hw hc [] [] (heldAfter_nil _)
      simpa [claimRecAuxTraced] using h
    · have h := claimRecAux_append hw hc 0 []
      simpa [claimRecAux] using h
  · have hna : lockable plat (s.setStates claimed .REC_AUX) a .DELEGATED = false := by
      rw [Bool.eq_false_iff]
      exact fun hl => ha ((lockable_setStates a).mp hl)
    have hgran : ∀ x ∈ claimed, (s.setStates claimed .REC_AUX).granule x =
        ⟨.REC_AUX, 0⟩ := by
      intro x hx
      simp only [State.setStates, hx, if_true, hc.granule hw hx]
    refine .inr ⟨claimed, a, rest, rfl, hc, ha, ?_, ?_⟩
    · have hinv : ∀ x ∈ claimed,
          unlockedInvariant ((s.setStates claimed .REC_AUX).granule x) = true := by
        intro x hx
        rw [hgran x hx]
        rfl
      have hunlock := granuleUnlocksTraced_ok hinv (sections claimed ++ probe plat a)
      have htr : heldAfter ∅ (sections claimed ++ probe plat a ++
          claimed.map .unlock) = ∅ := by simp
      have hfree := freeRecAuxGranulesTraced_ok hc.nodup htr hgran
      rw [setStates_back fun x hx => lockable_state (hc.free x hx)] at hfree
      rw [claimRecAuxTraced_append hw hc [] _ (heldAfter_nil _), claimRecAuxTraced,
        findLockGranuleTraced_ok (by simp), hna]
      simp only [Bool.false_eq_true, if_false, bind, Except.bind, Bool.not_false, if_true,
        List.nil_append, hunlock, hfree]
      rfl
    · rw [claimRecAux_append hw hc 0, claimRecAux, findLockGranule_free, hna]
      cases claimed with
      | nil => rfl
      | cons c rest => rfl

end

/-- A creation that succeeds finds room for one more reference. -/
theorem smcRecCreate_room {plat : Platform} (s : State) (rdAddr recAddr paramsAddr : Word)
    (nsRead : Option RecParams) : Sat (smcRecCreate plat s rdAddr recAddr paramsAddr nsRead)
      (fun res => res.2.ret = rmiSuccess → (s.granule rdAddr).refcount + 1 ≤ refcountMax)
      fun _ => True := by
  have idle : (s, smcRet rmiErrorInput).2.ret = rmiSuccess →
      (s.granule rdAddr).refcount + 1 ≤ refcountMax :=
    fun hc => absurd (show rmiErrorInput = rmiSuccess from hc) (by decide)
  unfold smcRecCreate
  refine Sat.ite (fun _ => Sat.pure idle) fun _ => ?_
  cases nsRead with
  | none => exact Sat.pure idle
  | some p =>
    refine Sat.ite (fun _ => Sat.pure idle) fun _ => ?_
    refine Sat.bind ((claimRecAux_sat p.aux 0).mono (fun _ h => h) fun _ _ => trivial)
      fun claimed hclaimed => ?_
    cases claimed with
    | none => exact Sat.pure idle
    | some s1 =>
      obtain ⟨rfl, -⟩ := hclaimed s1 rfl
      refine Sat.ite (fun hret => ?_) fun _ => ?_
      · exact freeGranules_sat trivial trivial _ fun _ => Sat.pure fun hc => absurd hc hret
      · unfold atomicGranuleGet granuleRefcountInc
        rw [bind_assoc]
        refine assertThat_sat (fun _ => trivial) fun hroom => ?_
        refine granuleUnlockTransition_sat trivial (Sat.pure fun _ => ?_)
        rw [decide_eq_true_eq] at hroom
        have hcount : ((s.setStates p.aux .REC_AUX).granule rdAddr).refcount =
            (s.granule rdAddr).refcount := by
          simp only [State.setStates]
          split <;> rfl
        exact hcount ▸ hroom

/-- A reference count of a realm grows only where there is room. -/
theorem StepDone.rdRefs {plat : Platform} {s s' : State} {F : Tables} {reply : Reply} {act : Act}
    (h : Wf s F) (hd : StepDone plat s F s' reply act) (hs : step plat s act = .ok (s', reply))
    {g : Word} (hg : (s'.granule g).state = .RD) :
    (s'.granule g).refcount ≤ refcountMax ∨
      ((s.granule g).state = .RD ∧ (s'.granule g).refcount ≤ (s.granule g).refcount) := by
  have steady : Steady s s' → (s'.granule g).refcount ≤ refcountMax ∨
      ((s.granule g).state = .RD ∧ (s'.granule g).refcount ≤ (s.granule g).refcount) := by
    intro hsteady
    rcases hsteady.rdNew g hg with ⟨hrd, hsame⟩ | ⟨-, hz⟩
    · exact .inr ⟨hrd, hsame.le⟩
    · exact .inl (by rw [hz]; exact Nat.zero_le _)
  -- a change of the references on a REC, or none
  have record : ∀ r c, (s.granule r).state = .REC → s'.granule = (s.setRefcount r c).granule →
      (s'.granule g).refcount ≤ refcountMax ∨
      ((s.granule g).state = .RD ∧ (s'.granule g).refcount ≤ (s.granule g).refcount) := by
    intro r c hr hgran
    rw [hgran, State.setRefcount_state] at hg
    have hne : g ≠ r := by
      rintro rfl
      rw [hr] at hg
      cases hg
    exact .inr ⟨hg, by rw [hgran, State.setRefcount_of_ne _ hne]⟩
  cases hact : act.whole with
  | true => exact steady (hd.steady h hact)
  | false =>
    cases act with
    | recCreate rdAddr recAddr paramsAddr nsRead =>
      obtain ⟨res, rfl, ⟨rfl, -⟩ | ⟨hret, -, aux, hn⟩⟩ := hd
      · exact .inr ⟨hg, le_refl _⟩
      have hroom : (s.granule rdAddr).refcount + 1 ≤ refcountMax := by
        have hcall := hs
        simp only [step, smcReply, bind, Except.bind, pure, Except.pure] at hcall
        cases hrec : smcRecCreate plat s rdAddr recAddr paramsAddr nsRead with
        | error f =>
          rw [hrec] at hcall
          cases hcall
        | ok p =>
          rw [hrec] at hcall
          cases hcall
          exact (smcRecCreate_room s rdAddr recAddr paramsAddr nsRead).of_ok hrec hret
      by_cases hr : g = rdAddr
      · subst hr
        rw [hn.rdGranule]
        exact .inl hroom
      · have hold := (hn.state_iff (by decide) (by decide) (by decide) g).mp hg
        have hnr : g ≠ recAddr := by
          rintro rfl
          rw [hn.fresh] at hold
          cases hold
        have hna : g ∉ aux := by
          intro ha
          rw [(hn.freshAux g ha).1] at hold
          cases hold
        exact .inr ⟨hold, by rw [hn.granule g hnr hr hna]⟩
    | recDestroy recAddr =>
      obtain ⟨res, -, ⟨rfl, -⟩ | ⟨-, hf⟩⟩ := hd
      · exact .inr ⟨hg, le_refl _⟩
      have hold := (hf.state_iff h (by decide) (by decide) (by decide) g).mp hg
      obtain ⟨hne, hna⟩ := hf.not_freed (by decide) (by decide) hold
      refine .inr ⟨hold, ?_⟩
      by_cases hr : g = (s.recs recAddr).gRd
      · rw [hr, hf.rdGranule]
        exact Nat.sub_le _ _
      · rw [hf.granule g hne hr hna]
    | recEnter recAddr runAddr entry reject =>
      rcases hd with rfl | ⟨hrec, -, _, rfl | rfl⟩
      · exact .inr ⟨hg, le_refl _⟩
      · exact .inr ⟨hg, le_refl _⟩
      · exact record recAddr 1 hrec rfl
    | dataCreate rdAddr dataAddr mapAddr srcAddr flags nsCopy =>
      obtain ⟨res, -, hdone, -⟩ := hd
      rcases hdone with ⟨rfl, -⟩ | ⟨-, s1, F1, r, old, F', ha, -, hm⟩
      · exact .inr ⟨hg, le_refl _⟩
      · exact steady ((Steady.of_assigned h ha).trans (.of_sameAll hm.same))
    | dataCreateUnknown rdAddr dataAddr mapAddr =>
      obtain ⟨res, -, hdone, -⟩ := hd
      rcases hdone with ⟨rfl, -⟩ | ⟨-, s1, F1, r, old, F', ha, -, hm⟩
      · exact .inr ⟨hg, le_refl _⟩
      · exact steady ((Steady.of_assigned h ha).trans (.of_sameAll hm.same))
    | dataDestroy rdAddr mapAddr =>
      obtain ⟨res, -, hdone, -⟩ := hd
      rcases hdone with ⟨rfl, -⟩ | ⟨-, t, n, i, r, dataAddr, s1, F1, F', h1, h2, h3,
        h4, h5, h6, hr⟩
      · exact .inr ⟨hg, le_refl _⟩
      · exact steady
          ((Steady.of_pageDestroyed h ⟨t, n, i, r, dataAddr, s1, h1, h2, h3, h4, h5, h6,
          rfl⟩).trans (.of_sameAll hr.same))
    | rsi recAddr call =>
      rcases hd with ⟨-, rfl, -⟩ | ⟨hrun, s1, res, hdone, -, rfl⟩
      · exact .inr ⟨hg, le_refl _⟩
      have hsteady := RsiDone.steady hdone
      have hrec := (hsteady.isRec recAddr).mpr (recRunning_spec hrun).1
      have hg1 : (s1.granule g).state = .RD := by
        split at hg
        · rwa [State.setRefcount_state] at hg
        · exact hg
      have hsame : ∀ b : Bool, ((if b then s1.setRefcount recAddr 0 else s1).granule g).refcount =
          (s1.granule g).refcount := by
        intro b
        have hne : g ≠ recAddr := by
          rintro rfl
          rw [hrec] at hg1
          cases hg1
        cases b with
        | false => rfl
        | true => exact congrArg Granule.refcount (State.setRefcount_of_ne s1 hne 0)
      rw [hsame]
      rcases hsteady.rdNew g hg1 with ⟨hrd, heq⟩ | ⟨-, hz⟩
      · exact .inr ⟨hrd, heq.le⟩
      · exact .inl (by rw [hz]; exact Nat.zero_le _)
    | recExit recAddr =>
      rcases hd with ⟨-, rfl⟩ | ⟨hrun, rfl⟩
      · exact .inr ⟨hg, le_refl _⟩
      · exact record recAddr 0 (recRunning_spec hrun).1 rfl
    | _ => cases hact

/-- No realm of a reachable state has more references than its count can hold. -/
theorem rdRefs_le {plat : Platform} {s : State} (hs : Reachable plat s) {g : Word}
    (hg : (s.granule g).state = .RD) : (s.granule g).refcount ≤ refcountMax := by
  refine Reach.invariant (I := fun s => ∀ g, (s.granule g).state = .RD →
    (s.granule g).refcount ≤ refcountMax) ?_ ?_ hs g hg
  · intro g hg
    cases hg
  · rintro s act s' hs hI - ⟨reply, hstep⟩ g hg
    obtain ⟨F, hF⟩ := Reached.wf hs
    have hd := (step_sat hF act).of_ok hstep
    rcases StepDone.rdRefs hF hd hstep hg with hle | ⟨hrd, hle⟩
    · exact hle
    · exact hle.trans (hI g hrd)

/-- The memory of a measured run is that of a run without measurements. -/
theorem LoggedReachable.memory {plat : Platform} {h : Hasher} {m : Logged}
    (hm : LoggedReachable plat h m) : Reachable plat m.1.mem := by
  refine Reach.invariant (I := fun m => Reachable plat m.1.mem) .init ?_ hm
  rintro m a m' hm hI - ⟨reply, hs, -⟩
  obtain ⟨hstep, hnone, -⟩ := measuredStep_inv (RimLogged.reach hm).zeroed hs
  cases herase : a.erase with
  | none =>
    rw [hnone herase]
    exact hI
  | some act => exact .step hI trivial ⟨reply, hstep act herase⟩

/-- A call that fails has changed nothing, no lock stays held, and no lock is released
that was not held. -/
structure RecCreateClean (ms ms' : MeasuredState) (ret : ReturnCode) (tr : Trace) : Prop where
  granules : ret ≠ rmiSuccess → ms'.mem.granule = ms.mem.granule
  descriptors : ret ≠ rmiSuccess → ms'.mem.rd = ms.mem.rd ∧ ms'.algorithm = ms.algorithm
  measurement : ret ≠ rmiSuccess → ms'.measurement = ms.measurement
  zero : ret ≠ rmiSuccess → ∀ g, (ms'.mem.granule g).state = .DELEGATED →
    (ms'.mem.rtt g = fun _ => 0#64) ∧ ms'.mem.rd g = default ∧ ms'.mem.recs g = default ∧
      ms'.mem.apt g = default
  released : heldAfter ∅ tr = ∅
  disciplined : Disciplined ∅ tr

/-- If the first auxiliary granule can be claimed, then all of them can. -/
def RecCreateGuarded (plat : Platform) (s : State) (paramsAddr : Word) (nsRead : Option RecPage) :
    Prop :=
  findGranule plat paramsAddr = true → (s.granule paramsAddr).state = .NS →
    ∀ p, nsRead = some p →
    p.aux.length ≤ maxRecAuxGranules → ∀ a rest, p.aux = a :: rest →
      lockable plat s a .DELEGATED = true → Claimable plat s p.aux

/-- What is known about each call: its effect, the locks it leaves, and how the handler
without locks ends. -/
structure RecCreateCall (ms : MeasuredState) (untraced : Rmm (MeasuredState × SmcResult))
    (guarded : Prop) (ms' : MeasuredState) (res : SmcResult) (tr : Trace) : Prop where
  unchanged : res.ret ≠ rmiSuccess → ms' = ms
  released : heldAfter ∅ tr = ∅
  disciplined : Disciplined ∅ tr ↔ guarded
  returns : guarded → untraced = .ok (ms', res)
  stops : ¬ guarded → untraced = .error .doubleUnlock

/-- The granules that are not auxiliary are as they were. -/
theorem Claimable.granule_of_state {plat : Platform} {s : State} {F : Tables} (hw : Wf s F)
    {aux : List Word} (hc : Claimable plat s aux) {a : Word} {st : GranuleState}
    (hst : ((s.setStates aux .REC_AUX).granule a).state = st) (hne : st ≠ .REC_AUX) :
    (s.setStates aux .REC_AUX).granule a = s.granule a := by
  by_cases ha : a ∈ aux
  · simp only [State.setStates, ha, if_true, hc.granule hw ha] at hst
    exact absurd hst.symm hne
  · simp only [State.setStates, ha, if_false]

/-- The last operations of a creation that succeeds. -/
theorem newRec_returns {s : State} {rdAddr recAddr : Word} (hne : recAddr ≠ rdAddr)
    (hrd : (s.granule rdAddr).state = .RD) (hrec : s.granule recAddr = ⟨.DELEGATED, 0⟩)
    (hroom : (s.granule rdAddr).refcount + 1 ≤ refcountMax) (r : Rec) (d : Rd) :
    ∃ s2, atomicGranuleGet (s.setRec recAddr r) rdAddr = .ok s2 ∧
      (∀ tr, granuleUnlockTraced (s2.setRd rdAddr d) tr rdAddr = .ok (tr ++ [.unlock rdAddr])) ∧
      (∀ tr, granuleUnlockTransitionTraced (s2.setRd rdAddr d) tr recAddr .REC =
        .ok ((s2.setRd rdAddr d).setState recAddr .REC, tr ++ [.unlock recAddr])) ∧
      granuleUnlockTransition (s2.setRd rdAddr d) recAddr .REC =
        .ok ((s2.setRd rdAddr d).setState recAddr .REC) := by
  have hroom' : ((s.setRec recAddr r).granule rdAddr).refcount + 1 ≤ refcountMax := hroom
  set s2 := (s.setRec recAddr r).setRefcount rdAddr ((s.granule rdAddr).refcount + 1) with hs2
  have hrd2 : unlockedInvariant ((s2.setRd rdAddr d).granule rdAddr) = true := by
    have hst : ((s2.setRd rdAddr d).granule rdAddr).state = .RD := by
      simp only [hs2, State.setRd, State.setRefcount_state]
      exact hrd
    rw [unlockedInvariant, hst]
  have hrec2 : ((s2.setRd rdAddr d).granule recAddr).refcount = 0 := by
    simp only [hs2, State.setRd]
    rw [State.setRefcount_of_ne _ hne]
    exact congrArg Granule.refcount hrec
  have hinv : unlockedInvariant ⟨.REC,
      ((s2.setRd rdAddr d).granule recAddr).refcount⟩ = true := by
    rw [hrec2]
    rfl
  refine ⟨s2, ?_, fun tr => granuleUnlockTraced_ok tr hrd2,
    fun tr => granuleUnlockTransitionTraced_ok tr hinv, granuleUnlockTransition_ok ?_⟩
  · simp only [atomicGranuleGet, granuleRefcountInc, assertThat, decide_eq_true hroom', if_true]
    rfl
  · simp only [State.setState, Function.update_self]
    exact hinv

/-- The operations of a creation that fails with both locks held. -/
theorem unchanged_returns {s : State} {rdAddr recAddr : Word}
    (hrd : (s.granule rdAddr).state = .RD) (hrec : s.granule recAddr = ⟨.DELEGATED, 0⟩) :
    (∀ tr, granuleUnlockTraced s tr rdAddr = .ok (tr ++ [.unlock rdAddr])) ∧
      ∀ tr, granuleUnlockTransitionTraced s tr recAddr .DELEGATED =
        .ok (s, tr ++ [.unlock recAddr]) := by
  have hself : s.setState recAddr .DELEGATED = s := by
    rw [State.setState, show ({ s.granule recAddr with state := .DELEGATED } : Granule) =
      s.granule recAddr by rw [hrec], Function.update_eq_self]
  refine ⟨fun tr => granuleUnlockTraced_ok tr (by rw [unlockedInvariant, hrd]), fun tr => ?_⟩
  have hinv : unlockedInvariant ⟨.DELEGATED, (s.granule recAddr).refcount⟩ = true := by
    rw [hrec]
    rfl
  have hput := granuleUnlockTransitionTraced_ok tr hinv
  rwa [hself] at hput

theorem smcRecCreateTraced_ok {plat : Platform} (h : Hasher) {ms : MeasuredState} {F : Tables}
    (hw : Wf ms.mem F) (hrefs : ∀ g, (ms.mem.granule g).state = .RD →
      (ms.mem.granule g).refcount ≤ refcountMax)
    (rdAddr recAddr paramsAddr : Word) (nsRead : Option RecPage) : ∃ ms' res tr,
      smcRecCreateTraced plat h ms rdAddr recAddr paramsAddr nsRead = .ok (ms', res, tr) ∧
      RecCreateCall ms (smcRecCreateMeasured plat h ms rdAddr recAddr paramsAddr nsRead)
        (RecCreateGuarded plat ms.mem paramsAddr nsRead) ms' res tr := by
  have done : ∀ {untraced guarded ms' res tr}, guarded →
      (res.ret ≠ rmiSuccess → ms' = ms) →
      heldAfter ∅ tr = ∅ → Disciplined ∅ tr → untraced = .ok (ms', res) →
      RecCreateCall ms untraced guarded ms' res tr := fun hg hsame hheld hdis hu =>
    ⟨hsame, hheld, iff_of_true hdis hg, fun _ => hu, fun hn => absurd hg hn⟩
  have idle : ∀ {untraced guarded}, guarded → untraced = .ok (ms, smcRet rmiErrorInput) →
      RecCreateCall ms untraced guarded ms (smcRet rmiErrorInput) [] :=
    fun hg hu => done hg (fun _ => rfl) rfl trivial hu
  unfold smcRecCreateTraced smcRecCreateMeasured
  simp only
  cases hparams : findGranule plat paramsAddr && (ms.mem.granule paramsAddr).state == .NS with
  | false =>
    refine ⟨_, _, _, rfl, idle (fun h1 h2 => ?_) rfl⟩
    rw [h1, h2] at hparams
    cases hparams
  | true =>
  cases nsRead with
  | none => exact ⟨_, _, _, rfl, idle (fun _ _ p hp => by cases hp) rfl⟩
  | some p =>
  by_cases hlen : maxRecAuxGranules < p.aux.length
  · simp only [Bool.not_true, Bool.false_eq_true, if_false, hlen, if_true]
    refine ⟨_, _, _, rfl, idle (fun _ _ q hq hle => ?_) rfl⟩
    cases hq
    omega
  simp only [Bool.not_true, Bool.false_eq_true, if_false, hlen]
  rw [Bool.and_eq_true, beq_iff_eq] at hparams
  have hguarded : RecCreateGuarded plat ms.mem paramsAddr (some p) ↔
      ∀ a rest, p.aux = a :: rest → lockable plat ms.mem a .DELEGATED = true →
        Claimable plat ms.mem p.aux :=
    ⟨fun hg => hg hparams.1 hparams.2 p rfl (by omega), fun hg _ _ q hq _ => by
      cases hq
      exact hg⟩
  rcases claimRecAux_cases hw p.aux with ⟨hc, htraced, huntraced⟩ |
    ⟨claimed, a, rest, hsplit, hc, ha, htraced, huntraced⟩
  · have hg := hguarded.mpr fun _ _ _ _ => hc
    set s1 := ms.mem.setStates p.aux .REC_AUX with hs1
    have haux : ∀ a ∈ p.aux, s1.granule a = ⟨.REC_AUX, 0⟩ := by
      intro a ha
      simp only [hs1, State.setStates, ha, if_true, hc.granule hw ha]
    have hback := setStates_back fun a ha => lockable_state (hc.free a ha)
    have hfree : ∀ tr, heldAfter ∅ tr = ∅ →
        freeRecAuxGranulesTraced p.aux s1 tr = .ok (ms.mem, tr ++ sections p.aux) := by
      intro tr htr
      rw [freeRecAuxGranulesTraced_ok hc.nodup htr haux, hback]
    have hfree' := freeGranules_ok hc.nodup haux
    rw [hback] at hfree'
    have hrecOf : (s1.granule recAddr).state = .DELEGATED →
        s1.granule recAddr = ⟨.DELEGATED, 0⟩ := by
      intro hst
      have hsame := hc.granule_of_state hw hst (by decide)
      rw [hsame] at hst ⊢
      rw [← hst, ← hw.plain recAddr (by rw [hst]; rfl)]
    obtain ⟨ops, hlock, hdis, hheld⟩ :=
      @findLockTwoGranulesTraced_ok plat s1 (sections p.aux) recAddr
      rdAddr .DELEGATED .RD (heldAfter_sections _) (fun hst => by rw [hrecOf hst]; rfl)
      fun hst => by rw [unlockedInvariant, hst]
    rw [htraced, huntraced]
    simp only [bind, Except.bind, Bool.not_true, Bool.false_eq_true, if_false, hlock]
    cases hfl : findLockTwoGranules plat s1 recAddr .DELEGATED rdAddr .RD with
    | false =>
      rw [hfl] at hheld
      simp only [Bool.false_eq_true, if_false] at hheld
      have htr : heldAfter ∅ (sections p.aux ++ ops) = ∅ := by simp [hheld]
      have hret : rmiErrorInput ≠ rmiSuccess := by decide
      simp only [Bool.not_false, if_true, hfree _ htr, if_pos hret, hfree']
      exact ⟨_, _, _, rfl, done hg (fun _ => rfl) (by simp [hheld]) (by simp [hheld, hdis]) rfl⟩
    | true =>
      rw [hfl] at hheld
      simp only [if_true] at hheld
      obtain ⟨hne, hdel, hrdst⟩ := findLockTwoGranules_iff hfl
      have hrec := hrecOf (lockable_state hdel)
      have hrd := lockable_state hrdst
      simp only [Bool.not_true, Bool.false_eq_true, if_false]
      generalize hret : (if (s1.granule rdAddr).refcount = refcountMax then rmiErrorRealm
        else if (s1.rd rdAddr).state ≠ .NEW then rmiErrorRealm
        else if p.mpidrIdx ≠ some (s1.rd rdAddr).recCount then rmiErrorInput
        else if p.aux.length ≠ (s1.rd rdAddr).numRecAux then rmiErrorInput
        else rmiSuccess) = ret
      by_cases hr : ret = rmiSuccess
      · subst hr
        have hfull : (s1.granule rdAddr).refcount ≠ refcountMax := by
          intro hfull
          rw [if_pos hfull] at hret
          exact absurd hret (by decide)
        have hroom : (s1.granule rdAddr).refcount + 1 ≤ refcountMax := by
          have hsame : s1.granule rdAddr = ms.mem.granule rdAddr :=
            hc.granule_of_state hw hrd (by decide)
          have hle := hrefs rdAddr (by rw [← hsame, hrd])
          rw [← hsame] at hle
          omega
        obtain ⟨s2, hget, hunlock, hput, hput'⟩ := newRec_returns hne hrd hrec hroom
          ⟨(s1.rd rdAddr).recCount, rdAddr, (s1.rd rdAddr).s2Ctx, p.aux,
            (s1.recs recAddr).setRipas⟩
          ⟨(s1.rd rdAddr).state, (s1.rd rdAddr).recCount + 1, (s1.rd rdAddr).s2Ctx,
            (s1.rd rdAddr).numRecAux, (s1.rd rdAddr).aptPa⟩
        simp only [ne_eq, not_true_eq_false, if_false, hget, hunlock, hput, hput']
        refine ⟨_, _, _, rfl, done hg (fun hn => absurd rfl hn) ?_ ?_ rfl⟩
        · simp [hheld, LockOp.apply, Finset.erase_insert_of_ne hne]
        · simp [hheld, hdis, LockOp.apply, LockOp.Allowed, hne]
      · obtain ⟨hunlock, hput⟩ := unchanged_returns hrd hrec
        have htr : heldAfter ∅ (sections p.aux ++ ops ++ [.unlock rdAddr] ++
            [.unlock recAddr]) = ∅ := by
          simp [hheld, LockOp.apply, Finset.erase_insert_of_ne hne]
        simp only [ne_eq, hr, not_false_eq_true, if_true, hunlock, hput, hfree _ htr, hfree']
        refine ⟨_, _, _, rfl, done hg (fun _ => rfl) ?_ ?_ rfl⟩
        · rw [heldAfter_append, htr, heldAfter_sections]
        · rw [disciplined_append, htr]
          simp [hheld, hdis, LockOp.apply, LockOp.Allowed, hne]
  · -- the claim stops: its locks are released twice unless it stops at once
    have hiff : Disciplined ∅ (failedClaim plat claimed a) ↔
        RecCreateGuarded plat ms.mem paramsAddr (some p) := by
      rw [disciplined_failedClaim_iff, hguarded, hsplit]
      cases claimed with
      | nil =>
        refine iff_of_true rfl fun b rest' hb hl => ?_
        cases hb
        exact absurd ⟨hl, List.not_mem_nil⟩ ha
      | cons c claimed =>
        refine iff_of_false (by simp) fun hg => ha ?_
        have hall := hg c (claimed ++ a :: rest) rfl (hc.free c (List.mem_cons_self ..))
        refine ⟨hall.free a (by simp), fun hmem => ?_⟩
        exact (List.nodup_append.mp hall.nodup).2.2 a hmem a (List.mem_cons_self ..) rfl
    rw [htraced, huntraced]
    refine ⟨_, _, _, rfl, ⟨fun _ => ?_, heldAfter_failedClaim plat claimed a,
      hiff, fun hg => ?_,
      fun hg => ?_⟩⟩
    · exact ms.setMem_self
    · rw [if_pos ((disciplined_failedClaim_iff plat claimed a).mp (hiff.mpr hg))]
      rfl
    · rw [if_neg fun hn => hg (hiff.mp ((disciplined_failedClaim_iff plat claimed a).mpr hn))]
      rfl

/-- In every reachable state the call returns, and it is clean exactly when it is guarded:
the claim of the auxiliary granules succeeds or stops at the first. -/
theorem recCreateClean_iff {plat : Platform} {h : Hasher} {m : Logged}
    (hm : LoggedReachable plat h m) (rdAddr recAddr paramsAddr : Word) (nsRead : Option RecPage) :
    ∃ ms' res tr,
      smcRecCreateTraced plat h m.1 rdAddr recAddr paramsAddr nsRead = .ok (ms', res, tr) ∧
      (RecCreateClean m.1 ms' res.ret tr ↔ RecCreateGuarded plat m.1.mem paramsAddr nsRead) := by
  have hmem := LoggedReachable.memory hm
  obtain ⟨F, hw⟩ := Reached.wf hmem
  obtain ⟨ms', res, tr, hcall, hdone⟩ := smcRecCreateTraced_ok h hw
    (fun g hg => rdRefs_le hmem hg) rdAddr recAddr paramsAddr nsRead
  refine ⟨ms', res, tr, hcall, fun hc => hdone.disciplined.mp hc.disciplined, fun hg => ?_⟩
  refine ⟨fun hr => ?_, fun hr => ?_, fun hr => ?_, fun hr g hdel => ?_, hdone.released,
    hdone.disciplined.mpr hg⟩
  · rw [hdone.unchanged hr]
  · rw [hdone.unchanged hr]
    exact ⟨rfl, rfl⟩
  · rw [hdone.unchanged hr]
  · rw [hdone.unchanged hr] at hdel ⊢
    obtain ⟨h1, h2, h3⟩ := hw.zero g (by rw [hdel]; rfl)
    exact ⟨hw.scrubbed g hdel, h1, h2, h3⟩

/-- The parameters of a REC with the given auxiliary granules. -/
def demoRec (aux : List Word) (idx : ℕ) : RecPage :=
    ⟨⟨aux, some idx⟩, 1#64, 0#64, fun _ => 0#64⟩

set_option maxRecDepth 100000 in
/-- A REC with a wrong index is refused after all its auxiliary granules were claimed. -/
theorem recCreateClean_refused : ∃ m : Logged, LoggedReachable demoPlat demoHasher m ∧
    ∃ ms' res tr, smcRecCreateTraced demoPlat demoHasher m.1 (gr 16) (gr 22) (gr 0)
      (some (demoRec ((List.range 16).map fun k => gr (24 + k)) 1)) = .ok (ms', res, tr) ∧
      RecCreateClean m.1 ms' res.ret tr := by
  have hrun : (loggedReplay (demoKeys [16] [] []) demoPlat demoHasher (initMeasured, fun _ => [])
      (measuredRealm.take 25)).any (fun m =>
        ((List.range 16).map fun k => gr (24 + k)).all
          fun a => lockable demoPlat m.1.mem a .DELEGATED) = true := by
    decide +kernel
  obtain ⟨m, hrun, ht⟩ := (Option.any_eq_true _ _).mp hrun
  have hm := loggedReplay_reachable (measuredRealm.take 25) .init hrun
  rw [List.all_eq_true] at ht
  obtain ⟨ms', res, tr, hcall, hiff⟩ := recCreateClean_iff hm (gr 16) (gr 22) (gr 0)
    (some (demoRec ((List.range 16).map fun k => gr (24 + k)) 1))
  refine ⟨m, hm, ms', res, tr, hcall, hiff.mpr fun _ _ p hp _ _ _ _ _ => ?_⟩
  cases hp
  exact ⟨ht, by decide⟩

set_option maxRecDepth 100000 in
/-- The second auxiliary granule is not DELEGATED: the lock of the first, which is not
held, is released once more. -/
theorem recCreate_aux_unclean : ∃ m : Logged, LoggedReachable demoPlat demoHasher m ∧
    ∃ ms' res tr, smcRecCreateTraced demoPlat demoHasher m.1 (gr 16) (gr 22) (gr 0)
      (some (demoRec [gr 24, gr 48] 0)) = .ok (ms', res, tr) ∧ res.ret = rmiErrorInput ∧
      tr.count (.lock (gr 24)) = 2 ∧ tr.count (.unlock (gr 24)) = 3 ∧
      ¬ RecCreateClean m.1 ms' res.ret tr := by
  have hrun : (loggedReplay (demoKeys [16] [] []) demoPlat demoHasher (initMeasured, fun _ => [])
      (measuredRealm.take 25)).any (fun m =>
        match smcRecCreateTraced demoPlat demoHasher m.1 (gr 16) (gr 22) (gr 0)
          (some (demoRec [gr 24, gr 48] 0)) with
        | .ok (_, res, tr) => decide (res.ret = rmiErrorInput) && tr.count (.lock (gr 24)) == 2 &&
            tr.count (.unlock (gr 24)) == 3
        | .error _ => false) = true := by
    decide +kernel
  obtain ⟨m, hrun, ht⟩ := (Option.any_eq_true _ _).mp hrun
  have hm := loggedReplay_reachable (measuredRealm.take 25) .init hrun
  revert ht
  cases hcall : smcRecCreateTraced demoPlat demoHasher m.1 (gr 16) (gr 22) (gr 0)
      (some (demoRec [gr 24, gr 48] 0)) with
  | error f => exact fun hc => by cases hc
  | ok out =>
    obtain ⟨ms', res, tr⟩ := out
    intro ht
    simp only [Bool.and_eq_true, beq_iff_eq, decide_eq_true_eq] at ht
    obtain ⟨⟨hret, hlock⟩, hunlock⟩ := ht
    refine ⟨m, hm, ms', res, tr, hcall, hret, hlock, hunlock, fun hc => ?_⟩
    have := hc.disciplined.balanced hc.released (gr 24)
    omega

end RmmCaec
