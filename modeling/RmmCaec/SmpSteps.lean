import RmmCaec.SmpSafety
import RmmCaec.Lifecycle

/-!
# The steps of several CPUs

Whatever a CPU does between two of its locks is one of a few moves: it leaves
references and auxiliary granules alone, or it claims one, gives one back, makes a REC,
frees one, or takes or drops one reference.
-/
namespace RmmCaec
open RadixForest Outcome Runs

/-- A reference count is changed and changed back. -/
theorem State.setRefcount_back (s : State) (g : Word) (c : ℕ) :
    (s.setRefcount g c).setRefcount g (s.granule g).refcount = s := by
  simp only [State.setRefcount, Function.update_self, Function.update_idem]
  rw [Function.update_eq_self]

/-- The reference count of a realm may be any number that covers its RECs. -/
theorem wf_rdCount {s : State} {F : Tables} (h : Wf s F) {rd : Word} {c : ℕ}
    (hrd : (s.granule rd).state = .RD) (hc : ∀ R : Finset Word,
      (∀ r, r ∈ R ↔ (s.granule r).state = .REC ∧ (s.recs r).gRd = rd) → R.card ≤ c) :
    Wf (s.setRefcount rd c) F := by
  have hst := s.setRefcount_state rd c
  have hne : ∀ {g st}, (s.granule g).state = st → st ≠ .RD → g ≠ rd := by
    rintro g st hg hne rfl
    exact hne (hg.symm.trans hrd)
  refine ⟨h.holds.frame (fun g => by rw [hst]) (fun g => by rw [hst]) (fun _ _ => rfl)
    fun _ _ _ _ => rfl, fun t n ht => ?_, fun g hg => ?_, fun g hg => h.zero g (by rwa [hst] at hg),
    fun g hg => h.scrubbed g (by rwa [hst] at hg), fun g hg => h.vmid g (by rwa [hst] at hg),
    fun a b ha hb => h.vmid_inj a b (by rwa [hst] at ha) (by rwa [hst] at hb),
    fun r hr => ?_, fun g hg => ?_⟩
  · rw [State.setRefcount_of_ne s (hne (h.holds.node ht).1 (by decide))]
    exact h.counts t n ht
  · rw [hst] at hg
    have hg' : g ≠ rd := by
      rintro rfl
      rw [hrd] at hg
      cases hg
    rw [State.setRefcount_of_ne s hg']
    exact h.plain g hg
  · rw [hst] at hr ⊢
    exact h.recRd r hr
  · rw [hst] at hg
    obtain ⟨R, hR, hcard⟩ := h.recCount g hg
    refine ⟨R, fun r => by rw [hst]; exact hR r, ?_⟩
    by_cases hgr : g = rd
    · subst hgr
      rw [State.setRefcount_same]
      exact hc R hR
    · rwa [State.setRefcount_of_ne s hgr]

/-- Words that no table and no DELEGATED granule holds are read by nothing. -/
theorem wf_write {s : State} {F : Tables} (h : Wf s F) {g : Word} (words : ℕ → Word)
    (h1 : (s.granule g).state ≠ .DELEGATED) (h2 : (s.granule g).state ≠ .RTT) :
    Wf (s.setTable g words) F := by
  refine ⟨h.holds.frame (fun _ => Iff.rfl) (fun _ => Iff.rfl) (fun _ _ => rfl) fun x hx i _ => ?_,
    h.counts, h.plain, h.zero, fun x hx => ?_, h.vmid, h.vmid_inj, h.recRd, h.recCount⟩
  · have hne : x ≠ g := by
      rintro rfl
      exact h2 hx
    exact congrFun (Function.update_of_ne hne _ _) i
  · have hne : x ≠ g := by
      rintro rfl
      exact h1 hx
    exact (Function.update_of_ne hne _ _).trans (h.scrubbed x hx)

/-- What a CPU holds: the REC that it is in, the realm of the REC that it has freed, and
the auxiliary granules that it has claimed. -/
def Job.holds (job : Job) : Option Word × Option Word × List Word :=
  (job.inside, job.releases, job.claims)

/-- The moves of a CPU, with what it holds before and after. -/
inductive Move (s : State) (was : Option Word × Option Word × List Word) :
    State → Option Word × Option Word × List Word → Prop
  | steady {s' : State} {F' : Tables} (wf : Wf s' F') (same : Steady s s')
      (onward : Onward s s') : Move s was s' was
  | claim {a : Word} {claims : List Word} (fresh : (s.granule a).state = .DELEGATED)
      (held : was = (none, none, claims)) :
      Move s was (s.setState a .REC_AUX) (none, none, claims ++ [a])
  | unclaim {a : Word} {left : List Word} (held : was = (none, none, a :: left)) :
      Move s was (s.setState a .DELEGATED) (none, none, left)
  | make {rdAddr recAddr : Word} {s0 : State} {r : Rec} {claims : List Word}
      (new : NewRec s rdAddr recAddr [] s0) (rd : r.gRd = rdAddr)
      (ctx : r.s2Ctx = (s.rd rdAddr).s2Ctx) (aux : r.gAux = claims)
      (held : was = (none, none, claims)) : Move s was (s0.setRec recAddr r) (none, none, [])
  | free {recAddr : Word} {s0 : State} (freed : FreedRec s recAddr s0)
      (held : was = (none, none, [])) :
      Move s was
        (s0.setRefcount (s.recs recAddr).gRd (s.granule (s.recs recAddr).gRd).refcount)
        (none, some (s.recs recAddr).gRd, [])
  | release {rd : Word} (held : was = (none, some rd, [])) :
      Move s was (s.setRefcount rd ((s.granule rd).refcount - 1)) (none, none, [])
  | enter {r : Word} (unused : s.granule r = ⟨.REC, 0⟩) (held : was = (none, none, [])) :
      Move s was (s.setRefcount r 1) (some r, none, [])
  | leave {r : Word} (held : was = (some r, none, [])) :
      Move s was (s.setRefcount r ((s.granule r).refcount - 1)) (none, none, [])

/-- RECs that stay keep everything but their RIPAS request. -/
theorem Move.recs_eq {s s' : State} {was new : Option Word × Option Word × List Word}
    (hm : Move s was s' new) {g : Word} (hg : (s.granule g).state = .REC)
    (hg' : (s'.granule g).state = .REC) :
    s'.recs g = { s.recs g with setRipas := (s'.recs g).setRipas } := by
  cases hm with
  | steady wf same onward => exact same.recs g hg
  | claim fresh held | unclaim held | release held | enter unused held | leave held => rfl
  | @make rdAddr recAddr s0 r claims new rd ctx aux held =>
    have hne : g ≠ recAddr := by
      rintro rfl
      rw [new.fresh] at hg
      cases hg
    have hrecs : (s0.setRec recAddr r).recs g = s.recs g := by
      rw [← new.recs_of_rec hg]
      exact Function.update_of_ne hne _ _
    rw [hrecs]
  | @free recAddr s0 freed held =>
    have hkept : ¬ (g = recAddr ∨ g ∈ (s.recs recAddr).gAux) := by
      intro hc
      rw [State.setRefcount_state, (freed.freed g hc).1] at hg'
      cases hg'
    rw [not_or] at hkept
    have hrecs : s0.recs g = s.recs g := (freed.other g hkept.1 hkept.2).2.1
    show s0.recs g = { s.recs g with setRipas := (s0.recs g).setRipas }
    rw [hrecs]

/-- Each REC has the stage 2 context of its realm. -/
def State.CtxAgree (s : State) : Prop :=
  ∀ r, (s.granule r).state = .REC → (s.recs r).s2Ctx = (s.rd (s.recs r).gRd).s2Ctx

theorem Move.ctxAgree {s s' : State} {F : Tables}
    {was new : Option Word × Option Word × List Word} (hw : Wf s F) (hm : Move s was s' new)
    (h : s.CtxAgree) : s'.CtxAgree := by
  -- a REC that was there before has kept its realm, so only the realm's context matters
  have stays : (∀ g, (s'.granule g).state = .REC → (s.granule g).state = .REC) →
      (∀ r, (s.granule r).state = .REC → (s'.rd (s.recs r).gRd).s2Ctx =
        (s.rd (s.recs r).gRd).s2Ctx) → s'.CtxAgree := by
    intro hrec hrd r hr
    rw [hm.recs_eq (hrec r hr) hr]
    exact (h r (hrec r hr)).trans (hrd r (hrec r hr)).symm
  cases hm with
  | steady wf same onward =>
    refine stays (fun g => (same.isRec g).mp) fun r hr => ?_
    have hrd := hw.recRd r hr
    have hrd' : (s'.granule (s.recs r).gRd).state = .RD := by
      have := wf.recRd r ((same.isRec r).mpr hr)
      rwa [same.recs r hr] at this
    exact (onward _ hrd hrd').2
  | claim fresh held =>
    refine stays (fun g hg => ?_) fun _ _ => rfl
    exact (s.setState_state_iff (by rw [fresh]; decide) (by decide) g).mp hg
  | @unclaim a left held =>
    refine stays (fun g hg => ?_) fun _ _ => rfl
    by_cases hga : g = a
    · subst hga
      simp [State.setState] at hg
    · simpa [State.setState, hga] using hg
  | @make rdAddr recAddr s0 r claims new rd ctx aux held =>
    intro g hg
    have hrdctx : ∀ k, ((s0.setRec recAddr r).rd k).s2Ctx = (s.rd k).s2Ctx := new.ctx
    rw [hrdctx]
    by_cases hne : g = recAddr
    · subst hne
      simp [State.setRec, rd, ctx]
    · have hold : (s.granule g).state = .REC := ((new.isRec g).mp hg).resolve_right hne
      have hrecs : (s0.setRec recAddr r).recs g = s.recs g := by
        rw [← new.recs_of_rec hold]
        exact Function.update_of_ne hne _ _
      rw [hrecs]
      exact h g hold
  | @free recAddr s0 freed held =>
    refine stays (fun g hg => ?_) fun r hr => ?_
    · rw [State.setRefcount_state] at hg
      by_cases hne : g = (s.recs recAddr).gRd
      · rw [hne, freed.rdGranule] at hg
        cases hg
      · by_cases hfreed : g = recAddr ∨ g ∈ (s.recs recAddr).gAux
        · rw [(freed.freed g hfreed).1] at hg
          cases hg
        · rw [not_or] at hfreed
          rwa [freed.granule g hfreed.1 hne hfreed.2] at hg
    · have hnot := freed.not_freed (by decide) (by decide) (hw.recRd r hr)
      exact congrArg Rd.s2Ctx (freed.other _ hnot.1 hnot.2).1
  | release held | enter unused held | leave held =>
    exact stays (fun g hg => by rwa [State.setRefcount_state] at hg) fun _ _ => rfl

/-- A section is a move of the CPU whose job it is. -/
def Moves (s : State) (job : Job) (sec : Sec) : Prop :=
  Sat sec (fun res => Move s job.holds res.1 res.2.1.holds) fun _ => True

section
variable {s : State} {F : Tables} {job : Job}

/-- The section leaves the memory alone. -/
theorem moves_pure (h : Wf s F) {job' : Job} {reply : Option Reply} (hj : job'.holds = job.holds) :
    Moves s job (pure (s, job', reply)) := by
  refine Sat.pure ?_
  show Move s job.holds s job'.holds
  rw [hj]
  exact .steady h (.refl s) (.refl s)

theorem recCreateStart_moves (plat : Platform) (h : Wf s F) (rdAddr recAddr paramsAddr : Word)
    (nsRead : Option RecParams) :
    Moves s .idle (recCreateStart plat s rdAddr recAddr paramsAddr nsRead) := by
  unfold recCreateStart
  refine Sat.ite (fun _ => moves_pure h rfl) fun _ => ?_
  cases nsRead with
  | none => exact moves_pure h rfl
  | some p => exact Sat.ite (fun _ => moves_pure h rfl) fun _ => moves_pure h rfl

theorem recAuxClaim_moves (plat : Platform) (h : Wf s F) (rdAddr recAddr : Word) (p : RecParams)
    (a : Word) (left claimed : List Word) :
    Moves s (.claiming rdAddr recAddr p (a :: left) claimed)
      (recAuxClaim plat s rdAddr recAddr p a left claimed) := by
  unfold recAuxClaim
  refine findLockGranule_sat trivial ?_
  refine Sat.ite (fun _ => ?_) fun hfound => ?_
  · -- a failure with granules claimed before ends in a fault
    cases claimed with
    | nil => exact Sat.ok_bind (moves_pure h rfl)
    | cons b bs => exact Sat.error_bind trivial
  · have hdel := lockable_state (by simpa using hfound)
    refine granuleUnlockTransition_sat trivial (Sat.pure ?_)
    exact .claim hdel rfl

theorem recCreateSection_moves (plat : Platform) (h : Wf s F) (rdAddr recAddr : Word)
    (p : RecParams) (claimed : List Word) :
    Moves s (.claiming rdAddr recAddr p [] claimed)
      (recCreateSection plat s rdAddr recAddr p claimed) := by
  unfold recCreateSection
  refine Sat.ite (fun _ => moves_pure h rfl) fun hret => ?_
  have hlock : findLockTwoGranules plat s recAddr .DELEGATED rdAddr .RD = true := by
    by_contra hc
    rw [Bool.not_eq_true] at hc
    exact hret (by simp [hc, rmiErrorInput, rmiSuccess])
  have hnil : s.setStates [] .REC_AUX = s := by simp [State.setStates]
  have hnew := @newRec_mk plat s F h rdAddr recAddr [] (by simp) (by rwa [hnil])
  rw [hnil] at hnew
  refine granuleRefcountInc_sat trivial (granuleUnlockTransition_sat trivial (Sat.pure ?_))
  set r : Rec := { s.recs recAddr with
    recIdx := (s.rd rdAddr).recCount, gRd := rdAddr, s2Ctx := (s.rd rdAddr).s2Ctx, gAux := claimed }
  have hmove : Move s (none, none, claimed) _ (none, none, []) :=
    .make hnew rfl (r := r) rfl rfl rfl
  show Move s (none, none, claimed) _ (none, none, [])
  convert hmove using 1
  simp only [State.setRec, State.setRefcount, State.setRd, State.setState, Function.update_idem]

theorem recAuxUnclaim_moves (a : Word) (left : List Word) (ret : ReturnCode) :
    Moves s (.unclaiming (a :: left) ret) (recAuxUnclaim s a left ret) := by
  unfold recAuxUnclaim granuleLock assertThat
  refine Sat.bind (Q := fun _ => True) ?_ fun _ _ => ?_
  · exact Sat.ite (fun _ => Sat.ok trivial) fun _ => Sat.error trivial
  · refine granuleUnlockTransition_sat trivial (Sat.pure ?_)
    exact .unclaim rfl

theorem recDestroySection_moves (plat : Platform) (h : Wf s F) (recAddr : Word) :
    Moves s .idle (recDestroySection plat s recAddr) := by
  unfold recDestroySection
  refine findLockGranule_sat trivial ?_
  refine Sat.ite (fun _ => moves_pure h rfl) fun hr => ?_
  have hrec := lockable_state (by simpa using hr)
  refine Sat.ite (fun _ => moves_pure h rfl) fun hcount => ?_
  rw [not_ne_iff] at hcount
  refine freeGranules_sat trivial trivial _ fun haux => ?_
  refine granuleUnlockTransition_sat trivial (Sat.pure ?_)
  simp only [if_true]
  obtain ⟨hrd, hfreed⟩ := freedRec_mk h hrec hcount haux rfl
  have hmove : Move s (none, none, []) _ _ := .free hfreed rfl
  rw [← hrd, State.setRefcount_back] at hmove
  exact hmove

theorem recEnterSection_moves (plat : Platform) (h : Wf s F) (recAddr runAddr : Word)
    (entry : RecEntry) (reject : Bool) :
    Moves s .idle (recEnterSection plat s recAddr runAddr entry reject) := by
  unfold recEnterSection
  refine Sat.ite (fun _ => moves_pure h rfl) fun _ => ?_
  refine findLockGranule_sat trivial ?_
  refine Sat.ite (fun _ => moves_pure h rfl) fun hr => ?_
  have hrec := lockable_state (by simpa using hr)
  refine Sat.ite (fun _ => moves_pure h rfl) fun hcount => ?_
  rw [not_ne_iff] at hcount
  have hgran : s.granule recAddr = ⟨.REC, 0⟩ := by
    rw [← hrec, ← hcount]
  refine granuleRefcountInc_sat trivial (granuleUnlock_sat trivial (Sat.pure ?_))
  rw [hcount]
  exact .enter hgran rfl

/-- The body of an entry changes only the RIPAS request of the REC. -/
theorem recEnterBody_moves (h : Wf s F) {recAddr : Word} (hrec : (s.granule recAddr).state = .REC)
    (entry : RecEntry) (reject : Bool) :
    Moves s (.entered recAddr entry reject) (recEnterBody s recAddr entry reject) := by
  have hset : ∀ job' : Job, job'.holds = (some recAddr, none, []) →
      Moves s (.entered recAddr entry reject) (secYield (s.setRec recAddr (completeSetRipas
        { s.recs recAddr with setRipas := { (s.recs recAddr).setRipas with reject := reject } }))
        job') := by
    intro job' hj
    refine Sat.pure ?_
    show Move s (some recAddr, none, []) _ job'.holds
    rw [hj]
    refine .steady (RecordChange.wf h (recordChange_setRec hrec (completeSetRipas_gRd _))) ?_
      (.of_eq rfl)
    unfold completeSetRipas
    split
    · exact .setRipas s recAddr _
    · exact .setRipas s recAddr _
  unfold recEnterBody
  refine Sat.ite (fun _ => moves_pure h rfl) fun _ => ?_
  dsimp only
  cases (s.rd (s.recs recAddr).gRd).state with
  | NEW | SYSTEM_OFF => exact moves_pure h rfl
  | ACTIVE =>
    cases entry with
    | unreadable | refused => exact moves_pure h rfl
    | aborted | run => exact hset _ rfl

theorem dataCreateStart_moves (plat : Platform) (h : Wf s F) (rdAddr dataAddr mapAddr : Word)
    (measured : Bool) (nsCopy : NsCopy) :
    Moves s .idle (dataCreateStart plat s rdAddr dataAddr mapAddr measured nsCopy) := by
  unfold dataCreateStart
  refine Sat.bind ((dataCreate_sat h rdAddr dataAddr mapAddr measured nsCopy).mono
    (fun _ => id) fun _ _ => trivial) ?_
  rintro ⟨s1, res⟩ (⟨rfl, -⟩ | ⟨-, F', r, old, ha⟩)
  · exact Sat.ite (fun _ => moves_pure h rfl) fun _ => moves_pure h rfl
  · obtain ⟨t, n, i, st, -, -, -⟩ := ha.edit
    have hmove : Move s (none, none, []) s1 (none, none, []) :=
      .steady (st.wf ha.claimWf) (.of_assigned h ha)
        (.of_rd fun g _ _ => by rw [ha.sameCtx])
    exact Sat.ite (fun _ => Sat.pure hmove) fun _ => Sat.pure hmove

theorem dataDestroyStart_moves (plat : Platform) (h : Wf s F) (rdAddr mapAddr : Word) :
    Moves s .idle (handlerStart plat s (.dataDestroy rdAddr mapAddr)) := by
  refine Sat.bind ((dataDestroySection_sat h rdAddr mapAddr).mono
    (fun _ => id) fun _ _ => trivial) ?_
  rintro ⟨s1, res⟩ (⟨rfl, -⟩ | ⟨-, F', hp⟩)
  · exact Sat.ite (fun _ => moves_pure h rfl) fun _ => moves_pure h rfl
  · have hmove : Move s (none, none, []) s1 (none, none, []) :=
      .steady (hp.wf h) (.of_pageDestroyed h hp) (.of_pageDestroyed hp)
    exact Sat.ite (fun _ => Sat.pure hmove) fun _ => Sat.pure hmove

/-- A handler that runs as one step. -/
theorem whole_moves (plat : Platform) (h : Wf s F) {act : Act} (hact : act.whole = true) :
    Moves s .idle (do
      let (s1, reply) ← step plat s act
      return (s1, .idle, some reply)) := by
  refine Sat.bind ((step_sat h act).mono (fun _ => id) fun _ _ => trivial) ?_
  rintro ⟨s1, reply⟩ hd
  obtain ⟨F', hwf, -⟩ := hd.effects h
  exact Sat.pure (.steady hwf (hd.steady h hact) (hd.onward h))

/-- What an idle CPU does when it starts a handler. -/
theorem handlerStart_moves (plat : Platform) (h : Wf s F) (act : Act) :
    Moves s .idle (handlerStart plat s act) := by
  cases act with
  | recCreate rdAddr recAddr paramsAddr nsRead =>
    exact recCreateStart_moves plat h rdAddr recAddr paramsAddr nsRead
  | recDestroy recAddr => exact recDestroySection_moves plat h recAddr
  | recEnter recAddr runAddr entry reject =>
    exact recEnterSection_moves plat h recAddr runAddr entry reject
  | dataCreate rdAddr dataAddr mapAddr srcAddr flags nsCopy =>
    refine Sat.ite (fun _ => moves_pure h rfl) fun _ => ?_
    refine Sat.ite (fun _ => moves_pure h rfl) fun _ => ?_
    exact dataCreateStart_moves plat h rdAddr dataAddr mapAddr true nsCopy
  | dataCreateUnknown rdAddr dataAddr mapAddr =>
    exact dataCreateStart_moves plat h rdAddr dataAddr mapAddr false .done
  | dataDestroy rdAddr mapAddr => exact dataDestroyStart_moves plat h rdAddr mapAddr
  | rsi recAddr call | recExit recAddr => exact moves_pure h rfl
  | _ => exact whole_moves plat h rfl

/-- A page of a granule that may have been destroyed already is mapped at the targets. -/
theorem csmPropagateCreate_kept (plat : Platform) (h : Wf s F) (rdAddr dataAddr mapAddr : Word) :
    Sat (csmPropagateCreate plat s rdAddr dataAddr mapAddr)
      (fun s' => ∃ F', Wf s' F' ∧ SameAll s s') fun _ => True := by
  unfold csmPropagateCreate
  refine csmPropagate_sat (fun _ cur => ∃ F', Wf cur F' ∧ SameAll s cur) trivial
    ⟨F, h, .refl s⟩ (fun _ _ hcur => hcur.choose_spec.2) ?_
  rintro done tgt rest cur hl ⟨F', hwf, hsame⟩
  have hrd : (cur.granule tgt.1).state = .RD := by
    rw [hsame.state]
    exact csmTargets_isRd (by rw [hl]; simp)
  have hmap := mapIpaToPa_sat hwf hrd dataAddr tgt.2
  rw [hsame.rd] at hmap
  refine hmap.mono ?_ fun _ _ => trivial
  rintro s' (⟨-, t, n, i, F1, -, -, st⟩ | ⟨rfl, -⟩)
  · exact ⟨F1, st.wf hwf, hsame.trans (st.sameAll hwf.holds)⟩
  · exact ⟨F', hwf, hsame⟩

theorem mirroring_moves (plat : Platform) (h : Wf s F) (rdAddr dataAddr mapAddr : Word)
    (res : SmcResult) :
    Moves s (.mirroring rdAddr dataAddr mapAddr res)
      (handlerResume plat s (.mirroring rdAddr dataAddr mapAddr res)) := by
  refine Sat.bind (csmPropagateCreate_kept plat h rdAddr dataAddr mapAddr) ?_
  rintro s' ⟨F', hwf, hsame⟩
  exact Sat.pure (.steady hwf (.of_sameAll hsame) (.of_eq hsame.rd))

theorem unmirroring_moves (plat : Platform) (h : Wf s F) (rdAddr mapAddr : Word)
    (res : SmcResult) :
    Moves s (.unmirroring rdAddr mapAddr res)
      (handlerResume plat s (.unmirroring rdAddr mapAddr res)) := by
  refine Sat.bind ((csmPropagateDestroy_sat plat h rdAddr mapAddr).mono (fun _ => id)
    fun _ _ => trivial) ?_
  rintro s' ⟨F', hrem⟩
  exact Sat.pure (.steady hrem.wf (.of_sameAll hrem.same) (.of_eq hrem.same.rd))

theorem atomicGranulePut_sat {g : Word} {α : Type} {k : State → Rmm α} {Q : α → Prop}
    (hk : Sat (k (s.setRefcount g ((s.granule g).refcount - 1))) Q fun _ => True) :
    Sat (atomicGranulePut s g >>= k) Q fun _ => True := by
  unfold atomicGranulePut granuleRefcountDec assertThat
  split
  · exact hk
  · exact Sat.error trivial

/-- What a CPU does when it goes on with its job. The REC that it is in is still one. -/
theorem handlerResume_moves (plat : Platform) (h : Wf s F)
    (hin : ∀ r, job.inside = some r → (s.granule r).state = .REC) :
    Moves s job (handlerResume plat s job) := by
  cases job with
  | idle | running recAddr => exact moves_pure h rfl
  | claiming rdAddr recAddr p left claimed =>
    cases left with
    | nil => exact recCreateSection_moves plat h rdAddr recAddr p claimed
    | cons a left => exact recAuxClaim_moves plat h rdAddr recAddr p a left claimed
  | unclaiming left ret =>
    cases left with
    | nil => exact moves_pure h rfl
    | cons a left => exact recAuxUnclaim_moves a left ret
  | releasing rdAddr => exact atomicGranulePut_sat (Sat.pure (.release rfl))
  | entered recAddr entry reject => exact recEnterBody_moves h (hin recAddr rfl) entry reject
  | leaving recAddr ret => exact atomicGranulePut_sat (Sat.pure (.leave rfl))
  | mirroring rdAddr dataAddr mapAddr res =>
    exact mirroring_moves plat h rdAddr dataAddr mapAddr res
  | unmirroring rdAddr mapAddr res => exact unmirroring_moves plat h rdAddr mapAddr res

end

section
variable {ι : Type} [DecidableEq ι]

/-- What holds between any two steps of the machine. -/
structure SmpInv (m : Smp ι) : Prop where
  wf : ∃ F, Wf m.mem F
  refs : RefsHeld m.mem (fun c => (m.cpu c).inside) fun c => (m.cpu c).releases
  aux : ∃ own, AuxOwned m.mem (fun c => (m.cpu c).claims) own

/-- Giving a claimed granule back releases it: it is still zeroed. -/
theorem setState_release {s : State} {a : Word} (hz : s.rtt a = fun _ => 0#64) :
    s.setState a .DELEGATED = s.release a := by
  unfold State.release State.setTable
  rw [← hz, Function.update_eq_self]

theorem Move.inv {s s' : State} {F : Tables} {inside releases : ι → Option Word}
    {claims : ι → List Word} {own : Word → Option (ι ⊕ Word)} {c : ι}
    {new : Option Word × Option Word × List Word} (hw : Wf s F)
    (hr : RefsHeld s inside releases) (ha : AuxOwned s claims own)
    (hm : Move s (inside c, releases c, claims c) s' new) :
    (∃ F', Wf s' F') ∧
      RefsHeld s' (Function.update inside c new.1) (Function.update releases c new.2.1) ∧
      ∃ own', AuxOwned s' (Function.update claims c new.2.2) own' := by
  have same : ∀ {α : Type} {f : ι → α} {v : α}, f c = v → Function.update f c v = f :=
    fun hv => Function.update_eq_self_iff.mpr hv.symm
  cases hm with
  | steady wf hsteady honward =>
    simp only [Function.update_eq_self]
    exact ⟨⟨_, wf⟩, hr.steady hw hsteady, own, ha.steady hsteady⟩
  | @claim a claimed fresh held =>
    obtain ⟨h1, h2, rfl⟩ : inside c = none ∧ releases c = none ∧ claims c = claimed := by
      simpa using held
    have hpc := plainChange_setState hw a .REC_AUX (by rw [fresh]; rfl) rfl (by decide)
      (.inl (by rw [fresh]; rfl))
    dsimp only
    rw [same h1, same h2]
    exact ⟨⟨F, hpc.wf hw⟩, hr.plainChange hw hpc, _, ha.claim fresh (hw.scrubbed a fresh)⟩
  | @unclaim a left held =>
    obtain ⟨h1, h2, h3⟩ : inside c = none ∧ releases c = none ∧ claims c = a :: left := by
      simpa using held
    have hmem : a ∈ claims c := by
      rw [h3]
      exact List.mem_cons_self
    have hst := ha.state_of_mem hmem
    have hpc := plainChange_release hw a (by rw [hst]; rfl) (by rw [hst]; rfl)
    rw [← setState_release (ha.zero c a hmem)] at hpc
    dsimp only
    rw [same h1, same h2]
    exact ⟨⟨F, hpc.wf hw⟩, hr.plainChange hw hpc, _, ha.unclaim h3⟩
  | @make rdAddr recAddr s0 r claimed new rd ctx aux held =>
    obtain ⟨h1, h2, rfl⟩ : inside c = none ∧ releases c = none ∧ claims c = claimed := by
      simpa using held
    have hrec : (s0.granule recAddr).state = .REC := by rw [new.recGranule]
    have hgRd : r.gRd = (s0.recs recAddr).gRd := by rw [rd, new.recs, Function.update_self]
    dsimp only
    rw [same h1, same h2]
    exact ⟨⟨F, RecordChange.wf (new.wf hw) (recordChange_setRec hrec hgRd)⟩,
      hr.newRec new rd, _,
      ha.newRec new aux⟩
  | @free recAddr s0 freed held =>
    obtain ⟨h1, h2, h3⟩ : inside c = none ∧ releases c = none ∧ claims c = [] := by
      simpa using held
    dsimp only
    rw [same h1, same h3]
    refine ⟨⟨F, wf_rdCount (freed.wf hw) ?_ fun R hR => ?_⟩, hr.freedRec hw h2 freed, _,
      (ha.freedRec hw freed).setRefcount _ _⟩
    · rw [freed.rdGranule]
    · -- the realm keeps its count and has one REC less
      obtain ⟨R', hR', hcard⟩ := (freed.wf hw).recCount _ (by rw [freed.rdGranule])
      have hsame : R = R' := by
        ext r
        rw [hR, hR']
      rw [freed.rdGranule] at hcard
      rw [hsame]
      exact hcard.trans (Nat.sub_le _ _)
  | @release rd held =>
    obtain ⟨h1, h2, h3⟩ : inside c = none ∧ releases c = some rd ∧ claims c = [] := by
      simpa using held
    dsimp only
    rw [same h1, same h3]
    exact ⟨⟨F, wf_rdCount hw (hr.releasing c rd h2) fun R hR => (hr.card_le_pred h2 hR).1⟩,
      hr.release h2, own, ha.setRefcount _ _⟩
  | @enter r unused held =>
    obtain ⟨h1, h2, h3⟩ : inside c = none ∧ releases c = none ∧ claims c = [] := by
      simpa using held
    dsimp only
    rw [same h2, same h3]
    exact ⟨⟨F, wf_recCount hw (by rw [unused]) 1⟩, hr.enter h1 unused, own,
      ha.setRefcount _ _⟩
  | @leave r held =>
    obtain ⟨h1, h2, h3⟩ : inside c = some r ∧ releases c = none ∧ claims c = [] := by
      simpa using held
    have hgran := hr.entered c r h1
    dsimp only
    rw [same h2, same h3, hgran]
    exact ⟨⟨F, wf_recCount hw (by rw [hgran]) _⟩, hr.leave h1, own, ha.setRefcount _ _⟩

/-- A CPU finishes a section. -/
theorem SmpInv.put {m : Smp ι} (h : SmpInv m) {c : ι} {s : State} {job : Job}
    (hm : Move m.mem (m.cpu c).holds s job.holds) : SmpInv (m.put c s job) := by
  obtain ⟨F, hw⟩ := h.wf
  obtain ⟨own, ha⟩ := h.aux
  have hput : ∀ {α : Type} (f : Job → α), (fun c' => f ((m.put c s job).cpu c')) =
      Function.update (fun c' => f (m.cpu c')) c (f job) := by
    intro α f
    funext c'
    by_cases hc : c' = c
    · subst hc
      simp [Smp.put]
    · simp [Smp.put, hc]
  obtain ⟨hwf, hrefs, haux⟩ := hm.inv hw h.refs ha
  refine ⟨hwf, ?_, ?_⟩
  · rw [hput Job.inside, hput Job.releases]
    exact hrefs
  · rw [hput Job.claims]
    exact haux

/-- Every step of a CPU is a move. -/
theorem SmpNext.move {plat : Platform} {m m' : Smp ι} {a : SmpAct ι} (h : SmpInv m)
    (hn : SmpNext plat m a m') :
    (∃ c s job, Move m.mem (m.cpu c).holds s job.holds ∧ m' = m.put c s job) ∨
      ∃ g words, m.Writable g ∧ m' = ⟨m.mem.setTable g words, m.cpu⟩ := by
  obtain ⟨F, hw⟩ := h.wf
  cases a with
  | start c act =>
    obtain ⟨hidle, s, job, reply, hs, rfl⟩ := hn
    have hmove := (handlerStart_moves plat hw act).of_ok hs
    rw [← hidle] at hmove
    exact .inl ⟨c, s, job, hmove, rfl⟩
  | resume c =>
    obtain ⟨s, job, reply, hs, rfl⟩ := hn
    refine .inl ⟨c, s, job, (handlerResume_moves plat hw fun r hr => ?_).of_ok hs, rfl⟩
    rw [h.refs.entered c r hr]
  | rsi c call =>
    obtain ⟨recAddr, hrun, s, res, hs, rfl⟩ := hn
    have hrec := h.refs.entered c recAddr (by rw [hrun]; rfl)
    have hd := (rsiHandler_sat hw (by rw [hrec]) call).of_ok hs
    obtain ⟨F', hwf, -⟩ := RsiDone.effects hw (by simp [recRunning, hrec]) hd
    have hjob : (if res.exitToHost then Job.leaving recAddr rmiSuccess
        else Job.running recAddr).holds = (m.cpu c).holds := by
      rw [hrun]
      split <;> rfl
    refine .inl ⟨c, s, _, ?_, rfl⟩
    rw [hjob]
    exact .steady hwf hd.steady hd.onward
  | exit c =>
    obtain ⟨recAddr, hrun, rfl⟩ := hn
    refine .inl ⟨c, m.mem, _, ?_, rfl⟩
    rw [hrun]
    exact .steady hw (.refl _) (.refl _)
  | write g words => exact .inr ⟨g, words, hn⟩

theorem SmpInv.step {plat : Platform} {m m' : Smp ι} {a : SmpAct ι} (h : SmpInv m)
    (hn : SmpNext plat m a m') : SmpInv m' := by
  obtain ⟨F, hw⟩ := h.wf
  obtain ⟨c, s, job, hmove, rfl⟩ | ⟨g, words, ⟨h1, h2, h3⟩, rfl⟩ := SmpNext.move h hn
  · exact h.put hmove
  · obtain ⟨own, ha⟩ := h.aux
    refine ⟨⟨F, wf_write hw words h1 h2⟩, ⟨h.refs.entered, h.refs.alone, h.refs.outside,
      h.refs.releasing, h.refs.realm⟩, own, ha.congr (fun _ => Iff.rfl) (fun _ => id)
      (fun _ _ => rfl) fun c a hc => ?_⟩
    have hne : a ≠ g := by
      rintro rfl
      exact h3 c hc
    exact Function.update_of_ne hne _ _

omit [DecidableEq ι] in
theorem SmpInv.init : SmpInv (initSmp : Smp ι) := by
  have hns : ∀ g, ((initSmp : Smp ι).mem.granule g).state = .NS := fun _ => rfl
  have hidle : ∀ c, (initSmp : Smp ι).cpu c = .idle := fun _ => rfl
  refine ⟨⟨_, wf_init⟩, ⟨fun c r hc => ?_, fun c c' r hc => ?_, fun _ _ _ => rfl,
    fun c rd hc => ?_,
    fun rd hrd => ?_⟩, fun _ => none, fun c a => ?_, fun r a => ?_, fun a ha => absurd rfl ha,
    fun c a ha => ?_, fun c => List.nodup_nil⟩
  · cases hc
  · cases hc
  · cases hc
  · rw [hns] at hrd
    cases hrd
  · simp [hidle, Job.claims]
  · simp [hns]
  · simp [hidle, Job.claims] at ha

theorem SmpInv.reach {plat : Platform} {m : Smp ι} (hm : SmpReachable plat m) : SmpInv m :=
  hm.invariant .init fun _ _ _ _ h _ hn => h.step hn

end

end RmmCaec
