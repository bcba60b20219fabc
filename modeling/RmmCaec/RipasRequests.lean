import RmmCaec.SmpSteps

/-!
# Where RIPAS requests come from

A REC has an open RIPAS request if the base of its request is not its top. Only the
realm's own call opens one: no handler of the host does, and a new REC has none.
-/
namespace RmmCaec
open RadixForest Outcome Runs

/-- The RIPAS request of a REC is open. -/
def Rec.Asks (r : Rec) : Prop := r.setRipas.base ≠ r.setRipas.top

/-- No request appears. -/
def NoNewRequest (s s' : State) : Prop :=
  ∀ g, (s'.granule g).state = .REC → (s'.recs g).Asks →
    (s.granule g).state = .REC ∧ (s.recs g).Asks

/-- RECs stay as they are, except that the request of one may be served further. A new REC
has no request. -/
def RecsKept (x : Option Word) (s s' : State) : Prop :=
  ∀ g, (s'.granule g).state = .REC →
    ((s.granule g).state = .REC ∧ s'.recs g = s.recs g) ∨
    ((s.granule g).state ≠ .REC ∧ (s'.recs g).setRipas = default) ∨
    (x = some g ∧ (s.granule g).state = .REC ∧ ∃ addr, s'.recs g = { s.recs g with
      setRipas := { (s.recs g).setRipas with addr := addr } })

namespace RecsKept

variable {s s1 s' : State} {x : Option Word}

theorem refl (s : State) : RecsKept x s s := fun _ hg => .inl ⟨hg, rfl⟩

/-- No REC appears, and RECs are the same. -/
theorem trans_same (h : RecsKept x s s1)
    (hrec : ∀ g, (s'.granule g).state = .REC → (s1.granule g).state = .REC)
    (hrecs : ∀ g, (s1.granule g).state = .REC → s'.recs g = s1.recs g) : RecsKept x s s' := by
  intro g hg
  rw [hrecs g (hrec g hg)]
  exact h g (hrec g hg)

theorem of_recs (hrec : ∀ g, (s'.granule g).state = .REC → (s.granule g).state = .REC)
    (hrecs : ∀ g, (s.granule g).state = .REC → s'.recs g = s.recs g) : RecsKept x s s' :=
  (refl s).trans_same hrec hrecs

theorem of_steady (h : Steady s s')
    (hrecs : ∀ g, (s.granule g).state = .REC → s'.recs g = s.recs g) : RecsKept x s s' :=
  of_recs (fun g => (h.isRec g).mp) hrecs

theorem trans_sameAll (h : RecsKept x s s1) (h' : SameAll s1 s') : RecsKept x s s' :=
  h.trans_same (fun g hg => by rw [← h'.state g, hg]) fun g _ => by rw [h'.recs]

theorem of_sameAll (h : SameAll s s') : RecsKept x s s' := (refl s).trans_sameAll h

theorem setRefcount (g : Word) (c : ℕ) : RecsKept x s (s.setRefcount g c) :=
  of_recs (fun y hy => by rwa [State.setRefcount_state] at hy) fun _ _ => rfl

theorem setState {a : Word} {st : GranuleState} (hst : st ≠ .REC) :
    RecsKept x s (s.setState a st) := by
  refine of_recs (fun y hy => ?_) fun _ _ => rfl
  by_cases hya : y = a
  · subst hya
    rw [State.setState_self] at hy
    exact absurd hy hst
  · rwa [State.setState_of_ne s hya] at hy

/-- The host moves on in a request. -/
theorem setAddr (recAddr addr : Word) : RecsKept (some recAddr) s (s.setRec recAddr
    { s.recs recAddr with setRipas := { (s.recs recAddr).setRipas with addr := addr } }) := by
  intro g hg
  by_cases hne : g = recAddr
  · subst hne
    exact .inr (.inr ⟨rfl, hg, addr, by simp [State.setRec]⟩)
  · exact .inl ⟨hg, by simp [State.setRec, hne]⟩

theorem noNewRequest (h : RecsKept x s s') : NoNewRequest s s' := by
  intro g hg ha
  unfold Rec.Asks at ha ⊢
  obtain ⟨hold, heq⟩ | ⟨-, heq⟩ | ⟨-, hold, addr, heq⟩ := h g hg
  · rw [heq] at ha
    exact ⟨hold, ha⟩
  · rw [heq] at ha
    exact absurd rfl ha
  · rw [heq] at ha
    exact ⟨hold, ha⟩

end RecsKept

/-- The REC whose request a call of the host may serve. -/
def Act.serves : Act → Option Word
  | .rttSetRipas _ recAddr _ _ => some recAddr
  | _ => none

theorem StepDone.recsKept {plat : Platform} {s s' : State} {F : Tables} {reply : Reply}
    {act : Act} (h : Wf s F) (hd : StepDone plat s F s' reply act) (hact : act.whole = true) :
    RecsKept act.serves s s' := by
  have hsteady := hd.steady h hact
  cases act with
  | granuleDelegate addr el3Ok | granuleUndelegate addr el3Ok =>
    obtain rfl | ⟨g, hpc, -, -⟩ := Redelegated.plainChange h hd
    · exact .refl _
    · refine .of_steady hsteady fun x hx => hpc.recs x ?_
      rintro rfl
      have hwas := hpc.was
      rw [hx] at hwas
      cases hwas
  | realmCreate rdAddr paramsAddr nsRead =>
    obtain ⟨res, -, ⟨rfl, -⟩ | ⟨-, ctx, hp⟩⟩ := hd
    · exact .refl _
    · exact .of_steady hsteady fun g _ => by rw [hp.recs]
  | realmActivate rdAddr =>
    rcases hd with rfl | ⟨-, -, rfl⟩
    · exact .refl _
    · exact .of_steady hsteady fun g _ => rfl
  | realmDestroy rdAddr =>
    obtain ⟨res, -, ⟨rfl, -⟩ | ⟨-, hp⟩⟩ := hd
    · exact .refl _
    · refine .of_steady hsteady fun g hg => ?_
      have hkeep : ¬ Felled.Gone s rdAddr g := by
        intro hgone
        rcases hp.gone_state hgone with hst | hst <;> rw [hg] at hst <;> cases hst
      exact (hp.same hkeep).2.2.1
  | aptCreate rdAddr aptAddr =>
    obtain ⟨res, -, ⟨rfl, -⟩ | ⟨-, -, -, ⟨-, -, rfl⟩ | ⟨-, -, rfl⟩⟩⟩ := hd
    · exact .refl _
    · exact .of_steady hsteady fun g _ => rfl
    · exact .of_steady hsteady fun g _ => rfl
  | aptDestroy rdAddr aptAddr =>
    obtain ⟨res, -, ⟨rfl, -⟩ | ⟨-, F', hf⟩⟩ := hd
    · exact .refl _
    · refine .of_steady hsteady fun g hg => hf.recs g ?_
      rintro rfl
      rw [hf.isApt] at hg
      cases hg
  | rttCreate rdAddr rttAddr mapAddr ulevel =>
    obtain ⟨res, -, ⟨rfl, -⟩ | ⟨-, t, n, i, m, F', hg⟩⟩ := hd
    · exact .refl _
    · exact .of_steady hsteady fun g hr => hg.graft.same.recs g hr
  | rttFold rdAddr mapAddr ulevel =>
    obtain ⟨res, -, ⟨rfl, -⟩ | ⟨-, t, n, i, k, m, new, pages, F', -, -, -, st, -⟩⟩ := hd
    · exact .refl _
    · exact .of_steady hsteady fun g hr => st.same.recs g hr
  | rttDestroy rdAddr mapAddr ulevel =>
    obtain rfl | ⟨t, n, i, k, m, new, pages, F', -, st, -⟩ := hd
    · exact .refl _
    · exact .of_steady hsteady fun g hr => st.same.recs g hr
  | rttMapUnprotected rdAddr mapAddr ulevel s2tte =>
    obtain ⟨F', ht⟩ := hd
    exact .of_sameAll ht.same
  | rttUnmapUnprotected rdAddr mapAddr ulevel =>
    obtain ⟨F', ht⟩ := hd
    exact .of_sameAll ht.same
  | rttInitRipas rdAddr base top =>
    obtain ⟨F', height, ht⟩ := hd
    exact .of_sameAll ht.same
  | rttSetRipas rdAddr recAddr base top =>
    obtain rfl | ⟨-, -, -, -, -, s1, F', height, ht, rfl | ⟨addr, -, rfl⟩⟩ := hd
    · exact .refl _
    · exact .of_sameAll ht.same
    · intro g hg
      have hrec := RecsKept.setAddr (s := s1) recAddr addr g
      rw [ht.same.recs] at hrec
      rw [← ht.same.state]
      exact hrec hg
  | _ => cases hact

/-- A section keeps the RECs, up to the one whose request it may serve. -/
def SecKeeps (x : Option Word) (s : State) (sec : Sec) : Prop :=
  Sat sec (fun res => RecsKept x s res.1) fun _ => True

section
variable {s : State} {F : Tables} {x : Option Word}

theorem secKeeps_pure (job : Job) (reply : Option Reply) :
    SecKeeps x s (pure (s, job, reply)) := Sat.pure (.refl s)

/-- A REC is made without a request. -/
theorem RecsKept.of_newRec {rdAddr recAddr : Word} {s0 : State} {r : Rec}
    (n : NewRec s rdAddr recAddr [] s0) (hr : r.setRipas = default) :
    RecsKept x s (s0.setRec recAddr r) := by
  intro g hg
  by_cases hne : g = recAddr
  · subst hne
    refine .inr (.inl ⟨by rw [n.fresh]; decide, ?_⟩)
    simpa [State.setRec] using hr
  · have hold : (s.granule g).state = .REC := ((n.isRec g).mp hg).resolve_right hne
    refine .inl ⟨hold, ?_⟩
    rw [← n.recs_of_rec hold]
    exact Function.update_of_ne hne _ _

theorem recCreateSection_keeps (plat : Platform) (h : Wf s F) (rdAddr recAddr : Word)
    (p : RecParams) (claimed : List Word) :
    SecKeeps none s (recCreateSection plat s rdAddr recAddr p claimed) := by
  unfold recCreateSection
  refine Sat.ite (fun _ => secKeeps_pure _ _) fun hret => ?_
  have hlock : findLockTwoGranules plat s recAddr .DELEGATED rdAddr .RD = true := by
    by_contra hc
    rw [Bool.not_eq_true] at hc
    exact hret (by simp [hc, rmiErrorInput, rmiSuccess])
  have hnil : s.setStates [] .REC_AUX = s := by simp [State.setStates]
  have hnew := @newRec_mk plat s F h rdAddr recAddr [] (by simp) (by rwa [hnil])
  rw [hnil] at hnew
  refine granuleRefcountInc_sat trivial (granuleUnlockTransition_sat trivial (Sat.pure ?_))
  set r : Rec := { s.recs recAddr with
    recIdx := (s.rd rdAddr).recCount, gRd := rdAddr, s2Ctx := (s.rd rdAddr).s2Ctx, gAux := claimed }
  have hask : r.setRipas = default := by
    -- the granule was zeroed
    have hzero := (h.zero recAddr (by rw [hnew.fresh]; rfl)).2.1
    simp [r, hzero]
    rfl
  have hmade := @RecsKept.of_newRec s none rdAddr recAddr _ r hnew hask
  convert hmade using 1
  simp only [State.setRec, State.setRefcount, State.setRd, State.setState, Function.update_idem]

theorem RecsKept.of_freedRec (h : Wf s F) {recAddr : Word} {s0 : State}
    (f : FreedRec s recAddr s0) : RecsKept x s s0 := by
  intro g hg
  obtain ⟨hold, hne⟩ := (f.isRec h g).mp hg
  have haux : g ∉ (s.recs recAddr).gAux := by
    intro hmem
    rw [f.wasAux g hmem] at hold
    cases hold
  exact .inl ⟨hold, (f.other g hne haux).2.1⟩

/-- A reference count is of no account. -/
theorem RecsKept.of_setRefcount {s' : State} {g : Word} {c : ℕ}
    (h : RecsKept x s (s'.setRefcount g c)) : RecsKept x s s' :=
  h.trans_same (fun y hy => by rwa [State.setRefcount_state]) fun _ _ => rfl

theorem recDestroySection_keeps (plat : Platform) (h : Wf s F) (recAddr : Word) :
    SecKeeps none s (recDestroySection plat s recAddr) := by
  unfold recDestroySection
  refine findLockGranule_sat trivial ?_
  refine Sat.ite (fun _ => secKeeps_pure _ _) fun hr => ?_
  have hrec := lockable_state (by simpa using hr)
  refine Sat.ite (fun _ => secKeeps_pure _ _) fun hcount => ?_
  rw [not_ne_iff] at hcount
  refine freeGranules_sat trivial trivial _ fun haux => ?_
  refine granuleUnlockTransition_sat trivial (Sat.pure ?_)
  simp only [if_true]
  obtain ⟨-, hfreed⟩ := freedRec_mk h hrec hcount haux rfl
  exact (RecsKept.of_freedRec h hfreed).of_setRefcount

theorem recEnterSection_keeps (plat : Platform) (recAddr runAddr : Word)
    (entry : RecEntry) (reject : Bool) :
    SecKeeps none s (recEnterSection plat s recAddr runAddr entry reject) := by
  unfold recEnterSection
  refine Sat.ite (fun _ => secKeeps_pure _ _) fun _ => ?_
  refine findLockGranule_sat trivial ?_
  refine Sat.ite (fun _ => secKeeps_pure _ _) fun _ => ?_
  refine Sat.ite (fun _ => secKeeps_pure _ _) fun _ => ?_
  exact granuleRefcountInc_sat trivial (granuleUnlock_sat trivial (Sat.pure (.setRefcount _ _)))

theorem dataCreateStart_keeps (plat : Platform) (h : Wf s F) (rdAddr dataAddr mapAddr : Word)
    (measured : Bool) (nsCopy : NsCopy) :
    SecKeeps none s (dataCreateStart plat s rdAddr dataAddr mapAddr measured nsCopy) := by
  unfold dataCreateStart
  refine Sat.bind ((dataCreate_sat h rdAddr dataAddr mapAddr measured nsCopy).mono
    (fun _ => id) fun _ _ => trivial) ?_
  rintro ⟨s1, res⟩ (⟨rfl, -⟩ | ⟨-, F', r, old, ha⟩)
  · exact Sat.ite (fun _ => secKeeps_pure _ _) fun _ => secKeeps_pure _ _
  · obtain ⟨t, n, i, st, -, -, -⟩ := ha.edit
    have hkept : RecsKept none s s1 :=
      (RecsKept.setState (by decide)).trans_sameAll (st.sameAll ha.claimWf.holds)
    exact Sat.ite (fun _ => Sat.pure hkept) fun _ => Sat.pure hkept

theorem dataDestroyStart_keeps (plat : Platform) (h : Wf s F) (rdAddr mapAddr : Word) :
    SecKeeps none s (handlerStart plat s (.dataDestroy rdAddr mapAddr)) := by
  refine Sat.bind ((dataDestroySection_sat h rdAddr mapAddr).mono
    (fun _ => id) fun _ _ => trivial) ?_
  rintro ⟨s1, res⟩ (⟨rfl, -⟩ | ⟨-, F', hp⟩)
  · exact Sat.ite (fun _ => secKeeps_pure _ _) fun _ => secKeeps_pure _ _
  · obtain ⟨t, n, i, r, dataAddr, s2, -, -, -, st, hdata, -, rfl⟩ := hp
    have hkept : RecsKept none s (s2.release dataAddr) := by
      refine (RecsKept.of_sameAll (st.sameAll h.holds)).trans_same (fun g hg => ?_) fun _ _ => rfl
      have hne : g ≠ dataAddr := by
        rintro rfl
        simp [State.release] at hg
      have hgran : (s2.release dataAddr).granule g = s2.granule g := by
        simp only [State.release]
        rw [State.setState_of_ne _ hne]
        rfl
      rwa [hgran] at hg
    exact Sat.ite (fun _ => Sat.pure hkept) fun _ => Sat.pure hkept

theorem whole_keeps (plat : Platform) (h : Wf s F) {act : Act} (hact : act.whole = true) :
    SecKeeps act.serves s (do
      let (s1, reply) ← step plat s act
      return (s1, .idle, some reply)) := by
  refine Sat.bind ((step_sat h act).mono (fun _ => id) fun _ _ => trivial) ?_
  rintro ⟨s1, reply⟩ hd
  exact Sat.pure (hd.recsKept h hact)

theorem handlerStart_keeps (plat : Platform) (h : Wf s F) (act : Act) :
    SecKeeps act.serves s (handlerStart plat s act) := by
  cases act with
  | recCreate rdAddr recAddr paramsAddr nsRead =>
    refine Sat.ite (fun _ => secKeeps_pure _ _) fun _ => ?_
    cases nsRead with
    | none => exact secKeeps_pure _ _
    | some p => exact Sat.ite (fun _ => secKeeps_pure _ _) fun _ => secKeeps_pure _ _
  | recDestroy recAddr => exact recDestroySection_keeps plat h recAddr
  | recEnter recAddr runAddr entry reject =>
    exact recEnterSection_keeps plat recAddr runAddr entry reject
  | dataCreate rdAddr dataAddr mapAddr srcAddr flags nsCopy =>
    refine Sat.ite (fun _ => secKeeps_pure _ _) fun _ => ?_
    refine Sat.ite (fun _ => secKeeps_pure _ _) fun _ => ?_
    exact dataCreateStart_keeps plat h rdAddr dataAddr mapAddr true nsCopy
  | dataCreateUnknown rdAddr dataAddr mapAddr =>
    exact dataCreateStart_keeps plat h rdAddr dataAddr mapAddr false .done
  | dataDestroy rdAddr mapAddr => exact dataDestroyStart_keeps plat h rdAddr mapAddr
  | rsi recAddr call | recExit recAddr => exact secKeeps_pure _ _
  | _ => exact whole_keeps plat h rfl

theorem mirroring_keeps (plat : Platform) (h : Wf s F) (rdAddr dataAddr mapAddr : Word)
    (res : SmcResult) :
    SecKeeps none s (handlerResume plat s (.mirroring rdAddr dataAddr mapAddr res)) := by
  refine Sat.bind (csmPropagateCreate_kept plat h rdAddr dataAddr mapAddr) ?_
  rintro s' ⟨F', hwf, hsame⟩
  exact Sat.pure (.of_sameAll hsame)

theorem unmirroring_keeps (plat : Platform) (h : Wf s F) (rdAddr mapAddr : Word)
    (res : SmcResult) :
    SecKeeps none s (handlerResume plat s (.unmirroring rdAddr mapAddr res)) := by
  refine Sat.bind ((csmPropagateDestroy_sat plat h rdAddr mapAddr).mono (fun _ => id)
    fun _ _ => trivial) ?_
  rintro s' ⟨F', hrem⟩
  exact Sat.pure (.of_sameAll hrem.same)

theorem handlerResume_keeps (plat : Platform) (h : Wf s F) {job : Job}
    (hent : ∀ recAddr entry reject, job ≠ .entered recAddr entry reject) :
    SecKeeps none s (handlerResume plat s job) := by
  cases job with
  | idle | running recAddr => exact secKeeps_pure _ _
  | claiming rdAddr recAddr p left claimed =>
    cases left with
    | nil => exact recCreateSection_keeps plat h rdAddr recAddr p claimed
    | cons a left =>
      refine findLockGranule_sat trivial ?_
      refine Sat.ite (fun _ => ?_) fun _ => ?_
      · cases claimed with
        | nil => exact Sat.ok_bind (secKeeps_pure _ _)
        | cons b bs => exact Sat.error_bind trivial
      · exact granuleUnlockTransition_sat trivial (Sat.pure (.setState (by decide)))
  | unclaiming left ret =>
    cases left with
    | nil => exact secKeeps_pure _ _
    | cons a left =>
      refine Sat.bind (Q := fun _ => True) ?_ fun _ _ => ?_
      · exact Sat.ite (fun _ => Sat.ok trivial) fun _ => Sat.error trivial
      · exact granuleUnlockTransition_sat trivial (Sat.pure (.setState (by decide)))
  | releasing rdAddr => exact atomicGranulePut_sat (Sat.pure (.setRefcount _ _))
  | entered recAddr entry reject => exact absurd rfl (hent recAddr entry reject)
  | leaving recAddr ret => exact atomicGranulePut_sat (Sat.pure (.setRefcount _ _))
  | mirroring rdAddr dataAddr mapAddr res =>
    exact mirroring_keeps plat h rdAddr dataAddr mapAddr res
  | unmirroring rdAddr mapAddr res => exact unmirroring_keeps plat h rdAddr mapAddr res

/-- An entry ends a request, unless it is refused. -/
theorem completeSetRipas_not_asks (r : Rec) : ¬ (completeSetRipas r).Asks := by
  unfold completeSetRipas
  split
  · next heq => exact not_not.mpr heq
  · exact not_not.mpr rfl

theorem NoNewRequest.setRec {recAddr : Word} {r : Rec} (hr : ¬ r.Asks) :
    NoNewRequest s (s.setRec recAddr r) := by
  intro g hg ha
  refine ⟨hg, ?_⟩
  by_cases hne : g = recAddr
  · subst hne
    simp only [State.setRec, Function.update_self] at ha
    exact absurd ha hr
  · simpa [State.setRec, hne] using ha

theorem recEnterBody_noRequest (recAddr : Word) (entry : RecEntry) (reject : Bool) :
    Sat (recEnterBody s recAddr entry reject)
      (fun res => res.1.granule = s.granule ∧ NoNewRequest s res.1 ∧
        (∀ g, res.2.1 = .running g → g = recAddr ∧ entry = .run ∧
          ¬ (res.1.recs recAddr).Asks) ∧
        (entry = .run → (s.rd (s.recs recAddr).gRd).state = .ACTIVE →
          res.2.1 = .running recAddr)) fun _ => True := by
  unfold recEnterBody
  dsimp only
  generalize (s.rd (s.recs recAddr).gRd).state = state
  have back : ∀ ret, ¬ (entry = .run ∧ state = .ACTIVE) →
      Sat (secYield s (.leaving recAddr ret))
        (fun res => res.1.granule = s.granule ∧ NoNewRequest s res.1 ∧
          (∀ g, res.2.1 = .running g → g = recAddr ∧ entry = .run ∧
            ¬ (res.1.recs recAddr).Asks) ∧
          (entry = .run → state = .ACTIVE → res.2.1 = .running recAddr)) fun _ => True :=
    fun ret hne => Sat.pure ⟨rfl, fun _ hg ha => ⟨hg, ha⟩, nofun,
      fun h1 h2 => absurd ⟨h1, h2⟩ hne⟩
  refine Sat.ite (fun hentry => back _ (by simp [hentry])) fun _ => ?_
  have hask := completeSetRipas_not_asks
    { s.recs recAddr with setRipas := { (s.recs recAddr).setRipas with reject := reject } }
  cases state with
  | NEW | SYSTEM_OFF => exact back _ (by simp)
  | ACTIVE =>
    cases entry with
    | unreadable | refused => exact back _ (by simp)
    | aborted => exact Sat.pure ⟨rfl, .setRec hask, nofun, nofun⟩
    | run =>
      refine Sat.pure ⟨rfl, .setRec hask, fun g hg => ⟨(Job.running.inj hg).symm, rfl, ?_⟩,
        fun _ _ => rfl⟩
      simpa [State.setRec] using hask

/-- Only the call that makes a request changes a REC. -/
theorem RsiDone.recs {plat : Platform} {s1 : State} {recAddr : Word} {res : RsiResult}
    {call : RsiCall} (hd : RsiDone plat s F recAddr s1 res call) :
    s1.recs = s.recs ∨ ∃ x1 x2 x3 x4, call = .ipaStateSet x1 x2 x3 x4 ∧
      (s1, res) = handleRsiIpaStateSet s recAddr x1 x2 x3 x4 := by
  cases call with
  | csmCreate x2 x3 =>
    rcases hd with ⟨rfl, -⟩ | ⟨ids, -, rfl, -⟩ | ⟨ids, id, -, rfl, -⟩ |
      ⟨-, -, -, -, ids, id, apt', idx, -, -, rfl⟩ <;> exact .inl rfl
  | csmShare x1 x2 x3 =>
    rcases hd with ⟨rfl, -⟩ | ⟨-, -, _, _, _, _, -, -, -, -, rfl⟩ <;> exact .inl rfl
  | csmReserve x1 x2 x3 =>
    rcases hd with rfl | ⟨-, -, -, _, _, _, _, -, -, -, -, -, -, -, -, -, rfl⟩ <;>
      exact .inl rfl
  | csmAttach x1 =>
    rcases hd with ⟨rfl, -⟩ | ⟨-, _, _, _, -, -, -, -, hm⟩
    · exact .inl rfl
    · exact .inl hm.same.recs
  | csmDetachAndFree x1 =>
    rcases hd with ⟨rfl, -⟩ | ⟨-, _, _, -, -, hc⟩
    · exact .inl rfl
    · exact .inl hc.recs
  | csmRevoke x1 =>
    rcases hd with ⟨rfl, -⟩ | ⟨-, _, _, _, -, -, hc⟩
    · exact .inl rfl
    · exact .inl hc.recs
  | csmDestroy x1 =>
    rcases hd with ⟨rfl, -⟩ | ⟨-, -, _, -, -, rfl⟩ <;> exact .inl rfl
  | ipaStateSet x1 x2 x3 x4 => exact .inr ⟨x1, x2, x3, x4, rfl, hd⟩
  | systemOff =>
    obtain rfl := hd
    exact .inl rfl

/-- Only its own call makes a REC ask, and the call leaves the realm. -/
theorem RsiDone.asks {plat : Platform} {s1 : State} {recAddr : Word} {res : RsiResult}
    {call : RsiCall} (hd : RsiDone plat s F recAddr s1 res call) {g : Word}
    (ha : (s1.recs g).Asks) :
    (s.recs g).Asks ∨ (g = recAddr ∧ res.exitToHost = true ∧
      ∃ x1 x2 x3 x4, call = .ipaStateSet x1 x2 x3 x4) := by
  obtain hsame | ⟨x1, x2, x3, x4, rfl, heq⟩ := hd.recs
  · rw [hsame] at ha
    exact .inl ha
  · unfold handleRsiIpaStateSet at heq
    dsimp only at heq
    split at heq
    · obtain ⟨rfl, -⟩ := Prod.mk.inj heq
      exact .inl ha
    · obtain ⟨rfl, rfl⟩ := Prod.mk.inj heq
      by_cases hne : g = recAddr
      · exact .inr ⟨hne, rfl, x1, x2, x3, x4, rfl⟩
      · exact .inl (by simpa [State.setRec, hne] using ha)

end

end RmmCaec
