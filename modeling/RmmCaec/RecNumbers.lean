import RmmCaec.PsciLaws
import RmmCaec.Regions

/-!
# The numbers of RECs

A realm counts the RECs that it has made, and a new REC has the count before it as its
index. No other step makes a REC or changes the count of a realm.
-/
namespace RmmCaec
open RadixForest Outcome Runs

/-- No REC is made, and realms keep the count of those that they have made. -/
structure NoneMade (s s' : State) : Prop where
  isRec : ∀ g, (s'.granule g).state = .REC → (s.granule g).state = .REC
  isRd : ∀ g, (s'.granule g).state = .RD →
    (s.granule g).state = .RD ∨ (s.granule g).state = .DELEGATED
  count : ∀ g, (s'.granule g).state = .RD → (s'.rd g).recCount = (s.rd g).recCount

namespace NoneMade

variable {s s1 s' : State} {F F' : Tables}

/-- No RD appears. -/
theorem of_rds (hrec : ∀ g, (s'.granule g).state = .REC → (s.granule g).state = .REC)
    (hrd : ∀ g, (s'.granule g).state = .RD → (s.granule g).state = .RD)
    (hcount : ∀ g, (s.granule g).state = .RD → (s'.granule g).state = .RD →
      (s'.rd g).recCount = (s.rd g).recCount) : NoneMade s s' :=
  ⟨hrec, fun g hg => .inl (hrd g hg), fun g hg => hcount g (hrd g hg) hg⟩

/-- Granules keep their state. -/
theorem of_states (hstate : ∀ g, (s'.granule g).state = (s.granule g).state)
    (hcount : ∀ g, (s'.rd g).recCount = (s.rd g).recCount) : NoneMade s s' :=
  of_rds (fun g hg => by rwa [← hstate]) (fun g hg => by rwa [← hstate]) fun g _ _ => hcount g

theorem refl (s : State) : NoneMade s s := of_states (fun _ => rfl) fun _ => rfl

theorem of_sameAll (h : SameAll s s') : NoneMade s s' := of_states h.state fun g => by rw [h.rd]

theorem trans_sameAll (h : NoneMade s s1) (h' : SameAll s1 s') : NoneMade s s' := by
  refine ⟨fun g hg => h.isRec g ?_, fun g hg => h.isRd g ?_, fun g hg => ?_⟩
  · rwa [h'.state] at hg
  · rwa [h'.state] at hg
  · rw [h'.state] at hg
    rw [h'.rd, h.count g hg]

theorem sameAll_trans (h : SameAll s s1) (h' : NoneMade s1 s') : NoneMade s s' := by
  refine ⟨fun g hg => ?_, fun g hg => ?_, fun g hg => ?_⟩
  · rw [← h.state]
    exact h'.isRec g hg
  · rw [← h.state]
    exact h'.isRd g hg
  · rw [← h.rd]
    exact h'.count g hg

theorem setRefcount (g : Word) (c : ℕ) : NoneMade s (s.setRefcount g c) :=
  of_states (s.setRefcount_state g c) fun _ => rfl

/-- A reference count is of no account. -/
theorem of_setRefcount {g : Word} {c : ℕ} (h : NoneMade s (s'.setRefcount g c)) :
    NoneMade s s' := by
  refine ⟨fun y hy => h.isRec y ?_, fun y hy => h.isRd y ?_, fun y hy => h.count y ?_⟩ <;>
    rwa [State.setRefcount_state]

theorem setRec (recAddr : Word) (r : Rec) : NoneMade s (s.setRec recAddr r) :=
  of_states (fun _ => rfl) fun _ => rfl

/-- A realm moves on in its life or gets a table. -/
theorem setRd {rdAddr : Word} {rd : Rd} (h : rd.recCount = (s.rd rdAddr).recCount) :
    NoneMade s (s.setRd rdAddr rd) := by
  refine of_states (fun _ => rfl) fun g => ?_
  by_cases hg : g = rdAddr
  · subst hg
    simpa [State.setRd] using h
  · simp [State.setRd, hg]

theorem setState {a : Word} {st : GranuleState} (h1 : st ≠ .REC) (h2 : st ≠ .RD) :
    NoneMade s (s.setState a st) := by
  have back : ∀ {x : GranuleState} {g : Word}, st ≠ x →
      ((s.setState a st).granule g).state = x → (s.granule g).state = x := by
    intro x g hne hg
    by_cases hga : g = a
    · subst hga
      rw [State.setState_self] at hg
      exact absurd hg hne
    · rwa [State.setState_of_ne s hga] at hg
  exact of_rds (fun _ => back h1) (fun _ => back h2) fun _ _ _ => rfl

theorem of_graft {t k : Word} {n m : Table} {i : ℕ} (h : Holds s F)
    (st : GraftStep s F t n i k m s' F') : NoneMade s s' := by
  refine of_rds (fun g => ((Steady.of_graft h st).isRec g).mp) (fun g => ?_) fun g hg _ => ?_
  · exact (st.state_iff h g (by decide) (by decide)).mp
  · rw [st.same.rd g hg]

theorem of_prune {t k : Word} {n m : Table} {i pages : ℕ} {new : Entry} (h : Holds s F)
    (st : PruneStep s F t n i k m new pages s' F') : NoneMade s s' := by
  refine of_rds (fun g => ((Steady.of_prune h st).isRec g).mp) (fun g => ?_) fun g hg _ => ?_
  · exact (st.state_iff h g (by decide) (by decide)).mp
  · rw [st.same.rd g hg]

/-- A new realm has made no REC. -/
theorem of_planted {rdAddr : Word} {ctx : S2ttContext} (h : Wf s F)
    (p : Planted s rdAddr ctx s') : NoneMade s s' := by
  have hfresh := p.fresh rdAddr (.inl rfl)
  refine ⟨fun g => ((Steady.of_planted p).isRec g).mp, fun g hg => ?_, fun g _ => ?_⟩
  · obtain hold | rfl := (p.isRd g).mp hg
    · exact .inl hold
    · exact .inr hfresh
  · rw [p.rd]
    by_cases hg : g = rdAddr
    · subst hg
      have hzero := (h.zero g (by rw [hfresh]; rfl)).1
      rw [Function.update_self, hzero]
      rfl
    · rw [Function.update_of_ne hg]

theorem of_felled {rdAddr : Word} (p : Felled s rdAddr s') : NoneMade s s' := by
  refine of_rds (fun g => ((Steady.of_felled p).isRec g).mp) (fun g hg => ((p.isRd g).mp hg).1)
    fun g hold hg => ?_
  have hne := ((p.isRd g).mp hg).2
  rw [(p.same (mt (p.gone_of_rd hold).mp hne)).2.1]

theorem of_aptFreed {plat : Platform} {rdAddr aptAddr : Word}
    (h : AptFreed plat s F rdAddr aptAddr s' F') : NoneMade s s' := by
  have hne : ∀ {g st}, st ≠ .DELEGATED → (s'.granule g).state = st → g ≠ aptAddr := by
    rintro g st hst hg rfl
    rw [h.freed] at hg
    exact hst hg.symm
  refine of_rds (fun g hg => ?_) (fun g hg => ?_) fun g _ hg => ?_
  · rwa [← h.state g (hne (by decide) hg)]
  · rwa [← h.state g (hne (by decide) hg)]
  · rw [h.rd g (hne (by decide) hg)]

theorem of_freedRec (h : Wf s F) {recAddr : Word} (f : FreedRec s recAddr s') :
    NoneMade s s' := by
  refine of_rds (fun g hg => ((f.isRec h g).mp hg).1)
    (fun g => (f.state_iff h (by decide) (by decide) (by decide) g).mp) fun g hg _ => ?_
  obtain ⟨h1, h2⟩ := f.not_freed (by decide) (by decide) hg
  rw [(f.other g h1 h2).1]

/-- A page is created. -/
theorem of_assigned {plat : Platform} {rdAddr dataAddr mapAddr : Word} {measured : Bool} {r : Ripas}
    {old : Entry} (ha : Assigned plat s F rdAddr dataAddr mapAddr measured s' F' r old) :
    NoneMade s s' := by
  obtain ⟨t, n, i, st, -⟩ := ha.edit
  exact (setState (by decide) (by decide)).trans_sameAll (st.sameAll ha.claimWf.holds)

/-- A page is destroyed. -/
theorem of_pageDestroyed {rdAddr mapAddr : Word} (h : Wf s F)
    (hp : PageDestroyed s F rdAddr mapAddr s' F') : NoneMade s s' := by
  obtain ⟨t, n, i, r, dataAddr, s1, -, -, -, st, -, -, rfl⟩ := hp
  have hfreed : NoneMade s1 (s1.setState dataAddr .DELEGATED) := setState (by decide) (by decide)
  exact sameAll_trans (st.sameAll h.holds) ⟨hfreed.isRec, hfreed.isRd, hfreed.count⟩

end NoneMade

theorem RsiDone.noneMade {plat : Platform} {s s1 : State} {F : Tables} {recAddr : Word}
    {res : RsiResult} {call : RsiCall} (hd : RsiDone plat s F recAddr s1 res call) :
    NoneMade s s1 := by
  have shared : (Act.rsi recAddr call).sharing = true → NoneMade s s1 := by
    intro hc
    obtain ⟨hrd, hstate⟩ := hd.realms_same hc
    exact .of_states hstate fun g => by rw [hrd]
  cases call with
  | csmAttach x1 =>
    rcases hd with ⟨rfl, -⟩ | ⟨-, _, _, _, -, -, -, -, hm⟩
    · exact .refl _
    · exact .of_sameAll hm.same
  | ipaStateSet x1 x2 x3 x4 =>
    have hs : s1 = (handleRsiIpaStateSet s recAddr x1 x2 x3 x4).1 := congrArg Prod.fst hd
    rcases handleRsiIpaStateSet_spec s recAddr x1 x2 x3 x4 with h1 | ⟨req, h1⟩
    · rw [hs, h1]
      exact .refl _
    · rw [hs, h1]
      exact .setRec _ _
  | systemOff =>
    cases hd
    exact .setRd rfl
  | csmCreate x2 x3 | csmShare x1 x2 x3 | csmReserve x1 x2 x3 => exact shared rfl
  | csmDetachAndFree x1 | csmRevoke x1 | csmDestroy x1 => exact shared rfl

theorem StepDone.noneMade {plat : Platform} {s s' : State} {F : Tables} {reply : Reply} {act : Act}
    (h : Wf s F) (hd : StepDone plat s F s' reply act) (hact : act.whole = true) :
    NoneMade s s' := by
  cases act with
  | granuleDelegate addr el3Ok | granuleUndelegate addr el3Ok =>
    rcases hd with rfl | ⟨g, -, rfl⟩ | ⟨g, -, rfl⟩
    · exact .refl _
    · have hmoved : NoneMade s (s.setState g .DELEGATED) := .setState (by decide) (by decide)
      exact ⟨hmoved.isRec, hmoved.isRd, hmoved.count⟩
    · exact .setState (by decide) (by decide)
  | realmCreate rdAddr paramsAddr nsRead =>
    obtain ⟨res, -, ⟨rfl, -⟩ | ⟨-, ctx, hp⟩⟩ := hd
    · exact .refl _
    · exact .of_planted h hp
  | realmActivate rdAddr =>
    obtain rfl | ⟨-, -, rfl⟩ := hd
    · exact .refl _
    · exact .setRd rfl
  | realmDestroy rdAddr =>
    obtain ⟨res, -, ⟨rfl, -⟩ | ⟨-, hp⟩⟩ := hd
    · exact .refl _
    · exact .of_felled hp
  | aptCreate rdAddr aptAddr =>
    obtain ⟨res, -, ⟨rfl, -⟩ | ⟨-, -, -, ⟨-, -, rfl⟩ | ⟨-, -, rfl⟩⟩⟩ := hd
    · exact .refl _
    · exact .setState (by decide) (by decide)
    · have hmoved : NoneMade s (s.setState aptAddr .APT) := .setState (by decide) (by decide)
      refine ⟨hmoved.isRec, hmoved.isRd, fun g _ => ?_⟩
      by_cases hg : g = rdAddr
      · subst hg
        simp [State.setState, State.setRd]
      · simp [State.setState, State.setRd, hg]
  | aptDestroy rdAddr aptAddr =>
    obtain ⟨res, -, ⟨rfl, -⟩ | ⟨-, F', hf⟩⟩ := hd
    · exact .refl _
    · exact .of_aptFreed hf
  | rttCreate rdAddr rttAddr mapAddr ulevel =>
    obtain ⟨res, -, ⟨rfl, -⟩ | ⟨-, t, n, i, m, F', hg⟩⟩ := hd
    · exact .refl _
    · exact .of_graft h.holds hg.graft
  | rttFold rdAddr mapAddr ulevel =>
    obtain ⟨res, -, ⟨rfl, -⟩ | ⟨-, t, n, i, k, m, new, pages, F', -, -, -, st, -⟩⟩ := hd
    · exact .refl _
    · exact .of_prune h.holds st
  | rttDestroy rdAddr mapAddr ulevel =>
    obtain rfl | ⟨t, n, i, k, m, new, pages, F', -, st, -⟩ := hd
    · exact .refl _
    · exact .of_prune h.holds st
  | rttMapUnprotected rdAddr mapAddr ulevel s2tte =>
    obtain ⟨F', ht⟩ := hd
    exact .of_sameAll ht.same
  | rttUnmapUnprotected rdAddr mapAddr ulevel =>
    obtain ⟨F', ht⟩ := hd
    exact .of_sameAll ht.same
  | rttInitRipas rdAddr base top =>
    obtain ⟨F', height, ht⟩ := hd
    exact .of_sameAll ht.same
  | rttSetRipas rdAddr recAddr base top =>
    obtain rfl | ⟨-, -, -, -, -, s1, F', height, ht, rfl | ⟨addr, -, rfl⟩⟩ := hd
    · exact .refl _
    · exact .of_sameAll ht.same
    · exact .sameAll_trans ht.same (.setRec _ _)
  | _ => cases hact

/-- A realm makes a REC, whose index is the number of those made before. -/
structure MadeRec (s : State) (rdAddr recAddr : Word) (s' : State) : Prop where
  isRd : (s.granule rdAddr).state = .RD
  fresh : (s.granule recAddr).state = .DELEGATED
  recs : ∀ g, (s'.granule g).state = .REC ↔ (s.granule g).state = .REC ∨ g = recAddr
  rds : ∀ g, (s'.granule g).state = .RD ↔ (s.granule g).state = .RD
  count : ∀ g, (s'.rd g).recCount =
    if g = rdAddr then (s.rd rdAddr).recCount + 1 else (s.rd g).recCount
  gRd : (s'.recs recAddr).gRd = rdAddr
  recIdx : (s'.recs recAddr).recIdx = (s.rd rdAddr).recCount

/-- The REC that the next section of a job may make, with its realm and the parameters of
the host. -/
def Job.creates : Job → Option (Word × Word × RecParams)
  | .claiming rdAddr recAddr p [] _ => some (rdAddr, recAddr, p)
  | _ => none

/-- A step makes no REC, or the given one for the index in its parameters. -/
def Makes (s : State) (x : Option (Word × Word × RecParams)) (s' : State) : Prop :=
  NoneMade s s' ∨ ∃ rdAddr recAddr p, x = some (rdAddr, recAddr, p) ∧
    p.mpidrIdx = some (s.rd rdAddr).recCount ∧ MadeRec s rdAddr recAddr s'

/-- The section makes no REC. -/
def SecNoneMade (s : State) (sec : Sec) : Prop :=
  Sat sec (fun res => NoneMade s res.1) fun _ => True

section
variable {s : State} {F : Tables}

theorem secNoneMade_pure (job : Job) (reply : Option Reply) :
    SecNoneMade s (pure (s, job, reply)) := Sat.pure (.refl s)

theorem MadeRec.of_newRec {rdAddr recAddr : Word} {s0 : State} {r : Rec}
    (n : NewRec s rdAddr recAddr [] s0) (hrd : r.gRd = rdAddr)
    (hidx : r.recIdx = (s.rd rdAddr).recCount) :
      MadeRec s rdAddr recAddr (s0.setRec recAddr r) where
  isRd := n.isRd
  fresh := n.fresh
  recs := n.isRec
  rds := n.state_iff (by decide) (by decide) (by decide)
  count g := by
    show (s0.rd g).recCount = _
    rw [n.rd]
    by_cases hg : g = rdAddr
    · subst hg
      simp
    · simp [hg]
  gRd := by simpa [State.setRec] using hrd
  recIdx := by simpa [State.setRec] using hidx

theorem recCreateSection_makes (plat : Platform) (h : Wf s F) (rdAddr recAddr : Word)
    (p : RecParams) (claimed : List Word) :
    Sat (recCreateSection plat s rdAddr recAddr p claimed)
      (fun res => Makes s (some (rdAddr, recAddr, p)) res.1) fun _ => True := by
  unfold recCreateSection
  refine Sat.ite (fun _ => Sat.pure (.inl (.refl s))) fun hret => ?_
  have hlock : findLockTwoGranules plat s recAddr .DELEGATED rdAddr .RD = true := by
    by_contra hc
    rw [Bool.not_eq_true] at hc
    exact hret (by simp [hc, rmiErrorInput, rmiSuccess])
  have hidx : p.mpidrIdx = some (s.rd rdAddr).recCount := by
    by_contra hc
    refine hret ?_
    -- one of the checks up to this one fails
    simp only [hlock, hc, Bool.not_true, Bool.false_eq_true, if_false, ne_eq, not_false_eq_true,
      if_true]
    split
    · decide
    · split <;> decide
  have hnil : s.setStates [] .REC_AUX = s := by simp [State.setStates]
  have hnew := @newRec_mk plat s F h rdAddr recAddr [] (by simp) (by rwa [hnil])
  rw [hnil] at hnew
  refine granuleRefcountInc_sat trivial (granuleUnlockTransition_sat trivial (Sat.pure ?_))
  set r : Rec := { s.recs recAddr with
    recIdx := (s.rd rdAddr).recCount, gRd := rdAddr, s2Ctx := (s.rd rdAddr).s2Ctx, gAux := claimed }
  have hmade := MadeRec.of_newRec (r := r) hnew rfl rfl
  refine .inr ⟨rdAddr, recAddr, p, rfl, hidx, ?_⟩
  convert hmade using 1
  simp only [State.setRec, State.setRefcount, State.setRd, State.setState, Function.update_idem]

theorem recDestroySection_noneMade (plat : Platform) (h : Wf s F) (recAddr : Word) :
    SecNoneMade s (recDestroySection plat s recAddr) := by
  unfold recDestroySection
  refine findLockGranule_sat trivial ?_
  refine Sat.ite (fun _ => secNoneMade_pure _ _) fun hr => ?_
  have hrec := lockable_state (by simpa using hr)
  refine Sat.ite (fun _ => secNoneMade_pure _ _) fun hcount => ?_
  rw [not_ne_iff] at hcount
  refine freeGranules_sat trivial trivial _ fun haux => ?_
  refine granuleUnlockTransition_sat trivial (Sat.pure ?_)
  simp only [if_true]
  obtain ⟨-, hfreed⟩ := freedRec_mk h hrec hcount haux rfl
  exact (NoneMade.of_freedRec h hfreed).of_setRefcount

theorem recEnterSection_noneMade (plat : Platform) (recAddr runAddr : Word)
    (entry : RecEntry) (reject : Bool) :
    SecNoneMade s (recEnterSection plat s recAddr runAddr entry reject) := by
  unfold recEnterSection
  refine Sat.ite (fun _ => secNoneMade_pure _ _) fun _ => ?_
  refine findLockGranule_sat trivial ?_
  refine Sat.ite (fun _ => secNoneMade_pure _ _) fun _ => ?_
  refine Sat.ite (fun _ => secNoneMade_pure _ _) fun _ => ?_
  exact granuleRefcountInc_sat trivial (granuleUnlock_sat trivial (Sat.pure (.setRefcount _ _)))

theorem recEnterBody_noneMade (recAddr : Word) (entry : RecEntry) (reject : Bool) :
    SecNoneMade s (recEnterBody s recAddr entry reject) := by
  unfold recEnterBody
  refine Sat.ite (fun _ => secNoneMade_pure _ _) fun _ => ?_
  dsimp only
  cases (s.rd (s.recs recAddr).gRd).state with
  | NEW | SYSTEM_OFF => exact secNoneMade_pure _ _
  | ACTIVE =>
    cases entry with
    | unreadable | refused => exact secNoneMade_pure _ _
    | aborted | run => exact Sat.pure (.setRec _ _)

theorem dataCreateStart_noneMade (plat : Platform) (h : Wf s F) (rdAddr dataAddr mapAddr : Word)
    (measured : Bool) (nsCopy : NsCopy) :
    SecNoneMade s (dataCreateStart plat s rdAddr dataAddr mapAddr measured nsCopy) := by
  unfold dataCreateStart
  refine Sat.bind ((dataCreate_sat h rdAddr dataAddr mapAddr measured nsCopy).mono
    (fun _ => id) fun _ _ => trivial) ?_
  rintro ⟨s1, res⟩ (⟨rfl, -⟩ | ⟨-, F', r, old, ha⟩)
  · exact Sat.ite (fun _ => secNoneMade_pure _ _) fun _ => secNoneMade_pure _ _
  · exact Sat.ite (fun _ => Sat.pure (.of_assigned ha)) fun _ => Sat.pure (.of_assigned ha)

theorem dataDestroyStart_noneMade (plat : Platform) (h : Wf s F) (rdAddr mapAddr : Word) :
    SecNoneMade s (handlerStart plat s (.dataDestroy rdAddr mapAddr)) := by
  refine Sat.bind ((dataDestroySection_sat h rdAddr mapAddr).mono
    (fun _ => id) fun _ _ => trivial) ?_
  rintro ⟨s1, res⟩ (⟨rfl, -⟩ | ⟨-, F', hp⟩)
  · exact Sat.ite (fun _ => secNoneMade_pure _ _) fun _ => secNoneMade_pure _ _
  · have hmade := NoneMade.of_pageDestroyed h hp
    exact Sat.ite (fun _ => Sat.pure hmade) fun _ => Sat.pure hmade

theorem handlerStart_noneMade (plat : Platform) (h : Wf s F) (act : Act) :
    SecNoneMade s (handlerStart plat s act) := by
  have whole : ∀ {k : State × Reply → Sec},
      (∀ s1 reply, k (s1, reply) = pure (s1, .idle, some reply)) → act.whole = true →
      SecNoneMade s (step plat s act >>= k) := by
    intro k hk hact
    refine Sat.bind ((step_sat h act).mono (fun _ => id) fun _ _ => trivial) ?_
    rintro ⟨s1, reply⟩ hd
    rw [hk]
    exact Sat.pure (hd.noneMade h hact)
  cases act with
  | recCreate rdAddr recAddr paramsAddr nsRead =>
    refine Sat.ite (fun _ => secNoneMade_pure _ _) fun _ => ?_
    cases nsRead with
    | none => exact secNoneMade_pure _ _
    | some p => exact Sat.ite (fun _ => secNoneMade_pure _ _) fun _ => secNoneMade_pure _ _
  | recDestroy recAddr => exact recDestroySection_noneMade plat h recAddr
  | recEnter recAddr runAddr entry reject =>
    exact recEnterSection_noneMade plat recAddr runAddr entry reject
  | dataCreate rdAddr dataAddr mapAddr srcAddr flags nsCopy =>
    refine Sat.ite (fun _ => secNoneMade_pure _ _) fun _ => ?_
    refine Sat.ite (fun _ => secNoneMade_pure _ _) fun _ => ?_
    exact dataCreateStart_noneMade plat h rdAddr dataAddr mapAddr true nsCopy
  | dataCreateUnknown rdAddr dataAddr mapAddr =>
    exact dataCreateStart_noneMade plat h rdAddr dataAddr mapAddr false .done
  | dataDestroy rdAddr mapAddr => exact dataDestroyStart_noneMade plat h rdAddr mapAddr
  | rsi recAddr call | recExit recAddr => exact secNoneMade_pure _ _
  | _ => exact whole (fun _ _ => rfl) rfl

theorem handlerResume_makes (plat : Platform) (h : Wf s F) (job : Job) :
    Sat (handlerResume plat s job) (fun res => Makes s job.creates res.1) fun _ => True := by
  have none : ∀ {sec : Sec}, SecNoneMade s sec →
      Sat sec (fun res => Makes s job.creates res.1) fun _ => True :=
    fun hsec => hsec.mono (fun _ hres => .inl hres) fun _ _ => trivial
  cases job with
  | idle | running recAddr => exact none (secNoneMade_pure _ _)
  | claiming rdAddr recAddr p left claimed =>
    cases left with
    | nil => exact recCreateSection_makes plat h rdAddr recAddr p claimed
    | cons a left =>
      refine none (findLockGranule_sat trivial ?_)
      refine Sat.ite (fun _ => ?_) fun _ => ?_
      · cases claimed with
        | nil => exact Sat.ok_bind (secNoneMade_pure _ _)
        | cons b bs => exact Sat.error_bind trivial
      · exact granuleUnlockTransition_sat trivial (Sat.pure (.setState (by decide) (by decide)))
  | unclaiming left ret =>
    cases left with
    | nil => exact none (secNoneMade_pure _ _)
    | cons a left =>
      refine none (Sat.bind (Q := fun _ => True) ?_ fun _ _ => ?_)
      · exact Sat.ite (fun _ => Sat.ok trivial) fun _ => Sat.error trivial
      · exact granuleUnlockTransition_sat trivial (Sat.pure (.setState (by decide) (by decide)))
  | releasing rdAddr => exact none (atomicGranulePut_sat (Sat.pure (.setRefcount _ _)))
  | entered recAddr entry reject => exact none (recEnterBody_noneMade recAddr entry reject)
  | leaving recAddr ret => exact none (atomicGranulePut_sat (Sat.pure (.setRefcount _ _)))
  | mirroring rdAddr dataAddr mapAddr res =>
    refine none (Sat.bind (csmPropagateCreate_kept plat h rdAddr dataAddr mapAddr) ?_)
    rintro s' ⟨F', hwf, hsame⟩
    exact Sat.pure (.of_sameAll hsame)
  | unmirroring rdAddr mapAddr res =>
    refine none (Sat.bind ((csmPropagateDestroy_sat plat h rdAddr mapAddr).mono (fun _ => id)
      fun _ _ => trivial) ?_)
    rintro s' ⟨F', hrem⟩
    exact Sat.pure (.of_sameAll hrem.same)

end

section
variable {ι : Type} [DecidableEq ι] {plat : Platform}

/-- The REC that a step may make. -/
def PsciAct.creates (m : PsciSmp ι) : PsciAct ι → Option (Word × Word × RecParams)
  | .plain (.resume c) _ => (m.smp.cpu c).creates
  | _ => none

theorem PsciNext.makes {m m' : PsciSmp ι} {a : PsciAct ι} (h : PsciInv m)
    (hn : PsciNext plat m a m') : Makes m.smp.mem (a.creates m) m'.smp.mem := by
  obtain ⟨F, hw⟩ := h.smp.wf
  cases a with
  | plain b p =>
    obtain ⟨-, n, hnext, rfl⟩ := hn
    cases b with
    | start c act =>
      obtain ⟨-, s, job, reply, hs, rfl⟩ := hnext
      exact .inl ((handlerStart_noneMade plat hw act).of_ok hs)
    | resume c =>
      obtain ⟨s, job, reply, hs, rfl⟩ := hnext
      exact (handlerResume_makes plat hw (m.smp.cpu c)).of_ok hs
    | rsi c call =>
      obtain ⟨recAddr, hrun, s, res, hs, rfl⟩ := hnext
      have hrec := h.of_running hrun
      exact .inl ((rsiHandler_sat hw (by rw [hrec]) call).of_ok hs).noneMade
    | exit c =>
      obtain ⟨recAddr, -, rfl⟩ := hnext
      exact .inl (.refl _)
    | write g words =>
      obtain ⟨-, rfl⟩ := hnext
      exact .inl (.of_states (fun _ => rfl) fun _ => rfl)
  | enter c regs =>
    obtain ⟨recAddr, entry, reject, -, s, job, reply, hbody, rfl⟩ := hn
    exact .inl ((recEnterBody_noneMade recAddr _ reject).of_ok hbody)
  | guest c regs =>
    obtain ⟨recAddr, -, rfl⟩ := hn
    exact .inl (.refl _)
  | psci c =>
    obtain ⟨recAddr, -, -, s, v, goesOn, hcall, rfl⟩ := hn
    have hd := (psciCall_sat m.smp.mem recAddr (m.vcpu recAddr)).of_ok hcall
    refine .inl ?_
    cases hd with
    | answered | turnedOff | waits => exact .refl _
    | systemOff => exact .setRd rfl
  | complete c callingAddr targetAddr status =>
    obtain ⟨-, vcpu, ret, -, rfl⟩ := hn
    exact .inl (.refl _)

end

end RmmCaec
