import RmmCaec.SmpSteps

/-!
# What holds on several CPUs

Nothing is freed while something refers to it, and what is DELEGATED is zero, in every
state that any schedule reaches.
-/
namespace RmmCaec
open RadixForest Outcome Runs

section
variable {ι : Type} {plat : Platform} {m : Smp ι}

/-- A REC of the realm exists. -/
def State.HasRec (s : State) (rd : Word) : Prop :=
  ∃ r, (s.granule r).state = .REC ∧ (s.recs r).gRd = rd

/-- Some CPU is between entering and leaving the REC. -/
def Smp.Entered (m : Smp ι) (r : Word) : Prop := ∃ c, (m.cpu c).inside = some r

theorem SmpInv.realm_counted (h : SmpInv m) {rd : Word} (hrd : (m.mem.granule rd).state = .RD) :
    ∃ R : Finset Word, (∀ r, r ∈ R ↔
      (m.mem.granule r).state = .REC ∧ (m.mem.recs r).gRd = rd) ∧
      R.card ≤ (m.mem.granule rd).refcount ∧
      ((∀ c, (m.cpu c).releases ≠ some rd) → (m.mem.granule rd).refcount = R.card) := by
  obtain ⟨R, D, hR, hD, hcount⟩ := h.refs.realm rd hrd
  refine ⟨R, hR, by omega, fun hnone => ?_⟩
  have hD0 : D = ∅ := by
    ext c
    simp [hD, hnone c]
  rw [hcount, hD0, Finset.card_empty, Nat.add_zero]

theorem SmpInv.rec_counted (h : SmpInv m) {r : Word} (hr : (m.mem.granule r).state = .REC) :
    (m.Entered r → (m.mem.granule r).refcount = 1) ∧
      (¬ m.Entered r → (m.mem.granule r).refcount = 0) := by
  constructor
  · rintro ⟨c, hc⟩
    rw [h.refs.entered c r hc]
  · intro hnone
    exact h.refs.outside r hr fun c hc => hnone ⟨c, hc⟩

/-- A realm with a REC is not destroyed. -/
theorem SmpInv.realmDestroy_refused (h : SmpInv m) {rd : Word} (hrec : m.mem.HasRec rd)
    {s : State} {job : Job} {reply : Option Reply}
    (hs : handlerStart plat m.mem (.realmDestroy rd) = .ok (s, job, reply)) :
    s = m.mem ∧ ∃ res, reply = some (.smc res) ∧ res.ret ≠ rmiSuccess := by
  obtain ⟨F, hw⟩ := h.wf
  have hsat : Sat (handlerStart plat m.mem (.realmDestroy rd)) (fun res => res.1 = m.mem ∧
      ∃ x, res.2.2 = some (.smc x) ∧ x.ret ≠ rmiSuccess) fun _ => True := by
    refine Sat.bind ((step_sat hw (.realmDestroy rd)).mono (fun _ => id) fun _ _ => trivial) ?_
    rintro ⟨s1, reply⟩ ⟨res, rfl, ⟨rfl, hret⟩ | ⟨-, hfell⟩⟩
    · exact Sat.pure ⟨rfl, res, rfl, hret⟩
    · obtain ⟨r, hr, rfl⟩ := hrec
      have := hw.rec_referenced hr
      have hzero := hfell.unused
      omega
  exact hsat.of_ok hs

/-- A REC that a CPU is in is neither destroyed nor entered. -/
theorem SmpInv.entered_refused (h : SmpInv m) {r : Word} (hin : m.Entered r) {act : Act}
    (hact : act = .recDestroy r ∨ ∃ runAddr entry reject, act =
      .recEnter r runAddr entry reject)
    {s : State} {job : Job} {reply : Option Reply}
    (hs : handlerStart plat m.mem act = .ok (s, job, reply)) :
    s = m.mem ∧ job = .idle ∧ ∃ res, reply = some (.smc res) ∧ res.ret ≠ rmiSuccess := by
  obtain ⟨c, hc⟩ := hin
  have hgran := h.refs.entered c r hc
  have hbusy : (m.mem.granule r).refcount ≠ 0 := by simp [hgran]
  have hsat : Sat (handlerStart plat m.mem act) (fun res => res.1 = m.mem ∧ res.2.1 = .idle ∧
      ∃ x, res.2.2 = some (.smc x) ∧ x.ret ≠ rmiSuccess) fun _ => True := by
    have hret : ∀ ret, ret ≠ rmiSuccess → Sat (secReturn m.mem (smcRet ret)) (fun res =>
        res.1 = m.mem ∧ res.2.1 = .idle ∧ ∃ x, res.2.2 = some (.smc x) ∧
          x.ret ≠ rmiSuccess)
        fun _ => True :=
      fun ret hne => Sat.pure ⟨rfl, rfl, smcRet ret, rfl, hne⟩
    obtain rfl | ⟨runAddr, entry, reject, rfl⟩ := hact
    · show Sat (recDestroySection plat m.mem r) _ _
      unfold recDestroySection
      refine findLockGranule_sat trivial ?_
      refine Sat.ite (fun _ => hret _ (by decide)) fun _ => ?_
      exact Sat.ite (fun _ => hret _ (by decide)) fun hc => absurd hbusy hc
    · show Sat (recEnterSection plat m.mem r runAddr entry reject) _ _
      unfold recEnterSection
      refine Sat.ite (fun _ => hret _ (by decide)) fun _ => ?_
      refine findLockGranule_sat trivial ?_
      refine Sat.ite (fun _ => hret _ (by decide)) fun _ => ?_
      exact Sat.ite (fun _ => hret _ (by decide)) fun hc => absurd hbusy hc
  exact hsat.of_ok hs

variable [DecidableEq ι]

/-- Realms and running RECs are not freed under a reference. -/
theorem references_protect (hm : SmpReachable plat m) :
    (∀ rd, (m.mem.granule rd).state = .RD → ∃ R : Finset Word,
      (∀ r, r ∈ R ↔ (m.mem.granule r).state = .REC ∧ (m.mem.recs r).gRd = rd) ∧
      R.card ≤ (m.mem.granule rd).refcount ∧
      ((∀ c, (m.cpu c).releases ≠ some rd) → (m.mem.granule rd).refcount = R.card)) ∧
    (∀ r, (m.mem.granule r).state = .REC →
      (m.Entered r → (m.mem.granule r).refcount = 1) ∧
      (¬ m.Entered r → (m.mem.granule r).refcount = 0)) ∧
    (∀ r, m.Entered r → (m.mem.granule r).state = .REC ∧
      (m.mem.granule (m.mem.recs r).gRd).state = .RD) ∧
    (∀ c c' r, (m.cpu c).inside = some r → (m.cpu c').inside = some r → c = c') ∧
    (∀ rd s job reply, m.mem.HasRec rd →
      handlerStart plat m.mem (.realmDestroy rd) = .ok (s, job, reply) →
      s = m.mem ∧ ∃ res, reply = some (.smc res) ∧ res.ret ≠ rmiSuccess) ∧
    (∀ r act s job reply, m.Entered r →
      (act = .recDestroy r ∨ ∃ runAddr entry reject, act = .recEnter r runAddr entry reject) →
      handlerStart plat m.mem act = .ok (s, job, reply) →
      s = m.mem ∧ job = .idle ∧ ∃ res, reply = some (.smc res) ∧
        res.ret ≠ rmiSuccess) := by
  have h := SmpInv.reach hm
  refine ⟨fun rd hrd => h.realm_counted hrd, fun r hr => h.rec_counted hr, ?_, h.refs.alone,
    fun rd s job reply hrec hs => h.realmDestroy_refused hrec hs,
    fun r act s job reply hin hact hs => h.entered_refused hin hact hs⟩
  rintro r ⟨c, hc⟩
  obtain ⟨F, hw⟩ := h.wf
  have hrec : (m.mem.granule r).state = .REC := by rw [h.refs.entered c r hc]
  exact ⟨hrec, hw.recRd r hrec⟩

/-- A new realm. -/
def smpRealm : List (SmpAct ℕ) :=
  (List.range 24).map (fun k => SmpAct.start 0 (.granuleDelegate (gr (16 + k)) true)) ++
  [.start 0 (.realmCreate (gr 16) (gr 0) (some (demoParams 17 1)))]

/-- The realm gets a REC, which is entered on CPU 1. -/
def smpEntered : List (SmpAct ℕ) :=
  [.start 0 (.recCreate (gr 16) (gr 22) (gr 0)
     (some ⟨(List.range 16).map fun k => gr (24 + k), some 0⟩))] ++
  List.replicate 17 (.resume 0) ++
  [.start 0 (.realmActivate (gr 16)), .start 1 (.recEnter (gr 22) (gr 0) .run false), .resume 1]

/-- A realm whose only REC is running on CPU 1. -/
def smpRunning : List (SmpAct ℕ) := smpRealm ++ smpEntered

theorem references_protect_running : ∃ m : Smp ℕ, SmpReachable demoPlat m ∧
    (m.cpu 1).inside = some (gr 22) ∧ (m.mem.granule (gr 22)).refcount = 1 ∧
    (m.mem.granule (gr 16)).state = .RD ∧ m.mem.HasRec (gr 16) := by
  have hrun : smpReplayEnds (demoKeys [16] [] [0]) demoPlat smpRunning (fun m =>
      decide ((m.cpu 1).inside = some (gr 22)) &&
      decide ((m.mem.granule (gr 22)).state = .REC) &&
      decide ((m.mem.recs (gr 22)).gRd = gr 16)) = true := by
    decide +kernel
  obtain ⟨m, hm, htest⟩ := smpReplayEnds_reachable hrun
  simp only [Bool.and_eq_true, decide_eq_true_eq] at htest
  obtain ⟨⟨hin, hrec⟩, hrd⟩ := htest
  obtain ⟨-, hcount, hreal, -⟩ := references_protect hm
  refine ⟨m, hm, hin, (hcount _ hrec).1 ⟨1, hin⟩, ?_, gr 22, hrec, hrd⟩
  rw [← hrd]
  exact (hreal _ ⟨1, hin⟩).2

end

/-- A REC runs only after an entry. -/
theorem handlerStart_job (plat : Platform) (s : State) (act : Act) :
    Sat (handlerStart plat s act) (fun res => ∀ r, res.2.1 ≠ .running r) fun _ => True := by
  have done : ∀ {job : Job} {s' : State} {reply : Option Reply}, (∀ r, job ≠ .running r) →
      Sat (pure (s', job, reply) : Sec) (fun res => ∀ r, res.2.1 ≠ .running r) fun _ => True :=
    fun hjob => Sat.pure hjob
  have create : ∀ rdAddr dataAddr mapAddr measured nsCopy,
      Sat (dataCreateStart plat s rdAddr dataAddr mapAddr measured nsCopy)
        (fun res => ∀ r, res.2.1 ≠ .running r) fun _ => True := by
    intro rdAddr dataAddr mapAddr measured nsCopy
    refine Sat.bind (Sat.self fun _ _ => trivial) fun res _ => ?_
    exact Sat.ite (fun _ => done nofun) fun _ => done nofun
  cases act with
  | recCreate rdAddr recAddr paramsAddr nsRead =>
    refine Sat.ite (fun _ => done nofun) fun _ => ?_
    cases nsRead with
    | none => exact done nofun
    | some p => exact Sat.ite (fun _ => done nofun) fun _ => done nofun
  | recDestroy recAddr =>
    refine Sat.bind (Sat.self fun _ _ => trivial) fun found _ => ?_
    refine Sat.ite (fun _ => done nofun) fun _ => ?_
    refine Sat.ite (fun _ => done nofun) fun _ => ?_
    refine Sat.bind (Sat.self fun _ _ => trivial) fun s1 _ =>
      Sat.bind (Sat.self fun _ _ => trivial) fun s2 _ => done nofun
  | recEnter recAddr runAddr entry reject =>
    refine Sat.ite (fun _ => done nofun) fun _ => ?_
    refine Sat.bind (Sat.self fun _ _ => trivial) fun found _ => ?_
    refine Sat.ite (fun _ => done nofun) fun _ => ?_
    refine Sat.ite (fun _ => done nofun) fun _ => ?_
    refine Sat.bind (Sat.self fun _ _ => trivial) fun s1 _ =>
      Sat.bind (Sat.self fun _ _ => trivial) fun _ _ => done nofun
  | dataCreate rdAddr dataAddr mapAddr srcAddr flags nsCopy =>
    refine Sat.ite (fun _ => done nofun) fun _ => ?_
    exact Sat.ite (fun _ => done nofun) fun _ => create _ _ _ _ _
  | dataCreateUnknown rdAddr dataAddr mapAddr => exact create _ _ _ _ _
  | dataDestroy rdAddr mapAddr =>
    refine Sat.bind (Sat.self fun _ _ => trivial) fun res _ => ?_
    exact Sat.ite (fun _ => done nofun) fun _ => done nofun
  | rsi recAddr call | recExit recAddr => exact done nofun
  | _ => exact Sat.bind (Sat.self fun _ _ => trivial) fun res _ => done nofun

theorem handlerResume_job (plat : Platform) (s : State) (job : Job)
    (hjob : ∀ recAddr entry reject, job ≠ .entered recAddr entry reject) :
    Sat (handlerResume plat s job) (fun res => ∀ r, res.2.1 = .running r → job = .running r)
      fun _ => True := by
  have done : ∀ {job' : Job} {s' : State} {reply : Option Reply}, (∀ r, job' ≠ .running r) →
      Sat (pure (s', job', reply) : Sec)
        (fun res => ∀ r, res.2.1 = .running r → job = .running r)
        fun _ => True :=
    fun hne => Sat.pure fun r hr => absurd hr (hne r)
  cases job with
  | idle => exact done nofun
  | running recAddr => exact Sat.pure fun r hr => hr
  | claiming rdAddr recAddr p left claimed =>
    cases left with
    | nil =>
      refine Sat.ite (fun _ => done nofun) fun _ => ?_
      refine Sat.bind (Sat.self fun _ _ => trivial) fun s1 _ => ?_
      exact Sat.bind (Sat.self fun _ _ => trivial) fun s3 _ => done nofun
    | cons a left =>
      refine Sat.bind (Sat.self fun _ _ => trivial) fun found _ => ?_
      refine Sat.ite (fun _ => ?_) fun _ => ?_
      · exact Sat.bind (Sat.self fun _ _ => trivial) fun _ _ => done nofun
      · exact Sat.bind (Sat.self fun _ _ => trivial) fun s1 _ => done nofun
  | unclaiming left ret =>
    cases left with
    | nil => exact done nofun
    | cons a left =>
      refine Sat.bind (Sat.self fun _ _ => trivial) fun _ _ => ?_
      exact Sat.bind (Sat.self fun _ _ => trivial) fun s1 _ => done nofun
  | entered recAddr entry reject => exact absurd rfl (hjob recAddr entry reject)
  | releasing _ | leaving _ _ | mirroring _ _ _ _ | unmirroring _ _ _ =>
    exact Sat.bind (Sat.self fun _ _ => trivial) fun s1 _ => done nofun

end RmmCaec
