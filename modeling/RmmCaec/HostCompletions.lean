import RmmCaec.RecRunLaws

/-!
# Runs of entries and exits

Between an entry and the next exit nothing is open, an exit opens at most one request,
and it stays open until an entry that is not sent back completes it.
-/
namespace RmmCaec
open RadixForest Outcome Runs

section
variable {ι : Type} [DecidableEq ι] {plat : Platform}

/-- The REC whose request a step may serve. -/
def SmpAct.serves : SmpAct ι → Option Word
  | .start _ act => act.serves
  | _ => none

/-- A step on behalf of the host keeps the RECs and serves at most one request. -/
theorem SmpNext.recsKept {m n : Smp ι} {a : SmpAct ι} (h : SmpInv m)
    (hn : SmpNext plat m a n) (ha : a.ofHost m = true) : RecsKept a.serves m.mem n.mem := by
  obtain ⟨F, hw⟩ := h.wf
  cases a with
  | start c act =>
    obtain ⟨-, s, job, reply, hs, rfl⟩ := hn
    exact (handlerStart_keeps plat hw act).of_ok hs
  | resume c =>
    obtain ⟨s, job, reply, hs, rfl⟩ := hn
    refine (handlerResume_keeps plat hw ?_).of_ok hs
    intro recAddr entry reject he
    simp [SmpAct.ofHost, SmpAct.enters, he] at ha
  | rsi c call => simp [SmpAct.ofHost] at ha
  | exit c => simp [SmpAct.ofHost] at ha
  | write g words =>
    obtain ⟨-, rfl⟩ := hn
    exact .of_recs (fun _ => id) fun _ _ => rfl

/-- A step on behalf of the host starts no realm. -/
theorem SmpNext.running_of_host {m n : Smp ι} {a : SmpAct ι} (hn : SmpNext plat m a n)
    (ha : a.ofHost m = true) {c : ι} {g : Word} (hg : n.cpu c = .running g) :
    m.cpu c = .running g := by
  -- a CPU that does not move keeps its job
  have other : ∀ {c' : ι} {s : State} {job : Job}, (m.put c' s job).cpu c = .running g →
      (c = c' → job = .running g → m.cpu c = .running g) → m.cpu c = .running g := by
    intro c' s job hput hself
    by_cases hc : c = c'
    · refine hself hc ?_
      rw [hc] at hput
      simpa [Smp.put] using hput
    · simpa [Smp.put, hc] using hput
  cases a with
  | start c' act =>
    obtain ⟨-, s, job, reply, hs, rfl⟩ := hn
    exact other hg fun _ hjob => absurd hjob ((handlerStart_job plat m.mem act).of_ok hs g)
  | resume c' =>
    obtain ⟨s, job, reply, hs, rfl⟩ := hn
    refine other hg fun hc hjob => ?_
    rw [hc]
    refine (handlerResume_job plat m.mem (m.cpu c') ?_).of_ok hs g hjob
    intro recAddr entry reject he
    simp [SmpAct.ofHost, SmpAct.enters, he] at ha
  | rsi c' call => simp [SmpAct.ofHost] at ha
  | exit c' => simp [SmpAct.ofHost] at ha
  | write g words =>
    obtain ⟨-, rfl⟩ := hn
    exact hg

variable {m m' : RunSmp ι} {a : RunAct ι}

/-- What holds between any two steps. -/
structure RunInv (m : RunSmp ι) : Prop where
  psci : PsciInv m.toPsci
  requests : ∀ g, (m.smp.mem.granule g).state = .REC →
    RequestInv (m.smp.mem.recs g) (m.vcpu g)
  running : ∀ c g, m.smp.cpu c = .running g → NoRequest (m.smp.mem.recs g) (m.vcpu g) ∧
    (m.vcpu g).lastRunInfo.esr = 0#64 ∧ m.exitEsr c = 0#64

omit [DecidableEq ι] in
theorem RunInv.isRec (h : RunInv m) {c : ι} {g : Word} (hg : (m.smp.cpu c).inside = some g) :
    (m.smp.mem.granule g).state = .REC :=
  congrArg Granule.state (h.psci.smp.refs.entered c g hg)

theorem toVcpu_update (vcpu : Word → RunVcpu) (g : Word) (v : RunVcpu) :
    (fun x => (Function.update vcpu g v x).toVcpu) =
      Function.update (fun x => (vcpu x).toVcpu) g v.toVcpu := by
  funext x
  by_cases hx : x = g
  · subst hx
    rw [Function.update_self, Function.update_self]
  · rw [Function.update_of_ne hx, Function.update_of_ne hx]

theorem toVcpu_vcpusAfter (s s' : State) (vcpu : Word → RunVcpu) (p : VcpuParams) :
    (fun x => (runVcpusAfter s s' vcpu p x).toVcpu) =
      vcpusAfter s s' (fun x => (vcpu x).toVcpu) p := by
  funext x
  unfold runVcpusAfter vcpusAfter
  split
  · split <;> rfl
  · rfl

/-- A step of a REC that makes and frees none. -/
theorem vcpusAfter_same {s s' : State} {vcpu : Word → Vcpu} {p : VcpuParams}
    (hrec : ∀ g, (s'.granule g).state = .REC ↔ (s.granule g).state = .REC)
    (hblank : ∀ g, (s.granule g).state ≠ .REC → vcpu g = default) :
    vcpusAfter s s' vcpu p = vcpu := by
  funext g
  unfold vcpusAfter
  by_cases hg : (s.granule g).state = .REC
  · rw [if_pos ((hrec g).mpr hg), if_pos hg]
  · rw [if_neg (mt (hrec g).mp hg), hblank g hg]

theorem PsciInv.exit_next {n : PsciSmp ι} (h : PsciInv n) {c : ι} {g : Word}
    (hrun : n.smp.cpu c = .running g) (p : VcpuParams) :
    PsciNext plat n (.plain (.exit c) p)
      ⟨n.smp.put c n.smp.mem (.leaving g rmiSuccess), n.vcpu⟩ := by
  have hsame := @vcpusAfter_same n.smp.mem n.smp.mem n.vcpu p (fun _ => Iff.rfl) h.blank
  exact ⟨rfl, _, ⟨g, hrun, rfl⟩, congrArg (PsciSmp.mk _) hsame.symm⟩

theorem RunSmp.trapped_toPsci (m : RunSmp ι) (c : ι) (g : Word) (s : State) (res : Handled) :
    (m.trapped c g s res).toPsci =
      ⟨m.smp.put c s (if res.handled then .running g else .leaving g rmiSuccess),
        Function.update m.toPsci.vcpu g res.vcpu.toVcpu⟩ := by
  unfold RunSmp.toPsci RunSmp.trapped
  rw [toVcpu_update]

/-- A REC in which an entry or an exception leaves only registers behind. -/
theorem RunInv.guest_exit (h : RunInv m) {c : ι} {g : Word} {res : Handled} {regs : Regs}
    (hrun : m.smp.cpu c = .running g)
    (hv : res.vcpu.toVcpu = { (m.vcpu g).toVcpu with toRegs := regs }) :
    Reach m.toPsci (PsciNext plat) (fun _ _ => True)
      (m.trapped c g m.smp.mem res).toPsci := by
  have hguest : PsciNext plat m.toPsci (.guest c regs)
      ⟨m.smp, Function.update m.toPsci.vcpu g res.vcpu.toVcpu⟩ := by
    refine ⟨g, hrun, ?_⟩
    rw [hv]
    rfl
  rw [RunSmp.trapped_toPsci]
  cases hres : res.handled with
  | true =>
    have hput : m.smp.put c m.smp.mem (.running g) = m.smp := by
      rw [← hrun]
      simp [Smp.put]
    simp only [if_true, hput]
    exact .step .init trivial hguest
  | false =>
    have hexit := @PsciInv.exit_next _ _ plat _ (h.psci.step hguest) c g hrun
      ⟨fun _ => 0#64, 0#64, false⟩
    exact .step (.step .init trivial hguest) trivial hexit

/-- Every exception is one call of the REC, perhaps behind instructions of the realm. -/
theorem RunInv.trap_reach (h : RunInv m) {c : ι} {g : Word} {s : State} {res : Handled}
    {exception : RealmException} (hrun : m.smp.cpu c = .running g)
    (hd : ExitDone plat m.smp.mem g (m.vcpu g) (m.exitEsr c) exception s res) :
    Reach m.toPsci (PsciNext plat) (fun _ _ => True) (m.trapped c g s res).toPsci := by
  have hrec := h.isRec (c := c) (g := g) (by rw [hrun]; rfl)
  cases hd with
  | @sync esr s res done =>
    have hvcpu : (recorded esr res).vcpu.toVcpu = res.vcpu.toVcpu := by
      unfold recorded
      split <;> rfl
    have hres : (recorded esr res).handled = res.handled := by
      unfold recorded
      split <;> rfl
    cases done with
    | @psci s1 v1 goesOn smc call done =>
      rw [RunSmp.trapped_toPsci, hvcpu, hres]
      exact .step .init trivial (show PsciNext plat m.toPsci (.psci c) _ from
        ⟨g, hrun, call, s, v1, goesOn, done, rfl⟩)
    | @rsi s1 call rres regs smc calls done =>
      obtain ⟨F, hw⟩ := h.psci.smp.wf
      have hguest : PsciNext plat m.toPsci (.guest c regs) ⟨m.smp,
          Function.update m.toPsci.vcpu g { (m.vcpu g).toVcpu with toRegs := regs }⟩ :=
        ⟨g, hrun, rfl⟩
      have hrsi := (rsiHandler_sat hw hrec call).of_ok done
      have hsame := @vcpusAfter_same m.smp.mem s _ ⟨fun _ => 0#64, 0#64, false⟩
        hrsi.steady.isRec (h.psci.step hguest).blank
      rw [RunSmp.trapped_toPsci, hvcpu, hres]
      refine .step (.step .init trivial hguest) trivial
        (show PsciNext plat _ (.plain (.rsi c call) ⟨fun _ => 0#64, 0#64, false⟩) _ from
          ⟨rfl, _, ⟨g, hrun, s, rres, done, rfl⟩, ?_⟩)
      have hjob : (if (!rres.exitToHost) = true then Job.running g else .leaving g rmiSuccess) =
          if rres.exitToHost = true then .leaving g rmiSuccess else .running g := by
        cases rres.exitToHost <;> rfl
      dsimp only
      rw [hjob]
      exact congrArg (PsciSmp.mk _) hsame.symm
    | hostCall smc fid => exact h.guest_exit hrun hvcpu
    | regs keeps isv => exact h.guest_exit hrun hvcpu
  | serror => exact @RunInv.guest_exit _ _ plat m h c g _ (m.vcpu g).toRegs hrun rfl
  | plain kind => exact @RunInv.guest_exit _ _ plat m h c g _ (m.vcpu g).toRegs hrun rfl

theorem RunNext.psciReach (h : RunInv m) (hn : RunNext plat m a m') :
    Reach m.toPsci (PsciNext plat) (fun _ _ => True) m'.toPsci := by
  cases a with
  | plain a p =>
    obtain ⟨ha, n, hnext, rfl⟩ := hn
    have henters : a.enters m.smp = false := by
      by_contra hc
      simp [SmpAct.ofHost, hc] at ha
    have hplain : PsciNext plat m.toPsci (.plain a p)
        ⟨n, vcpusAfter m.smp.mem n.mem m.toPsci.vcpu p⟩ := ⟨henters, n, hnext, rfl⟩
    unfold RunSmp.toPsci at hplain ⊢
    rw [toVcpu_vcpusAfter]
    exact .step .init trivial hplain
  | enter c host =>
    obtain ⟨g, o, hjob, hcomplete, s, job, reply, hbody, rfl⟩ := hn
    have hrec := h.isRec (c := c) (g := g) (by rw [hjob]; rfl)
    have hd := (recEnterCompletions_sat (h.requests g hrec)).of_ok hcomplete
    have henter : PsciNext plat m.toPsci (.enter c o.vcpu.toRegs) ⟨m.smp.put c s job,
        Function.update m.toPsci.vcpu g o.vcpu.toVcpu⟩ := by
      refine ⟨g, o.entry, _, hjob, s, job, reply, ?_, ?_⟩
      · have hentry : recEnterEntry (m.toPsci.vcpu g) o.entry = o.entry := hd.entry_eq
        rw [hentry]
        exact hbody
      · have hregs : recEnterRegs m.toPsci.smp.mem g (m.toPsci.vcpu g) o.entry o.vcpu.toRegs =
            o.vcpu.toVcpu := hd.regs_eq
        rw [hregs]
        rfl
    unfold RunSmp.toPsci at henter ⊢
    rw [toVcpu_update]
    exact .step .init trivial henter
  | guest c regs el1 =>
    obtain ⟨g, hrun, rfl⟩ := hn
    have hguest : PsciNext plat m.toPsci (.guest c regs) ⟨m.smp,
        Function.update m.toPsci.vcpu g { (m.vcpu g).toVcpu with toRegs := regs }⟩ :=
      ⟨g, hrun, rfl⟩
    unfold RunSmp.toPsci at hguest ⊢
    rw [toVcpu_update]
    exact .step .init trivial hguest
  | store data =>
    obtain rfl := hn
    exact .init
  | timer c =>
    obtain ⟨g, hrun, rfl⟩ := hn
    have hexit := @PsciInv.exit_next _ _ plat _ h.psci c g hrun ⟨fun _ => 0#64, 0#64, false⟩
    exact .step .init trivial hexit
  | trap c exception env =>
    obtain ⟨g, hrun, -, s, res, hexit, rfl⟩ := hn
    exact h.trap_reach hrun ((handleRealmExit_sat exception env).of_ok hexit)
  | complete c callingAddr targetAddr status =>
    obtain ⟨hidle, vcpu, ret, hs, rfl⟩ := hn
    exact .step .init trivial (show PsciNext plat m.toPsci
      (.complete c callingAddr targetAddr status) _ from ⟨hidle, vcpu, ret, hs, rfl⟩)

/-- An exception of one REC opens no request of another. -/
theorem ExitDone.others {s s1 : State} {F : Tables} {g x : Word} {v : RunVcpu} {exitEsr : Word}
    {exception : RealmException} {res : Handled}
    (hd : ExitDone plat s g v exitEsr exception s1 res) (hw : Wf s F)
    (hrec : (s.granule g).state = .REC) :
    ((s1.granule x).state = .REC ↔ (s.granule x).state = .REC) ∧
      (x ≠ g → (s1.recs x).Asks → (s.recs x).Asks) := by
  cases hd with
  | @sync h s1 res done =>
    cases done with
    | @psci s1 v1 goesOn smc call done =>
      have hc := (psciCall_sat s g v.toVcpu).of_ok done
      refine ⟨?_, fun _ ha => ?_⟩
      · cases hc <;> exact Iff.rfl
      · rwa [hc.recs] at ha
    | @rsi s1 call rres regs smc calls done =>
      have hrsi := (rsiHandler_sat hw hrec call).of_ok done
      refine ⟨hrsi.steady.isRec x, fun hne ha => ?_⟩
      obtain hold | ⟨heq, -⟩ := hrsi.asks ha
      · exact hold
      · exact absurd heq hne
    | hostCall smc fid => exact ⟨Iff.rfl, fun _ => id⟩
    | regs keeps isv => exact ⟨Iff.rfl, fun _ => id⟩
  | serror => exact ⟨Iff.rfl, fun _ => id⟩
  | plain kind => exact ⟨Iff.rfl, fun _ => id⟩

/-- A completion by the host makes no REC wait. -/
theorem PsciCompleted.pending_mono {s : State} {vcpu vcpu' : Word → Vcpu}
    {callingAddr targetAddr : Word} {ret : ReturnCode}
    (hc : PsciCompleted s vcpu callingAddr targetAddr vcpu' ret) {g : Word}
    (hg : (vcpu' g).pending = true) : (vcpu g).pending = true := by
  have answered : ∀ recRet, (Function.update vcpu callingAddr
      (psciAnswer (vcpu callingAddr) recRet) g).pending = true → (vcpu g).pending = true := by
    intro recRet hup
    by_cases hne : g = callingAddr
    · subst hne
      rw [Function.update_self] at hup
      cases hup
    · rwa [Function.update_of_ne hne] at hup
  cases hc with
  | refused => exact hg
  | answered names told => exact answered _ hg
  | granted names request unused off =>
    by_cases hne : g = targetAddr
    · subst hne
      rw [Function.update_self] at hg
      exact hg
    · rw [Function.update_of_ne hne] at hg
      exact answered _ hg

/-- What a step does to the requests of a REC. -/
inductive RunMove (plat : Platform) (m m' : RunSmp ι) (g : Word) : RunAct ι → Prop
  | kept {a : RunAct ι} (was : (m.smp.mem.granule g).state = .REC)
      (info : (m'.vcpu g).lastRunInfo.esr = (m.vcpu g).lastRunInfo.esr)
      (pend : (m'.vcpu g).pending = true → (m.vcpu g).pending = true)
      (call : (m'.vcpu g).hostCall = true → (m.vcpu g).hostCall = true)
      (ask : (m'.smp.mem.recs g).Asks → (m.smp.mem.recs g).Asks) : RunMove plat m m' g a
  | clear {a : RunAct ι} (info : (m'.vcpu g).lastRunInfo.esr = 0#64)
      (none : NoRequest (m'.smp.mem.recs g) (m'.vcpu g)) : RunMove plat m m' g a
  | trapped {c : ι} {exception : RealmException} {env : TrapEnv} {s : State} {res : Handled}
      (runs : m.smp.cpu c = .running g) (genuine : exception.Genuine)
      (done : ExitDone plat m.smp.mem g (m.vcpu g) (m.exitEsr c) exception s res)
      (eq : m' = m.trapped c g s res) : RunMove plat m m' g (.trap c exception env)

/-- How an entry of the machine ends. -/
theorem RunNext.entryDone (h : RunInv m) {c : ι} {host : Option RmiRecEnter}
    (hn : RunNext plat m (.enter c host) m') :
    ∃ g o s job, (m.smp.cpu c).inside = some g ∧
      EntryDone m.smp.mem (m.smp.mem.recs g) (m.vcpu g) m.data host o ∧
      m' = ⟨m.smp.put c s job, Function.update m.vcpu g o.vcpu,
        Function.update m.exitEsr c o.exitEsr, o.data⟩ ∧
      s.granule = m.smp.mem.granule ∧ NoNewRequest m.smp.mem s ∧
      (∀ r, job = .running r → r = g ∧ o.entry = .run) ∧
      (o.entry = .run → job = .running g ∧ ¬ (s.recs g).Asks) := by
  obtain ⟨g, o, hjob, hcomplete, s, job, reply, hbody, rfl⟩ := hn
  have hin : (m.smp.cpu c).inside = some g := by
    rw [hjob]
    rfl
  have hd := (recEnterCompletions_sat (h.requests g (h.isRec hin))).of_ok hcomplete
  obtain ⟨hgran, hno, hrunning, hruns⟩ := (recEnterBody_noRequest g o.entry _).of_ok hbody
  refine ⟨g, o, s, job, hin, hd, rfl, hgran, hno, fun r hr => ?_, fun hrun => ?_⟩
  · exact ⟨(hrunning r hr).1, (hrunning r hr).2.1⟩
  · cases hd with
    | back entry off vcpu mem => exact absurd hrun entry
    | run read active on ready entry done calls vcpu esr =>
      have hr := hruns entry active
      exact ⟨hr, (hrunning g hr).2.2⟩

theorem RunNext.move (h : RunInv m) (hn : RunNext plat m a m') {g : Word}
    (hg : (m'.smp.mem.granule g).state = .REC) : RunMove plat m m' g a := by
  obtain ⟨F, hw⟩ := h.psci.smp.wf
  cases a with
  | plain a p =>
    obtain ⟨ha, n, hnext, rfl⟩ := hn
    have hno := (hnext.recsKept h.psci.smp ha).noNewRequest
    have hvcpu : runVcpusAfter m.smp.mem n.mem m.vcpu p g =
        if (m.smp.mem.granule g).state = .REC then m.vcpu g else initRunVcpu p := if_pos hg
    by_cases hold : (m.smp.mem.granule g).state = .REC
    · rw [if_pos hold] at hvcpu
      refine .kept hold ?_ ?_ ?_ fun ha => (hno g hg ha).2
      · exact congrArg (fun v => v.lastRunInfo.esr) hvcpu
      · exact fun hp => (congrArg (fun v : RunVcpu => v.pending) hvcpu).symm.trans hp
      · exact fun hp => (congrArg (fun v : RunVcpu => v.hostCall) hvcpu).symm.trans hp
    · rw [if_neg hold] at hvcpu
      have hinfo : (runVcpusAfter m.smp.mem n.mem m.vcpu p g).lastRunInfo.esr = 0#64 := by
        rw [hvcpu]
        rfl
      refine .clear hinfo (noRequest_of_info hinfo ?_ ?_ fun ha => hold (hno g hg ha).1)
      · show (runVcpusAfter m.smp.mem n.mem m.vcpu p g).pending ≠ true
        rw [hvcpu]
        exact nofun
      · show (runVcpusAfter m.smp.mem n.mem m.vcpu p g).hostCall ≠ true
        rw [hvcpu]
        exact nofun
  | enter c host =>
    obtain ⟨g0, o, s, job, hin, hd, rfl, hgran, hno, -, hrun⟩ := RunNext.entryDone h hn
    have hold : (m.smp.mem.granule g).state = .REC := by
      rw [← hgran]
      exact hg
    have ask : (s.recs g).Asks → (m.smp.mem.recs g).Asks := fun ha => (hno g hg ha).2
    by_cases hne : g = g0
    swap
    · have hvcpu : Function.update m.vcpu g0 o.vcpu g = m.vcpu g := Function.update_of_ne hne _ _
      refine .kept hold ?_ ?_ ?_ ask <;> dsimp only <;> rw [hvcpu]
      · exact id
      · exact id
    subst hne
    have hvcpu : Function.update m.vcpu g o.vcpu g = o.vcpu := Function.update_self _ _ _
    by_cases hentry : o.entry = .run
    · obtain ⟨hinfo, -, hclear⟩ := hd.spent hentry (hrun hentry).2
      refine .clear ?_ ?_ <;> dsimp only <;> rw [hvcpu]
      · exact hinfo
      · exact hclear
    · cases hd with
      | back entry off vcpu mem =>
        rw [vcpu] at hvcpu
        refine .kept hold ?_ ?_ ?_ ask <;> dsimp only <;> rw [vcpu, hvcpu]
        · exact id
        · exact id
      | run read active on ready entry done calls vcpu esr => exact absurd entry hentry
  | guest c regs el1 =>
    obtain ⟨g0, hrun, rfl⟩ := hn
    by_cases hne : g = g0
    · subst hne
      refine .kept hg ?_ ?_ ?_ id <;> dsimp only <;> rw [Function.update_self]
      · exact id
      · exact id
    · refine .kept hg ?_ ?_ ?_ id <;> dsimp only <;> rw [Function.update_of_ne hne]
      · exact id
      · exact id
  | store data =>
    obtain rfl := hn
    exact .kept hg rfl id id id
  | timer c =>
    obtain ⟨g0, hrun, rfl⟩ := hn
    exact .kept hg rfl id id id
  | trap c exception env =>
    obtain ⟨g0, hrun, hgen, s, res, hexit, rfl⟩ := hn
    have hd := (handleRealmExit_sat exception env).of_ok hexit
    by_cases hne : g = g0
    · subst hne
      exact .trapped hrun hgen hd rfl
    · have hrec := h.isRec (c := c) (g := g0) (by rw [hrun]; rfl)
      obtain ⟨hst, hask⟩ := @ExitDone.others plat m.smp.mem s F g0 g _ _ _ _ hd hw hrec
      have hvcpu : (m.trapped c g0 s res).vcpu g = m.vcpu g := Function.update_of_ne hne _ _
      refine .kept (hst.mp hg) ?_ ?_ ?_ (hask hne) <;> rw [hvcpu]
      · exact id
      · exact id
  | complete c callingAddr targetAddr status =>
    obtain ⟨hidle, vcpu, ret, hs, rfl⟩ := hn
    have hc := (smcPsciComplete_sat plat m.smp.mem _ callingAddr targetAddr status).of_ok hs
    exact .kept hg rfl (fun hp => hc.pending_mono hp) id id

/-- A running REC ran before or has just been entered. -/
theorem RunNext.running_cases (h : RunInv m) (hn : RunNext plat m a m') {c : ι} {g : Word}
    (hg : m'.smp.cpu c = .running g) :
    (m.smp.cpu c = .running g ∧ m'.exitEsr c = m.exitEsr c ∧
      (m'.vcpu g).lastRunInfo.esr = (m.vcpu g).lastRunInfo.esr) ∨
    (∃ host, a = .enter c host ∧ m'.exitEsr c = 0#64 ∧ (m'.vcpu g).lastRunInfo.esr = 0#64 ∧
      NoRequest (m'.smp.mem.recs g) (m'.vcpu g)) := by
  -- a CPU that does not move keeps its job
  have put : ∀ {c' : ι} {s : State} {job : Job}, (m.smp.put c' s job).cpu c = .running g →
      (c = c' ∧ job = .running g) ∨ (c ≠ c' ∧ m.smp.cpu c = .running g) := by
    intro c' s job hput
    by_cases hc : c = c'
    · subst hc
      exact .inl ⟨rfl, by simpa [Smp.put] using hput⟩
    · exact .inr ⟨hc, by simpa [Smp.put, hc] using hput⟩
  -- two CPUs are in different RECs
  have apart : ∀ {c' : ι} {g' : Word}, c ≠ c' → m.smp.cpu c = .running g →
      (m.smp.cpu c').inside = some g' → g ≠ g' := by
    rintro c' g' hne hrun hin rfl
    exact hne (h.psci.smp.refs.alone c c' g (by show (m.smp.cpu c).inside = _; rw [hrun]; rfl) hin)
  cases a with
  | plain a p =>
    obtain ⟨ha, n, hnext, rfl⟩ := hn
    have hrun := hnext.running_of_host ha hg
    have hrec := h.isRec (c := c) (g := g) (by rw [hrun]; rfl)
    have hrec' := (h.psci.smp.step hnext).refs.entered c g (by rw [hg]; rfl)
    refine .inl ⟨hrun, rfl, ?_⟩
    show (runVcpusAfter m.smp.mem n.mem m.vcpu p g).lastRunInfo.esr = _
    unfold runVcpusAfter
    rw [if_pos (by rw [hrec']), if_pos hrec]
  | enter c' host =>
    obtain ⟨g', o, s, job, hin, hd, rfl, -, -, hruns, hrun⟩ := RunNext.entryDone h hn
    obtain ⟨rfl, hjob⟩ | ⟨hc, hcpu⟩ := put hg
    · obtain ⟨rfl, hentry⟩ := hruns g hjob
      obtain ⟨hinfo, hesr, hclear⟩ := hd.spent hentry (hrun hentry).2
      refine .inr ⟨host, rfl, ?_, ?_, ?_⟩
      · show Function.update m.exitEsr c o.exitEsr c = _
        rw [Function.update_self, hesr]
      · show (Function.update m.vcpu g o.vcpu g).lastRunInfo.esr = _
        rw [Function.update_self, hinfo]
      · show NoRequest (s.recs g) (Function.update m.vcpu g o.vcpu g)
        rw [Function.update_self]
        exact hclear
    · refine .inl ⟨hcpu, Function.update_of_ne hc _ _, ?_⟩
      show (Function.update m.vcpu g' o.vcpu g).lastRunInfo.esr = _
      rw [Function.update_of_ne (apart hc hcpu hin)]
  | guest c' regs el1 =>
    obtain ⟨g', hrun, rfl⟩ := hn
    refine .inl ⟨hg, rfl, ?_⟩
    by_cases hne : g = g'
    · subst hne
      dsimp only
      rw [Function.update_self]
    · dsimp only
      rw [Function.update_of_ne hne]
  | store data =>
    obtain rfl := hn
    exact .inl ⟨hg, rfl, rfl⟩
  | timer c' =>
    obtain ⟨g', hrun, rfl⟩ := hn
    obtain ⟨-, hjob⟩ | ⟨-, hrun'⟩ := put hg
    · cases hjob
    · exact .inl ⟨hrun', rfl, rfl⟩
  | trap c' exception env =>
    obtain ⟨g', hrun, -, s, res, hexit, rfl⟩ := hn
    have hd := (handleRealmExit_sat exception env).of_ok hexit
    obtain ⟨rfl, hjob⟩ | ⟨hc, hrun'⟩ := put hg
    · have hres : res.handled = true := by
        by_contra hc
        rw [if_neg hc] at hjob
        cases hjob
      rw [if_pos hres] at hjob
      obtain rfl := Job.running.inj hjob
      refine .inl ⟨hrun, ?_, ?_⟩
      · show Function.update m.exitEsr c res.exitEsr c = _
        rw [Function.update_self, (hd.info hres).2]
      · show (Function.update m.vcpu g' res.vcpu g').lastRunInfo.esr = _
        rw [Function.update_self, (hd.info hres).1]
    · refine .inl ⟨hrun', Function.update_of_ne hc _ _, ?_⟩
      have hne := @apart c' g' hc hrun' (by rw [hrun]; rfl)
      show (Function.update m.vcpu g' res.vcpu g).lastRunInfo.esr = _
      rw [Function.update_of_ne hne]
  | complete c' callingAddr targetAddr status =>
    obtain ⟨hidle, vcpu, ret, hs, rfl⟩ := hn
    exact .inl ⟨hg, rfl, rfl⟩

omit [DecidableEq ι] in
theorem RunInv.trapped (h : RunInv m) {c : ι} {g : Word} {s : State} {res : Handled}
    {exception : RealmException} (hrun : m.smp.cpu c = .running g) (hgen : exception.Genuine)
    (hd : ExitDone plat m.smp.mem g (m.vcpu g) (m.exitEsr c) exception s res) :
    RequestInv (s.recs g) res.vcpu ∧ ∀ p, Waits (s.recs g) res.vcpu p →
      res.handled = false ∧ Opens (m.smp.mem.recs g) (m.vcpu g) exception p := by
  obtain ⟨F, hw⟩ := h.psci.smp.wf
  have hrec := h.isRec (c := c) (g := g) (by rw [hrun]; rfl)
  obtain ⟨hno, hinfo, hx⟩ := h.running c g hrun
  exact ⟨hd.requestInv hw hrec hno hinfo hx hgen,
    fun p hp => hd.opens hw hrec hno hinfo hx hgen hp⟩

theorem RunInv.requests_step (h : RunInv m) (hn : RunNext plat m a m') {g : Word}
    (hg : (m'.smp.mem.granule g).state = .REC) :
    RequestInv (m'.smp.mem.recs g) (m'.vcpu g) := by
  cases hn.move h hg with
  | kept was info pend call ask => exact (h.requests g was).mono info pend call ask
  | clear info none =>
    exact ⟨fun hw => (hw.elim (none .psci) fun hw => hw.elim (none .hostCall) (none .ripas)).elim,
      fun hp => absurd hp (none .psci), fun hp => absurd hp (none .psci),
      fun hc => absurd hc (none .hostCall)⟩
  | @trapped c exception env s res runs genuine done eq =>
    have hvcpu : m'.vcpu g = res.vcpu := by
      rw [eq]
      exact Function.update_self _ _ _
    have hmem : m'.smp.mem = s := by
      rw [eq]
      rfl
    rw [hvcpu, hmem]
    exact (h.trapped runs genuine done).1

theorem RunInv.running_step (h : RunInv m) (hn : RunNext plat m a m') {c : ι} {g : Word}
    (hg : m'.smp.cpu c = .running g) (hrec : (m'.smp.mem.granule g).state = .REC) :
    NoRequest (m'.smp.mem.recs g) (m'.vcpu g) ∧ (m'.vcpu g).lastRunInfo.esr = 0#64 ∧
      m'.exitEsr c = 0#64 := by
  obtain ⟨hrun, hx, hinfo⟩ | ⟨host, rfl, hx, hinfo, hno⟩ := hn.running_cases h hg
  swap
  · exact ⟨hno, hinfo, hx⟩
  obtain ⟨hno, h1, h2⟩ := h.running c g hrun
  refine ⟨?_, hinfo.trans h1, hx.trans h2⟩
  cases hn.move h hrec with
  | kept was info pend call ask => exact hno.mono info pend call ask
  | clear info none => exact none
  | @trapped c' exception env s res runs genuine done eq =>
    intro p hp
    have hvcpu : m'.vcpu g = res.vcpu := by
      rw [eq]
      exact Function.update_self _ _ _
    have hmem : m'.smp.mem = s := by
      rw [eq]
      rfl
    rw [hvcpu, hmem] at hp
    have hres := ((h.trapped runs genuine done).2 p hp).1
    -- the REC has left
    have hcpu : m'.smp.cpu c' = .leaving g rmiSuccess := by
      rw [eq]
      show (m.smp.put c' s _).cpu c' = _
      simp [Smp.put, hres]
    have hcc := h.psci.smp.refs.alone c c' g (by show (m.smp.cpu c).inside = _; rw [hrun]; rfl)
      (by show (m.smp.cpu c').inside = _; rw [runs]; rfl)
    rw [← hcc, hg] at hcpu
    cases hcpu

theorem RunInv.step (h : RunInv m) (hn : RunNext plat m a m') : RunInv m' := by
  have hpsci : PsciInv m'.toPsci :=
    (hn.psciReach h).invariant h.psci fun _ _ _ _ hi _ hn' => hi.step hn'
  refine ⟨hpsci, fun g hg => h.requests_step hn hg, fun c g hg => h.running_step hn hg ?_⟩
  exact congrArg Granule.state (hpsci.smp.refs.entered c g
    (by show (m'.smp.cpu c).inside = _; rw [hg]; rfl))

omit [DecidableEq ι] in
theorem RunInv.init : RunInv (initRun : RunSmp ι) where
  psci := PsciInv.init
  requests _ hg := nomatch hg
  running _ _ hg := nomatch hg

theorem RunInv.reach (hm : RunReachable plat m) : RunInv m :=
  hm.invariant .init fun _ _ _ _ h _ hn => h.step hn

/-- No exception of the REC is handled. -/
def Untrapped (g : Word) (m : RunSmp ι) (a : RunAct ι) : Prop :=
  ∀ c exception env, a = .trap c exception env → m.smp.cpu c ≠ .running g

/-- Without an exception nothing is opened. -/
theorem RunInv.quiet {P : Word → Prop} (h0 : P 0#64) (h : RunInv m) {g : Word}
    (hq : (m.smp.mem.granule g).state = .REC → NoRequest (m.smp.mem.recs g) (m.vcpu g) ∧
      P (m.vcpu g).lastRunInfo.esr)
    (hr : Reach m (RunNext plat) (Untrapped g) m') :
    RunInv m' ∧ ((m'.smp.mem.granule g).state = .REC →
      NoRequest (m'.smp.mem.recs g) (m'.vcpu g) ∧ P (m'.vcpu g).lastRunInfo.esr) := by
  refine hr.invariant (I := fun n => RunInv n ∧ ((n.smp.mem.granule g).state = .REC →
    NoRequest (n.smp.mem.recs g) (n.vcpu g) ∧ P (n.vcpu g).lastRunInfo.esr)) ⟨h, hq⟩ ?_
  rintro n a n' - ⟨hi, hn⟩ hallow hstep
  refine ⟨hi.step hstep, fun hg => ?_⟩
  cases hstep.move hi hg with
  | kept was info pend call ask =>
    obtain ⟨hno, hP⟩ := hn was
    rw [info]
    exact ⟨hno.mono info pend call ask, hP⟩
  | clear info none =>
    rw [info]
    exact ⟨none, h0⟩
  | trapped runs genuine done eq => exact absurd runs (hallow _ _ _ rfl)

/-- An entry either comes back and changes nothing, or is one completion. -/
theorem RunInv.entry (h : RunInv m) {c : ι} {host : Option RmiRecEnter}
    (hn : RunNext plat m (.enter c host) m') :
    ∃ g, (m.smp.cpu c).inside = some g ∧ (∀ g', g' ≠ g → m'.vcpu g' = m.vcpu g') ∧
      ((m'.vcpu g = m.vcpu g ∧ m'.data = m.data ∧ ∀ r, m'.smp.cpu c ≠ .running r) ∨
        ∃ e v', host = some e ∧ m'.smp.cpu c = .running g ∧
          Completed m.smp.mem (m.smp.mem.recs g) (m.vcpu g) m.data e v' m'.data ∧
          m'.vcpu g = resetLastRunInfo v') := by
  obtain ⟨g, o, s, job, hin, hd, rfl, -, -, hruns, hrun⟩ := RunNext.entryDone h hn
  refine ⟨g, hin, fun g' hne => Function.update_of_ne hne _ _, ?_⟩
  have hcpu : (m.smp.put c s job).cpu c = job := Function.update_self _ _ _
  dsimp only
  rw [Function.update_self, hcpu]
  cases hd with
  | back entry off vcpu mem => exact .inl ⟨vcpu, mem, fun r hr => entry (hruns r hr).2⟩
  | @run e v' read active on ready entry done calls vcpu esr =>
    exact .inr ⟨e, v', read, (hrun entry).1, done, vcpu⟩

/-- Entries and exits in any order, with any data of the host. A REC waits for at most one
thing. An entry that does not come back completes it, or injects an abort where the last
exit was an access to unprotected memory; no entry completes anything again before the
next exception. After any other exit the host reaches no general register and no memory. -/
theorem host_completes_requests (hm : RunReachable plat m) :
    (∀ g, (m.smp.mem.granule g).state = .REC → OneRequest (m.smp.mem.recs g) (m.vcpu g)) ∧
    (∀ c host m', RunNext plat m (.enter c host) m' →
      ∃ g, (m.smp.cpu c).inside = some g ∧ (∀ g', g' ≠ g → m'.vcpu g' = m.vcpu g') ∧
        ((m'.vcpu g = m.vcpu g ∧ m'.data = m.data ∧ ∀ r, m'.smp.cpu c ≠ .running r) ∨
          ∃ e v', host = some e ∧ m'.smp.cpu c = .running g ∧
            Completed m.smp.mem (m.smp.mem.recs g) (m.vcpu g) m.data e v' m'.data ∧
            m'.vcpu g = resetLastRunInfo v')) ∧
    (∀ c host m1 g m2 c' host' m3, RunNext plat m (.enter c host) m1 →
      m1.smp.cpu c = .running g → Reach m1 (RunNext plat) (Untrapped g) m2 →
      RunNext plat m2 (.enter c' host') m3 → (m2.smp.cpu c').inside = some g →
      (m3.vcpu g = m2.vcpu g ∨ m3.vcpu g = resetLastRunInfo (m2.vcpu g)) ∧
        m3.data = m2.data) ∧
    ∀ a m1 c g m2 c' host m3, RunNext plat m a m1 → m.smp.cpu c = .running g →
      m1.smp.cpu c = .leaving g rmiSuccess →
      (∀ exception env, a = .trap c exception env →
        ∀ p, ¬ Opens (m.smp.mem.recs g) (m.vcpu g) exception p) →
      Reach m1 (RunNext plat) (Untrapped g) m2 →
      RunNext plat m2 (.enter c' host) m3 → (m2.smp.cpu c').inside = some g →
      (m3.vcpu g).gprs = (m2.vcpu g).gprs ∧ m3.data = m2.data := by
  have h := RunInv.reach hm
  refine ⟨fun g hg => (h.requests g hg).oneRequest, fun c host m' hn => h.entry hn, ?_, ?_⟩
  · intro c host m1 g m2 c' host' m3 hn hrun hreach hn' hin
    have h1 := h.step hn
    -- a running REC has nothing open, and no abort behind it
    obtain ⟨hno, hinfo, -⟩ := h1.running c g hrun
    obtain ⟨h2, hquiet⟩ := h1.quiet (P := fun esr => ecOf esr ≠ esrEl2EcDataAbort) (by decide)
      (fun _ => ⟨hno, by rw [hinfo]; decide⟩) hreach
    obtain ⟨hno2, hec⟩ := hquiet (h2.isRec hin)
    obtain ⟨g', hin', -, ⟨hv, hdata, -⟩ | ⟨e, v', -, -, hdone, hv⟩⟩ := h2.entry hn'
    · obtain rfl := Option.some.inj (hin.symm.trans hin')
      exact ⟨.inl hv, hdata⟩
    · obtain rfl := Option.some.inj (hin.symm.trans hin')
      obtain ⟨rfl, hdata⟩ := hdone.eq_of_noRequest hno2 hec
      exact ⟨.inr hv, hdata⟩
  · intro a m1 c g m2 c' host m3 hn hrun hleave hopens hreach hn' hin
    have h1 := h.step hn
    obtain ⟨hno, -, -⟩ := h.running c g hrun
    have hquiet1 : (m1.smp.mem.granule g).state = .REC →
        NoRequest (m1.smp.mem.recs g) (m1.vcpu g) ∧ True := by
      intro hg
      refine ⟨?_, trivial⟩
      cases hn.move h hg with
      | kept was info pend call ask => exact hno.mono info pend call ask
      | clear info none => exact none
      | @trapped c1 exception env s res runs genuine done eq =>
        obtain rfl := h.psci.smp.refs.alone c c1 g
          (by show (m.smp.cpu c).inside = _; rw [hrun]; rfl)
          (by show (m.smp.cpu c1).inside = _; rw [runs]; rfl)
        intro p hp
        rw [eq] at hp
        have hvcpu : (m.trapped c g s res).vcpu g = res.vcpu := Function.update_self _ _ _
        rw [hvcpu] at hp
        exact hopens exception env rfl p ((h.trapped runs genuine done).2 p hp).2
    obtain ⟨h2, hquiet⟩ := h1.quiet (P := fun _ => True) trivial hquiet1 hreach
    obtain ⟨hno2, -⟩ := hquiet (h2.isRec hin)
    obtain ⟨g', hin', -, ⟨hv, hdata, -⟩ | ⟨e, v', -, -, hdone, hv⟩⟩ := h2.entry hn'
    · obtain rfl := Option.some.inj (hin.symm.trans hin')
      rw [hv]
      exact ⟨rfl, hdata⟩
    · obtain rfl := Option.some.inj (hin.symm.trans hin')
      obtain ⟨hgprs, hdata⟩ := hdone.gprs_of_noRequest hno2
      rw [hv]
      exact ⟨hgprs, hdata⟩

end

/-- A realm with one REC that is on. -/
def runOneRec : List (RunAct ℕ) :=
  let p : VcpuParams := ⟨fun _ => 0#64, 0#64, true⟩
  ((List.range 24).map fun k => .plain (.start 0 (.granuleDelegate (gr (16 + k)) true)) p) ++
  [.plain (.start 0 (.realmCreate (gr 16) (gr 0) (some (demoParams 17 1)))) p,
    .plain (.start 0 (.recCreate (gr 16) (gr 22) (gr 0)
      (some ⟨(List.range 16).map fun k => gr (24 + k), some 0⟩))) p] ++
  List.replicate 17 (.plain (.resume 0) p) ++
  [.plain (.start 0 (.realmActivate (gr 16))) p]

/-- A host that passes one value. -/
def hostEnters (flags value : Word) : Option RmiRecEnter := some ⟨flags, fun _ => value, true⟩

/-- CPU 1 enters the REC, which accesses unprotected memory; the REC leaves and is about
to be entered again. -/
def runAbort (esr : Word) : List (RunAct ℕ) :=
  let p : VcpuParams := ⟨fun _ => 0#64, 0#64, true⟩
  let enter : RunAct ℕ := .plain (.start 1 (.recEnter (gr 22) (gr 0) .run false)) p
  [enter, .enter 1 (hostEnters 0#64 0#64),
    .trap 1 (.sync ⟨esr, 0#64, 0x800000#64⟩)
      ⟨.EXIT_TO_HOST, 0#64, fun _ => 0#64, 0#64, false⟩,
    .plain (.resume 1) p, enter]

def runKeys : Keys where
  granules := [gr 0, gr 16, gr 22]
  rds := [gr 16]
  recs := [gr 22]
  tables := []
  slots := []

/-- A load of 64 bits to `x3`. -/
def loadEsr : Word := esrEl2EcDataAbort ||| esrEl2AbortIsvBit ||| 0xC30004#64

/-- The REC accesses memory, is about to be entered by CPU 1 and passes a test, and so does
the state after the entry. -/
def runEnters (esr : Word) (host : Option RmiRecEnter) (test : Rec → RunVcpu → Bool)
    (after : RunSmp ℕ → RunSmp ℕ → Bool) : Bool :=
  (runReplay runKeys demoPlat initRun (runOneRec ++ runAbort esr)).any fun m =>
    decide ((m.smp.cpu 1).inside = some (gr 22)) &&
      test (m.smp.mem.recs (gr 22)) (m.vcpu (gr 22)) &&
      (runStep demoPlat m (.enter 1 host)).any (after m)

theorem runEnters_reached {esr : Word} {host : Option RmiRecEnter} {test : Rec → RunVcpu → Bool}
    {after : RunSmp ℕ → RunSmp ℕ → Bool} (h : runEnters esr host test after = true) :
    ∃ m m', RunReachable demoPlat m ∧ (m.smp.cpu 1).inside = some (gr 22) ∧
      test (m.smp.mem.recs (gr 22)) (m.vcpu (gr 22)) = true ∧
      RunNext demoPlat m (.enter 1 host) m' ∧ after m m' = true := by
  obtain ⟨m, hm, ht⟩ := (Option.any_eq_true _ _).mp h
  rw [Bool.and_eq_true, Bool.and_eq_true, decide_eq_true_eq] at ht
  obtain ⟨⟨hin, htest⟩, hstep⟩ := ht
  obtain ⟨m', hn, hafter⟩ := (Option.any_eq_true _ _).mp hstep
  exact ⟨m, m', runReplay_reachable _ .init hm, hin, htest, runStep_next hn, hafter⟩

/-- A load is completed with the host's value, and the next entry completes nothing. -/
theorem host_completes_requests_load : ∃ m m' : RunSmp ℕ, RunReachable demoPlat m ∧
    RunNext demoPlat m (.enter 1 (hostEnters recEntryFlagEmulMmio 7#64)) m' ∧
    Waits (m.smp.mem.recs (gr 22)) (m.vcpu (gr 22)) .mmio ∧
    (m.vcpu (gr 22)).gprs 3 = 0#64 ∧ (m'.vcpu (gr 22)).gprs 3 = 7#64 ∧
    OneRequest (m.smp.mem.recs (gr 22)) (m.vcpu (gr 22)) ∧
    ∀ m2 c host m3, Reach m' (RunNext demoPlat) (Untrapped (gr 22)) m2 →
      RunNext demoPlat m2 (.enter c host) m3 → (m2.smp.cpu c).inside = some (gr 22) →
      (m3.vcpu (gr 22) = m2.vcpu (gr 22) ∨
        m3.vcpu (gr 22) = resetLastRunInfo (m2.vcpu (gr 22))) ∧ m3.data = m2.data := by
  have hrun : runEnters loadEsr (hostEnters recEntryFlagEmulMmio 7#64)
      (fun r v => decide (Waits r v .mmio ∧ v.gprs 3 = 0#64)) (fun _ m' =>
        decide ((m'.vcpu (gr 22)).gprs 3 = 7#64 ∧ m'.smp.cpu 1 = .running (gr 22))) = true := by
    decide +kernel
  obtain ⟨m, m', hm, hin, htest, hn, hafter⟩ := runEnters_reached hrun
  obtain ⟨hwaits, hold⟩ := of_decide_eq_true htest
  obtain ⟨hnew, hcpu⟩ := of_decide_eq_true hafter
  obtain ⟨hone, -, honce, -⟩ := host_completes_requests hm
  refine ⟨m, m', hm, hn, hwaits, hold, hnew, hone _ ((RunInv.reach hm).isRec hin),
    fun m2 c host m3 hr hn' hin' => ?_⟩
  exact honce 1 _ m' (gr 22) m2 c host m3 hn hcpu hr hn' hin'

/-- The host answers an access that cannot be emulated with an abort: the REC goes on at
its exception vector, though it waited for nothing. -/
theorem host_injects_unasked : ¬ ∀ (m m' : RunSmp ℕ) (c : ℕ)
    (host : Option RmiRecEnter) (g : Word),
    RunReachable demoPlat m → (m.smp.cpu c).inside = some g →
    RunNext demoPlat m (.enter c host) m' →
    ((m'.vcpu g).gprs ≠ (m.vcpu g).gprs ∨ (m'.vcpu g).pc ≠ (m.vcpu g).pc ∨
      m'.data ≠ m.data) →
    ∃ p, Waits (m.smp.mem.recs g) (m.vcpu g) p := by
  have hrun : runEnters (esrEl2EcDataAbort ||| esrEl2AbortFscTranslationFault)
      (hostEnters recEntryFlagInjectSea 0#64) (fun r v => decide (∀ p, ¬ Waits r v p))
      (fun m m' => decide ((m'.vcpu (gr 22)).pc ≠ (m.vcpu (gr 22)).pc)) = true := by
    decide +kernel
  obtain ⟨m, m', hm, hin, htest, hn, hafter⟩ := runEnters_reached hrun
  intro hall
  obtain ⟨p, hp⟩ := hall m m' 1 _ (gr 22) hm hin hn (.inr (.inl (of_decide_eq_true hafter)))
  exact of_decide_eq_true htest p hp

end RmmCaec
