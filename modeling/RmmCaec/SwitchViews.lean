import RmmCaec.SwitchSystem

/-!
# Registers of one's own

The abstract picture is that every CPU has registers for its host and every REC has
registers for its realm. Here they are read off the state of the system, and every step is
shown to keep those that it is not the owner of.
-/
namespace RmmCaec
open Runs

variable {ι γ : Type}

/-- The registers of the host of one CPU. -/
structure HostRegs where
  regs : SysReg → Word
  cntpCtl : TimerCtl
  cntvCtl : TimerCtl
  pmcr : Word
  cnthctlEl2 : Word
  iccSreEl2 : Word

def CpuRegs.asHost (h : CpuRegs) : HostRegs where
  regs := h.regs
  cntpCtl := h.cntpCtl
  cntvCtl := h.cntvCtl
  pmcr := h.pmu.pmcr
  cnthctlEl2 := h.cnthctlEl2
  iccSreEl2 := h.iccSreEl2

def NsState.asHost (ns : NsState) : HostRegs where
  regs := ns.sysregs.regs
  cntpCtl := timerCtl ns.sysregs.cntpCtlEl0
  cntvCtl := timerCtl ns.sysregs.cntvCtlEl0
  pmcr := ns.sysregs.pmcrEl0 &&& ~~~(pmcrEl0PBit ||| pmcrEl0CBit)
  cnthctlEl2 := ns.sysregs.cnthctlEl2
  iccSreEl2 := ns.iccSreEl2

/-- In the registers of the CPU while the host runs, and saved else. -/
def SwitchState.hostRegs (σ : SwitchState ι γ) (i : ι) : HostRegs :=
  match σ.phase i with
  | .host => (σ.cpus i).asHost
  | _ => (σ.nsData i).asHost

theorem PmuRegs.pmcr_kept (h : PmuRegs) :
    h.pmcr &&& ~~~(pmcrEl0PBit ||| pmcrEl0CBit) = h.pmcr := by
  refine BitVec.eq_of_getLsbD_eq fun k hk => ?_
  have hzero := congrArg (BitVec.getLsbD · k) h.noReset
  simp only [BitVec.getLsbD_and, BitVec.getLsbD_zero, BitVec.getLsbD_not] at hzero ⊢
  cases hbit : h.pmcr.getLsbD k
  · rfl
  · rw [hbit, Bool.true_and] at hzero
    rw [hzero]
    simp [hk]

theorem pmuRestoreState_pmcr (pmu : PmuState) (h : PmuRegs) (numCnts : ℕ) :
    (pmuRestoreState pmu h numCnts).pmcr = h.pmcr := by
  obtain ⟨cntr, typer, hrest⟩ := pmuRestoreState_rest pmu h numCnts
  rw [hrest]

theorem saveNsState_asHost (now : Counters) (r : RecContext ι) (h : CpuRegs) (ns : NsState) :
    (saveNsState now r h ns).asHost = h.asHost := by
  simp only [NsState.asHost, CpuRegs.asHost, saveNsState, saveSysregState, CpuRegs.readCntpCtl,
    CpuRegs.readCntvCtl, timerCtl_read, copyAt_savedSysregs, PmuRegs.pmcr_kept]

theorem restoreNsState_asHost (r : RecContext ι) (ns : NsState) (h : CpuRegs) :
    (restoreNsState r ns h).asHost = ns.asHost := by
  simp only [NsState.asHost, CpuRegs.asHost, restoreNsState, restoreSysregState,
    copyAt_savedSysregs]
  cases r.pmuEnabled
  · rfl
  · simp only [if_true, pmuRestoreState_pmcr]
    rfl

section
variable {σ σ' : SwitchState ι γ} {i : ι} {g : γ}

theorem hostRegs_host (h : σ.phase i = .host) : σ.hostRegs i = (σ.cpus i).asHost := by
  rw [SwitchState.hostRegs, h]

theorem hostRegs_inside (h : (σ.phase i).inside = some g) :
    σ.hostRegs i = (σ.nsData i).asHost := by
  rw [SwitchState.hostRegs]
  cases hphase : σ.phase i with
  | host =>
    rw [hphase] at h
    cases h
  | loop _ _ => rfl
  | realm _ => rfl
  | exited _ => rfl
  | leaving _ _ => rfl

theorem hostRegs_congr (hphase : σ'.phase i = σ.phase i) (hcpu : σ'.cpus i = σ.cpus i)
    (hns : σ'.nsData i = σ.nsData i) : σ'.hostRegs i = σ.hostRegs i := by
  rw [SwitchState.hostRegs, SwitchState.hostRegs, hphase, hcpu, hns]

end

section
variable [DecidableEq ι] [DecidableEq γ] {f : GicVirtFeature} {σ σ' : SwitchState ι γ}
  {a : SwitchAct ι γ} {i j : ι} {g : γ}

theorem enter_inside (i : ι) (g : γ) (e : RecRunEnter) :
    ((σ.enter f i g e).phase i).inside = some g := by
  simp only [SwitchState.enter, Function.update_self, SwitchPhase.inside]

/-- The CPU that a step takes place on. -/
def SwitchAct.cpu : SwitchAct ι γ → Option ι
  | .host i | .enter i _ | .turn i _ _ | .realm i _ | .handle i _ | .trapped i _ _ _ | .leave i _ =>
    some i
  | .tick | .create _ | .amend _ => none

/-- A step on one CPU leaves the others alone. -/
theorem SwitchStep.elsewhere (h : SwitchStep f σ a σ') (hcpu : a.cpu ≠ some i) :
    σ'.phase i = σ.phase i ∧ σ'.cpus i = σ.cpus i ∧ σ'.nsData i = σ.nsData i := by
  have hne : ∀ {j : ι}, some j ≠ some i → i ≠ j :=
    fun hj heq => hj (congrArg some heq.symm)
  cases h with
  | tick => exact ⟨rfl, rfl, rfl⟩
  | host => exact ⟨rfl, Function.update_of_ne (hne hcpu) _ _, rfl⟩
  | enter =>
    exact ⟨Function.update_of_ne (hne hcpu) _ _, Function.update_of_ne (hne hcpu) _ _,
      Function.update_of_ne (hne hcpu) _ _⟩
  | turnBack =>
    exact ⟨Function.update_of_ne (hne hcpu) _ _, Function.update_of_ne (hne hcpu) _ _, rfl⟩
  | turnRun =>
    exact ⟨Function.update_of_ne (hne hcpu) _ _, Function.update_of_ne (hne hcpu) _ _, rfl⟩
  | realm => exact ⟨Function.update_of_ne (hne hcpu) _ _,
      Function.update_of_ne (hne hcpu) _ _, rfl⟩
  | handle => exact ⟨Function.update_of_ne (hne hcpu) _ _,
      Function.update_of_ne (hne hcpu) _ _, rfl⟩
  | trapped =>
    exact ⟨Function.update_of_ne (hne hcpu) _ _, Function.update_of_ne (hne hcpu) _ _, rfl⟩
  | leave => exact ⟨Function.update_of_ne (hne hcpu) _ _,
      Function.update_of_ne (hne hcpu) _ _, rfl⟩
  | create => exact ⟨rfl, rfl, rfl⟩
  | amend => exact ⟨rfl, rfl, rfl⟩

/-- A turn, a run of the realm and a handled exception stay inside the REC and keep what is
saved of the host. -/
theorem SwitchStep.stays (h : SwitchStep f σ a σ') (hcpu : a.cpu = some i)
    (hin : (σ.phase i).inside = some g) (hleave : a ≠ .leave i g) :
    (σ'.phase i).inside = some g ∧ σ'.nsData i = σ.nsData i := by
  cases h with
  | tick => cases hcpu
  | create => cases hcpu
  | amend => cases hcpu
  | host phase =>
    cases hcpu
    rw [phase] at hin
    cases hin
  | enter phase =>
    cases hcpu
    rw [phase] at hin
    cases hin
  | turnBack phase =>
    cases hcpu
    rw [phase] at hin
    cases hin
    exact ⟨by simp only [SwitchState.turnBack, Function.update_self]; rfl, rfl⟩
  | turnRun phase =>
    cases hcpu
    rw [phase] at hin
    cases hin
    exact ⟨by simp only [SwitchState.turnRun, Function.update_self]; rfl, rfl⟩
  | realm phase =>
    cases hcpu
    rw [phase] at hin
    cases hin
    exact ⟨by simp only [SwitchState.realm, Function.update_self]; rfl, rfl⟩
  | handle phase =>
    cases hcpu
    rw [phase] at hin
    cases hin
    refine ⟨?_, rfl⟩
    simp only [SwitchState.handle, Function.update_self]
    split <;> rfl
  | trapped phase =>
    cases hcpu
    rw [phase] at hin
    cases hin
    exact ⟨by simp only [SwitchState.trapped, Function.update_self]; rfl, rfl⟩
  | leave phase =>
    cases hcpu
    rw [phase] at hin
    cases hin
    exact absurd rfl hleave

/-- Only the host changes its registers. -/
theorem hostRegs_step (h : SwitchStep f σ a σ') (hno : a ≠ .host i) :
    σ'.hostRegs i = σ.hostRegs i := by
  by_cases hcpu : a.cpu = some i
  · cases hin : (σ.phase i).inside with
    | some g =>
      by_cases hleave : a = .leave i g
      · subst hleave
        cases h with
        | leave phase =>
          rw [hostRegs_inside hin, hostRegs_host (by simp [SwitchState.leave])]
          simp only [SwitchState.leave, Function.update_self]
          exact restoreNsState_asHost _ _ _
      · obtain ⟨hin', hns⟩ := h.stays hcpu hin hleave
        rw [hostRegs_inside hin', hostRegs_inside hin, hns]
    | none =>
      cases h with
      | tick => cases hcpu
      | create => cases hcpu
      | amend => cases hcpu
      | host =>
        cases hcpu
        exact absurd rfl hno
      | enter phase =>
        cases hcpu
        rw [hostRegs_host phase, hostRegs_inside (enter_inside _ _ _)]
        simp only [SwitchState.enter, Function.update_self]
        exact saveNsState_asHost _ _ _ _
      | turnBack phase => cases hcpu; rw [phase] at hin; cases hin
      | turnRun phase => cases hcpu; rw [phase] at hin; cases hin
      | realm phase => cases hcpu; rw [phase] at hin; cases hin
      | handle phase => cases hcpu; rw [phase] at hin; cases hin
      | trapped phase => cases hcpu; rw [phase] at hin; cases hin
      | leave phase => cases hcpu; rw [phase] at hin; cases hin
  · obtain ⟨hphase, hregs, hns⟩ := h.elsewhere hcpu
    exact hostRegs_congr hphase hregs hns

end

/-- The registers of a realm, apart from its timers and its interrupts. -/
structure RealmRegs where
  gprs : Fin 31 → Word
  spEl0 : Word
  regs : SysReg → Word
  pc : Word
  pstate : Word
  pmcr : Word
  vmcr : Word
  ap0r : ℕ → Word
  ap1r : ℕ → Word
  pmu : Option PmuView

/-- SP_EL0 takes another way than the other registers. -/
def butSpEl0 (regs : SysReg → Word) : SysReg → Word := Function.update regs .spEl0 0#64

def onlyAt (l : List ℕ) (regs : ℕ → Word) : ℕ → Word :=
    fun n => if n ∈ l then regs n else 0#64

section
variable (f : GicVirtFeature)

def RecContext.asRealm (r : RecContext ι) : RealmRegs where
  gprs := r.gprs
  spEl0 := r.spEl0
  regs := butSpEl0 r.sysregs.regs
  pc := r.pc
  pstate := r.pstate
  pmcr := r.sysregs.pmcrEl0 &&& ~~~(pmcrEl0PBit ||| pmcrEl0CBit)
  vmcr := r.sysregs.gicstate.ichVmcrEl2
  ap0r := onlyAt (aprNumbers f) r.sysregs.gicstate.ichAp0rEl2
  ap1r := onlyAt (aprNumbers f) r.sysregs.gicstate.ichAp1rEl2
  pmu := if r.pmuEnabled then some (r.pmu.view r.pmuNumCtrs) else none

/-- The registers of the realm on the CPU that the REC is entered on. -/
def RecContext.onCpu (r : RecContext ι) (h : CpuRegs) : RealmRegs where
  gprs := r.gprs
  spEl0 := r.spEl0
  regs := butSpEl0 h.regs
  pc := h.elrEl2
  pstate := h.spsrEl2
  pmcr := h.pmu.pmcr
  vmcr := h.gic.ichVmcrEl2
  ap0r := onlyAt (aprNumbers f) h.gic.ichAp0rEl2
  ap1r := onlyAt (aprNumbers f) h.gic.ichAp1rEl2
  pmu := if r.pmuEnabled then some (h.pmu.view r.pmuNumCtrs) else none

def SwitchState.realmRegs (σ : SwitchState ι γ) (g : γ) : RealmRegs :=
  match (σ.recs g).ns with
  | none => (σ.recs g).asRealm f
  | some i => (σ.recs g).onCpu f (σ.cpus i)

end

section
variable {f : GicVirtFeature}

theorem onlyAt_copyAt (l : List ℕ) (src dst : ℕ → Word) :
    onlyAt l (copyAt l src dst) = onlyAt l src := by
  funext n
  simp only [onlyAt, copyAt_apply]
  split_ifs <;> rfl

/-- Nothing of the CPU that the REC is entered on is left in the registers of the realm. -/
theorem restoreRealmState_onCpu {r : RecContext ι} (hp : r.pmu.Paired) (h : CpuRegs) :
    r.onCpu f (restoreRealmState f r h) = r.asRealm f := by
  simp only [RecContext.onCpu, RecContext.asRealm, restoreRealmState, restoreSysregState,
    copyAt_savedSysregs, gicRestoreState, onlyAt_copyAt]
  cases hen : r.pmuEnabled
  · rfl
  · simp only [if_true, pmuRestoreState_view hp r.pmuNumCtrs_le, pmuRestoreState_pmcr]
    rfl

theorem saveRealmState_asRealm (now : Counters) (r : RecContext ι) (h : CpuRegs) :
    (saveRealmState f now h r).asRealm f = r.onCpu f h := by
  simp only [RecContext.onCpu, RecContext.asRealm, saveRealmState, saveSysregState,
    copyAt_savedSysregs, gicSaveState, onlyAt_copyAt, PmuRegs.pmcr_kept]
  cases hen : r.pmuEnabled
  · rfl
  · simp only [if_true, pmuSaveState_view r.pmuNumCtrs_le]

theorem runRealm_onCpu (r r' : RecContext ι) (h : CpuRegs) :
    r.onCpu f (runRealm r' h) = r.onCpu f h := by
  simp only [RecContext.onCpu, runRealm, butSpEl0, Function.update_idem]

theorem activateEvents_onCpu (r r' : RecContext ι) (h : CpuRegs) :
    r.onCpu f (activateEvents r' h) = r.onCpu f h := by
  unfold activateEvents
  split <;> rfl

end

/-- A REC points to the CPU that is inside of it, its monitors were saved or are zero, and one
without monitors resets no counters. -/
structure SwitchWf (σ : SwitchState ι γ) : Prop where
  inside : ∀ g i, (σ.recs g).ns = some i ↔ (σ.phase i).inside = some g
  paired : ∀ g, (σ.recs g).pmu.Paired
  quiet : ∀ g, (σ.recs g).pmuEnabled = false →
    (σ.recs g).sysregs.pmcrEl0 &&& (pmcrEl0PBit ||| pmcrEl0CBit) = 0#64

theorem PmuState.zeroed_paired : PmuState.zeroed.Paired := ⟨rfl, rfl, rfl, fun _ => rfl⟩

theorem FreshRec.quiet (p : FreshRec) (h : p.pmuEnabled = false) :
    p.sysregs.pmcrEl0 &&& (pmcrEl0PBit ||| pmcrEl0CBit) = 0#64 := by
  simp only [FreshRec.sysregs, h, Bool.false_eq_true, if_false]
  decide

theorem SwitchInit.wf {σ : SwitchState ι γ} (h : SwitchInit σ) : SwitchWf σ where
  inside g i := by
    obtain ⟨p, hp⟩ := h.fresh g
    rw [hp, h.host i]
    exact iff_of_false (fun hc => by cases hc) (fun hc => by cases hc)
  paired g := by
    obtain ⟨p, hp⟩ := h.fresh g
    rw [hp]
    exact PmuState.zeroed_paired
  quiet g := by
    obtain ⟨p, hp⟩ := h.fresh g
    rw [hp]
    exact p.quiet

section
variable {f : GicVirtFeature} {σ : SwitchState ι γ} {i : ι} {g : γ}

theorem realmRegs_idle (h : (σ.recs g).ns = none) : σ.realmRegs f g = (σ.recs g).asRealm f := by
  rw [SwitchState.realmRegs, h]

theorem realmRegs_entered (h : (σ.recs g).ns = some i) :
    σ.realmRegs f g = (σ.recs g).onCpu f (σ.cpus i) := by
  rw [SwitchState.realmRegs, h]

theorem onCpu_ns (r : RecContext ι) (ns : Option ι) (h : CpuRegs) :
    RecContext.onCpu f { r with ns := ns } h = r.onCpu f h := rfl

theorem asRealm_ns (r : RecContext ι) (ns : Option ι) :
    RecContext.asRealm f { r with ns := ns } = r.asRealm f := rfl

theorem entered_asRealm (r : RecContext ι) (e : RecRunEnter) :
    (SwitchState.entered f r e).asRealm f = r.asRealm f := rfl

end

/-- An update that keeps one aspect of the element keeps it everywhere. -/
theorem update_keeps {α β δ : Type} [DecidableEq α] (p : β → δ) {s : α → β}
    {x : α} {b : β}
    (h : p b = p (s x)) (y : α) : p (Function.update s x b y) = p (s y) := by
  by_cases hy : y = x
  · subst hy
    rw [Function.update_self, h]
  · rw [Function.update_of_ne hy]

theorem setGpr_rest (r : RecContext ι) (rt : ℕ) (v : Word) :
    ∃ gprs spEl0, r.setGpr rt v = { r with gprs := gprs, spEl0 := spEl0 } := by
  unfold RecContext.setGpr
  split
  · exact ⟨_, r.spEl0, rfl⟩
  · exact ⟨r.gprs, _, rfl⟩

theorem toggleCache_context (c : CacheGeometry) (h : CpuRegs) (r : RecContext ι) (was : Bool) :
    ∃ hcr, (toggleCache c h r was).context =
      { r with commonSysregs := { r.commonSysregs with hcrEl2 := hcr } } := by
  unfold toggleCache
  dsimp only
  split
  · exact ⟨_, rfl⟩
  · exact ⟨r.commonSysregs.hcrEl2, rfl⟩

/-- A flush may change CSSELR_EL1. -/
theorem toggleCache_cpu (c : CacheGeometry) (h : CpuRegs) (r : RecContext ι) (was : Bool) :
    ∃ hcr, (toggleCache c h r was).cpu =
      { (if hasCacheEnabled (h.regs .sctlrEl1) != was then (openccaStage2FlushRealm c h).1 else h)
        with hcrEl2 := hcr } := by
  unfold toggleCache
  dsimp only
  by_cases hnow : hasCacheEnabled (h.regs .sctlrEl1) = true
  · rw [if_pos hnow]
    exact ⟨_, rfl⟩
  · rw [if_neg hnow]
    exact ⟨_, rfl⟩

theorem writeSysregByEsr_rest (sysreg v : Word) (h : CpuRegs) :
    ∃ regs, writeSysregByEsr sysreg v h = { h with regs := regs } := by
  unfold writeSysregByEsr
  split
  · exact ⟨_, rfl⟩
  · exact ⟨h.regs, rfl⟩

/-- What a trapped access changes in a REC. -/
theorem trapped_context (c : CacheGeometry) (h : CpuRegs) (r : RecContext ι) (esr : Word) :
    ∃ gprs spEl0 hcr, (openccaHandleEsrTvmSysregTrap c h r esr).context =
      { r with
        gprs := gprs
        spEl0 := spEl0
        commonSysregs := { r.commonSysregs with hcrEl2 := hcr } } := by
  unfold openccaHandleEsrTvmSysregTrap
  dsimp only
  split
  · obtain ⟨hcr, he⟩ := toggleCache_context c (writeSysregByEsr (esr &&& esrEl2SysregMask)
      (r.gpr (esrEl2SysregIssRt esr)) h) r (hasCacheEnabled (h.regs .sctlrEl1))
    exact ⟨r.gprs, r.spEl0, hcr, he⟩
  · obtain ⟨gprs, spEl0, hset⟩ := setGpr_rest r (esrEl2SysregIssRt esr)
      (readSysregByEsr (esr &&& esrEl2SysregMask) h)
    obtain ⟨hcr, he⟩ := toggleCache_context c h (r.setGpr (esrEl2SysregIssRt esr)
      (readSysregByEsr (esr &&& esrEl2SysregMask) h)) (hasCacheEnabled (h.regs .sctlrEl1))
    exact ⟨gprs, spEl0, hcr, by rw [he, hset]⟩

/-- What a trapped access changes in the registers of the CPU. -/
theorem trapped_cpu (c : CacheGeometry) (h : CpuRegs) (r : RecContext ι) (esr : Word) :
    ∃ regs hcr, (openccaHandleEsrTvmSysregTrap c h r esr).cpu =
      { h with regs := regs, hcrEl2 := hcr } := by
  have htoggle : ∀ (regs : SysReg → Word) (r : RecContext ι) (was : Bool), ∃ regs' hcr,
      (toggleCache c { h with regs := regs } r was).cpu =
        { h with regs := regs', hcrEl2 := hcr } := by
    intro regs r was
    obtain ⟨hcr, he⟩ := toggleCache_cpu c { h with regs := regs } r was
    rw [he]
    split
    · exact ⟨_, hcr, rfl⟩
    · exact ⟨regs, hcr, rfl⟩
  unfold openccaHandleEsrTvmSysregTrap
  dsimp only
  split
  · obtain ⟨regs, hw⟩ := writeSysregByEsr_rest (esr &&& esrEl2SysregMask)
      (r.gpr (esrEl2SysregIssRt esr)) h
    rw [hw]
    exact htoggle _ _ _
  · exact htoggle h.regs _ _

theorem trapped_ns (c : CacheGeometry) (h : CpuRegs) (r : RecContext ι) (esr : Word) :
    (openccaHandleEsrTvmSysregTrap c h r esr).context.ns = r.ns := by
  obtain ⟨gprs, spEl0, hcr, he⟩ := trapped_context c h r esr
  rw [he]

section
variable [DecidableEq ι] [DecidableEq γ] {f : GicVirtFeature} {σ σ' : SwitchState ι γ}
  {a : SwitchAct ι γ} {i j : ι} {g : γ}

/-- The REC that a step is about. -/
def SwitchAct.context : SwitchAct ι γ → Option γ
  | .enter _ g | .turn _ g _ | .realm _ g | .handle _ g | .trapped _ g _ _ | .leave _ g | .create g
  | .amend g => some g
  | .tick | .host _ => none

theorem SwitchStep.otherRec (h : SwitchStep f σ a σ') (hg : a.context ≠ some g) :
    σ'.recs g = σ.recs g ∧ σ'.fruitless g = σ.fruitless g ∧
      σ'.flushes g = σ.flushes g := by
  have hne : ∀ {g' : γ}, some g' ≠ some g → g ≠ g' :=
    fun hg' heq => hg' (congrArg some heq.symm)
  cases h with
  | tick => exact ⟨rfl, rfl, rfl⟩
  | host => exact ⟨rfl, rfl, rfl⟩
  | enter => exact ⟨Function.update_of_ne (hne hg) _ _, rfl, rfl⟩
  | turnBack => exact ⟨Function.update_of_ne (hne hg) _ _, rfl, rfl⟩
  | turnRun => exact ⟨Function.update_of_ne (hne hg) _ _, rfl, rfl⟩
  | realm => exact ⟨Function.update_of_ne (hne hg) _ _, rfl, rfl⟩
  | handle => exact ⟨Function.update_of_ne (hne hg) _ _, rfl, rfl⟩
  | trapped =>
    exact ⟨Function.update_of_ne (hne hg) _ _, rfl, Function.update_of_ne (hne hg) _ _⟩
  | leave =>
    exact ⟨Function.update_of_ne (hne hg) _ _, Function.update_of_ne (hne hg) _ _, rfl⟩
  | create =>
    exact ⟨Function.update_of_ne (hne hg) _ _, Function.update_of_ne (hne hg) _ _,
      Function.update_of_ne (hne hg) _ _⟩
  | amend => exact ⟨Function.update_of_ne (hne hg) _ _, rfl, rfl⟩

/-- Steps other than entries and exits leave every CPU inside the REC that it is inside of. -/
theorem SwitchStep.keepsInside (h : SwitchStep f σ a σ') (henter : ∀ i g, a ≠ .enter i g)
    (hleave : ∀ i g, a ≠ .leave i g) :
    (∀ g, (σ'.recs g).ns = (σ.recs g).ns) ∧
      ∀ i, (σ'.phase i).inside = (σ.phase i).inside := by
  have hin : ∀ {i : ι} {p q : SwitchPhase γ}, σ.phase i = p → q.inside = p.inside →
      ∀ j, (Function.update σ.phase i q j).inside = (σ.phase j).inside := fun hp hq =>
    update_keeps SwitchPhase.inside (by rw [hp, hq])
  cases h with
  | tick => exact ⟨fun _ => rfl, fun _ => rfl⟩
  | host => exact ⟨fun _ => rfl, fun _ => rfl⟩
  | enter => exact absurd rfl (henter _ _)
  | turnBack phase => exact ⟨update_keeps RecContext.ns rfl, hin phase rfl⟩
  | turnRun phase => exact ⟨update_keeps RecContext.ns rfl, hin phase rfl⟩
  | realm phase => exact ⟨update_keeps RecContext.ns rfl, hin phase rfl⟩
  | handle phase =>
    refine ⟨update_keeps RecContext.ns rfl, hin phase ?_⟩
    split <;> rfl
  | trapped phase => exact ⟨update_keeps RecContext.ns (trapped_ns _ _ _ _), hin phase rfl⟩
  | leave => exact absurd rfl (hleave _ _)
  | create free => exact ⟨update_keeps RecContext.ns free.symm, fun _ => rfl⟩
  | amend => exact ⟨update_keeps RecContext.ns rfl, fun _ => rfl⟩

theorem SwitchWf.step (hwf : SwitchWf σ) (h : SwitchStep f σ a σ') : SwitchWf σ' := by
  -- the monitors of the REC that the step is about, and those of the others
  have hpaired : ∀ {g r}, r.pmu.Paired →
      ∀ g', (Function.update σ.recs g r g').pmu.Paired := by
    intro g r hr g'
    by_cases hg : g' = g
    · subst hg
      rwa [Function.update_self]
    · rw [Function.update_of_ne hg]
      exact hwf.paired g'
  have hquiet : ∀ {g} {r : RecContext ι}, (r.pmuEnabled = false →
        r.sysregs.pmcrEl0 &&& (pmcrEl0PBit ||| pmcrEl0CBit) = 0#64) →
      ∀ g', (Function.update σ.recs g r g').pmuEnabled = false →
        (Function.update σ.recs g r g').sysregs.pmcrEl0 &&& (pmcrEl0PBit ||| pmcrEl0CBit) =
          0#64 := by
    intro g r hr g'
    by_cases hg : g' = g
    · subst hg
      rwa [Function.update_self]
    · rw [Function.update_of_ne hg]
      exact hwf.quiet g'
  have hplain : (∀ i g, a ≠ .enter i g) → (∀ i g, a ≠ .leave i g) →
      ∀ g i, (σ'.recs g).ns = some i ↔ (σ'.phase i).inside = some g := by
    intro henter hleave g i
    obtain ⟨hns, hin⟩ := h.keepsInside henter hleave
    rw [hns, hin]
    exact hwf.inside g i
  cases h with
  | tick => exact ⟨hwf.inside, hwf.paired, hwf.quiet⟩
  | host => exact ⟨hwf.inside, hwf.paired, hwf.quiet⟩
  | turnBack =>
    exact ⟨hplain (fun _ _ hc => by cases hc) (fun _ _ hc => by cases hc), hpaired (hwf.paired _),
      hquiet (hwf.quiet _)⟩
  | turnRun =>
    exact ⟨hplain (fun _ _ hc => by cases hc) (fun _ _ hc => by cases hc), hpaired (hwf.paired _),
      hquiet (hwf.quiet _)⟩
  | realm =>
    exact ⟨hplain (fun _ _ hc => by cases hc) (fun _ _ hc => by cases hc), hpaired (hwf.paired _),
      hquiet (hwf.quiet _)⟩
  | handle =>
    exact ⟨hplain (fun _ _ hc => by cases hc) (fun _ _ hc => by cases hc), hpaired (hwf.paired _),
      hquiet (hwf.quiet _)⟩
  | @trapped i g c esr =>
    obtain ⟨gprs, spEl0, hcr, he⟩ := trapped_context c (σ.cpus i) (σ.recs g) esr
    refine ⟨hplain (fun _ _ hc => by cases hc) (fun _ _ hc => by cases hc),
      hpaired ?_, hquiet ?_⟩
    · rw [he]
      exact hwf.paired g
    · rw [he]
      exact hwf.quiet g
  | create =>
    exact ⟨hplain (fun _ _ hc => by cases hc) (fun _ _ hc => by cases hc),
      hpaired PmuState.zeroed_paired, hquiet (FreshRec.quiet _)⟩
  | amend =>
    exact ⟨hplain (fun _ _ hc => by cases hc) (fun _ _ hc => by cases hc), hpaired (hwf.paired _),
      hquiet (hwf.quiet _)⟩
  | @enter i g e phase free =>
    refine ⟨fun g' j => ?_, hpaired (hwf.paired g), hquiet (hwf.quiet g)⟩
    simp only [SwitchState.enter, Function.update_apply]
    by_cases hg : g' = g
    · subst hg
      by_cases hj : j = i
      · subst hj
        simp [SwitchPhase.inside]
      · have hold := hwf.inside g' j
        rw [free] at hold
        simpa [hj, Ne.symm hj, eq_comm] using hold
    · by_cases hj : j = i
      · subst hj
        have hold := hwf.inside g' j
        rw [phase] at hold
        simpa [hg, Ne.symm hg, SwitchPhase.inside] using hold
      · simpa [hg, hj] using hwf.inside g' j
  | @leave i g first phase =>
    have hin : (σ.recs g).ns = some i := (hwf.inside g i).mpr (by rw [phase]; rfl)
    refine ⟨fun g' j => ?_, hpaired ?_, hquiet fun _ => (σ.cpus i).pmu.noReset⟩
    · simp only [SwitchState.leave, Function.update_apply]
      by_cases hg : g' = g
      · subst hg
        by_cases hj : j = i
        · subst hj
          simp [SwitchPhase.inside]
        · have hold := hwf.inside g' j
          rw [hin] at hold
          simpa [hj, Ne.symm hj, eq_comm] using hold
      · by_cases hj : j = i
        · subst hj
          have hold := hwf.inside g' j
          rw [phase] at hold
          simpa [hg, Ne.symm hg, SwitchPhase.inside] using hold
        · simpa [hg, hj] using hwf.inside g' j
    · simp only [saveRealmState]
      split
      · exact pmuSaveState_paired
      · exact hwf.paired g

/-- On a CPU that is inside a REC nothing else happens. -/
theorem SwitchStep.context_of_inside (h : SwitchStep f σ a σ') (hcpu : a.cpu = some i)
    (hin : (σ.phase i).inside = some g) : a.context = some g := by
  cases h with
  | tick => cases hcpu
  | create => cases hcpu
  | amend => cases hcpu
  | host phase => cases hcpu; rw [phase] at hin; cases hin
  | enter phase => cases hcpu; rw [phase] at hin; cases hin
  | turnBack phase => cases hcpu; rw [phase] at hin; exact hin
  | turnRun phase => cases hcpu; rw [phase] at hin; exact hin
  | realm phase => cases hcpu; rw [phase] at hin; exact hin
  | handle phase => cases hcpu; rw [phase] at hin; exact hin
  | trapped phase => cases hcpu; rw [phase] at hin; exact hin
  | leave phase => cases hcpu; rw [phase] at hin; exact hin

/-- Nothing happens to a REC but on the CPU that is inside of it. -/
theorem SwitchWf.context_ne (hwf : SwitchWf σ) (h : SwitchStep f σ a σ')
    (hns : (σ.recs g).ns = some i) (hcpu : a.cpu ≠ some i) : a.context ≠ some g := by
  intro hg
  have hfree : (σ.recs g).ns ≠ none := by
    rw [hns]
    exact Option.some_ne_none i
  have hother : ∀ {j : ι}, (σ.phase j).inside = some g → j = i := by
    intro j hj
    have hj' := (hwf.inside g j).mpr hj
    rw [hns] at hj'
    exact (Option.some.inj hj').symm
  cases h with
  | tick => cases hg
  | host => cases hg
  | enter _ free => cases hg; exact hfree free
  | create free => cases hg; exact hfree free
  | amend free => cases hg; exact hfree free
  | turnBack phase => cases hg; exact hcpu (congrArg some (hother (by rw [phase]; rfl)))
  | turnRun phase => cases hg; exact hcpu (congrArg some (hother (by rw [phase]; rfl)))
  | realm phase => cases hg; exact hcpu (congrArg some (hother (by rw [phase]; rfl)))
  | handle phase => cases hg; exact hcpu (congrArg some (hother (by rw [phase]; rfl)))
  | trapped phase => cases hg; exact hcpu (congrArg some (hother (by rw [phase]; rfl)))
  | leave phase => cases hg; exact hcpu (congrArg some (hother (by rw [phase]; rfl)))

/-- The realm of the REC runs, one of its exceptions is handled, or a request of it is
completed. -/
def SwitchAct.OfRealm (g : γ) : SwitchAct ι γ → Prop
  | .realm _ g' | .handle _ g' | .trapped _ g' _ _ | .create g' | .amend g' => g' = g
  | .tick | .host _ | .enter _ _ | .turn _ _ _ | .leave _ _ => False

/-- Entries, turns and exits keep the registers of the realm. -/
theorem realmRegs_step (hwf : SwitchWf σ) (h : SwitchStep f σ a σ') (hno : ¬ a.OfRealm g) :
    σ'.realmRegs f g = σ.realmRegs f g := by
  by_cases hg : a.context = some g
  · cases h with
    | tick => cases hg
    | host => cases hg
    | @enter i g' e phase free =>
      obtain rfl : g' = g := Option.some.inj hg
      have hpaired : (SwitchState.entered f (σ.recs g') e).pmu.Paired := hwf.paired g'
      rw [realmRegs_idle free, realmRegs_entered (i := i)
        (by simp only [SwitchState.enter, Function.update_self])]
      simp only [SwitchState.enter, Function.update_self, onCpu_ns]
      rw [restoreRealmState_onCpu hpaired, entered_asRealm]
    | @turnBack i g' _ _ phase =>
      obtain rfl : g' = g := Option.some.inj hg
      have hns := (hwf.inside g' i).mpr (by rw [phase]; rfl)
      rw [realmRegs_entered hns, realmRegs_entered (i := i)
        (by simp only [SwitchState.turnBack, Function.update_self]; exact hns)]
      simp only [SwitchState.turnBack, Function.update_self]
      rfl
    | @turnRun i g' _ _ phase =>
      obtain rfl : g' = g := Option.some.inj hg
      have hns := (hwf.inside g' i).mpr (by rw [phase]; rfl)
      rw [realmRegs_entered hns, realmRegs_entered (i := i)
        (by simp only [SwitchState.turnRun, Function.update_self]; exact hns)]
      simp only [SwitchState.turnRun, Function.update_self, runRealm_onCpu, activateEvents_onCpu]
      rfl
    | realm => exact absurd (Option.some.inj hg) hno
    | handle => exact absurd (Option.some.inj hg) hno
    | trapped => exact absurd (Option.some.inj hg) hno
    | create => exact absurd (Option.some.inj hg) hno
    | amend => exact absurd (Option.some.inj hg) hno
    | @leave i g' _ phase =>
      obtain rfl : g' = g := Option.some.inj hg
      have hns := (hwf.inside g' i).mpr (by rw [phase]; rfl)
      rw [realmRegs_entered hns, realmRegs_idle
        (by simp only [SwitchState.leave, Function.update_self])]
      simp only [SwitchState.leave, Function.update_self, asRealm_ns, saveRealmState_asRealm]
  · have hrec := (h.otherRec hg).1
    cases hns : (σ.recs g).ns with
    | none => rw [realmRegs_idle hns, realmRegs_idle (by rw [hrec, hns]), hrec]
    | some i =>
      have hcpu : a.cpu ≠ some i := fun hc =>
        hg (h.context_of_inside hc ((hwf.inside g i).mp hns))
      rw [realmRegs_entered hns, realmRegs_entered (by rw [hrec, hns]), hrec,
        (h.elsewhere hcpu).2.1]

end

end RmmCaec
