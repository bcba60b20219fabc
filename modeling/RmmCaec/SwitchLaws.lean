import RmmCaec.SwitchViews

/-!
# What a switch keeps

The registers of a host change only when that host runs, and those of a realm only when the
realm runs or one of its requests is dealt with. The event counters that a realm has no part
in are the exception: they are not saved one by one.
-/
namespace RmmCaec
open Runs

variable {ι γ : Type} {f : GicVirtFeature} {σ σ' : SwitchState ι γ}
  {a : SwitchAct ι γ} {i : ι}
  {g : γ}

section
variable [DecidableEq ι] [DecidableEq γ]

theorem SwitchWf.path {acts : List (SwitchAct ι γ)} (hwf : SwitchWf σ)
    (h : Path (SwitchStep f) σ acts σ') : SwitchWf σ' :=
  h.keeps (fun _ => True) SwitchWf (fun _ _ _ _ hstep hs => hs.step hstep) (fun _ _ => trivial) hwf

/-- While the host of a CPU does not run, realms may run on it and RECs may come and go: it
finds its registers as it left them. -/
theorem host_registers_return {acts : List (SwitchAct ι γ)}
    (hpath : Path (SwitchStep f) σ acts σ') (hno : .host i ∉ acts) (hσ : σ.phase i = .host)
    (hσ' : σ'.phase i = .host) : (σ'.cpus i).asHost = (σ.cpus i).asHost := by
  have hregs : σ'.hostRegs i = σ.hostRegs i :=
    hpath.keeps (· ≠ .host i) (fun τ => τ.hostRegs i = σ.hostRegs i)
      (fun _ _ _ ha hstep hs => (hostRegs_step hstep ha).trans hs)
      (fun a ha heq => hno (heq ▸ ha)) rfl
  rwa [hostRegs_host hσ', hostRegs_host hσ] at hregs

/-- A realm has run on the CPU. -/
theorem host_registers_return_call :
    (((quietCall quietWrite).leave fourLrs true () false).cpus true).asHost =
      (quietSystem.cpus true).asHost :=
  host_registers_return
    ((quietRun_path.append (quietCall_path quietWrite_may)).append (.cons (.leave rfl) .nil))
    (by simp) rfl rfl

/-- The registers of a realm with its SP_EL0. -/
def RealmRegs.all (v : RealmRegs) : SysReg → Word := Function.update v.regs .spEl0 v.spEl0

theorem realm_spEl0_step
    (hσ : ∀ i g, σ.phase i = .realm g → (σ.cpus i).regs .spEl0 = (σ.recs g).spEl0)
    (hwf : SwitchWf σ) (h : SwitchStep f σ a σ') (i : ι) (g : γ)
    (hphase : σ'.phase i = .realm g) :
    (σ'.cpus i).regs .spEl0 = (σ'.recs g).spEl0 := by
  by_cases hcpu : a.cpu = some i
  · cases h with
    | tick => cases hcpu
    | create => cases hcpu
    | amend => cases hcpu
    | host phase =>
      cases hcpu
      rw [phase] at hphase
      cases hphase
    | enter =>
      cases hcpu
      simp only [SwitchState.enter, Function.update_self] at hphase
      cases hphase
    | turnBack =>
      cases hcpu
      simp only [SwitchState.turnBack, Function.update_self] at hphase
      cases hphase
    | turnRun =>
      cases hcpu
      simp only [SwitchState.turnRun, Function.update_self] at hphase
      cases hphase
      simp only [SwitchState.turnRun, Function.update_self, runRealm]
      rfl
    | realm =>
      cases hcpu
      simp only [SwitchState.realm, Function.update_self] at hphase
      cases hphase
    | handle =>
      cases hcpu
      simp only [SwitchState.handle, Function.update_self] at hphase
      split at hphase <;> cases hphase
    | trapped =>
      cases hcpu
      simp only [SwitchState.trapped, Function.update_self] at hphase
      cases hphase
    | leave =>
      cases hcpu
      simp only [SwitchState.leave, Function.update_self] at hphase
      cases hphase
  · obtain ⟨hp, hc, -⟩ := h.elsewhere hcpu
    rw [hp] at hphase
    have hns : (σ.recs g).ns = some i := (hwf.inside g i).mpr (by rw [hphase]; rfl)
    rw [hc, (h.otherRec (hwf.context_ne h hns hcpu)).1]
    exact hσ i g hphase

/-- What a realm finds in the registers when it gets a turn is what it left there, on whatever
CPU, after whatever has run on any CPU in between. -/
theorem realm_registers_return {σ₀ : SwitchState ι γ} {before acts : List (SwitchAct ι γ)}
    (h₀ : SwitchInit σ₀) (hbefore : Path (SwitchStep f) σ₀ before σ)
    (hpath : Path (SwitchStep f) σ acts σ') (hno : ∀ a ∈ acts, ¬ a.OfRealm g) :
    σ'.realmRegs f g = σ.realmRegs f g ∧
    ∀ i, σ'.phase i = .realm g →
      (σ'.cpus i).regs = (σ.realmRegs f g).all ∧
      (σ'.cpus i).elrEl2 = (σ.realmRegs f g).pc ∧
      (σ'.cpus i).spsrEl2 = (σ.realmRegs f g).pstate := by
  have hwf : SwitchWf σ := h₀.wf.path hbefore
  have hregs : σ'.realmRegs f g = σ.realmRegs f g :=
    (hpath.keeps (fun a => ¬ a.OfRealm g)
      (fun τ => SwitchWf τ ∧ τ.realmRegs f g = σ.realmRegs f g)
      (fun _ _ _ ha hstep hs => ⟨hs.1.step hstep, (realmRegs_step hs.1 hstep ha).trans hs.2⟩)
      hno ⟨hwf, rfl⟩).2
  refine ⟨hregs, fun i hphase => ?_⟩
  have hsp₀ : ∀ i g, σ₀.phase i = .realm g →
      (σ₀.cpus i).regs .spEl0 = (σ₀.recs g).spEl0 := by
    intro i g hi
    rw [h₀.host i] at hi
    cases hi
  have hsp : ∀ {τ τ' : SwitchState ι γ} {as : List (SwitchAct ι γ)}, SwitchWf τ →
      Path (SwitchStep f) τ as τ' →
      (∀ i g, τ.phase i = .realm g → (τ.cpus i).regs .spEl0 = (τ.recs g).spEl0) →
      ∀ i g, τ'.phase i = .realm g → (τ'.cpus i).regs .spEl0 = (τ'.recs g).spEl0 :=
    fun hwf hp hs => (hp.keeps (fun _ => True) (fun τ => SwitchWf τ ∧
        ∀ i g, τ.phase i = .realm g → (τ.cpus i).regs .spEl0 = (τ.recs g).spEl0)
      (fun _ _ _ _ hstep hs => ⟨hs.1.step hstep, realm_spEl0_step hs.2 hs.1 hstep⟩)
      (fun _ _ => trivial) ⟨hwf, hs⟩).2
  have hspEl0 := hsp hwf hpath (hsp h₀.wf hbefore hsp₀) i g hphase
  have hns : (σ'.recs g).ns = some i := ((hwf.path hpath).inside g i).mpr (by rw [hphase]; rfl)
  rw [← hregs, realmRegs_entered hns]
  refine ⟨?_, rfl, rfl⟩
  simp only [RealmRegs.all, RecContext.onCpu, butSpEl0, Function.update_idem, ← hspEl0,
    Function.update_eq_self]

end

/-- The REC is left on one CPU and entered on the other. -/
theorem realm_registers_return_moved :
    ((((quietCall quietWrite).leave fourLrs true () false).enter fourLrs false ()
      noInterrupts).turnRun false () false).realmRegs fourLrs () =
      (quietCall quietWrite).realmRegs fourLrs () :=
  (realm_registers_return quietSystem_init (quietRun_path.append (quietCall_path quietWrite_may))
    (.cons (.leave rfl) (.cons (.enter rfl rfl (by decide))
      (.cons (.turnRun rfl (fun _ => rfl) (by decide)) .nil)))
    (by simp [SwitchAct.OfRealm])).1

/-- On the CPU that a REC is entered on, while it is: what is saved of the host stays, and the
REC keeps its number of counters. -/
structure MonitorsKept (σ σ' : SwitchState ι γ) (i : ι) (g : γ) : Prop where
  inside : (σ'.phase i).inside = some g
  nsData : σ'.nsData i = σ.nsData i
  enabled : (σ'.recs g).pmuEnabled = (σ.recs g).pmuEnabled
  numCtrs : (σ'.recs g).pmuNumCtrs = (σ.recs g).pmuNumCtrs
  total : (σ'.cpus i).pmu.total = (σ.cpus i).pmu.total
  counters : ∀ n, (σ.recs g).pmuNumCtrs ≤ n →
    (σ'.cpus i).pmu.pmevcntr n = (σ.cpus i).pmu.pmevcntr n
  types : ∀ n, (σ.recs g).pmuNumCtrs ≤ n →
    (σ'.cpus i).pmu.pmevtyper n = (σ.cpus i).pmu.pmevtyper n
  disabled : (σ.recs g).pmuEnabled = false → (σ'.cpus i).pmu = (σ.cpus i).pmu

theorem MonitorsKept.refl (h : (σ.phase i).inside = some g) : MonitorsKept σ σ i g :=
  ⟨h, rfl, rfl, rfl, rfl, fun _ _ => rfl, fun _ _ => rfl, fun _ => rfl⟩

theorem MonitorsKept.trans {σ₁ : SwitchState ι γ} (h₁ : MonitorsKept σ σ₁ i g)
    (h₂ : MonitorsKept σ₁ σ' i g) : MonitorsKept σ σ' i g where
  inside := h₂.inside
  nsData := h₂.nsData.trans h₁.nsData
  enabled := h₂.enabled.trans h₁.enabled
  numCtrs := h₂.numCtrs.trans h₁.numCtrs
  total := h₂.total.trans h₁.total
  counters n hn := (h₂.counters n (h₁.numCtrs ▸ hn)).trans (h₁.counters n hn)
  types n hn := (h₂.types n (h₁.numCtrs ▸ hn)).trans (h₁.types n hn)
  disabled hd := (h₂.disabled (h₁.enabled.trans hd)).trans (h₁.disabled hd)

/-- The monitors on the CPU stay as they are, whatever else changes there. -/
theorem MonitorsKept.of_eq (hin : (σ'.phase i).inside = some g) (hns : σ'.nsData i = σ.nsData i)
    (hrec : (σ'.recs g).pmuEnabled = (σ.recs g).pmuEnabled ∧
      (σ'.recs g).pmuNumCtrs = (σ.recs g).pmuNumCtrs)
    (hpmu : (σ'.cpus i).pmu = (σ.cpus i).pmu) : MonitorsKept σ σ' i g :=
  ⟨hin, hns, hrec.1, hrec.2, by rw [hpmu], fun _ _ => by rw [hpmu], fun _ _ => by rw [hpmu],
    fun _ => hpmu⟩

theorem activateEvents_pmu (r : RecContext ι) (h : CpuRegs) :
    (activateEvents r h).pmu = h.pmu := by
  unfold activateEvents
  split <;> rfl

section
variable [DecidableEq ι] [DecidableEq γ]

theorem monitors_step (hwf : SwitchWf σ) (h : SwitchStep f σ a σ')
    (hin : (σ.phase i).inside = some g) (hleave : a ≠ .leave i g) : MonitorsKept σ σ' i g := by
  have hns : (σ.recs g).ns = some i := (hwf.inside g i).mpr hin
  by_cases hcpu : a.cpu = some i
  · obtain ⟨hin', hdata⟩ := h.stays hcpu hin hleave
    have hg := h.context_of_inside hcpu hin
    cases h with
    | tick => cases hcpu
    | create => cases hcpu
    | amend => cases hcpu
    | host phase => cases hcpu; rw [phase] at hin; cases hin
    | enter phase => cases hcpu; rw [phase] at hin; cases hin
    | turnBack =>
      cases hcpu
      cases hg
      refine .of_eq hin' hdata ?_ ?_
      · simp only [SwitchState.turnBack, Function.update_self]
        exact ⟨rfl, rfl⟩
      · simp only [SwitchState.turnBack, Function.update_self]
        rfl
    | turnRun =>
      cases hcpu
      cases hg
      refine .of_eq hin' hdata ?_ ?_
      · simp only [SwitchState.turnRun, Function.update_self]
        exact ⟨rfl, rfl⟩
      · simp only [SwitchState.turnRun, Function.update_self, runRealm, activateEvents_pmu]
        rfl
    | realm _ may =>
      cases hcpu
      cases hg
      refine ⟨hin', hdata, ?_, ?_, ?_, fun n hn => ?_, fun n hn => ?_, fun hd => ?_⟩
      · simp only [SwitchState.realm, Function.update_self]
        rfl
      · simp only [SwitchState.realm, Function.update_self]
        rfl
      · simp only [SwitchState.realm, Function.update_self]
        exact may.total
      · simp only [SwitchState.realm, Function.update_self]
        exact may.counters n hn
      · simp only [SwitchState.realm, Function.update_self]
        exact may.types n hn
      · simp only [SwitchState.realm, Function.update_self]
        exact may.monitors hd
    | handle =>
      cases hcpu
      cases hg
      refine .of_eq hin' hdata ?_ ?_
      · simp only [SwitchState.handle, Function.update_self]
        exact ⟨rfl, rfl⟩
      · simp only [SwitchState.handle, Function.update_self]
        rfl
    | @trapped _ _ c esr =>
      cases hcpu
      cases hg
      obtain ⟨gprs, spEl0, hcr, hcontext⟩ := trapped_context c (σ.cpus i) (σ.recs g) esr
      obtain ⟨regs, hcr', hregs⟩ := trapped_cpu c (σ.cpus i) (σ.recs g) esr
      refine .of_eq hin' hdata ?_ ?_
      · simp only [SwitchState.trapped, Function.update_self, hcontext]
        exact ⟨trivial, trivial⟩
      · simp only [SwitchState.trapped, Function.update_self, hregs]
    | leave =>
      cases hcpu
      cases hg
      exact absurd rfl hleave
  · obtain ⟨hphase, hregs, hdata⟩ := h.elsewhere hcpu
    have hrec := (h.otherRec (hwf.context_ne h hns hcpu)).1
    exact .of_eq (by rw [hphase]; exact hin) hdata (by rw [hrec]; exact ⟨rfl, rfl⟩)
      (by rw [hregs])

theorem monitors_path {acts : List (SwitchAct ι γ)} (hwf : SwitchWf σ)
    (hin : (σ.phase i).inside = some g) (hpath : Path (SwitchStep f) σ acts σ')
    (hno : .leave i g ∉ acts) : MonitorsKept σ σ' i g :=
  (hpath.keeps (· ≠ .leave i g) (fun τ => SwitchWf τ ∧ MonitorsKept σ τ i g)
    (fun _ _ _ ha hstep hs =>
      ⟨hs.1.step hstep, hs.2.trans (monitors_step hs.1 hstep hs.2.inside ha)⟩)
    (fun _ ha heq => hno (heq ▸ ha)) ⟨hwf, .refl hin⟩).2

theorem and_or_eq_zero {w : ℕ} {a b c : BitVec w} (h : a &&& (b ||| c) = 0#w) :
    a &&& b = 0#w := by
  rw [and_eq_zero_iff] at h ⊢
  intro k hk
  have hor := h k hk
  rw [BitVec.getLsbD_or, Bool.or_eq_false_iff] at hor
  exact hor.1

theorem PmuRegs.writePmcr_quiet (h : PmuRegs) {v : Word}
    (hv : v &&& (pmcrEl0PBit ||| pmcrEl0CBit) = 0#64) :
    h.writePmcr v = { h with pmcr := v, noReset := hv } := by
  have hp : v &&& pmcrEl0PBit = 0#64 := and_or_eq_zero hv
  have hc : v &&& pmcrEl0CBit = 0#64 := by
    rw [BitVec.or_comm] at hv
    exact and_or_eq_zero hv
  have hkept : v &&& ~~~(pmcrEl0PBit ||| pmcrEl0CBit) = v :=
    PmuRegs.pmcr_kept { h with pmcr := v, noReset := hv }
  simp only [PmuRegs.writePmcr, hp, hc, if_true, hkept]

/-- The counters that an owner of the monitors finds, of those it has no part in. -/
theorem pmuRestoreState_above {pmu : PmuState} {h : PmuRegs} {numCnts n : ℕ}
    (hnum : numCnts ≤ 31)
    (hn : numCnts ≤ n) (ht : n < h.total) :
    (pmuRestoreState pmu h numCnts).pmevcntr n =
        (if n = pmSelected pmu.pmselr then pmu.pmxevcntr else h.pmevcntr n) ∧
      (pmuRestoreState pmu h numCnts).pmevtyper n =
        if n = pmSelected pmu.pmselr then pmu.pmxevtyper else h.pmevtyper n := by
  have hne : n ≠ 31 := by
    have := h.total_le
    omega
  have hge : ¬ n < numCnts := Nat.not_lt.mpr hn
  constructor
  · rw [pmuRestoreState_pmevcntr hnum, if_neg hge]
    simp only [ht, and_true]
  · rw [pmuRestoreState_pmevtyper hnum, if_neg hge]
    simp only [ht, hne, ne_eq, not_false_eq_true, and_true]

/-- And what is saved of a counter that is selected. -/
theorem pmuSaveState_selected {pmu : PmuState} {h : PmuRegs} {numCnts n : ℕ}
    (hsel : n = pmSelected h.pmselr) (ht : n < h.total) :
    (pmuSaveState h pmu numCnts).pmxevcntr = h.pmevcntr n ∧
      (pmuSaveState h pmu numCnts).pmxevtyper = h.pmevtyper n := by
  have hne : n ≠ 31 := by
    have := h.total_le
    omega
  subst hsel
  exact ⟨if_pos ht, (if_neg hne).trans (if_pos ht)⟩

/-- Between entering a REC and leaving it, the monitors of the host lose only counters from the
number of the realm on. Such a counter returns when the host has selected it; when the realm
had selected it, it has an old value and an old type, and the first entry of a REC clears
it. -/
theorem host_monitors_return {σ₀ σ₁ σ₂ : SwitchState ι γ}
    {before acts : List (SwitchAct ι γ)}
    (h₀ : SwitchInit σ₀) (hbefore : Path (SwitchStep f) σ₀ before σ)
    (henter : SwitchStep f σ (.enter i g) σ₁) (hpath : Path (SwitchStep f) σ₁ acts σ₂)
    (hno : .leave i g ∉ acts) (hleave : SwitchStep f σ₂ (.leave i g) σ') :
    ((σ.recs g).pmuEnabled = false → (σ'.cpus i).pmu = (σ.cpus i).pmu) ∧
    ((σ.recs g).pmuEnabled = true →
      (σ'.cpus i).pmu.pmcr = (σ.cpus i).pmu.pmcr ∧
      (σ'.cpus i).pmu.view (σ.recs g).pmuNumCtrs = (σ.cpus i).pmu.view (σ.recs g).pmuNumCtrs ∧
      ∀ n, (σ.recs g).pmuNumCtrs ≤ n → n < (σ.cpus i).pmu.total →
        (σ'.cpus i).pmu.pmevcntr n =
          (if n = pmSelected (σ.cpus i).pmu.pmselr then (σ.cpus i).pmu.pmevcntr n
          else if n = pmSelected (σ.recs g).pmu.pmselr then (σ.recs g).pmu.pmxevcntr
          else if (σ.recs g).sysregs.pmcrEl0 &&& pmcrEl0PBit = 0#64 then
            (σ.cpus i).pmu.pmevcntr n
          else 0#64) ∧
        (σ'.cpus i).pmu.pmevtyper n =
          (if n = pmSelected (σ.cpus i).pmu.pmselr then (σ.cpus i).pmu.pmevtyper n
          else if n = pmSelected (σ.recs g).pmu.pmselr then (σ.recs g).pmu.pmxevtyper
          else (σ.cpus i).pmu.pmevtyper n)) := by
  have hwf : SwitchWf σ := h₀.wf.path hbefore
  have hquiet := hwf.quiet g
  have hwf₁ : SwitchWf σ₁ := hwf.step henter
  obtain ⟨h, hh⟩ : ∃ h, h = (σ.cpus i).pmu := ⟨_, rfl⟩
  obtain ⟨r, hr⟩ : ∃ r, r = σ.recs g := ⟨_, rfl⟩
  rw [← hh, ← hr]
  rw [← hr] at hquiet
  -- what the entry saves and what it writes
  obtain ⟨hin, hdata, hpmu, hsame⟩ : (σ₁.phase i).inside = some g ∧
      (σ₁.nsData i).pmu = (if r.pmuEnabled then
        pmuSaveState h (σ.nsData i).pmu r.pmuNumCtrs else (σ.nsData i).pmu) ∧
      (σ₁.cpus i).pmu = (if r.pmuEnabled then
        pmuRestoreState r.pmu (h.writePmcr r.sysregs.pmcrEl0) r.pmuNumCtrs
        else h.writePmcr r.sysregs.pmcrEl0) ∧
      ((σ₁.nsData i).sysregs.pmcrEl0 = h.pmcr ∧ (σ₁.recs g).pmuEnabled = r.pmuEnabled ∧
        (σ₁.recs g).pmuNumCtrs = r.pmuNumCtrs) := by
    cases henter with
    | enter =>
      refine ⟨enter_inside _ _ _, ?_⟩
      simp only [SwitchState.enter, Function.update_self, hh, hr]
      exact ⟨rfl, rfl, rfl, rfl, rfl⟩
  have hkept := monitors_path hwf₁ hin hpath hno
  -- what the exit writes
  have hback : (σ'.cpus i).pmu = (if r.pmuEnabled then
      pmuRestoreState (σ₁.nsData i).pmu ((σ₂.cpus i).pmu.writePmcr h.pmcr) r.pmuNumCtrs
      else (σ₂.cpus i).pmu.writePmcr h.pmcr) := by
    have hen : (σ₂.recs g).pmuEnabled = r.pmuEnabled := hkept.enabled.trans hsame.2.1
    have hnum : (σ₂.recs g).pmuNumCtrs = r.pmuNumCtrs := hkept.numCtrs.trans hsame.2.2
    rw [← hen, ← hnum, ← hsame.1, ← hkept.nsData]
    cases hleave with
    | leave =>
      simp only [SwitchState.leave, Function.update_self]
      rfl
  have hnum := r.pmuNumCtrs_le
  constructor
  · intro hd
    have hdis : (σ₂.cpus i).pmu = (σ₁.cpus i).pmu := hkept.disabled (hsame.2.1.trans hd)
    rw [hback, hd, hdis, hpmu, hd]
    simp only [Bool.false_eq_true, if_false]
    rw [PmuRegs.writePmcr_quiet h (hquiet hd), PmuRegs.writePmcr_quiet _ h.noReset]
  · intro hen
    rw [hen] at hdata hpmu hback
    simp only [if_true] at hdata hpmu hback
    have hreset : (σ₂.cpus i).pmu.writePmcr h.pmcr =
        { (σ₂.cpus i).pmu with pmcr := h.pmcr, noReset := h.noReset } :=
      PmuRegs.writePmcr_quiet _ h.noReset
    have htotal : (σ₂.cpus i).pmu.total = h.total := by
      obtain ⟨cntr, typer, hrest⟩ :=
        pmuRestoreState_rest r.pmu (h.writePmcr r.sysregs.pmcrEl0) r.pmuNumCtrs
      rw [hkept.total, hpmu, hrest]
      rfl
    rw [hdata, hreset] at hback
    refine ⟨?_, ?_, fun n hn ht => ?_⟩
    · rw [hback, pmuRestoreState_pmcr]
    · rw [hback, pmuRestoreState_view pmuSaveState_paired hnum, pmuSaveState_view hnum]
    · have hn₁ : (σ₁.recs g).pmuNumCtrs ≤ n := by
        rw [hsame.2.2]
        exact hn
      obtain ⟨hcntr, htyper⟩ := @pmuRestoreState_above r.pmu
        (h.writePmcr r.sysregs.pmcrEl0) r.pmuNumCtrs n hnum hn ht
      obtain ⟨hcntr', htyper'⟩ := @pmuRestoreState_above
        (pmuSaveState h (σ.nsData i).pmu r.pmuNumCtrs)
        { (σ₂.cpus i).pmu with pmcr := h.pmcr, noReset := h.noReset } r.pmuNumCtrs n hnum hn
        (by rw [← htotal] at ht; exact ht)
      rw [hback, hcntr', htyper']
      by_cases hsel : n = pmSelected h.pmselr
      · have hsel' : n = pmSelected (pmuSaveState h (σ.nsData i).pmu r.pmuNumCtrs).pmselr := hsel
        obtain ⟨hsaved, hsavedType⟩ :=
          @pmuSaveState_selected (σ.nsData i).pmu h r.pmuNumCtrs n hsel ht
        rw [if_pos hsel, if_pos hsel, if_pos hsel', if_pos hsel']
        exact ⟨hsaved, hsavedType⟩
      · have hsel' : n ≠ pmSelected (pmuSaveState h (σ.nsData i).pmu r.pmuNumCtrs).pmselr :=
          hsel
        rw [if_neg hsel, if_neg hsel, if_neg hsel', if_neg hsel']
        constructor
        · refine (hkept.counters n hn₁).trans ?_
          rw [hpmu, hcntr]
          by_cases hp : r.sysregs.pmcrEl0 &&& pmcrEl0PBit = 0#64
          · simp only [PmuRegs.writePmcr, hp, if_true]
          · simp only [PmuRegs.writePmcr, hp, if_false]
        · refine (hkept.types n hn₁).trans ?_
          rw [hpmu, htyper]
          rfl

end

/-- The host counts with all six counters and has selected the fifth. -/
def countingPmu : PmuRegs :=
  { quietPmu with
    pmccntr := 100#64
    pmcnten := 0x3F#33
    pmselr := 4#64
    pmevcntr := fun n => BitVec.ofNat 64 (10 + n)
    pmevtyper := fun n => BitVec.ofNat 64 (20 + n) }

def countingSystem : SwitchState Bool Unit :=
  { quietSystem with cpus := fun _ => { quietCpu with pmu := countingPmu } }

/-- The REC is entered and runs. -/
def countingRun : SwitchState Bool Unit :=
  (countingSystem.enter fourLrs true () noInterrupts).turnRun true () false

/-- The realm counts with the four counters it has. -/
def countingWrite : CpuRegs :=
  { countingRun.cpus true with
    pmu := { (countingRun.cpus true).pmu with
      pmccntr := 7#64
      pmselr := 2#64
      pmevcntr := fun n => if n < 4 then 7#64 else (countingRun.cpus true).pmu.pmevcntr n } }

theorem countingWrite_may : RealmMay (countingRun.recs ()) (countingRun.cpus true)
    countingWrite where
  trapped _ _ _ := rfl
  hcr := .inl rfl
  counters _ hn := if_neg (Nat.not_lt.mpr hn)
  types _ _ := rfl
  monitors hd := absurd hd (by decide)
  total := rfl
  cnthctl := rfl
  iccSre := rfl
  vmpidr := rfl
  vsesr := rfl
  mdcr := rfl
  vtcr := rfl
  vttbr := rfl

/-- The call of the realm goes to the host. -/
def countingLeft : SwitchState Bool Unit :=
  ((countingRun.realm true () (fun _ => 7#64) countingWrite).handle true ()
    ⟨fun _ => 7#64, fun _ => 0#64, 0x1000#64, 0x3C5#64, ⟨0#64, false⟩⟩ false).leave
      fourLrs true ()
      false

/-- The realm has four counters and the host has six. The host finds four of them and the cycle
counter again, and the fifth, which it has selected; the first entry has cleared the last one. -/
theorem host_monitors_return_call :
    (countingLeft.cpus true).pmu.view 4 = countingPmu.view 4 ∧
      (countingLeft.cpus true).pmu.pmccntr = 100#64 ∧
      (countingLeft.cpus true).pmu.pmevcntr 4 = 14#64 ∧
      (countingLeft.cpus true).pmu.pmevcntr 5 = 0#64 ∧
      (countingLeft.cpus true).pmu.pmevtyper 5 = 25#64 := by
  have hinit : SwitchInit countingSystem :=
    ⟨quietSystem_init.host, quietSystem_init.fresh, quietSystem_init.fruitless,
      quietSystem_init.flushes⟩
  have henter : SwitchStep fourLrs countingSystem (.enter true ())
      (countingSystem.enter fourLrs true () noInterrupts) := .enter rfl rfl (by decide)
  have hleave : SwitchStep fourLrs _ (.leave true ()) countingLeft := .leave rfl
  obtain ⟨-, hview, hrest⟩ := (host_monitors_return hinit .nil henter
    (.cons (.turnRun rfl (fun _ => rfl) (by decide))
      (.cons (.realm rfl countingWrite_may) (.cons (.handle rfl) .nil)))
    (by simp) hleave).2 rfl
  refine ⟨hview, congrArg PmuView.pmccntr hview, ?_, ?_, ?_⟩
  · exact (hrest 4 (by decide) (by decide)).1.trans (by decide)
  · exact (hrest 5 (by decide) (by decide)).1.trans (by decide)
  · exact (hrest 5 (by decide) (by decide)).2.trans (by decide)

end RmmCaec
