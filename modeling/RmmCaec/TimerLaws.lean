import RmmCaec.SwitchLaws

/-!
# Timers of a realm

The loop masks the timer of a realm while its output is asserted, and leaves to the host when
the output has changed since the REC was left. It takes the other bits of the control register
from what was saved then, so a realm cannot turn its timers on or off across an exit that is
handled inside the loop.
-/
namespace RmmCaec
open Runs

variable {ι γ : Type} {f : GicVirtFeature} {σ σ' : SwitchState ι γ}
  {a : SwitchAct ι γ} {i : ι}
  {g : γ}

/-- The two timers of a realm. -/
inductive Timer
  | virt
  | phys
  deriving DecidableEq, Repr

namespace Timer

def cvalReg : Timer → SysReg
  | virt => .cntvCvalEl0
  | phys => .cntpCvalEl0

def count (t : Timer) (now : Counters) : Word :=
  match t with
  | virt => now.cntvct
  | phys => now.cntpct

def cell (t : Timer) (h : CpuRegs) : TimerCtl :=
  match t with
  | virt => h.cntvCtl
  | phys => h.cntpCtl

def savedCtl (t : Timer) (s : SysregState) : Word :=
  match t with
  | virt => s.cntvCtlEl0
  | phys => s.cntpCtlEl0

def told (t : Timer) (e : ToldHost) : Word :=
  match t with
  | virt => e.cntvCtl
  | phys => e.cntpCtl

/-- The condition of the timer is met. -/
def Met (t : Timer) (now : Counters) (regs : SysReg → Word) : Prop :=
  regs t.cvalReg ≤ t.count now

instance (t : Timer) (now : Counters) (regs : SysReg → Word) : Decidable (t.Met now regs) :=
  inferInstanceAs (Decidable (_ ≤ _))

def readCtl (t : Timer) (now : Counters) (h : CpuRegs) : Word :=
  (t.cell h).read (decide (t.Met now h.regs))

/-- The output of the timer, as the check reads it. -/
def Asserted (t : Timer) (now : Counters) (h : CpuRegs) : Bool := timerAsserted (t.readCtl now h)

end Timer

section
variable (t : Timer) (now : Counters) (h : CpuRegs) (s : SysregState) (simdTrap : Bool)

theorem asserted_eq :
    t.Asserted now h = ((t.cell h).enable && !(t.cell h).imask && decide (t.Met now h.regs)) := by
  obtain ⟨h0, h1, h2⟩ := (t.cell h).getLsbD_read (decide (t.Met now h.regs))
  rw [Timer.Asserted, timerAsserted_bits, Timer.readCtl, h0, h1, h2]

/-- What the check makes of a timer: the enable bit that was saved, and the mask. -/
theorem check_cell :
    t.cell (openccaCheckPendingTimers now h s simdTrap).cpu =
      ⟨(t.savedCtl s).getLsbD 0, t.Asserted now h || simdTrap⟩ := by
  cases t
  · obtain ⟨h0, h1, -⟩ := getLsbD_setImask s.cntvCtlEl0 (Timer.virt.Asserted now h || simdTrap)
    exact congrArg₂ TimerCtl.mk h0 h1
  · obtain ⟨h0, h1, -⟩ := getLsbD_setImask s.cntpCtlEl0 (Timer.phys.Asserted now h || simdTrap)
    exact congrArg₂ TimerCtl.mk h0 h1

theorem check_savedCtl :
    t.savedCtl (openccaCheckPendingTimers now h s simdTrap).sysregs =
      setImask (t.savedCtl s) (t.Asserted now h || simdTrap) := by
  cases t <;> rfl

theorem check_changed :
    (openccaCheckPendingTimers now h s simdTrap).changed = true ↔
      ∃ t : Timer, t.Asserted now h ≠ timerAsserted (t.savedCtl s) := by
  have hdef : (openccaCheckPendingTimers now h s simdTrap).changed =
      (Timer.virt.Asserted now h != timerAsserted (Timer.virt.savedCtl s) ||
        Timer.phys.Asserted now h != timerAsserted (Timer.phys.savedCtl s)) := rfl
  rw [hdef, Bool.or_eq_true, bne_iff_ne, bne_iff_ne]
  constructor
  · rintro (hv | hp)
    · exact ⟨.virt, hv⟩
    · exact ⟨.phys, hp⟩
  · rintro ⟨t, ht⟩
    cases t
    · exact .inl ht
    · exact .inr ht

theorem restored_cell {ι : Type} (r : RecContext ι) :
    t.cell (restoreRealmState f r h) = timerCtl (t.savedCtl r.sysregs) := by
  cases t <;> rfl

theorem restored_regs {ι : Type} (r : RecContext ι) :
    (restoreRealmState f r h).regs = r.sysregs.regs := by
  simp only [restoreRealmState, restoreSysregState, copyAt_savedSysregs]

theorem saved_ctl {ι : Type} (r : RecContext ι) :
    t.savedCtl (saveRealmState f now h r).sysregs = t.readCtl now h := by
  cases t <;> rfl

end

section
variable [DecidableEq ι] [DecidableEq γ]

/-- The enable bit that is saved changes only when the REC is left. -/
theorem savedEnable_step (t : Timer) (h : SwitchStep f σ a σ') (hcreate : a ≠ .create g)
    (hleave : ∀ i, a ≠ .leave i g) :
    (t.savedCtl (σ'.recs g).sysregs).getLsbD 0 = (t.savedCtl (σ.recs g).sysregs).getLsbD 0 := by
  by_cases hg : a.context = some g
  · cases h with
    | tick => cases hg
    | host => cases hg
    | enter =>
      cases hg
      simp only [SwitchState.enter, Function.update_self]
      cases t <;> rfl
    | turnBack =>
      cases hg
      simp only [SwitchState.turnBack, Function.update_self]
      exact (congrArg (BitVec.getLsbD · 0) (check_savedCtl t _ _ _ _)).trans
        (getLsbD_setImask _ _).1
    | turnRun =>
      cases hg
      simp only [SwitchState.turnRun, Function.update_self]
      exact (congrArg (BitVec.getLsbD · 0) (check_savedCtl t _ _ _ _)).trans
        (getLsbD_setImask _ _).1
    | realm =>
      cases hg
      simp only [SwitchState.realm, Function.update_self]
      rfl
    | handle =>
      cases hg
      simp only [SwitchState.handle, Function.update_self]
      rfl
    | @trapped i _ c esr =>
      cases hg
      obtain ⟨gprs, spEl0, hcr, hcontext⟩ := trapped_context c (σ.cpus i) (σ.recs g) esr
      simp only [SwitchState.trapped, Function.update_self, hcontext]
    | leave =>
      cases hg
      exact absurd rfl (hleave _)
    | create =>
      cases hg
      exact absurd rfl hcreate
    | amend =>
      cases hg
      simp only [SwitchState.setRec, Function.update_self]
      cases t <;> rfl
  · rw [(h.otherRec hg).1]

theorem turn_cell (t : Timer) {simdTrap : Bool} (h : SwitchStep f σ (.turn i g simdTrap) σ') :
    t.cell (σ'.cpus i) = ⟨(t.savedCtl (σ.recs g).sysregs).getLsbD 0,
      t.Asserted σ.now (σ.cpus i) || simdTrap⟩ := by
  have hactivate : ∀ (r : RecContext ι) (h : CpuRegs),
      t.cell (runRealm r (activateEvents r h)) = t.cell h := by
    intro r h
    unfold activateEvents
    cases t <;> split <;> rfl
  rw [← check_cell]
  cases h with
  | turnBack =>
    simp only [SwitchState.turnBack, Function.update_self]
    rfl
  | turnRun =>
    simp only [SwitchState.turnRun, Function.update_self, hactivate]
    rfl

/-- From the moment a REC is left until it is left again, every turn gives the realm its timers
with the enable bits that they had then, whatever the realm has written in between. The mask
tells whether the output was asserted. -/
theorem timer_enable_frozen {σ₁ σ₂ : SwitchState ι γ} {j : ι}
    {acts : List (SwitchAct ι γ)}
    {simdTrap : Bool} (hleave : SwitchStep f σ (.leave j g) σ₁)
    (hpath : Path (SwitchStep f) σ₁ acts σ₂)
    (hno : ∀ a ∈ acts, a ≠ .create g ∧ ∀ k, a ≠ .leave k g)
    (hturn : SwitchStep f σ₂ (.turn i g simdTrap) σ') (t : Timer) :
    t.cell (σ'.cpus i) =
      ⟨(t.cell (σ.cpus j)).enable, t.Asserted σ₂.now (σ₂.cpus i) || simdTrap⟩ := by
  have hsaved : (t.savedCtl (σ₁.recs g).sysregs).getLsbD 0 = (t.cell (σ.cpus j)).enable := by
    cases hleave with
    | leave =>
      simp only [SwitchState.leave, Function.update_self]
      exact (congrArg (BitVec.getLsbD · 0) (saved_ctl (f := f) t _ _ _)).trans
        (TimerCtl.getLsbD_read _ _).1
  have hkept : (t.savedCtl (σ₂.recs g).sysregs).getLsbD 0 =
      (t.savedCtl (σ₁.recs g).sysregs).getLsbD 0 :=
    hpath.keeps (fun a => a ≠ .create g ∧ ∀ k, a ≠ .leave k g)
      (fun τ => (t.savedCtl (τ.recs g).sysregs).getLsbD 0 =
        (t.savedCtl (σ₁.recs g).sysregs).getLsbD 0)
      (fun _ _ _ ha hstep hs => (savedEnable_step t hstep ha.1 ha.2).trans hs) hno rfl
  rw [turn_cell t hturn, hkept, hsaved]

/-- The realm has turned on a timer that has not expired, and after the next exit it is on. -/
def timedWrite : CpuRegs :=
  { quietRun.cpus true with
    regs := fun x => if x = .cntvCvalEl0 then 5#64 else if x = .cntpCvalEl0 then 15#64
      else (quietRun.cpus true).regs x
    cntvCtl := ⟨true, false⟩
    cntpCtl := ⟨true, false⟩ }

theorem timedWrite_may : RealmMay (quietRun.recs ()) (quietRun.cpus true) timedWrite := by
  refine .of_regs (fun x hx => ?_) _ _
  have hv : x ≠ .cntvCvalEl0 := by
    rintro rfl
    exact absurd hx (by decide)
  have hp : x ≠ .cntpCvalEl0 := by
    rintro rfl
    exact absurd hx (by decide)
  rw [if_neg hv, if_neg hp]

def timedLeft : SwitchState Bool Unit := (quietCall timedWrite).leave fourLrs true () false

/-- The REC is entered at some time and the output of a timer has risen. -/
def timedBack (s : SwitchState Bool Unit) (now : Word) : SwitchState Bool Unit :=
  (({ s with now := ⟨now, now⟩ }).enter fourLrs true () noInterrupts).turnBack
    true () true false

/-- The REC runs on the other CPU. -/
def timedRun : SwitchState Bool Unit :=
  (timedLeft.enter fourLrs false () noInterrupts).turnRun false () false

/-- There the realm turns its timers off, and the loop goes on. -/
def timedOff : SwitchState Bool Unit :=
  (timedRun.realm false () (fun _ => 7#64)
    { timedRun.cpus false with cntpCtl := ⟨false, true⟩, cntvCtl := ⟨false, true⟩ }).handle
      false ()
    ⟨fun _ => 7#64, fun _ => 0#64, 0x1000#64, 0x3C5#64, ⟨0#64, false⟩⟩ true

/-- The next turn turns both of them on again. -/
theorem timer_enable_frozen_moved :
    Timer.virt.cell (timedOff.cpus false) = ⟨false, true⟩ ∧
      Timer.virt.cell ((timedOff.turnRun false () false).cpus false) = ⟨true, false⟩ ∧
      Timer.phys.cell ((timedOff.turnRun false () false).cpus false) = ⟨true, false⟩ := by
  have hleave : SwitchStep fourLrs (quietCall timedWrite) (.leave true ()) timedLeft := .leave rfl
  have hmay : RealmMay (timedRun.recs ()) (timedRun.cpus false)
      { timedRun.cpus false with cntpCtl := ⟨false, true⟩, cntvCtl := ⟨false, true⟩ } :=
    .of_regs (fun _ _ => rfl) _ _
  have hpath : Path (SwitchStep fourLrs) timedLeft
      [.enter false (), .turn false () false, .realm false (), .handle false ()] timedOff :=
    .cons (.enter rfl rfl (by decide)) (.cons (.turnRun rfl (fun _ => rfl) (by decide))
      (.cons (.realm rfl hmay) (.cons (.handle rfl) .nil)))
  have hturn : SwitchStep fourLrs timedOff (.turn false () false)
      (timedOff.turnRun false () false) := .turnRun rfl (fun _ => rfl) (by decide)
  have hfrozen := timer_enable_frozen hleave hpath (by simp) hturn
  exact ⟨rfl, (hfrozen .virt).trans (by decide), (hfrozen .phys).trans (by decide)⟩

/-- Nothing happens on a CPU that is about to leave. -/
theorem leaving_step {first : Bool} (h : SwitchStep f σ a σ')
    (hphase : σ.phase i = .leaving g first) (hleave : a ≠ .leave i g) :
    σ'.phase i = .leaving g first ∧ σ'.cpus i = σ.cpus i := by
  have hcpu : a.cpu ≠ some i := by
    intro hcpu
    cases h with
    | tick => cases hcpu
    | create => cases hcpu
    | amend => cases hcpu
    | host phase => cases hcpu; rw [phase] at hphase; cases hphase
    | enter phase => cases hcpu; rw [phase] at hphase; cases hphase
    | turnBack phase => cases hcpu; rw [phase] at hphase; cases hphase
    | turnRun phase => cases hcpu; rw [phase] at hphase; cases hphase
    | realm phase => cases hcpu; rw [phase] at hphase; cases hphase
    | handle phase => cases hcpu; rw [phase] at hphase; cases hphase
    | trapped phase => cases hcpu; rw [phase] at hphase; cases hphase
    | leave phase =>
      cases hcpu
      rw [phase] at hphase
      cases hphase
      exact hleave rfl
  obtain ⟨hp, hc, -⟩ := h.elsewhere hcpu
  exact ⟨hp.trans hphase, hc⟩

/-- When the loop ends because the output of a timer has changed, the host is told the mask
that the check has set: it sees no timer as asserted that is. -/
theorem timer_exit_hides {σ₁ σ₂ : SwitchState ι γ} {acts : List (SwitchAct ι γ)}
    {first simdTrap : Bool} (hturn : SwitchStep f σ (.turn i g simdTrap) σ₁)
    (hback : σ₁.phase i = .leaving g first) (hpath : Path (SwitchStep f) σ₁ acts σ₂)
    (hno : .leave i g ∉ acts) (hleave : SwitchStep f σ₂ (.leave i g) σ') :
    (∃ t : Timer, t.Asserted σ.now (σ.cpus i) ≠
      timerAsserted (t.savedCtl (σ.recs g).sysregs)) ∧
    ∀ t : Timer, t.Asserted σ.now (σ.cpus i) = true →
      timerAsserted (t.told (σ'.told i)) = false := by
  constructor
  · cases hturn with
    | turnBack _ _ changed => exact (check_changed _ _ _ _).mp changed
    | turnRun =>
      simp only [SwitchState.turnRun, Function.update_self] at hback
      cases hback
  · intro t hass
    have hcell := turn_cell t hturn
    have hcpus : σ₂.cpus i = σ₁.cpus i :=
      (hpath.keeps (· ≠ .leave i g)
        (fun τ => τ.phase i = .leaving g first ∧ τ.cpus i = σ₁.cpus i)
        (fun _ _ _ ha hstep hs =>
          ⟨(leaving_step hstep hs.1 ha).1, (leaving_step hstep hs.1 ha).2.trans hs.2⟩)
        (fun _ ha heq => hno (heq ▸ ha)) ⟨hback, rfl⟩).2
    have htold : t.told (σ'.told i) = t.readCtl σ₂.now (σ₂.cpus i) := by
      cases hleave with
      | leave =>
        simp only [SwitchState.leave, Function.update_self]
        cases t <;> rfl
    have hmask : (t.cell (σ₂.cpus i)).imask = true := by
      rw [hcpus, hcell, hass]
      rfl
    rw [htold]
    refine (asserted_eq t _ _).trans ?_
    rw [hmask, Bool.not_true, Bool.and_false, Bool.false_and]

end

/-- The virtual timer has expired before the REC is entered again, and the host is not told. -/
theorem timer_exit_hides_virt :
    timerAsserted (Timer.virt.told
      (((timedBack timedLeft 10#64).leave fourLrs true () true).told true)) = false := by
  have hturn : SwitchStep fourLrs
      (({ timedLeft with now := ⟨10#64, 10#64⟩ }).enter fourLrs true () noInterrupts)
      (.turn true () false) (timedBack timedLeft 10#64) :=
    .turnBack rfl (fun _ => rfl) (by decide)
  have hleave : SwitchStep fourLrs (timedBack timedLeft 10#64) (.leave true ())
      ((timedBack timedLeft 10#64).leave fourLrs true () true) := .leave rfl
  exact (timer_exit_hides hturn rfl .nil (by simp) hleave).2 .virt (by decide)

def countTimers (p : Timer → Bool) : ℕ :=
  (if p .virt then 1 else 0) + (if p .phys then 1 else 0)

theorem countTimers_le (p : Timer → Bool) : countTimers p ≤ 2 := by
  unfold countTimers
  split_ifs <;> omega

theorem countTimers_mono {p q : Timer → Bool} (h : ∀ t, p t = true → q t = true) :
    countTimers p ≤ countTimers q := by
  have hv := h .virt
  have hp := h .phys
  unfold countTimers
  split_ifs <;> simp_all

theorem countTimers_lt {p q : Timer → Bool} (h : ∀ t, p t = true → q t = true) (t : Timer)
    (hq : q t = true) (hp : p t = false) : countTimers p < countTimers q := by
  have hv := h .virt
  have hph := h .phys
  unfold countTimers
  cases t <;> split_ifs <;> simp_all

/-- The condition of the timer was met when the REC was left. -/
def Timer.savedMet (s : SysregState) (t : Timer) : Bool := (t.savedCtl s).getLsbD 2

def Timer.metNow (now : Counters) (regs : SysReg → Word) (t : Timer) : Bool :=
  decide (t.Met now regs)

/-- Every entry in a row that came back without a turn of the realm has found one more timer
whose condition is met. -/
structure EntryProgress (σ : SwitchState ι γ) (g : γ) : Prop where
  bound : σ.fruitless g ≤ 2
  idle : (σ.recs g).ns = none → σ.fruitless g ≤
    countTimers (Timer.savedMet (σ.recs g).sysregs) ∧
    ∀ t, Timer.savedMet (σ.recs g).sysregs t = true →
      Timer.metNow σ.now (σ.recs g).sysregs.regs t = true
  entered : ∀ i, σ.phase i = .loop g true →
    σ.fruitless g ≤ countTimers (Timer.savedMet (σ.recs g).sysregs) ∧
    (∀ t, Timer.savedMet (σ.recs g).sysregs t = true →
      Timer.metNow σ.now (σ.cpus i).regs t = true) ∧
    ∀ t : Timer, t.cell (σ.cpus i) = timerCtl (t.savedCtl (σ.recs g).sysregs)
  leaving : ∀ i, σ.phase i = .leaving g true →
    σ.fruitless g + 1 ≤ countTimers (Timer.metNow σ.now (σ.cpus i).regs)

theorem metNow_mono {now now' : Counters} (hphys : now.cntpct ≤ now'.cntpct)
    (hvirt : now.cntvct ≤ now'.cntvct) (regs : SysReg → Word) (t : Timer)
    (h : Timer.metNow now regs t = true) : Timer.metNow now' regs t = true := by
  rw [Timer.metNow, decide_eq_true_eq] at h ⊢
  cases t
  · exact BitVec.le_trans h hvirt
  · exact BitVec.le_trans h hphys

theorem Completion.regs_keeps (d : Completion) (regs : SysReg → Word) {x : SysReg}
    (hfault : x ∉ faultRegs) (hsctlr : x ≠ .sctlrEl1) : d.regs regs x = regs x := by
  have hcopy : copyAt faultRegs d.fault regs x = regs x := by rw [copyAt_apply, if_neg hfault]
  unfold Completion.regs
  cases d.callerSctlr with
  | none => exact hcopy
  | some caller =>
    dsimp only
    rw [Function.update_of_ne hsctlr, hcopy]

/-- A turn that ends the loop right after an entry has found a timer whose condition was not
met when the REC was left. -/
theorem changed_found {now : Counters} {h : CpuRegs} {s : SysregState}
    (hcell : ∀ t : Timer, t.cell h = timerCtl (t.savedCtl s))
    (hmet : ∀ t, Timer.savedMet s t = true → Timer.metNow now h.regs t = true)
    (hchanged : (openccaCheckPendingTimers now h s false).changed = true) :
    countTimers (Timer.savedMet s) < countTimers (Timer.metNow now h.regs) := by
  obtain ⟨t, ht⟩ := (check_changed _ _ _ _).mp hchanged
  have hm := hmet t
  rw [asserted_eq, timerAsserted_bits, hcell t, timerCtl] at ht
  rw [Timer.savedMet, Timer.metNow] at hm
  cases hs : (t.savedCtl s).getLsbD 2 with
  | true =>
    rw [hm hs, hs] at ht
    exact absurd rfl ht
  | false =>
    refine countTimers_lt hmet t ?_ hs
    rw [hs, Bool.and_false] at ht
    rw [Timer.metNow]
    cases hd : decide (t.Met now h.regs) with
    | true => rfl
    | false =>
      rw [hd, Bool.and_false] at ht
      exact absurd rfl ht

theorem FreshRec.savedMet_context (p : FreshRec) (t : Timer) :
    Timer.savedMet (p.context : RecContext ι).sysregs t = false := by
  cases t <;> exact BitVec.getLsbD_zero

theorem SwitchInit.progress (h : SwitchInit σ) (g : γ) : EntryProgress σ g := by
  obtain ⟨p, hp⟩ := h.fresh g
  refine ⟨by rw [h.fruitless g]; omega, fun _ => ⟨by rw [h.fruitless g]; omega, fun t ht => ?_⟩,
    fun i hi => ?_, fun i hi => ?_⟩
  · rw [hp, p.savedMet_context] at ht
    cases ht
  · rw [h.host i] at hi
    cases hi
  · rw [h.host i] at hi
    cases hi

/-- A state in which only one CPU is inside of the REC. -/
theorem EntryProgress.of_inside (hwf : SwitchWf σ) (hin : (σ.phase i).inside = some g)
    (hbound : σ.fruitless g ≤ 2)
    (hentered : σ.phase i = .loop g true →
      σ.fruitless g ≤ countTimers (Timer.savedMet (σ.recs g).sysregs) ∧
      (∀ t, Timer.savedMet (σ.recs g).sysregs t = true →
        Timer.metNow σ.now (σ.cpus i).regs t = true) ∧
      ∀ t : Timer, t.cell (σ.cpus i) = timerCtl (t.savedCtl (σ.recs g).sysregs))
    (hleaving : σ.phase i = .leaving g true →
      σ.fruitless g + 1 ≤ countTimers (Timer.metNow σ.now (σ.cpus i).regs)) :
    EntryProgress σ g := by
  have hns : (σ.recs g).ns = some i := (hwf.inside g i).mpr hin
  have honly : ∀ j, (σ.phase j).inside = some g → j = i := by
    intro j hj
    have hj' := (hwf.inside g j).mpr hj
    rw [hns] at hj'
    exact (Option.some.inj hj').symm
  refine ⟨hbound, fun hidle => ?_, fun j hj => ?_, fun j hj => ?_⟩
  · rw [hns] at hidle
    cases hidle
  · obtain rfl := honly j (by rw [hj]; rfl)
    exact hentered hj
  · obtain rfl := honly j (by rw [hj]; rfl)
    exact hleaving hj

/-- While the REC is handled nothing is known of its timers, and nothing needs to be. -/
theorem EntryProgress.of_running (hwf : SwitchWf σ) (hin : (σ.phase i).inside = some g)
    (hbound : σ.fruitless g ≤ 2) (hloop : σ.phase i ≠ .loop g true)
    (hleaving : σ.phase i ≠ .leaving g true) : EntryProgress σ g :=
  .of_inside hwf hin hbound (fun hphase => absurd hphase hloop) fun hphase =>
    absurd hphase hleaving

theorem EntryProgress.of_outside (hwf : SwitchWf σ) (hns : (σ.recs g).ns = none)
    (hbound : σ.fruitless g ≤ 2)
    (hidle : σ.fruitless g ≤ countTimers (Timer.savedMet (σ.recs g).sysregs) ∧
      ∀ t, Timer.savedMet (σ.recs g).sysregs t = true →
        Timer.metNow σ.now (σ.recs g).sysregs.regs t = true) : EntryProgress σ g := by
  have hnone : ∀ j, (σ.phase j).inside ≠ some g := by
    intro j hj
    rw [(hwf.inside g j).mpr hj] at hns
    cases hns
  exact ⟨hbound, fun _ => hidle, fun j hj => (hnone j (congrArg SwitchPhase.inside hj)).elim,
    fun j hj => (hnone j (congrArg SwitchPhase.inside hj)).elim⟩

section
variable [DecidableEq ι] [DecidableEq γ]

/-- Steps about other RECs change nothing that the count depends on. -/
theorem EntryProgress.other (hpr : EntryProgress σ g) (h : SwitchStep f σ a σ')
    (hg : a.context ≠ some g) : EntryProgress σ' g := by
  obtain ⟨hrec, hcount, -⟩ := h.otherRec hg
  have hcpu : ∀ {i}, (σ'.phase i).inside = some g → σ'.phase i = σ.phase i ∧
      σ'.cpus i = σ.cpus i := by
    intro i hin
    have hne : a.cpu ≠ some i := by
      intro hc
      cases h with
      | tick => cases hc
      | create => cases hc
      | amend => cases hc
      | host phase =>
        cases hc
        rw [phase] at hin
        cases hin
      | enter =>
        cases hc
        rw [enter_inside] at hin
        exact hg hin
      | turnBack =>
        cases hc
        simp only [SwitchState.turnBack, Function.update_self] at hin
        exact hg hin
      | turnRun =>
        cases hc
        simp only [SwitchState.turnRun, Function.update_self] at hin
        exact hg hin
      | realm =>
        cases hc
        simp only [SwitchState.realm, Function.update_self] at hin
        exact hg hin
      | handle =>
        cases hc
        simp only [SwitchState.handle, Function.update_self] at hin
        split at hin <;> exact hg hin
      | trapped =>
        cases hc
        simp only [SwitchState.trapped, Function.update_self] at hin
        exact hg hin
      | leave =>
        cases hc
        simp only [SwitchState.leave, Function.update_self] at hin
        cases hin
    obtain ⟨hp, hc, -⟩ := h.elsewhere hne
    exact ⟨hp, hc⟩
  have hmono : ∀ regs t, Timer.metNow σ.now regs t = true →
      Timer.metNow σ'.now regs t = true := by
    cases h with
    | tick phys virt => exact metNow_mono phys virt
    | host => exact fun _ _ hm => hm
    | enter => exact fun _ _ hm => hm
    | turnBack => exact fun _ _ hm => hm
    | turnRun => exact fun _ _ hm => hm
    | realm => exact fun _ _ hm => hm
    | handle => exact fun _ _ hm => hm
    | trapped => exact fun _ _ hm => hm
    | leave => exact fun _ _ hm => hm
    | create => exact fun _ _ hm => hm
    | amend => exact fun _ _ hm => hm
  refine ⟨by rw [hcount]; exact hpr.bound, fun hidle => ?_, fun i hi => ?_, fun i hi => ?_⟩
  · rw [hrec] at hidle ⊢
    rw [hcount]
    exact ⟨(hpr.idle hidle).1, fun t ht => hmono _ _ ((hpr.idle hidle).2 t ht)⟩
  · obtain ⟨hp, hc⟩ := hcpu (by rw [hi]; rfl)
    obtain ⟨h1, h2, h3⟩ := hpr.entered i (hp ▸ hi)
    rw [hrec, hc, hcount]
    exact ⟨h1, fun t ht => hmono _ _ (h2 t ht), h3⟩
  · obtain ⟨hp, hc⟩ := hcpu (by rw [hi]; rfl)
    rw [hc, hcount]
    exact (hpr.leaving i (hp ▸ hi)).trans (countTimers_mono (hmono _))

/-- A turn that comes back right after the entry has found one more timer. -/
theorem EntryProgress.turnBack {first simdTrap : Bool} (hpr : EntryProgress σ g)
    (hwf : SwitchWf (σ.turnBack i g first simdTrap)) (phase : σ.phase i = .loop g first)
    (handled : first = true → simdTrap = false) (changed : (σ.check i g simdTrap).changed = true) :
    EntryProgress (σ.turnBack i g first simdTrap) g := by
  refine .of_inside (i := i) hwf (by simp only [SwitchState.turnBack, Function.update_self]; rfl)
    hpr.bound (fun hphase => ?_) fun hphase => ?_
  · simp only [SwitchState.turnBack, Function.update_self] at hphase
    cases hphase
  · simp only [SwitchState.turnBack, Function.update_self] at hphase
    cases hphase
    obtain ⟨hle, hmet, hcell⟩ := hpr.entered i phase
    rw [handled rfl] at changed
    have hfound := changed_found hcell hmet changed
    simp only [SwitchState.turnBack, Function.update_self]
    exact hle.trans_lt hfound

/-- What the exit saves is what the last turn has seen of the timers. -/
theorem EntryProgress.leave {first : Bool} (hpr : EntryProgress σ g)
    (hwf : SwitchWf (σ.leave f i g first)) (phase : σ.phase i = .leaving g first) :
    EntryProgress (σ.leave f i g first) g := by
  have hsaved : ∀ t, Timer.savedMet ((σ.leave f i g first).recs g).sysregs t =
      Timer.metNow σ.now (σ.cpus i).regs t := by
    intro t
    simp only [SwitchState.leave, Function.update_self, Timer.savedMet]
    exact (congrArg (BitVec.getLsbD · 2) (saved_ctl (f := f) t _ _ _)).trans
      (TimerCtl.getLsbD_read _ _).2.2
  have hregs : ((σ.leave f i g first).recs g).sysregs.regs = (σ.cpus i).regs := by
    simp only [SwitchState.leave, Function.update_self, saveRealmState, saveSysregState,
      copyAt_savedSysregs]
  have hcount : (σ.leave f i g first).fruitless g ≤
      countTimers (Timer.metNow σ.now (σ.cpus i).regs) := by
    simp only [SwitchState.leave, Function.update_self]
    cases first with
    | true => exact hpr.leaving i phase
    | false => exact Nat.zero_le _
  refine .of_outside hwf (by simp only [SwitchState.leave, Function.update_self])
    (hcount.trans (countTimers_le _)) ⟨?_, fun t ht => ?_⟩
  · rwa [show Timer.savedMet ((σ.leave f i g first).recs g).sysregs =
      Timer.metNow σ.now (σ.cpus i).regs from funext hsaved]
  · rw [hregs]
    rw [hsaved t] at ht
    exact ht

omit [DecidableEq ι] in
/-- A completion keeps the registers of the timers. -/
theorem EntryProgress.amend {d : Completion} (hpr : EntryProgress σ g)
    (hwf : SwitchWf (σ.setRec g (d.context f (σ.recs g)))) (free : (σ.recs g).ns = none) :
    EntryProgress (σ.setRec g (d.context f (σ.recs g))) g := by
  have hcval : ∀ t : Timer, d.regs (σ.recs g).sysregs.regs t.cvalReg =
      (σ.recs g).sysregs.regs t.cvalReg := by
    intro t
    exact d.regs_keeps _ (by cases t <;> decide) (by cases t <;> decide)
  obtain ⟨hle, hmet⟩ := hpr.idle free
  refine .of_outside hwf (by simp only [SwitchState.setRec, Function.update_self]; exact free)
    hpr.bound ?_
  simp only [SwitchState.setRec, Function.update_self]
  refine ⟨hle, fun t ht => ?_⟩
  have hm := of_decide_eq_true (hmet t ht)
  refine decide_eq_true ?_
  show d.regs (σ.recs g).sysregs.regs t.cvalReg ≤ t.count σ.now
  rw [hcval t]
  exact hm

theorem EntryProgress.step (hwf : SwitchWf σ) (hpr : EntryProgress σ g)
    (h : SwitchStep f σ a σ') : EntryProgress σ' g := by
  by_cases hg : a.context = some g
  · have hwf' := hwf.step h
    cases h with
    | tick => cases hg
    | host => cases hg
    | @enter i g' e _ free =>
      obtain rfl : g' = g := Option.some.inj hg
      obtain ⟨hle, hmet⟩ := hpr.idle free
      refine .of_inside hwf' (enter_inside i g' e) hpr.bound (fun _ => ?_) fun hphase => ?_
      · simp only [SwitchState.enter, Function.update_self]
        refine ⟨hle, fun t ht => ?_, fun t => restored_cell t _ _⟩
        rw [restored_regs]
        exact hmet t ht
      · simp only [SwitchState.enter, Function.update_self] at hphase
        cases hphase
    | turnBack phase handled changed =>
      cases hg
      exact hpr.turnBack hwf' phase handled changed
    | @turnRun i =>
      cases hg
      refine .of_running (i := i) hwf' ?_ hpr.bound ?_ ?_ <;>
        simp [SwitchState.turnRun, SwitchPhase.inside]
    | @realm i =>
      cases hg
      refine .of_running (i := i) hwf' ?_ hpr.bound ?_ ?_ <;>
        simp [SwitchState.realm, SwitchPhase.inside]
    | @handle i g d again =>
      cases hg
      refine .of_running (i := i) hwf' ?_ hpr.bound ?_ ?_ <;>
        cases again <;> simp [SwitchState.handle, SwitchPhase.inside]
    | @trapped i =>
      cases hg
      refine .of_running (i := i) hwf' ?_ hpr.bound ?_ ?_ <;>
        simp [SwitchState.trapped, SwitchPhase.inside]
    | leave phase =>
      cases hg
      exact hpr.leave hwf' phase
    | @create g' p free =>
      obtain rfl : g' = g := Option.some.inj hg
      have hzero : (Function.update σ.fruitless g' 0) g' = 0 := Function.update_self _ _ _
      refine .of_outside hwf' (by simp only [SwitchState.setRec, Function.update_self]; rfl)
        (hzero.trans_le (by omega)) ⟨hzero.trans_le (Nat.zero_le _), fun t ht => ?_⟩
      simp only [SwitchState.setRec, Function.update_self, p.savedMet_context] at ht
      cases ht
    | amend free =>
      cases hg
      exact hpr.amend hwf' free
  · exact hpr.other h hg

/-- At most two entries of a REC in a row come back without a turn of the realm: each of them
was because of another timer, and the third entry runs the realm. -/
theorem realm_gets_a_turn {σ₀ : SwitchState ι γ} {acts : List (SwitchAct ι γ)}
    (h₀ : SwitchInit σ₀) (hpath : Path (SwitchStep f) σ₀ acts σ) (g : γ) :
    σ.fruitless g ≤ 2 ∧
    (σ.fruitless g = 2 → ∀ i σ' simdTrap, σ.phase i = .loop g true →
      SwitchStep f σ (.turn i g simdTrap) σ' → σ'.phase i = .realm g) := by
  have hinv : SwitchWf σ ∧ EntryProgress σ g :=
    hpath.keeps (fun _ => True) (fun τ => SwitchWf τ ∧ EntryProgress τ g)
      (fun _ _ _ _ hstep hs => ⟨hs.1.step hstep, hs.2.step hs.1 hstep⟩) (fun _ _ => trivial)
      ⟨h₀.wf, h₀.progress g⟩
  refine ⟨hinv.2.bound, fun htwo i σ' simdTrap hphase hturn => ?_⟩
  have hpr' := hinv.2.step hinv.1 hturn
  cases hturn with
  | turnRun => simp only [SwitchState.turnRun, Function.update_self]
  | turnBack phase =>
    rw [hphase] at phase
    cases phase
    have hmet := hpr'.leaving i (by simp only [SwitchState.turnBack, Function.update_self])
    have hle := countTimers_le (Timer.metNow (σ.turnBack i g true simdTrap).now
      ((σ.turnBack i g true simdTrap).cpus i).regs)
    have hcount : (σ.turnBack i g true simdTrap).fruitless g = 2 := htwo
    omega

end

def timedTwice : SwitchState Bool Unit :=
  (timedBack ((timedBack timedLeft 10#64).leave fourLrs true () true) 20#64).leave fourLrs true ()
    true

theorem timedTwice_path : Path (SwitchStep fourLrs) (quietCall timedWrite)
    [.leave true (), .tick, .enter true (), .turn true () false, .leave true (), .tick,
      .enter true (), .turn true () false, .leave true ()] timedTwice :=
  .cons (.leave rfl) (.cons (.tick (by decide) (by decide)) (.cons (.enter rfl rfl (by decide))
    (.cons (.turnBack rfl (fun _ => rfl) (by decide)) (.cons (.leave rfl)
    (.cons (.tick (by decide) (by decide)) (.cons (.enter rfl rfl (by decide))
    (.cons (.turnBack rfl (fun _ => rfl) (by decide)) (.cons (.leave rfl) .nil))))))))

/-- Two entries have come back, for one timer each. The third does not. -/
theorem realm_gets_a_turn_third :
    ((timedTwice.enter fourLrs false () noInterrupts).turnRun false () false).phase false =
      .realm () :=
  (realm_gets_a_turn quietSystem_init
    (((quietRun_path.append (quietCall_path timedWrite_may)).append timedTwice_path).append
      (.cons (.enter rfl rfl (by decide)) .nil)) ()).2 rfl false _ false rfl
    (.turnRun rfl (fun _ => rfl) (by decide))

end RmmCaec
