import RmmCaec.WorldSwitch

/-!
# Hosts and realms on several CPUs

Every CPU either runs the host or is inside a call of `rec_run_loop` for some REC. The RECs
and the saved state of the host are in memory. What a realm or the host does with the
registers it can reach is not restricted; between their turns the functions of the switch
run.
-/
namespace RmmCaec

variable {ι γ : Type}

/-- Where a CPU is. `first` says that the realm has not run since the REC was entered. -/
inductive SwitchPhase (γ : Type)
  | host
  | loop (g : γ) (first : Bool)
  | realm (g : γ)
  | exited (g : γ)
  | leaving (g : γ) (first : Bool)

/-- The REC that a CPU is inside of. -/
def SwitchPhase.inside : SwitchPhase γ → Option γ
  | .host => none
  | .loop g _ | .realm g | .exited g | .leaving g _ => some g

/-- What the host is told about the timers and the counters of the realm. -/
structure ToldHost where
  cntvCtl : Word
  cntvCval : Word
  cntpCtl : Word
  cntpCval : Word
  pmuOvfStatus : Bool

/-- The state of all CPUs. `fruitless` counts the entries of a REC in a row that came back
without a turn of the realm, and `flushes` are those that were made for the REC since it was
created. -/
structure SwitchState (ι γ : Type) where
  now : Counters
  phase : ι → SwitchPhase γ
  cpus : ι → CpuRegs
  nsData : ι → NsState
  recs : γ → RecContext ι
  told : ι → ToldHost
  fruitless : γ → ℕ
  flushes : γ → List CacheFlush

/-- What happens: time passes, the host or a realm does something, the REC of a CPU is
entered, gets a turn, is left, or has an exception handled, and a REC that is not entered is
created or changed by a completion. -/
inductive SwitchAct (ι γ : Type)
  | tick
  | host (i : ι)
  | enter (i : ι) (g : γ)
  | turn (i : ι) (g : γ) (simdTrap : Bool)
  | realm (i : ι) (g : γ)
  | handle (i : ι) (g : γ)
  | trapped (i : ι) (g : γ) (c : CacheGeometry) (esr : Word)
  | leave (i : ι) (g : γ)
  | create (g : γ)
  | amend (g : γ)

/-- What a realm may do with the registers of the CPU before it traps. Writes to the registers
of the translation trap while TVM is set, counters from `pmu_num_ctrs` on cannot be reached,
and a virtual SError that is taken is no longer pending. -/
structure RealmMay (r : RecContext ι) (h h' : CpuRegs) : Prop where
  trapped : h.hcrEl2 &&& hcrTvm ≠ 0#64 → ∀ x ∈ vmControlRegs, h'.regs x = h.regs x
  hcr : h'.hcrEl2 = h.hcrEl2 ∨ h'.hcrEl2 = h.hcrEl2 &&& ~~~hcrVse
  counters : ∀ n, r.pmuNumCtrs ≤ n → h'.pmu.pmevcntr n = h.pmu.pmevcntr n
  types : ∀ n, r.pmuNumCtrs ≤ n → h'.pmu.pmevtyper n = h.pmu.pmevtyper n
  monitors : r.pmuEnabled = false → h'.pmu = h.pmu
  total : h'.pmu.total = h.pmu.total
  cnthctl : h'.cnthctlEl2 = h.cnthctlEl2
  iccSre : h'.iccSreEl2 = h.iccSreEl2
  vmpidr : h'.vmpidrEl2 = h.vmpidrEl2
  vsesr : h'.vsesrEl2 = h.vsesrEl2
  mdcr : h'.mdcrEl2 = h.mdcrEl2
  vtcr : h'.vtcrEl2 = h.vtcrEl2
  vttbr : h'.vttbrEl2 = h.vttbrEl2

/-- A realm may always write the other registers of EL1 and its timers. -/
theorem RealmMay.of_regs {r : RecContext ι} {h : CpuRegs} {regs : SysReg → Word}
    (hvm : ∀ x ∈ vmControlRegs, regs x = h.regs x) (cntpCtl cntvCtl : TimerCtl) :
    RealmMay r h { h with regs := regs, cntpCtl := cntpCtl, cntvCtl := cntvCtl } where
  trapped _ := hvm
  hcr := .inl rfl
  counters _ _ := rfl
  types _ _ := rfl
  monitors _ := rfl
  total := rfl
  cnthctl := rfl
  iccSre := rfl
  vmpidr := rfl
  vsesr := rfl
  mdcr := rfl
  vtcr := rfl
  vttbr := rfl

/-- The registers that an injected exception writes. -/
def faultRegs : List SysReg := [.esrEl1, .farEl1, .elrEl1, .spsrEl1]

/-- What the other exception handlers do: general registers, the next instruction, an injected
exception or a request for one. -/
structure HandlerEnd where
  gprs : Fin 31 → Word
  fault : SysReg → Word
  pc : Word
  pstate : Word
  serrorInfo : SerrorInfo

def HandlerEnd.cpu (d : HandlerEnd) (h : CpuRegs) : CpuRegs :=
  { h with regs := copyAt faultRegs d.fault h.regs, elrEl2 := d.pc, spsrEl2 := d.pstate }

def HandlerEnd.context (d : HandlerEnd) (r : RecContext ι) : RecContext ι :=
  { r with gprs := d.gprs, serrorInfo := d.serrorInfo }

/-- What the completion of a request of a REC that is not entered may change: a reset by
CPU_ON sets SCTLR_EL1 with a bit of the caller, an abort is injected, and an entry that is
refused late has left the host's interrupt registers. -/
structure Completion where
  gprs : Fin 31 → Word
  fault : SysReg → Word
  callerSctlr : Option Word
  gic : Option GicEnter
  pc : Word
  pstate : Word

def Completion.regs (d : Completion) (regs : SysReg → Word) : SysReg → Word :=
  let regs := copyAt faultRegs d.fault regs
  match d.callerSctlr with
  | some caller => Function.update regs .sctlrEl1 (sctlrEl1Flags ||| (caller &&& sctlrEeBit))
  | none => regs

def Completion.gicstate (d : Completion) (f : GicVirtFeature) (gicstate : GicCpuState) :
    GicCpuState :=
  match d.gic with
  | some e => gicCopyStateFromRecEntry f gicstate e
  | none => gicstate

def Completion.context (d : Completion) (f : GicVirtFeature) (r : RecContext ι) : RecContext ι :=
  { r with
    gprs := d.gprs
    sysregs := { r.sysregs with
      regs := d.regs r.sysregs.regs
      gicstate := d.gicstate f r.sysregs.gicstate }
    pc := d.pc
    pstate := d.pstate }

section
variable [DecidableEq ι] [DecidableEq γ] (f : GicVirtFeature)

namespace SwitchState

variable (σ : SwitchState ι γ) (i : ι) (g : γ)

/-- The end of `smc_rec_enter` before the loop. -/
def entered (r : RecContext ι) (e : RecRunEnter) : RecContext ι :=
  { r with
    sysregs := { r.sysregs with
      gicstate := gicCopyStateFromRecEntry f r.sysregs.gicstate e.gic
      hcrEl2 := entryHcr r.commonSysregs.hcrEl2 (e.checked f) } }

/-- `rec_run_loop` up to the loop. -/
def enter (e : RecRunEnter) : SwitchState ι γ :=
  let r := entered f (σ.recs g) e
  { σ with
    phase := Function.update σ.phase i (.loop g true)
    cpus := Function.update σ.cpus i (restoreRealmState f r (σ.cpus i))
    nsData := Function.update σ.nsData i (saveNsState σ.now r (σ.cpus i) (σ.nsData i))
    recs := Function.update σ.recs g { r with ns := some i } }

def check (simdTrap : Bool) : TimerCheck :=
  openccaCheckPendingTimers σ.now (σ.cpus i) (σ.recs g).sysregs simdTrap

/-- The REC after the check of the timers. -/
def checked (simdTrap : Bool) : RecContext ι :=
  { σ.recs g with sysregs := (σ.check i g simdTrap).sysregs }

/-- A turn in which the output of a timer has changed: the loop ends. -/
def turnBack (first simdTrap : Bool) : SwitchState ι γ :=
  { σ with
    phase := Function.update σ.phase i (.leaving g first)
    cpus := Function.update σ.cpus i (σ.check i g simdTrap).cpu
    recs := Function.update σ.recs g (σ.checked i g simdTrap) }

/-- Any other turn, up to the first instruction of the realm. -/
def turnRun (simdTrap : Bool) : SwitchState ι γ :=
  let r := σ.checked i g simdTrap
  { σ with
    phase := Function.update σ.phase i (.realm g)
    cpus := Function.update σ.cpus i (runRealm r (activateEvents r (σ.check i g simdTrap).cpu))
    recs := Function.update σ.recs g r.noSerror }

/-- The realm has run and trapped. -/
def realm (gprs : Fin 31 → Word) (h : CpuRegs) : SwitchState ι γ :=
  { σ with
    phase := Function.update σ.phase i (.exited g)
    cpus := Function.update σ.cpus i h.realmExit
    recs := Function.update σ.recs g ((σ.recs g).realmExit gprs h) }

def handle (d : HandlerEnd) (again : Bool) : SwitchState ι γ :=
  { σ with
    phase := Function.update σ.phase i (if again then .loop g false else .leaving g false)
    cpus := Function.update σ.cpus i (d.cpu (σ.cpus i))
    recs := Function.update σ.recs g (d.context (σ.recs g)) }

/-- A trapped access is handled, and the realm goes on behind it. -/
def trapped (c : CacheGeometry) (esr : Word) : SwitchState ι γ :=
  let done := openccaHandleEsrTvmSysregTrap c (σ.cpus i) (σ.recs g) esr
  { σ with
    phase := Function.update σ.phase i (.loop g false)
    cpus := Function.update σ.cpus i { done.cpu with elrEl2 := done.cpu.elrEl2 + 4#64 }
    recs := Function.update σ.recs g done.context
    flushes := Function.update σ.flushes g (σ.flushes g ++ done.flush.toList) }

/-- `report_timer_state_to_ns` and `pmu_update_rec_exit`. -/
def tellHost (r : RecContext ι) (h : CpuRegs) : ToldHost where
  cntvCtl := h.readCntvCtl σ.now
  cntvCval := h.regs .cntvCvalEl0
  cntpCtl := h.readCntpCtl σ.now
  cntpCval := h.regs .cntpCvalEl0
  pmuOvfStatus := r.pmuEnabled && pmuUpdateRecExit h.pmu

/-- `rec_run_loop` from the loop to its end. -/
def leave (first : Bool) : SwitchState ι γ :=
  let r := saveRealmState f σ.now (σ.cpus i) (σ.recs g)
  { σ with
    phase := Function.update σ.phase i .host
    cpus := Function.update σ.cpus i
      (restoreNsState r (σ.nsData i) { σ.cpus i with gic := gicTurnOff (σ.cpus i).gic })
    recs := Function.update σ.recs g { r with ns := none }
    told := Function.update σ.told i (σ.tellHost (σ.recs g) (σ.cpus i))
    fruitless := Function.update σ.fruitless g (if first then σ.fruitless g + 1 else 0) }

def setRec (r : RecContext ι) : SwitchState ι γ :=
  { σ with recs := Function.update σ.recs g r }

end SwitchState

open SwitchState

/-- One step of the system. A REC is entered only while no CPU is inside of it: its reference
count is zero then. In the first turn after an entry no trap of the SIMD registers has been
handled. -/
inductive SwitchStep : SwitchState ι γ → SwitchAct ι γ → SwitchState ι γ → Prop
  | tick {σ : SwitchState ι γ} {now : Counters} (phys : σ.now.cntpct ≤ now.cntpct)
      (virt : σ.now.cntvct ≤ now.cntvct) : SwitchStep σ .tick { σ with now := now }
  | host {σ : SwitchState ι γ} {i : ι} {h : CpuRegs} (phase : σ.phase i = .host)
      (total : h.pmu.total = (σ.cpus i).pmu.total) :
      SwitchStep σ (.host i) { σ with cpus := Function.update σ.cpus i h }
  | enter {σ : SwitchState ι γ} {i : ι} {g : γ} {e : RecRunEnter} (phase : σ.phase i = .host)
      (free : (σ.recs g).ns = none) (valid : gicValidateState f e.gic = true) :
      SwitchStep σ (.enter i g) (σ.enter f i g e)
  | turnBack {σ : SwitchState ι γ} {i : ι} {g : γ} {first simdTrap : Bool}
      (phase : σ.phase i = .loop g first) (handled : first = true → simdTrap = false)
      (changed : (σ.check i g simdTrap).changed = true) :
      SwitchStep σ (.turn i g simdTrap) (σ.turnBack i g first simdTrap)
  | turnRun {σ : SwitchState ι γ} {i : ι} {g : γ} {first simdTrap : Bool}
      (phase : σ.phase i = .loop g first) (handled : first = true → simdTrap = false)
      (same : (σ.check i g simdTrap).changed = false) :
      SwitchStep σ (.turn i g simdTrap) (σ.turnRun i g simdTrap)
  | realm {σ : SwitchState ι γ} {i : ι} {g : γ} {gprs : Fin 31 → Word} {h : CpuRegs}
      (phase : σ.phase i = .realm g) (may : RealmMay (σ.recs g) (σ.cpus i) h) :
      SwitchStep σ (.realm i g) (σ.realm i g gprs h)
  | handle {σ : SwitchState ι γ} {i : ι} {g : γ} {d : HandlerEnd} {again : Bool}
      (phase : σ.phase i = .exited g) : SwitchStep σ (.handle i g) (σ.handle i g d again)
  | trapped {σ : SwitchState ι γ} {i : ι} {g : γ} {c : CacheGeometry} {esr : Word}
      (phase : σ.phase i = .exited g) (found : tvmTrapped esr = true) :
      SwitchStep σ (.trapped i g c esr) (σ.trapped i g c esr)
  | leave {σ : SwitchState ι γ} {i : ι} {g : γ} {first : Bool}
      (phase : σ.phase i = .leaving g first) : SwitchStep σ (.leave i g) (σ.leave f i g first)
  | create {σ : SwitchState ι γ} {g : γ} {p : FreshRec} (free : (σ.recs g).ns = none) :
      SwitchStep σ (.create g)
        { σ.setRec g p.context with
          fruitless := Function.update σ.fruitless g 0
          flushes := Function.update σ.flushes g [] }
  | amend {σ : SwitchState ι γ} {g : γ} {d : Completion} (free : (σ.recs g).ns = none) :
      SwitchStep σ (.amend g) (σ.setRec g (d.context f (σ.recs g)))

/-- At first every CPU runs the host and every REC is as it was created. -/
structure SwitchInit (σ : SwitchState ι γ) : Prop where
  host : ∀ i, σ.phase i = .host
  fresh : ∀ g, ∃ p : FreshRec, σ.recs g = p.context
  fruitless : ∀ g, σ.fruitless g = 0
  flushes : ∀ g, σ.flushes g = []

end

def quietPmu : PmuRegs :=
  ⟨0#64, by decide, 0#64, 0#64, 0, 0, 0, 0#64, 0#64, fun _ => 0#64, fun _ => 0#64, 6, by decide⟩

def quietCpu : CpuRegs :=
  ⟨fun _ => 0#64, ⟨false, false⟩, ⟨false, false⟩, quietPmu, default, 0#64, 0#64,
    0#64, 0#64, 0#64,
    0#64, 0#64, 0#64, 0#64, 0#64⟩

def quietRec : FreshRec := ⟨fun _ => 0#64, 0#64, 0#64, 0#64, 0#64, 0#64, true, 4, by decide⟩

/-- Two CPUs and one REC with four of the six counters. -/
def quietSystem : SwitchState Bool Unit where
  now := ⟨0#64, 0#64⟩
  phase _ := .host
  cpus _ := quietCpu
  nsData _ := ⟨quietRec.sysregs, 0#64, .zeroed⟩
  recs _ := quietRec.context
  told _ := ⟨0#64, 0#64, 0#64, 0#64, false⟩
  fruitless _ := 0
  flushes _ := []

theorem quietSystem_init : SwitchInit quietSystem where
  host _ := rfl
  fresh _ := ⟨quietRec, rfl⟩
  fruitless _ := rfl
  flushes _ := rfl

def fourLrs : GicVirtFeature := ⟨3, 0, 7#64, 0xFFFF#64, false⟩

def noInterrupts : RecRunEnter := ⟨0#64, fun _ => 0#64, ⟨0#64, fun _ => 0#64⟩⟩

/-- The REC is entered and runs. -/
def quietRun : SwitchState Bool Unit :=
  (quietSystem.enter fourLrs true () noInterrupts).turnRun true () false

theorem quietRun_path :
    Runs.Path (SwitchStep fourLrs) quietSystem [.enter true (), .turn true () false] quietRun :=
  .cons (.enter rfl rfl (by decide))
    (.cons (.turnRun rfl (fun _ => rfl) (by decide)) .nil)

/-- The realm has written the given registers, and its call goes to the host. -/
def quietCall (h : CpuRegs) : SwitchState Bool Unit :=
  (quietRun.realm true () (fun _ => 7#64) h).handle true ()
    ⟨fun _ => 7#64, fun _ => 0#64, 0x1000#64, 0x3C5#64, ⟨0#64, false⟩⟩ false

theorem quietCall_path {h : CpuRegs} (hmay : RealmMay (quietRun.recs ()) (quietRun.cpus true) h) :
    Runs.Path (SwitchStep fourLrs) quietRun [.realm true (), .handle true ()] (quietCall h) :=
  .cons (.realm rfl hmay) (.cons (.handle rfl) .nil)

/-- A realm that has written a register of its own. -/
def quietWrite : CpuRegs :=
  { quietRun.cpus true with regs := Function.update (quietRun.cpus true).regs .tpidrEl1 9#64 }

theorem quietWrite_may : RealmMay (quietRun.recs ()) (quietRun.cpus true) quietWrite :=
  .of_regs (fun x hx => Function.update_of_ne (by rintro rfl; exact absurd hx (by decide)) _ _) _ _

end RmmCaec
