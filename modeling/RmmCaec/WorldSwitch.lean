import RmmCaec.CacheMaintenance
import RmmCaec.EntryRejection
import RmmCaec.PmuState

/-!
# The world switch

A CPU has one set of registers, which the host and the realms use in turn. `rec_run_loop`
saves those of the host, gives those of the REC to the realm, looks at the timers before
every turn of the realm, and puts everything back before it returns to the host. Offsets of
the counters read as zero on this platform, and there are no keys of pointer
authentication.
-/
namespace RmmCaec

/-- Copies the registers of a list, one after the other. -/
def copyAt {α β : Type} [DecidableEq α] (l : List α) (src dst : α → β) : α → β :=
  l.foldl (fun dst r => Function.update dst r (src r)) dst

theorem copyAt_apply {α β : Type} [DecidableEq α] (l : List α) (src dst : α → β) (r : α) :
    copyAt l src dst r = if r ∈ l then src r else dst r := by
  induction l generalizing dst with
  | nil => simp [copyAt]
  | cons r' l ih =>
    have hcons : copyAt (r' :: l) src dst = copyAt l src (Function.update dst r' (src r')) := rfl
    rw [hcons, ih]
    by_cases hr : r = r'
    · subst hr
      simp
    · simp [hr]

/-- Those that `save_sysreg_state` reads and `restore_sysreg_state` writes. -/
def savedSysregs : List SysReg :=
  [.spEl0, .spEl1, .elrEl1, .spsrEl1, .tpidrroEl0, .tpidrEl0, .csselrEl1, .sctlrEl1, .actlrEl1,
    .cpacrEl1, .ttbr0El1, .ttbr1El1, .tcrEl1, .esrEl1, .afsr0El1, .afsr1El1, .farEl1, .mairEl1,
    .vbarEl1, .contextidrEl1, .tpidrEl1, .amairEl1, .cntkctlEl1, .parEl1, .mdscrEl1, .mdccintEl1,
    .disrEl1, .cntpCvalEl0, .cntvCvalEl0]

theorem mem_savedSysregs (r : SysReg) : r ∈ savedSysregs := by
  cases r <;> decide

@[simp] theorem copyAt_savedSysregs {β : Type} (src dst : SysReg → β) :
    copyAt savedSysregs src dst = src := by
  funext r
  rw [copyAt_apply, if_pos (mem_savedSysregs r)]

/-- The counters that the two timers compare with. -/
structure Counters where
  cntpct : Word
  cntvct : Word

def cntxCtlEnable : Word := 1#64
def cntxCtlImask : Word := 2#64
def cntxCtlIstatus : Word := 4#64

/-- The part of CNTx_CTL that can be written. -/
structure TimerCtl where
  enable : Bool
  imask : Bool
  deriving DecidableEq, Repr

/-- What a read of CNTx_CTL returns while the condition of the timer is met or not. -/
def TimerCtl.read (t : TimerCtl) (istatus : Bool) : Word :=
  (if t.enable then cntxCtlEnable else 0#64) ||| (if t.imask then cntxCtlImask else 0#64) |||
    (if istatus then cntxCtlIstatus else 0#64)

/-- A write to CNTx_CTL. -/
def timerCtl (w : Word) : TimerCtl := ⟨w.getLsbD 0, w.getLsbD 1⟩

/-- `TIMER_ASSERTED`. -/
def timerAsserted (reg : Word) : Bool :=
  reg &&& (cntxCtlEnable ||| cntxCtlIstatus ||| cntxCtlImask) == cntxCtlEnable ||| cntxCtlIstatus

/-- Sets or clears the mask of a timer. -/
def setImask (w : Word) (mask : Bool) : Word :=
  if mask then w ||| cntxCtlImask else w &&& ~~~cntxCtlImask

theorem timerAsserted_bits (w : Word) :
    timerAsserted w = (w.getLsbD 0 && !w.getLsbD 1 && w.getLsbD 2) := by
  have h7 : (cntxCtlEnable ||| cntxCtlIstatus ||| cntxCtlImask) = 7#64 := by decide
  have h5 : (cntxCtlEnable ||| cntxCtlIstatus) = 5#64 := by decide
  rw [timerAsserted, h7, h5, Bool.eq_iff_iff, beq_iff_eq]
  simp only [Bool.and_eq_true, Bool.not_eq_true']
  constructor
  · intro h
    have hbit := fun k => congrArg (BitVec.getLsbD · k) h
    have h0 := hbit 0
    have h1 := hbit 1
    have h2 := hbit 2
    simp only [BitVec.getLsbD_and] at h0 h1 h2
    exact ⟨⟨by simpa using h0, by simpa using h1⟩, by simpa using h2⟩
  · rintro ⟨⟨h0, h1⟩, h2⟩
    refine BitVec.eq_of_getLsbD_eq fun k hk => ?_
    rw [BitVec.getLsbD_and]
    by_cases h3 : k < 3
    · obtain rfl | rfl | rfl : k = 0 ∨ k = 1 ∨ k = 2 := by omega
      · rw [h0]; rfl
      · rw [h1]; rfl
      · rw [h2]; rfl
    · have hhigh : ∀ k : Fin 64, ¬ k.val < 3 →
          (7#64).getLsbD k = false ∧ (5#64).getLsbD k = false := by decide
      obtain ⟨h7k, h5k⟩ := hhigh ⟨k, hk⟩ h3
      rw [show (7#64).getLsbD k = false from h7k, show (5#64).getLsbD k = false from h5k,
        Bool.and_false]

theorem getLsbD_setImask (w : Word) (mask : Bool) :
    (setImask w mask).getLsbD 0 = w.getLsbD 0 ∧ (setImask w mask).getLsbD 1 = mask ∧
    (setImask w mask).getLsbD 2 = w.getLsbD 2 := by
  cases mask <;> simp [setImask, cntxCtlImask]

theorem TimerCtl.getLsbD_read (t : TimerCtl) (istatus : Bool) :
    (t.read istatus).getLsbD 0 = t.enable ∧ (t.read istatus).getLsbD 1 = t.imask ∧
    (t.read istatus).getLsbD 2 = istatus := by
  obtain ⟨enable, imask⟩ := t
  cases enable <;> cases imask <;> cases istatus <;> decide

@[simp] theorem timerCtl_read (t : TimerCtl) (istatus : Bool) : timerCtl (t.read istatus) = t := by
  obtain ⟨h0, h1, -⟩ := t.getLsbD_read istatus
  rw [timerCtl, h0, h1]

/-- `struct sysreg_state`, without what other subsystems restore. -/
structure SysregState where
  regs : SysReg → Word
  pmcrEl0 : Word
  cnthctlEl2 : Word
  cntpCtlEl0 : Word
  cntvCtlEl0 : Word
  gicstate : GicCpuState
  vmpidrEl2 : Word
  hcrEl2 : Word

/-- `struct common_sysreg_state`. -/
structure CommonSysregState where
  vttbrEl2 : Word
  vtcrEl2 : Word
  hcrEl2 : Word
  mdcrEl2 : Word

/-- `struct ns_state`. -/
structure NsState where
  sysregs : SysregState
  iccSreEl2 : Word
  pmu : PmuState

/-- `serror_info` of `struct rec`. -/
structure SerrorInfo where
  vsesrEl2 : Word
  inject : Bool

/-- The part of `struct rec` that the switch works with. `ns` names the CPU whose state of the
host the REC points to. -/
structure RecContext (ι : Type) where
  gprs : Fin 31 → Word
  spEl0 : Word
  pc : Word
  pstate : Word
  sysregs : SysregState
  commonSysregs : CommonSysregState
  pmuEnabled : Bool
  pmuNumCtrs : ℕ
  pmuNumCtrs_le : pmuNumCtrs ≤ 31
  pmu : PmuState
  serrorInfo : SerrorInfo
  ns : Option ι

/-- The registers of a CPU. -/
structure CpuRegs where
  regs : SysReg → Word
  cntpCtl : TimerCtl
  cntvCtl : TimerCtl
  pmu : PmuRegs
  gic : GicCpuState
  cnthctlEl2 : Word
  iccSreEl2 : Word
  vmpidrEl2 : Word
  elrEl2 : Word
  spsrEl2 : Word
  hcrEl2 : Word
  vsesrEl2 : Word
  mdcrEl2 : Word
  vtcrEl2 : Word
  vttbrEl2 : Word

def CpuRegs.readCntpCtl (h : CpuRegs) (now : Counters) : Word :=
  h.cntpCtl.read (decide (h.regs .cntpCvalEl0 ≤ now.cntpct))

def CpuRegs.readCntvCtl (h : CpuRegs) (now : Counters) : Word :=
  h.cntvCtl.read (decide (h.regs .cntvCvalEl0 ≤ now.cntvct))

section
variable {ι : Type} (f : GicVirtFeature) (now : Counters)

def saveSysregState (h : CpuRegs) (sysregs : SysregState) : SysregState :=
  { sysregs with
    regs := copyAt savedSysregs h.regs sysregs.regs
    pmcrEl0 := h.pmu.pmcr
    cntpCtlEl0 := h.readCntpCtl now
    cntvCtlEl0 := h.readCntvCtl now }

def restoreSysregState (sysregs : SysregState) (h : CpuRegs) : CpuRegs :=
  { h with
    regs := copyAt savedSysregs sysregs.regs h.regs
    pmu := h.pmu.writePmcr sysregs.pmcrEl0
    vmpidrEl2 := sysregs.vmpidrEl2
    cntpCtl := timerCtl sysregs.cntpCtlEl0
    cntvCtl := timerCtl sysregs.cntvCtlEl0 }

/-- The list registers that the switch over `nr_lrs` falls through to. -/
def lrNumbers : List ℕ := if f.nrLrs ≤ 15 then List.range (f.nrLrs + 1) else [0]

def aprNumbers : List ℕ := if f.nrAprs ≤ 3 then List.range (f.nrAprs + 1) else [0]

def gicRestoreState (gicstate : GicCpuState) (gic : GicCpuState) : GicCpuState :=
  { gic with
    ichAp0rEl2 := copyAt (aprNumbers f) gicstate.ichAp0rEl2 gic.ichAp0rEl2
    ichAp1rEl2 := copyAt (aprNumbers f) gicstate.ichAp1rEl2 gic.ichAp1rEl2
    ichLrEl2 := copyAt (lrNumbers f) gicstate.ichLrEl2 gic.ichLrEl2
    ichVmcrEl2 := gicstate.ichVmcrEl2
    ichHcrEl2 := gicstate.ichHcrEl2 }

/-- What `gic_save_state` keeps. -/
def gicSaveState (gic : GicCpuState) (gicstate : GicCpuState) : GicCpuState where
  ichAp0rEl2 := copyAt (aprNumbers f) gic.ichAp0rEl2 gicstate.ichAp0rEl2
  ichAp1rEl2 := copyAt (aprNumbers f) gic.ichAp1rEl2 gicstate.ichAp1rEl2
  ichLrEl2 := copyAt (lrNumbers f) gic.ichLrEl2 gicstate.ichLrEl2
  ichVmcrEl2 := gic.ichVmcrEl2
  ichHcrEl2 := gic.ichHcrEl2
  ichMisrEl2 := gic.ichMisrEl2

/-- The interface after `gic_save_state`, which turns it off. -/
def gicTurnOff (gic : GicCpuState) : GicCpuState :=
  { gic with ichHcrEl2 := gic.ichHcrEl2 &&& ~~~ichHcrEl2EnBit }

def saveRealmState (h : CpuRegs) (r : RecContext ι) : RecContext ι :=
  { r with
    sysregs := { saveSysregState now h r.sysregs with
      gicstate := gicSaveState f h.gic r.sysregs.gicstate }
    pc := h.elrEl2
    pstate := h.spsrEl2
    pmu := if r.pmuEnabled then pmuSaveState h.pmu r.pmu r.pmuNumCtrs else r.pmu }

def restoreRealmState (r : RecContext ι) (h : CpuRegs) : CpuRegs :=
  let h := restoreSysregState r.sysregs { h with cnthctlEl2 := r.sysregs.cnthctlEl2 }
  { h with
    elrEl2 := r.pc
    spsrEl2 := r.pstate
    hcrEl2 := r.sysregs.hcrEl2
    mdcrEl2 := r.commonSysregs.mdcrEl2
    gic := gicRestoreState f r.sysregs.gicstate h.gic
    vtcrEl2 := r.commonSysregs.vtcrEl2
    vttbrEl2 := r.commonSysregs.vttbrEl2
    pmu := if r.pmuEnabled then pmuRestoreState r.pmu h.pmu r.pmuNumCtrs else h.pmu }

def saveNsState (r : RecContext ι) (h : CpuRegs) (ns : NsState) : NsState where
  sysregs := { saveSysregState now h ns.sysregs with cnthctlEl2 := h.cnthctlEl2 }
  iccSreEl2 := h.iccSreEl2
  pmu := if r.pmuEnabled then pmuSaveState h.pmu ns.pmu r.pmuNumCtrs else ns.pmu

def restoreNsState (r : RecContext ι) (ns : NsState) (h : CpuRegs) : CpuRegs :=
  let h := restoreSysregState ns.sysregs h
  { h with
    cnthctlEl2 := ns.sysregs.cnthctlEl2
    iccSreEl2 := ns.iccSreEl2
    pmu := if r.pmuEnabled then pmuRestoreState ns.pmu h.pmu r.pmuNumCtrs else h.pmu }

def hcrVse : Word := 0x100#64
def hcrTvm : Word := 0x4000000#64

/-- What `opencca_check_pending_timers` leaves behind, and whether it found that the output of
a timer has changed. It then waits until the interrupt controller has taken a masked timer
off, which has no effect here. -/
structure TimerCheck where
  sysregs : SysregState
  cpu : CpuRegs
  changed : Bool

def openccaCheckPendingTimers (h : CpuRegs) (sysregs : SysregState) (simdTrap : Bool) :
    TimerCheck :=
  let cntvCtl := h.readCntvCtl now
  let cntpCtl := h.readCntpCtl now
  let cntvCtlNew := setImask sysregs.cntvCtlEl0 (timerAsserted cntvCtl || simdTrap)
  let cntpCtlNew := setImask sysregs.cntpCtlEl0 (timerAsserted cntpCtl || simdTrap)
  { sysregs := { sysregs with cntvCtlEl0 := cntvCtlNew, cntpCtlEl0 := cntpCtlNew }
    cpu := { h with cntvCtl := timerCtl cntvCtlNew, cntpCtl := timerCtl cntpCtlNew }
    changed :=
      timerAsserted cntvCtl != timerAsserted sysregs.cntvCtlEl0 ||
        timerAsserted cntpCtl != timerAsserted sysregs.cntpCtlEl0 }

/-- `activate_events` on the registers. It also drops the request, `r.noSerror`. -/
def activateEvents (r : RecContext ι) (h : CpuRegs) : CpuRegs :=
  if r.serrorInfo.inject then
    { h with vsesrEl2 := r.serrorInfo.vsesrEl2, hcrEl2 := r.sysregs.hcrEl2 ||| hcrVse }
  else h

def RecContext.noSerror (r : RecContext ι) : RecContext ι :=
  { r with serrorInfo := { r.serrorInfo with inject := false } }

/-- `run_realm` gives the realm its own SP_EL0. -/
def runRealm (r : RecContext ι) (h : CpuRegs) : CpuRegs :=
  { h with regs := Function.update h.regs .spEl0 r.spEl0 }

def rmmCpuEhStackEndVa : Word := 0xFFFFFFFFFFFCC000#64

/-- `realm_exit` keeps the general registers and SP_EL0 of the realm. -/
def RecContext.realmExit (r : RecContext ι) (gprs : Fin 31 → Word) (h : CpuRegs) :
    RecContext ι :=
  { r with gprs := gprs, spEl0 := h.regs .spEl0 }

def CpuRegs.realmExit (h : CpuRegs) : CpuRegs :=
  { h with regs := Function.update h.regs .spEl0 rmmCpuEhStackEndVa }

def sctlrElxMBit : Word := 1#64
def sctlrElxCBit : Word := 4#64

/-- `has_cache_enabled` on a value of SCTLR_EL1. -/
def hasCacheEnabled (sctlr : Word) : Bool :=
  sctlr &&& (sctlrElxMBit ||| sctlrElxCBit) == sctlrElxMBit ||| sctlrElxCBit

/-- `rec->regs[rt]`: the element behind the last one is `rec->sp_el0`. -/
def RecContext.gpr (r : RecContext ι) (rt : ℕ) : Word :=
  if h : rt < 31 then r.gprs ⟨rt, h⟩ else r.spEl0

def RecContext.setGpr (r : RecContext ι) (rt : ℕ) (v : Word) : RecContext ι :=
  if h : rt < 31 then { r with gprs := Function.update r.gprs ⟨rt, h⟩ v }
  else { r with spEl0 := v }

/-- `write_sysreg_by_esr`. A register that it does not know is left alone. -/
def writeSysregByEsr (sysreg v : Word) (h : CpuRegs) : CpuRegs :=
  match sysregByEsr sysreg with
  | some r => { h with regs := Function.update h.regs r v }
  | none => h

def readSysregByEsr (sysreg : Word) (h : CpuRegs) : Word :=
  match sysregByEsr sysreg with
  | some r => h.regs r
  | none => 0#64

/-- What a trapped access leaves, and the flush of the caches if there was one. -/
structure TrapEnd (ι : Type) where
  cpu : CpuRegs
  context : RecContext ι
  flush : Option CacheFlush

/-- `opencca_stage2_flush_realm`, with what it does to the caches. The walk over them selects
them in the register of the realm, and leaves the first one selected. -/
def openccaStage2FlushRealm (c : CacheGeometry) (h : CpuRegs) : CpuRegs × CacheFlush :=
  let done := asmFlushDcacheAll c (h.regs .csselrEl1)
  ({ h with regs := Function.update h.regs .csselrEl1 done.csselr }, ⟨c, done.ops⟩)

def toggleCache (c : CacheGeometry) (h : CpuRegs) (r : RecContext ι) (wasEnabled : Bool) :
    TrapEnd ι :=
  let nowEnabled := hasCacheEnabled (h.regs .sctlrEl1)
  let done := openccaStage2FlushRealm c h
  let h := if nowEnabled != wasEnabled then done.1 else h
  let flush := if nowEnabled != wasEnabled then some done.2 else none
  if nowEnabled then
    ⟨{ h with hcrEl2 := h.hcrEl2 &&& ~~~hcrTvm },
      { r with commonSysregs := { r.commonSysregs with
          hcrEl2 := r.commonSysregs.hcrEl2 &&& ~~~hcrTvm } }, flush⟩
  else ⟨h, r, flush⟩

def openccaHandleEsrTvmSysregTrap (c : CacheGeometry) (h : CpuRegs) (r : RecContext ι)
    (esr : Word) : TrapEnd ι :=
  let sysreg := esr &&& esrEl2SysregMask
  let rt := esrEl2SysregIssRt esr
  let wasEnabled := hasCacheEnabled (h.regs .sctlrEl1)
  if esrEl2SysregIsWrite esr then
    toggleCache c (writeSysregByEsr sysreg (r.gpr rt) h) r wasEnabled
  else toggleCache c h (r.setGpr rt (readSysregByEsr sysreg h)) wasEnabled

def pmcrEl0Init : Word := 0x60#64
def pmcrEl0InitReset : Word := pmcrEl0Init ||| pmcrEl0CBit ||| pmcrEl0PBit
def mdscrEl1TdccBit : Word := 0x1000#64
def cnthctlEl2NoTraps : Word := 0xC00#64
def hcrRealmFlags : Word := 0x4800C043F#64 ||| hcrTvm

/-- The content of zeroed memory. -/
def PmuState.zeroed : PmuState :=
  ⟨0#64, 0#64, 0#64, 0#64, 0#64, 0#64, 0#64, 0#64, 0#64, 0#64, 0#64, 0#64, fun _ => 0#64,
    fun _ => 0#64⟩

/-- What the caller and the realm decide about a new REC. -/
structure FreshRec where
  gprs : Fin 31 → Word
  pc : Word
  vmpidrEl2 : Word
  vttbrEl2 : Word
  vtcrEl2 : Word
  mdcrEl2 : Word
  pmuEnabled : Bool
  pmuNumCtrs : ℕ
  pmuNumCtrs_le : pmuNumCtrs ≤ 31

/-- `init_rec_sysregs` on a zeroed REC. -/
def FreshRec.sysregs (p : FreshRec) : SysregState where
  regs
    | .sctlrEl1 => sctlrEl1Flags
    | .mdscrEl1 => mdscrEl1TdccBit
    | _ => 0#64
  pmcrEl0 := if p.pmuEnabled then pmcrEl0InitReset else pmcrEl0Init
  cnthctlEl2 := cnthctlEl2NoTraps
  cntpCtlEl0 := 0#64
  cntvCtlEl0 := 0#64
  gicstate := gicCpuStateInit
  vmpidrEl2 := p.vmpidrEl2
  hcrEl2 := 0#64

/-- `init_rec_regs` and `init_common_sysregs` on a zeroed REC. -/
def FreshRec.context (p : FreshRec) : RecContext ι where
  gprs := p.gprs
  spEl0 := 0#64
  pc := p.pc
  pstate := pstateReset
  sysregs := p.sysregs
  commonSysregs := ⟨p.vttbrEl2, p.vtcrEl2, hcrRealmFlags, p.mdcrEl2⟩
  pmuEnabled := p.pmuEnabled
  pmuNumCtrs := p.pmuNumCtrs
  pmuNumCtrs_le := p.pmuNumCtrs_le
  pmu := .zeroed
  serrorInfo := ⟨0#64, false⟩
  ns := none

end

end RmmCaec
