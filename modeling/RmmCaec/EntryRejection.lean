import RmmCaec.MmioEmulation
import RmmCaec.GicState
import RmmCaec.FoldRoundTrip

/-!
# Entries that are sent back

`smc_rec_enter` checks the host's data step by step, and some steps write to the REC before
a later one refuses. Here the call is followed from its first check to its return, with the
system registers of the REC, and the calls that return an error behind a write are told
from all others.
-/
namespace RmmCaec
open RadixForest Outcome Runs

def ichHcrEl2EnBit : Word := 1#64
def ichHcrEl2VsgieeoicountBit : Word := 0x100#64
def ichHcrEl2DvimBit : Word := 0x8000#64

/-- The content of a zeroed REC granule. -/
instance : Inhabited GicCpuState :=
  ⟨⟨fun _ => 0#64, fun _ => 0#64, 0#64, 0#64, fun _ => 0#64, 0#64⟩⟩

def gicCpuStateInit : GicCpuState :=
  { (default : GicCpuState) with
    ichHcrEl2 := ichHcrEl2EnBit ||| ichHcrEl2VsgieeoicountBit ||| ichHcrEl2DvimBit }

/-- The system registers of a REC that an entry writes, and the value of HCR_EL2 that all
its entries start from. -/
structure RecSysregs where
  gicstate : GicCpuState
  hcrEl2 : Word
  commonHcrEl2 : Word

instance : Inhabited RecSysregs := ⟨⟨default, 0#64, 0#64⟩⟩

/-- The registers of a new REC. -/
def initRecSysregs (hcr : Word) : RecSysregs := ⟨gicCpuStateInit, 0#64, hcr⟩

/-- `rmi_rec_enter` with its interrupt registers. -/
structure RecRunEnter where
  flags : Word
  gprs : Fin 31 → Word
  gic : GicEnter

/-- The data with the verdict of `gic_validate_state`. -/
def RecRunEnter.checked (f : GicVirtFeature) (e : RecRunEnter) : RmiRecEnter :=
  ⟨e.flags, e.gprs, gicValidateState f e.gic⟩

def recEntryFlagTrapWfi : Word := 4#64
def recEntryFlagTrapWfe : Word := 8#64
def hcrTwi : Word := 0x2000#64
def hcrTwe : Word := 0x4000#64

/-- HCR_EL2 for the entry. -/
def entryHcr (common : Word) (e : RmiRecEnter) : Word :=
  let hcr := if e.has recEntryFlagTrapWfi then common ||| hcrTwi else common
  if e.has recEntryFlagTrapWfe then hcr ||| hcrTwe else hcr

/-- How far the call gets: it returns, or the realm runs. -/
inductive EnterEnd
  | returned (ret : ReturnCode)
  | entered
  deriving DecidableEq, Repr

/-- The memory, the RECs and the memory of the realms. -/
structure EnterState where
  mem : State
  vcpu : Word → RunVcpu
  regs : Word → RecSysregs
  data : Word → Word

/-- What the part of the call leaves behind that has the REC mapped. -/
structure MappedRec where
  mem : State
  vcpu : RunVcpu
  regs : RecSysregs
  data : Word → Word
  ended : EnterEnd

section
variable (f : GicVirtFeature)

/-- `smc_rec_enter` from the check of the realm to `out_unmap_buffers`, or to the first
instruction of the realm. -/
def recEnterMapped (s : State) (recAddr : Word) (v : RunVcpu) (regs : RecSysregs)
    (data : Word → Word) (enter : RecRunEnter) : Rmm MappedRec :=
  let r := s.recs recAddr
  let e := enter.checked f
  match (s.rd r.gRd).state with
  | .NEW => return ⟨s, v, regs, data, .returned ⟨.ERROR_REALM, 0⟩⟩
  | .SYSTEM_OFF => return ⟨s, v, regs, data, .returned ⟨.ERROR_REALM, 1⟩⟩
  | .ACTIVE =>
    if !v.runnable then return ⟨s, v, regs, data, .returned rmiErrorRec⟩
    else if v.pending then return ⟨s, v, regs, data, .returned rmiErrorRec⟩
    else if !gicValidateState f enter.gic then return ⟨s, v, regs, data, .returned rmiErrorRec⟩
    else
      let regs1 := { regs with gicstate := gicCopyStateFromRecEntry f regs.gicstate enter.gic }
      match completeSeaInsertion r v e with
      | none => return ⟨s, v, regs1, data, .returned rmiErrorRec⟩
      | some v1 =>
        match completeMmioEmulation v1 e with
        | none => return ⟨s, v1, regs1, data, .returned rmiErrorRec⟩
        | some v2 => do
          let r1 := { r with
            setRipas := { r.setRipas with reject := e.has recEntryFlagRipasResponse } }
          let v3 := completeSysregEmulation (setRipasRegs r1.setRipas v2) e
          let s1 := s.setRec recAddr (completeSetRipas r1)
          match ← completeHostCall s r v3 data e with
          | (v4, data1, .aborted _) => return ⟨s1, v4, regs1, data1, .returned rmiSuccess⟩
          | (v4, data1, .done) =>
            let regs2 := { regs1 with hcrEl2 := entryHcr regs1.commonHcrEl2 e }
            return ⟨s1, resetLastRunInfo v4, regs2, data1, .entered⟩

/-- `smc_rec_enter` up to its return or to the first instruction of the realm. The reads and
writes of the host's memory may fail: `host` is what the first one has read, and `written`
says whether the last one succeeds. -/
def smcRecEnterRun (plat : Platform) (m : EnterState) (recAddr runAddr : Word)
    (host : Option RecRunEnter) (written : Bool) : Rmm (EnterState × EnterEnd) := do
  if !(findGranule plat runAddr && (m.mem.granule runAddr).state == .NS) then
    return (m, .returned rmiErrorInput)
  else
    let found ← findLockGranule plat m.mem [] recAddr .REC
    if !found then return (m, .returned rmiErrorInput)
    else if (m.mem.granule recAddr).refcount ≠ 0 then return (m, .returned rmiErrorRec)
    else
      let s1 ← atomicGranuleGet m.mem recAddr
      granuleUnlock s1 recAddr
      match host with
      | none =>
        let s2 ← atomicGranulePut s1 recAddr
        return ({ m with mem := s2 }, .returned rmiErrorInput)
      | some enter =>
        let o ← recEnterMapped f s1 recAddr (m.vcpu recAddr) (m.regs recAddr) m.data enter
        let vcpu := Function.update m.vcpu recAddr o.vcpu
        let regs := Function.update m.regs recAddr o.regs
        match o.ended with
        | .entered => return (⟨o.mem, vcpu, regs, o.data⟩, .entered)
        | .returned ret =>
          let ret1 := if ret = rmiSuccess ∧ written = false then rmiErrorInput else ret
          let s2 ← atomicGranulePut o.mem recAddr
          return (⟨s2, vcpu, regs, o.data⟩, .returned ret1)

end

/-- The machine of entries and exits with the system registers of the RECs. -/
structure RegsSmp (ι : Type) where
  run : RunSmp ι
  regs : Word → RecSysregs

/-- The registers after a step that makes some RECs or frees some. -/
def recSysregsAfter (s s' : State) (regs : Word → RecSysregs) (hcr : Word) :
    Word → RecSysregs :=
  fun g =>
    if (s'.granule g).state = .REC then
      if (s.granule g).state = .REC then regs g else initRecSysregs hcr
    else default

inductive RegsAct (ι : Type)
  /-- A step of the machine below that is no entry. -/
  | run (a : RunAct ι) (hcr : Word)
  | enter (c : ι) (host : Option RecRunEnter)
  /-- The realm and the hardware use the registers of a running REC. -/
  | sysregs (c : ι) (regs : RecSysregs)

def RunAct.isEnter {ι : Type} : RunAct ι → Bool
  | .enter _ _ => true
  | _ => false

section
variable {ι : Type} [DecidableEq ι]

/-- One step. -/
def RegsNext (f : GicVirtFeature) (plat : Platform) (m : RegsSmp ι) (a : RegsAct ι)
    (m' : RegsSmp ι) : Prop :=
  match a with
  | .run a hcr => a.isEnter = false ∧ RunNext plat m.run a m'.run ∧
      m'.regs = recSysregsAfter m.run.smp.mem m'.run.smp.mem m.regs hcr
  | .enter c host => ∃ recAddr regs, (m.run.smp.cpu c).inside = some recAddr ∧
      RunNext plat m.run (.enter c (host.map (·.checked f))) m'.run ∧
      (match host with
        | none => regs = m.regs recAddr
        | some e => ∃ o, recEnterMapped f m.run.smp.mem recAddr (m.run.vcpu recAddr)
            (m.regs recAddr) m.run.data e = .ok o ∧ regs = o.regs) ∧
      m'.regs = Function.update m.regs recAddr regs
  | .sysregs c regs => ∃ recAddr, m.run.smp.cpu c = .running recAddr ∧
      m' = ⟨m.run, Function.update m.regs recAddr regs⟩

def initRegs : RegsSmp ι := ⟨initRun, fun _ => default⟩

/-- The states that any entries, exits and other calls reach. -/
abbrev RegsReachable (f : GicVirtFeature) (plat : Platform) : RegsSmp ι → Prop :=
  Reach initRegs (RegsNext f plat) fun _ _ => True

/-- What a call of a CPU works on. -/
def RegsSmp.toEnter (m : RegsSmp ι) : EnterState :=
    ⟨m.run.smp.mem, m.run.vcpu, m.regs, m.run.data⟩

theorem RegsReachable.run {f : GicVirtFeature} {plat : Platform} {m : RegsSmp ι}
    (h : RegsReachable f plat m) : RunReachable plat m.run := by
  induction h with
  | init => exact .init
  | @step m a m' before allowed taken ih =>
    cases a with
    | run a hcr =>
      obtain ⟨-, hn, -⟩ := taken
      exact .step ih trivial hn
    | enter c host =>
      obtain ⟨recAddr, regs, -, hn, -, -⟩ := taken
      exact .step ih trivial hn
    | sysregs c regs =>
      obtain ⟨recAddr, -, rfl⟩ := taken
      exact ih

end

/-- What is left to do. -/
def EnterEnd.job (recAddr : Word) : EnterEnd → Job
  | .returned ret => .leaving recAddr ret
  | .entered => .running recAddr

section
variable {f : GicVirtFeature} {plat : Platform} {s : State} {recAddr runAddr : Word}
  {v : RunVcpu} {regs : RecSysregs} {data : Word → Word} {enter : RecRunEnter}

/-- The mapped part of the call is an entry of the machine. -/
theorem recEnterMapped_sections :
    Sat (recEnterMapped f s recAddr v regs data enter) (fun out =>
      ∃ o, recEnterCompletions s recAddr v data (some (enter.checked f)) = .ok o ∧
        recEnterBody s recAddr o.entry (ripasResponse (some (enter.checked f))) =
          .ok (out.mem, out.ended.job recAddr, none) ∧
        o.vcpu = out.vcpu ∧ o.data = out.data) fun _ => True := by
  unfold recEnterMapped recEnterCompletions recEnterBody enterCompletions
  dsimp only
  cases hstate : (s.rd (s.recs recAddr).gRd).state with
  | NEW | SYSTEM_OFF => exact Sat.pure ⟨_, rfl, rfl, rfl, rfl⟩
  | ACTIVE =>
    dsimp only
    split
    · exact Sat.pure ⟨_, rfl, rfl, rfl, rfl⟩
    split
    · exact Sat.pure ⟨_, rfl, rfl, rfl, rfl⟩
    have hgic : (enter.checked f).gicValid = gicValidateState f enter.gic := rfl
    rw [hgic]
    split
    · exact Sat.pure ⟨_, rfl, rfl, rfl, rfl⟩
    cases completeSeaInsertion (s.recs recAddr) v (enter.checked f) with
    | none => exact Sat.pure ⟨_, rfl, rfl, rfl, rfl⟩
    | some v1 =>
    dsimp only
    cases completeMmioEmulation v1 (enter.checked f) with
    | none => exact Sat.pure ⟨_, rfl, rfl, rfl, rfl⟩
    | some v2 =>
    refine Sat.bind (Sat.self fun _ _ => trivial) ?_
    rintro ⟨v4, data1, ended⟩ hcall
    simp only [completeRequests, hcall]
    cases ended with
    | aborted level => exact Sat.pure ⟨_, rfl, rfl, rfl, rfl⟩
    | done => exact Sat.pure ⟨_, rfl, rfl, rfl, rfl⟩

/-- The sections of the machine that make up a call. -/
inductive EnterSections (plat : Platform) (m : EnterState) (recAddr runAddr : Word)
    (host : Option RmiRecEnter) : EnterState → EnterEnd → Prop
  | back {entry : RecEntry} {ret : ReturnCode}
      (checks : recEnterSection plat m.mem recAddr runAddr entry (ripasResponse host) =
        .ok (m.mem, .idle, some (.smc (smcRet ret)))) :
      EnterSections plat m recAddr runAddr host m (.returned ret)
  | through {o : EnterOutcome} {s1 s2 : State} {x : EnterState} {ended ended' : EnterEnd}
      (checks : recEnterSection plat m.mem recAddr runAddr o.entry (ripasResponse host) =
        .ok (s1, .entered recAddr o.entry (ripasResponse host), none))
      (completions : recEnterCompletions s1 recAddr (m.vcpu recAddr) m.data host = .ok o)
      (body : recEnterBody s1 recAddr o.entry (ripasResponse host) =
        .ok (s2, ended.job recAddr, none))
      (vcpu : x.vcpu = Function.update m.vcpu recAddr o.vcpu) (data : x.data = o.data)
      (last : match ended with
        | .entered => x.mem = s2 ∧ ended' = .entered
        | .returned ret => ∃ ret', handlerResume plat s2 (.leaving recAddr ret) =
            .ok (x.mem, .idle, some (.smc (smcRet ret))) ∧ ended' = .returned ret' ∧
            (ret' = ret ∨ (ret = rmiSuccess ∧ ret' = rmiErrorInput))) :
      EnterSections plat m recAddr runAddr host x ended'

/-- The checks under the lock of the REC. -/
structure EnterPasses (plat : Platform) (s : State) (recAddr runAddr : Word) : Prop where
  run : (findGranule plat runAddr && (s.granule runAddr).state == .NS) = true
  isRec : lockable plat s recAddr .REC = true
  unused : (s.granule recAddr).refcount = 0

namespace EnterPasses

variable (h : EnterPasses plat s recAddr runAddr)
include h

theorem get : atomicGranuleGet s recAddr = .ok (s.setRefcount recAddr 1) := by
  unfold atomicGranuleGet granuleRefcountInc
  rw [h.unused]
  rfl

theorem unlock : granuleUnlock (s.setRefcount recAddr 1) recAddr = .ok () := by
  unfold granuleUnlock
  rw [State.setRefcount_same, lockable_state h.isRec]
  rfl

theorem section_eq (entry : RecEntry) (reject : Bool) :
    recEnterSection plat s recAddr runAddr entry reject =
      .ok (s.setRefcount recAddr 1, .entered recAddr entry reject, none) := by
  unfold recEnterSection
  simp only [h.run, findLockGranule_free, h.isRec, h.unused, ok_bind_eq, h.get, h.unlock,
    Bool.not_true, Bool.false_eq_true, if_false, ne_eq, not_true]
  rfl

omit h in
/-- The reference is dropped again. -/
theorem put {s2 : State} (hs : s2.granule = (s.setRefcount recAddr 1).granule) :
    atomicGranulePut s2 recAddr = .ok (s2.setRefcount recAddr 0) := by
  have hcount : (s2.granule recAddr).refcount = 1 := by
    rw [hs, State.setRefcount_same]
  unfold atomicGranulePut granuleRefcountDec
  rw [hcount]
  rfl

end EnterPasses

theorem enterPasses_or : EnterPasses plat s recAddr runAddr ∨
    (findGranule plat runAddr && (s.granule runAddr).state == .NS) = false ∨
    ((findGranule plat runAddr && (s.granule runAddr).state == .NS) = true ∧
      lockable plat s recAddr .REC = false) ∨
    ((findGranule plat runAddr && (s.granule runAddr).state == .NS) = true ∧
      lockable plat s recAddr .REC = true ∧ (s.granule recAddr).refcount ≠ 0) := by
  cases hrun : findGranule plat runAddr && (s.granule runAddr).state == .NS with
  | false => exact .inr (.inl rfl)
  | true =>
    cases hrec : lockable plat s recAddr .REC with
    | false => exact .inr (.inr (.inl ⟨rfl, rfl⟩))
    | true =>
      by_cases hcount : (s.granule recAddr).refcount = 0
      · exact .inl ⟨hrun, hrec, hcount⟩
      · exact .inr (.inr (.inr ⟨rfl, rfl, hcount⟩))

/-- Without them the call returns at once. -/
theorem smcRecEnterRun_of_not {m : EnterState} (h : ¬ EnterPasses plat m.mem recAddr runAddr)
    (host : Option RecRunEnter) (written : Bool) : ∃ ret, ret ≠ rmiSuccess ∧
      smcRecEnterRun f plat m recAddr runAddr host written = .ok (m, .returned ret) ∧
      ∀ entry reject, recEnterSection plat m.mem recAddr runAddr entry reject =
        .ok (m.mem, .idle, some (.smc (smcRet ret))) := by
  unfold smcRecEnterRun recEnterSection
  obtain hp | hrun | ⟨hrun, hrec⟩ | ⟨hrun, hrec, hcount⟩ :=
    @enterPasses_or plat m.mem recAddr runAddr
  · exact absurd hp h
  · simp only [hrun]
    exact ⟨rmiErrorInput, by decide, rfl, fun _ _ => rfl⟩
  · simp only [hrun, findLockGranule_free, hrec]
    exact ⟨rmiErrorInput, by decide, rfl, fun _ _ => rfl⟩
  · simp only [hrun, findLockGranule_free, hrec, ok_bind_eq, Bool.not_true,
      Bool.false_eq_true, if_false, if_pos hcount]
    exact ⟨rmiErrorRec, by decide, rfl, fun _ _ => rfl⟩

/-- With them it reads the host's data and maps the REC. -/
theorem EnterPasses.call {m : EnterState} (h : EnterPasses plat m.mem recAddr runAddr)
    (host : Option RecRunEnter) (written : Bool) :
    smcRecEnterRun f plat m recAddr runAddr host written =
      match host with
      | none => .ok (m, .returned rmiErrorInput)
      | some enter => do
        let o ← recEnterMapped f (m.mem.setRefcount recAddr 1) recAddr (m.vcpu recAddr)
          (m.regs recAddr) m.data enter
        let vcpu := Function.update m.vcpu recAddr o.vcpu
        let regs := Function.update m.regs recAddr o.regs
        match o.ended with
        | .entered => return (⟨o.mem, vcpu, regs, o.data⟩, .entered)
        | .returned ret =>
          let ret1 := if ret = rmiSuccess ∧ written = false then rmiErrorInput else ret
          let s2 ← atomicGranulePut o.mem recAddr
          return (⟨s2, vcpu, regs, o.data⟩, .returned ret1) := by
  unfold smcRecEnterRun
  simp only [h.run, findLockGranule_free, h.isRec, h.unused, ok_bind_eq, h.get, h.unlock,
    Bool.not_true, Bool.false_eq_true, if_false, ne_eq, not_true]
  cases host with
  | none =>
    have hback : (m.mem.setRefcount recAddr 1).setRefcount recAddr 0 = m.mem := by
      have := State.setRefcount_back m.mem recAddr 1
      rwa [h.unused] at this
    simp only [EnterPasses.put rfl, hback]
    rfl
  | some enter => rfl

theorem EnterPasses.leave {s2 : State} (hs : s2.granule = (s.setRefcount recAddr 1).granule)
    (ret : ReturnCode) : handlerResume plat s2 (.leaving recAddr ret) =
      .ok (s2.setRefcount recAddr 0, .idle, some (.smc (smcRet ret))) := by
  unfold handlerResume
  simp only [EnterPasses.put hs, ok_bind_eq]
  rfl

/-- The call is what the machine does in its sections, one behind the other, up to the write
of the exit information. -/
theorem smcRecEnterRun_sections (m : EnterState) (host : Option RecRunEnter) (written : Bool) :
    Sat (smcRecEnterRun f plat m recAddr runAddr host written) (fun res =>
      EnterSections plat m recAddr runAddr (host.map (·.checked f)) res.1 res.2)
      fun _ => True := by
  by_cases h : EnterPasses plat m.mem recAddr runAddr
  swap
  · obtain ⟨ret, -, hcall, hsec⟩ :=
      @smcRecEnterRun_of_not f plat recAddr runAddr m h host written
    rw [hcall]
    exact Sat.ok (.back (hsec .run _))
  rw [h.call]
  cases host with
  | none =>
    have hbody : recEnterBody (m.mem.setRefcount recAddr 1) recAddr .unreadable
        (ripasResponse (none : Option RmiRecEnter)) = .ok (m.mem.setRefcount recAddr 1,
          (EnterEnd.returned rmiErrorInput).job recAddr, none) := rfl
    have hback : (m.mem.setRefcount recAddr 1).setRefcount recAddr 0 = m.mem := by
      have := State.setRefcount_back m.mem recAddr 1
      rwa [h.unused] at this
    have hleave := @EnterPasses.leave plat m.mem recAddr _ rfl rmiErrorInput
    rw [hback] at hleave
    exact Sat.ok (.through (h.section_eq _ _) rfl hbody
      (Function.update_eq_self recAddr m.vcpu).symm rfl ⟨_, hleave, rfl, .inl rfl⟩)
  | some enter =>
    refine Sat.bind recEnterMapped_sections ?_
    rintro out ⟨o, hcomplete, hbody, hv, hd⟩
    have hgran := ((recEnterBody_noRequest recAddr o.entry _).of_ok hbody).1
    cases hend : out.ended with
    | entered =>
      rw [hend] at hbody
      dsimp only
      rw [← hv]
      exact Sat.pure (.through (h.section_eq _ _) hcomplete hbody rfl hd.symm ⟨rfl, rfl⟩)
    | returned ret =>
      rw [hend] at hbody
      dsimp only
      rw [EnterPasses.put hgran, ok_bind_eq, ← hv]
      refine Sat.pure (.through (h.section_eq _ _) hcomplete hbody rfl hd.symm
        ⟨_, EnterPasses.leave hgran ret, rfl, ?_⟩)
      split
      · next hw => exact .inr ⟨hw.1, rfl⟩
      · exact .inl rfl

/-- The checks in front of the first write to the REC. -/
structure RecReady (f : GicVirtFeature) (s : State) (recAddr : Word) (v : RunVcpu)
    (enter : RecRunEnter) : Prop where
  active : (s.rd (s.recs recAddr).gRd).state = .ACTIVE
  runnable : v.runnable = true
  ready : v.pending = false
  gic : gicValidateState f enter.gic = true

/-- The host asks for an abort or an emulation that the last exit does not allow. -/
def Unfit (r : Rec) (v : RunVcpu) (e : RmiRecEnter) : Prop :=
  if e.has recEntryFlagInjectSea then
    ecOf v.lastRunInfo.esr ≠ esrEl2EcDataAbort ∨
      addrInRecPar r (hpfarFipa v.lastRunInfo.hpfar) = true
  else e.has recEntryFlagEmulMmio = true ∧
    (ecOf v.lastRunInfo.esr ≠ esrEl2EcDataAbort ∨ esrIsv v.lastRunInfo.esr = false)

/-- A host call is open, and the page of its structure is gone. -/
def CallFaults (s : State) (r : Rec) (v : RunVcpu) : Prop :=
  v.hostCall = true ∧ ∃ ripas level, ripas ≠ .EMPTY ∧
    realmIpaToPa s r (hostCallPage (v.gprs 1)) = .ok (.WALK_FAIL ripas level)

/-- The registers behind `gic_copy_state_from_rec_entry`. -/
def copiedRegs (f : GicVirtFeature) (regs : RecSysregs) (enter : RecRunEnter) : RecSysregs :=
  { regs with gicstate := gicCopyStateFromRecEntry f regs.gicstate enter.gic }

/-- A REC with the host's response. -/
def respondedRec (r : Rec) (e : RmiRecEnter) : Rec :=
  { r with setRipas := { r.setRipas with reject := e.has recEntryFlagRipasResponse } }

theorem recEnterMapped_of_not (h : ¬ RecReady f s recAddr v enter) :
    ∃ ret, ret ≠ rmiSuccess ∧
    recEnterMapped f s recAddr v regs data enter = .ok ⟨s, v, regs, data, .returned ret⟩ := by
  unfold recEnterMapped
  dsimp only
  cases hstate : (s.rd (s.recs recAddr).gRd).state with
  | NEW | SYSTEM_OFF => exact ⟨_, by decide, rfl⟩
  | ACTIVE =>
    dsimp only
    split
    · exact ⟨_, by decide, rfl⟩
    next hon =>
    split
    · exact ⟨_, by decide, rfl⟩
    next hready =>
    split
    · exact ⟨_, by decide, rfl⟩
    next hgic =>
    exact absurd ⟨hstate, by simpa using hon, by simpa using hready, by simpa using hgic⟩ h

/-- A refusal comes behind the copy. -/
theorem recEnterMapped_unfit (h : RecReady f s recAddr v enter)
    (hu : Unfit (s.recs recAddr) v (enter.checked f)) :
    recEnterMapped f s recAddr v regs data enter =
      .ok ⟨s, v, copiedRegs f regs enter, data, .returned rmiErrorRec⟩ := by
  unfold recEnterMapped
  simp only [h.active, h.runnable, h.ready, h.gic, Bool.not_true, Bool.false_eq_true, if_false]
  unfold Unfit at hu
  cases hsea : (enter.checked f).has recEntryFlagInjectSea with
  | true =>
    rw [hsea, if_pos rfl] at hu
    have hnone : completeSeaInsertion (s.recs recAddr) v (enter.checked f) = none := by
      unfold completeSeaInsertion
      rw [hsea]
      obtain hec | hpar := hu
      · simp [hec]
      · simp [hpar]
    rw [hnone]
    rfl
  | false =>
    rw [hsea, if_neg (by decide)] at hu
    have hskip : completeSeaInsertion (s.recs recAddr) v (enter.checked f) = some v := by
      simp [completeSeaInsertion, hsea]
    have hnone : completeMmioEmulation v (enter.checked f) = none := by
      rw [completeMmioEmulation_eq hu.1 hsea, if_neg]
      rintro ⟨hec, hisv⟩
      rw [hec, hisv] at hu
      simp at hu
    rw [hskip]
    dsimp only
    rw [hnone]
    rfl

/-- The completion of a host call that has faulted leaves everything as it is. -/
theorem completeHostCall_faults {r : Rec} {e : RmiRecEnter} :
    Sat (completeHostCall s r v data e) (fun res =>
      (CallFaults s r v ∧ ∃ level, res = (v, data, .aborted level)) ∨
        (¬ CallFaults s r v ∧ res.2.2 = .done)) fun _ => ¬ CallFaults s r v := by
  unfold completeHostCall
  cases hcall : v.hostCall with
  | false => exact Sat.pure (.inr ⟨fun hc => absurd (hcall.symm.trans hc.1) (by decide), rfl⟩)
  | true =>
    simp only [Bool.not_true, Bool.false_eq_true, if_false]
    have not : ∀ walk, realmIpaToPa s r (hostCallPage (v.gprs 1)) = walk →
        (∀ ripas level, ripas ≠ .EMPTY → walk ≠ .ok (.WALK_FAIL ripas level)) →
        ¬ CallFaults s r v := by
      rintro walk hwalk hne ⟨-, ripas, level, hempty, hfail⟩
      exact hne ripas level hempty (hwalk.symm.trans hfail)
    cases hwalk : realmIpaToPa s r (hostCallPage (v.gprs 1)) with
    | error err => exact Sat.error_bind (not _ hwalk nofun)
    | ok walk =>
      cases walk with
      | WALK_SUCCESS pa => exact Sat.ok (.inr ⟨not _ hwalk nofun, rfl⟩)
      | WALK_FAIL ripas level =>
        cases ripas with
        | EMPTY =>
          refine Sat.ok (.inr ⟨not _ hwalk ?_, rfl⟩)
          rintro ripas level' hempty heq
          cases heq
          exact hempty rfl
        | RAM | DESTROYED =>
          exact Sat.ok (.inl ⟨⟨hcall, _, _, by decide, hwalk⟩, level, rfl⟩)
      | WALK_INVALID_PARAMS => exact Sat.error (not _ hwalk nofun)

/-- Data that is fit for the last exit passes both refusals, and a pending host call keeps the
REC as it is. -/
theorem fit_completes {r : Rec} {e : RmiRecEnter} (h : RequestInv r v) (hu : ¬ Unfit r v e) :
    ∃ v1 v2, completeSeaInsertion r v e = some v1 ∧ completeMmioEmulation v1 e = some v2 ∧
      v2.hostCall = v.hostCall ∧ (v.hostCall = true → v2 = v) := by
  have smc : v.hostCall = true → ecOf v.lastRunInfo.esr ≠ esrEl2EcDataAbort := by
    intro hcall hec
    exact absurd ((h.smc (.inr (.inl hcall))).symm.trans hec) (by decide)
  unfold Unfit at hu
  cases hsea : e.has recEntryFlagInjectSea with
  | true =>
    rw [hsea, if_pos rfl, not_or, not_not, Bool.not_eq_true] at hu
    refine ⟨injectSyncIdabortRec v esrEl2AbortFscSea, injectSyncIdabortRec v esrEl2AbortFscSea,
      ?_, ?_, rfl, fun hcall => absurd hu.1 (smc hcall)⟩
    · simp [completeSeaInsertion, hsea, hu.1, hu.2]
    · simp [completeMmioEmulation, hsea]
  | false =>
    rw [hsea, if_neg (by decide)] at hu
    have hskip : completeSeaInsertion r v e = some v := by
      simp [completeSeaInsertion, hsea]
    cases hmmio : e.has recEntryFlagEmulMmio with
    | false => exact ⟨v, v, hskip, by simp [completeMmioEmulation, hmmio], rfl, fun _ => rfl⟩
    | true =>
      rw [hmmio] at hu
      have hw : ecOf v.lastRunInfo.esr = esrEl2EcDataAbort ∧
          esrIsv v.lastRunInfo.esr = true := by simpa using hu
      refine ⟨v, afterAccess v (e.gprs 0), hskip, ?_, rfl, fun hcall => absurd hw.1 (smc hcall)⟩
      rw [completeMmioEmulation_eq hmmio hsea, if_pos hw]

theorem completeSysregEmulation_hostCall (e : RmiRecEnter) :
    (completeSysregEmulation v e).hostCall = v.hostCall := by
  unfold completeSysregEmulation
  dsimp only
  split
  · rfl
  split
  · rfl
  split <;> rfl

/-- The REC in front of the completion of a host call: it is as before if there is one. -/
theorem beforeHostCall {r : Rec} {e : RmiRecEnter} {v2 : RunVcpu} (h : RequestInv r v)
    (hcall2 : v2.hostCall = v.hostCall) (hsame : v.hostCall = true → v2 = v) :
    (completeSysregEmulation (setRipasRegs (respondedRec r e).setRipas v2) e).hostCall =
        v.hostCall ∧
      (v.hostCall = true →
        completeSysregEmulation (setRipasRegs (respondedRec r e).setRipas v2) e = v ∧
        completeSetRipas (respondedRec r e) = respondedRec r e) := by
  refine ⟨?_, fun hcall => ?_⟩
  · rw [completeSysregEmulation_hostCall, setRipasRegs_kept.2, hcall2]
  · have hask : (respondedRec r e).setRipas.base = (respondedRec r e).setRipas.top :=
      not_not.mp (h.callAsk hcall)
    have hsys : ¬ Waits r v .sysreg := by
      rintro ⟨hsys, -⟩
      exact absurd ((h.smc (.inr (.inl hcall))).symm.trans hsys) (by decide)
    rw [setRipasRegs_of_not hask, hsame hcall]
    exact ⟨completeSysregEmulation_of_not hsys, if_pos hask⟩

/-- An entry that is ready and fit runs the realm, or returns at the host call. -/
theorem recEnterMapped_fit (h : RequestInv (s.recs recAddr) v)
    (hready : RecReady f s recAddr v enter)
    (hu : ¬ Unfit (s.recs recAddr) v (enter.checked f)) :
    Sat (recEnterMapped f s recAddr v regs data enter) (fun out =>
      (CallFaults s (s.recs recAddr) v ∧
        out = ⟨s.setRec recAddr (respondedRec (s.recs recAddr) (enter.checked f)), v,
          copiedRegs f regs enter, data, .returned rmiSuccess⟩) ∨
      (¬ CallFaults s (s.recs recAddr) v ∧ out.ended = .entered))
      fun _ => ¬ CallFaults s (s.recs recAddr) v := by
  obtain ⟨v1, v2, hsea, hmmio, hcall2, hsame⟩ := fit_completes h hu
  obtain ⟨hcall3, hkept⟩ := @beforeHostCall v (s.recs recAddr) (enter.checked f) v2
    h hcall2 hsame
  unfold recEnterMapped
  simp only [hready.active, hready.runnable, hready.ready, hready.gic, Bool.not_true,
    Bool.false_eq_true, if_false, hsea, hmmio]
  change Sat (do
    match ← completeHostCall s (s.recs recAddr) (completeSysregEmulation
        (setRipasRegs (respondedRec (s.recs recAddr) (enter.checked f)).setRipas v2)
          (enter.checked f)) data (enter.checked f) with
    | (v4, data1, .aborted _) => return ⟨s.setRec recAddr (completeSetRipas
        (respondedRec (s.recs recAddr) (enter.checked f))), v4, copiedRegs f regs enter, data1,
          .returned rmiSuccess⟩
    | (v4, data1, .done) => return ⟨s.setRec recAddr (completeSetRipas
        (respondedRec (s.recs recAddr) (enter.checked f))), resetLastRunInfo v4, _, data1,
          .entered⟩ : Rmm MappedRec) _ _
  generalize completeSysregEmulation (setRipasRegs (respondedRec (s.recs recAddr)
    (enter.checked f)).setRipas v2) (enter.checked f) = v3 at hcall3 hkept
  have hfaults : CallFaults s (s.recs recAddr) v3 ↔ CallFaults s (s.recs recAddr) v := by
    constructor
    · intro hf
      rwa [(hkept (hcall3.symm.trans hf.1)).1] at hf
    · intro hf
      rwa [(hkept hf.1).1]
  have hcall := @completeHostCall_faults s v3 data (s.recs recAddr) (enter.checked f)
  rw [hfaults] at hcall
  refine Sat.bind hcall ?_
  rintro ⟨v4, data1, ended⟩ (⟨hf, level, heq⟩ | ⟨hf, hdone⟩)
  · cases heq
    obtain ⟨rfl, hrec⟩ := hkept hf.1
    rw [hrec]
    exact Sat.pure (.inl ⟨hf, rfl⟩)
  · obtain rfl : ended = .done := hdone
    exact Sat.pure (.inr ⟨hf, rfl⟩)

theorem granuleLock_setRefcount (g : Word) (c : ℕ) (addr : Word) (expected : GranuleState) :
    granuleLock (s.setRefcount g c) addr expected = granuleLock s addr expected := by
  unfold granuleLock
  rw [State.setRefcount_state]

theorem walkFrom_setRefcount (g : Word) (c : ℕ) (ctx : S2ttContext) (mapAddr : Word) (n : ℕ)
    (tbl : Word) (i : ℤ) :
    walkFrom (s.setRefcount g c) ctx mapAddr n tbl i = walkFrom s ctx mapAddr n tbl i := by
  induction n generalizing tbl i with
  | zero => rfl
  | succ n ih =>
    unfold walkFrom
    simp only [granuleLock_setRefcount, ih]
    rfl

/-- A walk reads no reference count. -/
theorem realmIpaToPa_setRefcount (g : Word) (c : ℕ) (r : Rec) (ipa : Word) :
    realmIpaToPa (s.setRefcount g c) r ipa = realmIpaToPa s r ipa := by
  unfold realmIpaToPa s2ttWalkLockUnlock
  simp only [granuleLock_setRefcount, walkFrom_setRefcount]
  rfl

/-- The host's registers differ from those of the REC where they would be copied. -/
def GicMoves (f : GicVirtFeature) (gicstate : GicCpuState) (e : GicEnter) : Prop :=
  (∃ i ≤ f.nrLrs, gicstate.ichLrEl2 i ≠ e.gicv3Lrs i) ∨
    gicstate.ichHcrEl2 &&& ichHcrEl2NsMask ≠ e.gicv3Hcr &&& ichHcrEl2NsMask

theorem gicCopy_eq_iff (gicstate : GicCpuState) (e : GicEnter) :
    gicCopyStateFromRecEntry f gicstate e = gicstate ↔ ¬ GicMoves f gicstate e := by
  have hhcr : (gicstate.ichHcrEl2 &&& ~~~ichHcrEl2NsMask) ||| (e.gicv3Hcr &&& ichHcrEl2NsMask) =
      gicstate.ichHcrEl2 ↔
      gicstate.ichHcrEl2 &&& ichHcrEl2NsMask = e.gicv3Hcr &&& ichHcrEl2NsMask := by
    constructor
    · intro h
      refine BitVec.eq_of_getLsbD_eq fun k _ => ?_
      have hbit := congrArg (BitVec.getLsbD · k) h
      simp only [BitVec.getLsbD_or, BitVec.getLsbD_and, BitVec.getLsbD_not] at hbit ⊢
      cases hm : ichHcrEl2NsMask.getLsbD k <;> simp [hm] at hbit ⊢
      exact hbit.symm
    · intro h
      rw [← h]
      refine BitVec.eq_of_getLsbD_eq fun k hk => ?_
      simp only [BitVec.getLsbD_or, BitVec.getLsbD_and, BitVec.getLsbD_not, hk, decide_true,
        Bool.true_and]
      cases ichHcrEl2NsMask.getLsbD k <;> simp
  have hlrs : (List.range (f.nrLrs + 1)).foldl
      (fun lrs i => Function.update lrs i (e.gicv3Lrs i)) gicstate.ichLrEl2 = gicstate.ichLrEl2 ↔
      ∀ i ≤ f.nrLrs, gicstate.ichLrEl2 i = e.gicv3Lrs i := by
    rw [funext_iff]
    simp only [copyLrs_apply]
    refine forall_congr' fun i => ?_
    split
    · exact ⟨fun h _ => h.symm, fun h => (h (by omega)).symm⟩
    · exact ⟨fun _ hi => by omega, fun _ => rfl⟩
  unfold GicMoves
  rw [not_or, not_exists, not_not, ← hhcr]
  simp only [not_and, not_not, ← hlrs]
  cases gicstate
  simp only [gicCopyStateFromRecEntry, GicCpuState.mk.injEq, true_and, and_true]
  tauto

/-- A call that returns an error behind a write to the REC. Every check up to
`gic_validate_state` has passed, and either the flags do not fit the last exit, with
interrupt registers that the REC did not have, or an open host call has lost its page and the
exit information cannot be written, with such registers or another response. -/
def LateError (f : GicVirtFeature) (plat : Platform) (m : EnterState) (recAddr runAddr : Word)
    (enter : RecRunEnter) (written : Bool) : Prop :=
  EnterPasses plat m.mem recAddr runAddr ∧
  RecReady f m.mem recAddr (m.vcpu recAddr) enter ∧
  ((Unfit (m.mem.recs recAddr) (m.vcpu recAddr) (enter.checked f) ∧
      GicMoves f (m.regs recAddr).gicstate enter.gic) ∨
    (¬ Unfit (m.mem.recs recAddr) (m.vcpu recAddr) (enter.checked f) ∧
      CallFaults m.mem (m.mem.recs recAddr) (m.vcpu recAddr) ∧ written = false ∧
      (GicMoves f (m.regs recAddr).gicstate enter.gic ∨
        (m.mem.recs recAddr).setRipas.reject ≠
          (enter.checked f).has recEntryFlagRipasResponse)))

theorem CallFaults.setRefcount_iff {g : Word} {c : ℕ} {r : Rec} :
    CallFaults (s.setRefcount g c) r v ↔ CallFaults s r v := by
  unfold CallFaults
  rw [realmIpaToPa_setRefcount]

theorem EnterPasses.back (h : EnterPasses plat s recAddr runAddr) :
    (s.setRefcount recAddr 1).setRefcount recAddr 0 = s := by
  have := State.setRefcount_back s recAddr 1
  rwa [h.unused] at this

/-- The state behind a refusal. -/
def EnterState.copied (f : GicVirtFeature) (m : EnterState) (recAddr : Word)
    (enter : RecRunEnter) : EnterState :=
  let regs := copiedRegs f (m.regs recAddr) enter
  { m with regs := Function.update m.regs recAddr regs }

/-- The state behind a host call that has lost its page. -/
def EnterState.responded (f : GicVirtFeature) (m : EnterState) (recAddr : Word)
    (enter : RecRunEnter) : EnterState :=
  let r := respondedRec (m.mem.recs recAddr) (enter.checked f)
  { m.copied f recAddr enter with mem := m.mem.setRec recAddr r }

theorem RecReady.setRefcount (h : RecReady f s recAddr v enter) (c : ℕ) :
    RecReady f (s.setRefcount recAddr c) recAddr v enter :=
      ⟨h.active, h.runnable, h.ready, h.gic⟩

/-- The call is refused behind the copy. -/
theorem EnterPasses.call_unfit {m : EnterState} (h : EnterPasses plat m.mem recAddr runAddr)
    (hready : RecReady f m.mem recAddr (m.vcpu recAddr) enter)
    (hu : Unfit (m.mem.recs recAddr) (m.vcpu recAddr) (enter.checked f)) (written : Bool) :
    smcRecEnterRun f plat m recAddr runAddr (some enter) written =
      .ok (m.copied f recAddr enter, .returned rmiErrorRec) := by
  rw [h.call]
  dsimp only
  rw [recEnterMapped_unfit (hready.setRefcount 1) hu, ok_bind_eq]
  dsimp only
  rw [EnterPasses.put rfl, h.back, ok_bind_eq, if_neg (fun hw => absurd hw.1 (by decide)),
    Function.update_eq_self]
  rfl

/-- How a call ends that has read the host's data. -/
theorem EnterPasses.ends {m : EnterState} (h : EnterPasses plat m.mem recAddr runAddr)
    (hinv : RequestInv (m.mem.recs recAddr) (m.vcpu recAddr)) (written : Bool) :
    Sat (smcRecEnterRun f plat m recAddr runAddr (some enter) written) (fun res =>
      (¬ RecReady f m.mem recAddr (m.vcpu recAddr) enter ∧
        ∃ ret, ret ≠ rmiSuccess ∧ res = (m, .returned ret)) ∨
      (RecReady f m.mem recAddr (m.vcpu recAddr) enter ∧
        Unfit (m.mem.recs recAddr) (m.vcpu recAddr) (enter.checked f) ∧
        res = (m.copied f recAddr enter, .returned rmiErrorRec)) ∨
      (RecReady f m.mem recAddr (m.vcpu recAddr) enter ∧
        ¬ Unfit (m.mem.recs recAddr) (m.vcpu recAddr) (enter.checked f) ∧
        CallFaults m.mem (m.mem.recs recAddr) (m.vcpu recAddr) ∧
        res = (m.responded f recAddr enter,
          .returned (if written = false then rmiErrorInput else rmiSuccess))) ∨
      (¬ Unfit (m.mem.recs recAddr) (m.vcpu recAddr) (enter.checked f) ∧
        ¬ CallFaults m.mem (m.mem.recs recAddr) (m.vcpu recAddr) ∧ res.2 = .entered))
      fun _ => ¬ Unfit (m.mem.recs recAddr) (m.vcpu recAddr) (enter.checked f) ∧
        ¬ CallFaults m.mem (m.mem.recs recAddr) (m.vcpu recAddr) := by
  have hvcpu : Function.update m.vcpu recAddr (m.vcpu recAddr) = m.vcpu :=
    Function.update_eq_self _ _
  have hregs : Function.update m.regs recAddr (m.regs recAddr) = m.regs :=
    Function.update_eq_self _ _
  by_cases hready : RecReady f m.mem recAddr (m.vcpu recAddr) enter
  swap
  · have hready' : ¬ RecReady f (m.mem.setRefcount recAddr 1) recAddr (m.vcpu recAddr) enter :=
      fun hr => hready ⟨hr.active, hr.runnable, hr.ready, hr.gic⟩
    obtain ⟨ret, hret, heq⟩ := @recEnterMapped_of_not f _ recAddr (m.vcpu recAddr)
      (m.regs recAddr) m.data enter hready'
    rw [h.call]
    dsimp only
    rw [heq, ok_bind_eq]
    dsimp only
    rw [EnterPasses.put rfl, h.back, ok_bind_eq, if_neg (fun hw => hret hw.1), hvcpu, hregs]
    exact Sat.pure (.inl ⟨hready, ret, hret, rfl⟩)
  by_cases hu : Unfit (m.mem.recs recAddr) (m.vcpu recAddr) (enter.checked f)
  · rw [h.call_unfit hready hu]
    exact Sat.ok (.inr (.inl ⟨hready, hu, rfl⟩))
  · have hfit := @recEnterMapped_fit f (m.mem.setRefcount recAddr 1) recAddr (m.vcpu recAddr)
      (m.regs recAddr) m.data enter hinv (hready.setRefcount 1) hu
    rw [CallFaults.setRefcount_iff] at hfit
    rw [h.call]
    dsimp only
    refine Sat.bind (hfit.mono (fun _ => id) fun _ hf => ⟨hu, hf⟩) ?_
    rintro out (⟨hf, rfl⟩ | ⟨hf, hend⟩)
    · have hback : ((m.mem.setRefcount recAddr 1).setRec recAddr
          (respondedRec (m.mem.recs recAddr) (enter.checked f))).setRefcount recAddr 0 =
          m.mem.setRec recAddr (respondedRec (m.mem.recs recAddr) (enter.checked f)) := by
        conv_rhs => rw [← h.back]
        rfl
      have hput := @EnterPasses.put m.mem recAddr ((m.mem.setRefcount recAddr 1).setRec recAddr
        (respondedRec (m.mem.recs recAddr) (enter.checked f))) rfl
      rw [hback] at hput
      dsimp only
      change Sat (atomicGranulePut ((m.mem.setRefcount recAddr 1).setRec recAddr
        (respondedRec (m.mem.recs recAddr) (enter.checked f))) recAddr >>= _) _ _
      rw [hput, ok_bind_eq, hvcpu]
      refine Sat.pure (.inr (.inr (.inl ⟨hready, hu, hf, ?_⟩)))
      simp only [true_and]
      rfl
    · rw [hend]
      exact Sat.pure (.inr (.inr (.inr ⟨hu, hf, rfl⟩)))

namespace EnterState

variable {m : EnterState}

theorem copied_eq_iff : m.copied f recAddr enter = m ↔
    ¬ GicMoves f (m.regs recAddr).gicstate enter.gic := by
  have hregs : copiedRegs f (m.regs recAddr) enter = m.regs recAddr ↔
      ¬ GicMoves f (m.regs recAddr).gicstate enter.gic := by
    rw [← gicCopy_eq_iff]
    unfold copiedRegs
    cases m.regs recAddr
    simp
  rw [← hregs]
  unfold copied
  constructor
  · intro h
    have heq := congrFun (congrArg EnterState.regs h) recAddr
    simpa using heq
  · intro h
    dsimp only
    rw [h, Function.update_eq_self]

theorem responded_eq_iff : m.responded f recAddr enter = m ↔
    ¬ (GicMoves f (m.regs recAddr).gicstate enter.gic ∨
      (m.mem.recs recAddr).setRipas.reject ≠
        (enter.checked f).has recEntryFlagRipasResponse) := by
  have hrec : respondedRec (m.mem.recs recAddr) (enter.checked f) = m.mem.recs recAddr ↔
      (m.mem.recs recAddr).setRipas.reject = (enter.checked f).has recEntryFlagRipasResponse := by
    generalize m.mem.recs recAddr = r
    obtain ⟨recIdx, gRd, s2Ctx, gAux, base, top, addr, ripasVal, changeDestroyed, reject⟩ := r
    simp [respondedRec, eq_comm]
  rw [not_or, not_not, ← copied_eq_iff, ← hrec]
  constructor
  · intro h
    have hregs := congrArg EnterState.regs h
    have hrecs := congrFun (congrArg (fun x : EnterState => x.mem.recs) h) recAddr
    refine ⟨congrArg (fun regs => { m with regs := regs }) hregs, ?_⟩
    change Function.update m.mem.recs recAddr _ recAddr = _ at hrecs
    rwa [Function.update_self] at hrecs
  · rintro ⟨hcopy, hsame⟩
    unfold responded State.setRec
    rw [hcopy, hsame]
    dsimp only
    rw [Function.update_eq_self]

end EnterState

end

/-- Four list registers, five priority bits and interrupt numbers of 16 bits. -/
def demoFeature : GicVirtFeature := ⟨3, 0, 7#64, 0xFFFF#64, false⟩

example : gicGetVirtFeatures 0x90000003#64 0#64 = .ok demoFeature := by rfl

/-- The host asks for an emulation and for an underflow interrupt. -/
def lateHost : RecRunEnter := ⟨recEntryFlagEmulMmio, fun _ => 0#64, ⟨2#64, fun _ => 0#64⟩⟩

/-- Without entries all RECs keep their first registers. -/
theorem runReplay_regs {ι : Type} [DecidableEq ι] {f : GicVirtFeature} {keys : Keys}
    {plat : Platform} {hcr : Word} (acts : List (RunAct ι)) {m m' : RunSmp ι}
    {regs : Word → RecSysregs} (hacts : ∀ a ∈ acts, a.isEnter = false)
    (hm : RegsReachable f plat ⟨m, regs⟩)
    (hnew : ∀ g, (m.smp.mem.granule g).state = .REC → regs g = initRecSysregs hcr)
    (hr : runReplay keys plat m acts = some m') :
    ∃ regs', RegsReachable f plat ⟨m', regs'⟩ ∧
      ∀ g, (m'.smp.mem.granule g).state = .REC → regs' g = initRecSysregs hcr := by
  induction acts generalizing m regs with
  | nil =>
    cases hr
    exact ⟨regs, hm, hnew⟩
  | cons a rest ih =>
    unfold runReplay at hr
    split at hr
    · cases hr
    · next m1 hstep =>
      rw [compact_eq] at hr
      have hn : RegsNext f plat ⟨m, regs⟩ (.run a hcr)
          ⟨m1, recSysregsAfter m.smp.mem m1.smp.mem regs hcr⟩ :=
        ⟨hacts a (List.mem_cons_self ..), runStep_next hstep, rfl⟩
      refine ih (fun b hb => hacts b (List.mem_cons_of_mem _ hb)) (.step hm trivial hn)
        (fun g hg => ?_) hr
      unfold recSysregsAfter
      rw [if_pos hg]
      split
      · next hold => exact hnew g hold
      · rfl

/-- The REC has never run, so there is nothing to emulate. -/
theorem lateHost_unfit : ∃ m : RegsSmp ℕ, RegsReachable demoFeature demoPlat m ∧
    EnterPasses demoPlat m.toEnter.mem (gr 22) (gr 0) ∧
    RecReady demoFeature m.toEnter.mem (gr 22) (m.toEnter.vcpu (gr 22)) lateHost ∧
    Unfit (m.toEnter.mem.recs (gr 22)) (m.toEnter.vcpu (gr 22)) (lateHost.checked demoFeature) ∧
    m.toEnter.regs (gr 22) = initRecSysregs 0#64 := by
  have hrun : (runReplay runKeys demoPlat initRun runOneRec).any (fun m =>
      decide ((findGranule demoPlat (gr 0) && (m.smp.mem.granule (gr 0)).state == .NS) = true ∧
        lockable demoPlat m.smp.mem (gr 22) .REC = true ∧
        (m.smp.mem.granule (gr 22)).refcount = 0 ∧
        (m.smp.mem.rd (m.smp.mem.recs (gr 22)).gRd).state = .ACTIVE ∧
        (m.vcpu (gr 22)).runnable = true ∧ (m.vcpu (gr 22)).pending = false ∧
        (m.vcpu (gr 22)).lastRunInfo.esr = 0#64)) = true := by
    decide +kernel
  obtain ⟨m, hm, ht⟩ := (Option.any_eq_true _ _).mp hrun
  obtain ⟨hns, hrec, hcount, hactive, hon, hready, hesr⟩ := of_decide_eq_true ht
  have hacts : ∀ a ∈ runOneRec, a.isEnter = false := by decide +kernel
  obtain ⟨regs, hreach, hnew⟩ := @runReplay_regs ℕ _ demoFeature runKeys demoPlat
    0#64 runOneRec
    initRun m (fun _ => default) hacts .init nofun hm
  refine ⟨⟨m, regs⟩, hreach, ⟨hns, hrec, hcount⟩,
    ⟨hactive, hon, hready, by decide⟩, ?_,
    hnew _ (lockable_state hrec)⟩
  show Unfit _ (m.vcpu (gr 22)) _
  unfold Unfit
  rw [hesr, if_neg (by decide)]
  exact ⟨by decide, .inl (by decide)⟩

/-- The call returns RMI_ERROR_REC, and the control register of the REC has changed. -/
theorem rejectedEntry_copies : ¬ ∀ (m : RegsSmp ℕ) (x : EnterState) (ret : ReturnCode),
    RegsReachable demoFeature demoPlat m →
    smcRecEnterRun demoFeature demoPlat m.toEnter (gr 22) (gr 0) (some lateHost) true =
      .ok (x, .returned ret) →
    ret ≠ rmiSuccess →
    x.vcpu (gr 22) = m.run.vcpu (gr 22) ∧
      (x.regs (gr 22)).gicstate.ichHcrEl2 = (m.regs (gr 22)).gicstate.ichHcrEl2 ∧
      x.data = m.run.data ∧ (x.mem.granule (gr 22)).refcount = 0 := by
  intro hall
  obtain ⟨m, hm, hpass, hready, hu, hregs⟩ := lateHost_unfit
  obtain ⟨-, hhcr, -⟩ := hall m _ _ hm (hpass.call_unfit hready hu true) (by decide)
  have hcopy : (m.toEnter.copied demoFeature (gr 22) lateHost).regs (gr 22) =
      copiedRegs demoFeature (m.toEnter.regs (gr 22)) lateHost := by
    simp [EnterState.copied]
  rw [hcopy, show m.regs (gr 22) = m.toEnter.regs (gr 22) from rfl, hregs] at hhcr
  exact absurd hhcr (by decide)

/-- Rejected entries. An error leaves all granules as they were, with the reference on the REC
given back. It leaves everything as it was if and only if the call is none of those that
return an error behind a write. -/
theorem rejectedEntry_iff {ι : Type} [DecidableEq ι] {f : GicVirtFeature} {plat : Platform}
    {m : RegsSmp ι} (hm : RegsReachable f plat m) (recAddr runAddr : Word)
    (host : Option RecRunEnter) (written : Bool) :
    (∀ x ret, smcRecEnterRun f plat m.toEnter recAddr runAddr host written =
      .ok (x, .returned ret) → ret ≠ rmiSuccess → x.mem.granule = m.toEnter.mem.granule) ∧
    ((∀ x ret, smcRecEnterRun f plat m.toEnter recAddr runAddr host written =
        .ok (x, .returned ret) → ret ≠ rmiSuccess → x = m.toEnter) ↔
      ∀ enter, host = some enter → ¬ LateError f plat m.toEnter recAddr runAddr enter
        written) := by
  by_cases hpass : EnterPasses plat m.toEnter.mem recAddr runAddr
  swap
  · obtain ⟨ret, -, hcall, -⟩ :=
      @smcRecEnterRun_of_not f plat recAddr runAddr m.toEnter hpass host written
    rw [hcall]
    refine ⟨fun x ret hx _ => ?_, iff_of_true (fun x ret hx _ => ?_) fun enter _
      hl => hpass hl.1⟩
    · cases hx
      rfl
    · cases hx
      rfl
  cases host with
  | none =>
    rw [hpass.call]
    refine ⟨fun x ret hx _ => ?_, iff_of_true (fun x ret hx _ => ?_) nofun⟩
    · cases hx
      rfl
    · cases hx
      rfl
  | some enter =>
  have hrec : (m.run.smp.mem.granule recAddr).state = .REC := lockable_state hpass.isRec
  have hinv := (RunInv.reach hm.run).requests recAddr hrec
  have hends := @EnterPasses.ends f plat recAddr runAddr enter m.toEnter hpass hinv written
  have hsome : (∀ e, some enter = some e →
      ¬ LateError f plat m.toEnter recAddr runAddr e written) ↔
      ¬ LateError f plat m.toEnter recAddr runAddr enter written := by simp
  rw [hsome]
  cases hcall : smcRecEnterRun f plat m.toEnter recAddr runAddr (some enter) written with
  | error err =>
    obtain ⟨hu, hf⟩ := hends.of_error hcall
    refine ⟨nofun, iff_of_true nofun ?_⟩
    rintro ⟨-, -, ⟨hu', -⟩ | ⟨-, hf', -⟩⟩
    · exact hu hu'
    · exact hf hf'
  | ok res =>
    have returns : ∀ {x0 : EnterState} {ret0 : ReturnCode}, ret0 ≠ rmiSuccess →
        ((∀ x ret, (Except.ok (x0, EnterEnd.returned ret0) : Rmm (EnterState × EnterEnd)) =
          .ok (x, .returned ret) → ret ≠ rmiSuccess → x = m.toEnter) ↔ x0 = m.toEnter) := by
      intro x0 ret0 hret0
      constructor
      · exact fun h => h x0 ret0 rfl hret0
      · rintro h x ret hx -
        cases hx
        exact h
    obtain ⟨hready, ret, hret, rfl⟩ | ⟨hready, hu, rfl⟩ | ⟨hready, hu, hf, rfl⟩ |
        ⟨hu, hf, hend⟩ :=
      hends.of_ok hcall
    · refine ⟨fun x ret hx _ => ?_, ?_⟩
      · cases hx
        rfl
      · rw [returns hret]
        exact iff_of_true rfl fun hl => hready hl.2.1
    · refine ⟨fun x ret hx _ => ?_, ?_⟩
      · cases hx
        rfl
      · rw [returns (by decide), EnterState.copied_eq_iff, not_iff_not]
        constructor
        · exact fun hmoves => ⟨hpass, hready, .inl ⟨hu, hmoves⟩⟩
        · rintro ⟨-, -, ⟨-, hmoves⟩ | ⟨hu', -⟩⟩
          · exact hmoves
          · exact absurd hu hu'
    · refine ⟨fun x ret hx _ => ?_, ?_⟩
      · cases hx
        rfl
      cases written with
      | true =>
        refine iff_of_true (fun x ret hx hret => ?_) ?_
        · cases hx
          exact absurd rfl hret
        · rintro ⟨-, -, ⟨hu', -⟩ | ⟨-, -, hw, -⟩⟩
          · exact hu hu'
          · cases hw
      | false =>
        rw [if_pos rfl, returns (by decide), EnterState.responded_eq_iff, not_iff_not]
        constructor
        · exact fun hmoves => ⟨hpass, hready, .inr ⟨hu, hf, rfl, hmoves⟩⟩
        · rintro ⟨-, -, ⟨hu', -⟩ | ⟨-, -, -, hmoves⟩⟩
          · exact absurd hu' hu
          · exact hmoves
    · refine ⟨fun x ret hx _ => ?_, iff_of_true (fun x ret hx _ => ?_) ?_⟩
      · cases hx
        cases hend
      · cases hx
        cases hend
      · rintro ⟨-, -, ⟨hu', -⟩ | ⟨-, hf', -⟩⟩
        · exact hu hu'
        · exact hf hf'

/-- The call that asks for an emulation before the first run. -/
theorem rejectedEntry_iff_late : ∃ m : RegsSmp ℕ, RegsReachable demoFeature demoPlat m ∧
    ¬ ∀ x ret, smcRecEnterRun demoFeature demoPlat m.toEnter (gr 22) (gr 0)
      (some lateHost) true =
      .ok (x, .returned ret) → ret ≠ rmiSuccess → x = m.toEnter := by
  obtain ⟨m, hm, hpass, hready, hu, hregs⟩ := lateHost_unfit
  have hmoves : GicMoves demoFeature (m.toEnter.regs (gr 22)).gicstate lateHost.gic := by
    rw [hregs]
    exact .inr (by decide)
  refine ⟨m, hm, fun hkeep => ?_⟩
  exact (rejectedEntry_iff hm (gr 22) (gr 0) (some lateHost) true).2.mp hkeep lateHost rfl
    ⟨hpass, hready, .inl ⟨hu, hmoves⟩⟩

end RmmCaec
