import RmmCaec.PsciLaws

/-!
# Entries and exits

`smc_rec_enter` completes with values of the host what the last exit of the REC left
open, and then runs the realm. Every exception of the realm goes through
`handle_realm_exit`, which answers it or leaves to the host. Assertions on the syndrome
are left out here: a build that has them stops where one fails. Of the exit information
only the syndrome is kept, since the exit handler reads it back.
-/
namespace RmmCaec
open Outcome Runs

def esrEl2Ec (n : ℕ) : Word := BitVec.ofNat 64 (n * 2 ^ 26)
def esrEl2EcMask : Word := esrEl2Ec 0x3F

def esrEl2EcUnknown : Word := esrEl2Ec 0
def esrEl2EcWfx : Word := esrEl2Ec 1
def esrEl2EcFpu : Word := esrEl2Ec 7
def esrEl2EcHvc : Word := esrEl2Ec 22
def esrEl2EcSmc : Word := esrEl2Ec 23
def esrEl2EcSysreg : Word := esrEl2Ec 24
def esrEl2EcSve : Word := esrEl2Ec 25
def esrEl2EcSme : Word := esrEl2Ec 29
def esrEl2EcInstAbort : Word := esrEl2Ec 32
def esrEl2EcDataAbort : Word := esrEl2Ec 36
def esrEl2EcSerror : Word := esrEl2Ec 47

/-- The exception class. -/
def ecOf (esr : Word) : Word := esr &&& esrEl2EcMask

def esrEl2AbortIsvBit : Word := 0x1000000#64
def esrEl2AbortSseBit : Word := 0x200000#64
def esrEl2AbortSfBit : Word := 0x8000#64
def esrEl2AbortFnvBit : Word := 0x400#64
def esrEl2AbortEaBit : Word := 0x200#64
def esrEl2AbortS1ptwBit : Word := 0x80#64
def esrEl2AbortWnrBit : Word := 0x40#64
def esrEl2AbortSetMask : Word := 0x1800#64
def esrEl2AbortSasMask : Word := 0xC00000#64
def esrEl2AbortFscMask : Word := 0x3F#64
def esrEl2AbortFscTranslationFault : Word := 0x4#64
def esrEl2AbortFscSea : Word := 0x10#64
def esrEl2IlBit : Word := 0x2000000#64
def esrEl2WfxTiBit : Word := 1#64

def esrNonemulatedAbortMask : Word :=
  esrEl2EcMask ||| esrEl2AbortSetMask ||| esrEl2AbortFnvBit ||| esrEl2AbortEaBit |||
    esrEl2AbortFscMask

def esrEmulatedAbortMask : Word :=
  esrNonemulatedAbortMask ||| esrEl2AbortIsvBit ||| esrEl2AbortSasMask ||| esrEl2AbortSfBit |||
    esrEl2AbortWnrBit

def esrSrt (esr : Word) : ℕ := ((esr >>> 16) &&& 0x1F#64).toNat
def esrSas (esr : Word) : ℕ := ((esr >>> 22) &&& 3#64).toNat
def esrIsv (esr : Word) : Bool := esr &&& esrEl2AbortIsvBit != 0#64
def esrIsWrite (esr : Word) : Bool := esr &&& esrEl2AbortWnrBit != 0#64
def esrSignExtend (esr : Word) : Bool := esr &&& esrEl2AbortSseBit != 0#64
def esrSixtyFour (esr : Word) : Bool := esr &&& esrEl2AbortSfBit != 0#64

def accessLen (esr : Word) : ℕ :=
  match esrSas esr with
  | 0 => 1
  | 1 => 2
  | 2 => 4
  | _ => 8

def accessMask (esr : Word) : Word :=
  match esrSas esr with
  | 0 => 0xff#64
  | 1 => 0xffff#64
  | 2 => 0xffffffff#64
  | _ => BitVec.allOnes 64

/-- The encoding of a system register in a syndrome. -/
def sysregEsr (op0 op1 crn crm op2 : ℕ) : Word :=
  BitVec.ofNat 64 (op0 * 2 ^ 20 + op1 * 2 ^ 14 + crn * 2 ^ 10 + crm * 2 + op2 * 2 ^ 17)

def esrEl2SysregMask : Word := sysregEsr 3 7 15 15 7
def esrEl2SysregIdMask : Word := sysregEsr 3 7 15 0 0
def esrEl2SysregId : Word := sysregEsr 3 0 0 0 0
def esrEl2SysregIccPmrEl1 : Word := sysregEsr 3 0 4 6 0
def esrEl2SysregIccEl1Mask : Word := sysregEsr 3 3 15 8 0
def esrEl2SysregIccEl1 : Word := sysregEsr 3 0 12 8 0

def esrEl2SysregIsWrite (esr : Word) : Bool := esr &&& 1#64 == 0#64
def esrEl2SysregIssRt (esr : Word) : ℕ := ((esr >>> 5) &&& 0x1F#64).toNat

/-- The fault address that HPFAR_EL2 holds. -/
def hpfarFipa (hpfar : Word) : Word := (hpfar &&& 0xFFFFFFFFFF0#64) <<< 8

/-- `last_run_info`, and the registers that the hardware sets on an exception. -/
structure Syndrome where
  esr : Word
  far : Word
  hpfar : Word
  deriving DecidableEq, Repr

/-- The EL1 registers of a realm that an injected exception reads or writes. -/
structure El1Regs where
  far : Word
  elr : Word
  spsr : Word
  esr : Word
  vbar : Word
  deriving DecidableEq, Repr

instance : Inhabited Syndrome := ⟨⟨0#64, 0#64, 0#64⟩⟩
instance : Inhabited El1Regs := ⟨⟨0#64, 0#64, 0#64, 0#64, 0#64⟩⟩

/-- The part of a REC that entries and exits work on. While the realm runs, `pc` and
`pstate` are what ELR_EL2 and SPSR_EL2 hold. -/
structure RunVcpu extends Vcpu where
  el1 : El1Regs
  lastRunInfo : Syndrome
  hostCall : Bool

/-- The content of a zeroed REC granule. -/
instance : Inhabited RunVcpu := ⟨⟨default, default, default, false⟩⟩

/-- Write a register; number 31 is the zero register. -/
def writeGpr (gprs : Fin 31 → Word) (rt : ℕ) (val : Word) : Fin 31 → Word :=
  fun i => if i.val = rt then val else gprs i

/-- What the host passes on entry. Of the GIC registers only the verdict of
`gic_validate_state` is kept. -/
structure RmiRecEnter where
  flags : Word
  gprs : Fin 31 → Word
  gicValid : Bool

def recEntryFlagEmulMmio : Word := 1#64
def recEntryFlagInjectSea : Word := 2#64
def recEntryFlagRipasResponse : Word := 16#64

def RmiRecEnter.has (e : RmiRecEnter) (flag : Word) : Bool := e.flags &&& flag != 0#64

def spsrEl2ModeMask : Word := 0xF#64
def spsrEl2ModeEl0t : Word := 0#64
def spsrEl2ModeEl1t : Word := 4#64
def spsrEl2ModeEl1h : Word := 5#64
def spsrEl2NrwAarch32 : Word := 0x10#64

def calcVectorEntry (vbar spsr : Word) : Word :=
  let mode := spsr &&& spsrEl2ModeMask
  if mode = spsrEl2ModeEl1h then vbar + 0x200#64
  else if mode = spsrEl2ModeEl1t then vbar
  else if mode = spsrEl2ModeEl0t then
    if spsr &&& spsrEl2NrwAarch32 = 0#64 then vbar + 0x400#64 else vbar + 0x600#64
  else vbar

/-- EL1h, AArch64, with FIQ, IRQ, SError and debug masked. -/
def calcPstate : Word := 0x3C5#64

def calcEsrIdabort (esrEl2 spsrEl2 fsc : Word) : Word :=
  let esrEl1 := esrEl2 &&& ~~~(esrEl2EcMask ||| esrEl2AbortFscMask ||| esrEl2AbortFnvBit |||
    esrEl2AbortS1ptwBit)
  let ec := if spsrEl2 &&& spsrEl2ModeMask ≠ spsrEl2ModeEl0t then ecOf esrEl2 + esrEl2Ec 1
    else ecOf esrEl2
  esrEl1 ||| ec ||| fsc ||| esrEl2AbortEaBit

/-- Inject a synchronous abort, from the registers of the hardware or from what the last
exit recorded of them. -/
def injectSyncIdabort (v : RunVcpu) (h : Syndrome) (fsc : Word) : RunVcpu :=
  { v with
    el1 := { v.el1 with
      far := h.far
      elr := v.pc
      spsr := v.pstate
      esr := calcEsrIdabort h.esr v.pstate fsc }
    pc := calcVectorEntry v.el1.vbar v.pstate
    pstate := calcPstate }

def injectSyncIdabortRec (v : RunVcpu) (fsc : Word) : RunVcpu :=
  injectSyncIdabort v v.lastRunInfo fsc

def realmInjectUndefAbort (v : RunVcpu) : RunVcpu :=
  { v with
    el1 := { v.el1 with elr := v.pc, spsr := v.pstate, esr := esrEl2IlBit ||| esrEl2EcUnknown }
    pc := calcVectorEntry v.el1.vbar v.pstate
    pstate := calcPstate }

inductive S2WalkResult
  | WALK_SUCCESS (pa : Word)
  | WALK_FAIL (ripas : Ripas) (rttLevel : ℤ)
  | WALK_INVALID_PARAMS
  deriving DecidableEq, Repr

def realmIpaToPa (s : State) (r : Rec) (ipa : Word) : Rmm S2WalkResult := do
  if !granuleAligned ipa || !addrInRecPar r ipa then return .WALK_INVALID_PARAMS
  else
    let wi ← s2ttWalkLockUnlock s r.s2Ctx ipa s2ttPageLevel
    let s2tte := s.rtt wi.gLlt wi.index
    if s2tteIsAssignedRam s2tte wi.lastLevel then
      return .WALK_SUCCESS (s2ttePa r.s2Ctx s2tte wi.lastLevel +
        BitVec.ofNat 64 (ipa.toNat % s2tteMapSize wi.lastLevel))
    else if s2tteIsUnassignedDestroyed s2tte || s2tteIsAssignedDestroyed s2tte then
      return .WALK_FAIL .DESTROYED wi.lastLevel
    else if s2tteIsUnassignedRam s2tte then return .WALK_FAIL .RAM wi.lastLevel
    else return .WALK_FAIL .EMPTY wi.lastLevel

def rsiSuccess : Word := 0#64
def rsiErrorInput : Word := 1#64
def rsiErrorState : Word := 2#64
def rsiAccept : Word := 0#64
def rsiReject : Word := 1#64

/-- What `handle_realm_rsi` has to do after a call: `enum rsi_action`, with the registers
or the level that go with it. -/
inductive RsiOutcome
  | UPDATE_REC_RETURN_TO_REALM (gprs : Fin 31 → Word)
  | UPDATE_REC_EXIT_TO_HOST (gprs : Fin 31 → Word)
  | EXIT_TO_HOST
  | STAGE_2_TRANSLATION_FAULT (rttLevel : ℤ)

/-- The page of the host call structure and the address of the structure in it. -/
def hostCallPage (ipa : Word) : Word := ipa &&& ~~~0xfff#64

/-- The structure takes 256 bytes and does not cross a page. -/
def hostCallLegal (r : Rec) (ipa : Word) : Bool :=
  (ipa &&& 0xff#64 == 0#64) && (ipa.toNat / 4096 == (ipa + 0xff#64).toNat / 4096) &&
    addrInRecPar r ipa

/-- A host call up to its exit: the call is pending if the structure can be read. -/
def handleRsiHostCall (s : State) (r : Rec) (v : RunVcpu) : Rmm (RunVcpu × RsiOutcome) := do
  let ipa := v.gprs 1
  if !hostCallLegal r ipa then
    return (v, .UPDATE_REC_RETURN_TO_REALM (resultGprs v.gprs rsiErrorInput))
  else
    match ← realmIpaToPa s r (hostCallPage ipa) with
    | .WALK_SUCCESS _ => return ({ v with hostCall := true }, .EXIT_TO_HOST)
    | .WALK_FAIL .EMPTY _ =>
      return (v, .UPDATE_REC_RETURN_TO_REALM (resultGprs v.gprs rsiErrorInput))
    | .WALK_FAIL _ level => return (v, .STAGE_2_TRANSLATION_FAULT level)
    | .WALK_INVALID_PARAMS => .error .panic

/-- The registers in the host call structure lie behind the immediate value. -/
def hostCallGpr (structPa : Word) (i : Fin 31) : Word :=
  structPa + 8#64 + BitVec.ofNat 64 (8 * i.val)

/-- Copy registers to the host call structure, in memory of 64-bit words. -/
def storeHostCall (data : Word → Word) (structPa : Word) (gprs : Fin 31 → Word) :
    Word → Word :=
  fun a => match (List.finRange 31).find? fun i => a == hostCallGpr structPa i with
    | some i => gprs i
    | none => data a

/-- How the completion of a host call ends. -/
inductive HostCallEnd
  | done
  | aborted (rttLevel : ℤ)
  deriving DecidableEq, Repr

/-- The second half of a host call. If the page has RIPAS EMPTY the call is over without
any effect. -/
def completeHostCall (s : State) (r : Rec) (v : RunVcpu) (data : Word → Word) (e : RmiRecEnter) :
    Rmm (RunVcpu × (Word → Word) × HostCallEnd) := do
  if !v.hostCall then return (v, data, .done)
  else
    let ipa := v.gprs 1
    match ← realmIpaToPa s r (hostCallPage ipa) with
    | .WALK_SUCCESS pa =>
      return ({ v with gprs := writeGpr v.gprs 0 rsiSuccess, hostCall := false },
        storeHostCall data (pa + (ipa - hostCallPage ipa)) e.gprs, .done)
    | .WALK_FAIL .EMPTY _ => return ({ v with hostCall := false }, data, .done)
    | .WALK_FAIL _ level => return (v, data, .aborted level)
    | .WALK_INVALID_PARAMS => .error .panic

/-- The value that an emulated load takes from the host's first register. -/
def mmioValue (esr gpr : Word) : Word :=
  let val := gpr &&& accessMask esr
  if esrSignExtend esr then
    let mask := 1#64 <<< (accessLen esr * 8 - 1)
    let val := (val ^^^ mask) - mask
    if !esrSixtyFour esr then val &&& 0xFFFFFFFF#64 else val
  else val

/-- Emulate an access that the realm tried to make; the host's value goes to the register
of a load. The result is empty if the last exit was no such access. -/
def completeMmioEmulation (v : RunVcpu) (e : RmiRecEnter) : Option RunVcpu :=
  let esr := v.lastRunInfo.esr
  let rt := esrSrt esr
  if !e.has recEntryFlagEmulMmio then some v
  else if e.has recEntryFlagInjectSea then some v
  else if ecOf esr ≠ esrEl2EcDataAbort ∨ esrIsv esr = false then none
  else
    let gprs := if !esrIsWrite esr && rt != 31 then writeGpr v.gprs rt (mmioValue esr (e.gprs 0))
      else v.gprs
    some { v with gprs := gprs, pc := v.pc + 4#64 }

/-- The registers after `complete_set_ripas`, with the host's response in the request. -/
def setRipasRegs (request : SetRipas) (v : RunVcpu) : RunVcpu :=
  if request.base = request.top then v
  else
    let response := if request.ripasVal = .RAM ∧ request.addr ≠ request.top ∧
      request.reject = true
      then rsiReject else rsiAccept
    { v with gprs := writeGpr (writeGpr (writeGpr v.gprs 0 rsiSuccess) 1 request.addr) 2 response }

def completeSeaInsertion (r : Rec) (v : RunVcpu) (e : RmiRecEnter) : Option RunVcpu :=
  if !e.has recEntryFlagInjectSea then some v
  else if ecOf v.lastRunInfo.esr ≠ esrEl2EcDataAbort then none
  else if addrInRecPar r (hpfarFipa v.lastRunInfo.hpfar) then none
  else some (injectSyncIdabortRec v esrEl2AbortFscSea)

/-- A trapped read of a system register ends with the host's value. -/
def completeSysregEmulation (v : RunVcpu) (e : RmiRecEnter) : RunVcpu :=
  let esr := v.lastRunInfo.esr
  let rt := esrEl2SysregIssRt esr
  if ecOf esr ≠ esrEl2EcSysreg then v
  else if esrEl2SysregIsWrite esr then v
  else if rt ≠ 31 then { v with gprs := writeGpr v.gprs rt (e.gprs 0) }
  else v

def resetLastRunInfo (v : RunVcpu) : RunVcpu :=
  { v with lastRunInfo := { v.lastRunInfo with esr := 0#64 } }

/-- The syndrome of a data abort that the monitor makes up for the host. -/
def emulateStage2DataAbort (rttLevel : ℤ) : Word :=
  esrEl2EcDataAbort ||| (esrEl2AbortFscTranslationFault + BitVec.ofInt 64 rttLevel)

/-- What `smc_rec_enter` makes of the host's data: how it goes on, the REC, the memory of
the realm and the syndrome for the host. -/
structure EnterOutcome where
  entry : RecEntry
  vcpu : RunVcpu
  data : Word → Word
  exitEsr : Word

/-- The completions that no entry is refused for, and the reset of `last_run_info`. -/
def completeRequests (s : State) (r : Rec) (v : RunVcpu) (data : Word → Word) (e : RmiRecEnter) :
    Rmm EnterOutcome := do
  let request := { r.setRipas with reject := e.has recEntryFlagRipasResponse }
  let v1 := completeSysregEmulation (setRipasRegs request v) e
  match ← completeHostCall s r v1 data e with
  | (v2, data', .aborted level) => return ⟨.aborted, v2, data', emulateStage2DataAbort level⟩
  | (v2, data', .done) => return ⟨.run, resetLastRunInfo v2, data', 0#64⟩

/-- The completions of an entry that nothing has refused. -/
def enterCompletions (s : State) (r : Rec) (v : RunVcpu) (data : Word → Word) (e : RmiRecEnter) :
    Rmm EnterOutcome :=
  match completeSeaInsertion r v e with
  | none => return ⟨.refused, v, data, 0#64⟩
  | some v1 =>
    match completeMmioEmulation v1 e with
    | none => return ⟨.refused, v1, data, 0#64⟩
    | some v2 => completeRequests s r v2 data e

/-- `smc_rec_enter` from the read of the host's data to the first instruction of the realm. -/
def recEnterCompletions (s : State) (recAddr : Word) (v : RunVcpu) (data : Word → Word)
    (host : Option RmiRecEnter) : Rmm EnterOutcome :=
  let r := s.recs recAddr
  match host with
  | none => return ⟨.unreadable, v, data, 0#64⟩
  | some e =>
    match (s.rd r.gRd).state with
    | .NEW | .SYSTEM_OFF => return ⟨.refused, v, data, 0#64⟩
    | .ACTIVE =>
      if !v.runnable then return ⟨.refused, v, data, 0#64⟩
      else if v.pending then return ⟨.refused, v, data, 0#64⟩
      else if !e.gicValid then return ⟨.refused, v, data, 0#64⟩
      else enterCompletions s r v data e

/-- The host's answer to a RIPAS request, with every entry. -/
def ripasResponse (host : Option RmiRecEnter) : Bool :=
  host.any fun e => e.has recEntryFlagRipasResponse

/-- An exception of the realm, with the registers that the hardware has set. -/
inductive RealmException
  | sync (h : Syndrome)
  | irq
  | fiq
  | serror (h : Syndrome)
  | other
  deriving DecidableEq, Repr

/-- The registers of EL1 and EL0 that a write leaves as it was written. -/
inductive SysReg
  | spEl0 | spEl1 | elrEl1 | spsrEl1 | tpidrroEl0 | tpidrEl0 | csselrEl1 | sctlrEl1 | actlrEl1
  | cpacrEl1 | ttbr0El1 | ttbr1El1 | tcrEl1 | esrEl1 | afsr0El1 | afsr1El1 | farEl1 | mairEl1
  | vbarEl1 | contextidrEl1 | tpidrEl1 | amairEl1 | cntkctlEl1 | parEl1 | mdscrEl1 | mdccintEl1
  | disrEl1 | cntpCvalEl0 | cntvCvalEl0
  deriving DecidableEq, Repr

/-- What the parts of the monitor that are not modelled here make of an exception: the
outcome of the other RSI calls, the value of an ID register, the registers that the realm has
on the CPU and nowhere else, and whether the SIMD state calls for an undefined instruction. -/
structure TrapEnv where
  rsi : RsiOutcome
  idReg : Word
  sysregs : SysReg → Word
  spEl0 : Word
  simdUndef : Bool

/-- The REC after an exception, the syndrome for the host, and whether the realm goes on. -/
structure Handled where
  vcpu : RunVcpu
  exitEsr : Word
  handled : Bool

def advancePc (v : RunVcpu) : RunVcpu := { v with pc := v.pc + 4#64 }

def fscIsExternalAbort (fsc : Word) : Bool :=
  fsc == esrEl2AbortFscSea || (decide (0x13#64 ≤ fsc) && decide (fsc ≤ 0x17#64))

/-- External aborts go to the host, a recoverable one is also injected. -/
def handleSyncExternalAbort (v : RunVcpu) (exitEsr : Word) (h : Syndrome) : Option Handled :=
  if !fscIsExternalAbort (h.esr &&& esrEl2AbortFscMask) then none
  else
    let set := h.esr &&& esrEl2AbortSetMask
    if set = 0#64 then
      some ⟨injectSyncIdabort v h esrEl2AbortFscSea, h.esr &&& esrNonemulatedAbortMask, false⟩
    else if set = 0x1800#64 then some ⟨v, h.esr &&& esrNonemulatedAbortMask, false⟩
    else some ⟨v, exitEsr, false⟩

/-- The address is protected and its RIPAS is EMPTY. -/
def ipaIsEmpty (s : State) (r : Rec) (ipa : Word) : Rmm Bool := do
  match ← realmIpaToPa s r ipa with
  | .WALK_FAIL .EMPTY _ => return true
  | _ => return false

def recIpaSize (r : Rec) : ℕ := 2 ^ r.s2Ctx.ipaBits

def handleDataAbort (s : State) (r : Rec) (v : RunVcpu) (exitEsr : Word) (h : Syndrome) :
    Rmm Handled := do
  match handleSyncExternalAbort v exitEsr h with
  | some res => return res
  | none =>
    let fipa := hpfarFipa h.hpfar
    let empty ← if recIpaSize r ≤ fipa.toNat then pure true else ipaIsEmpty s r fipa
    if empty then return ⟨injectSyncIdabort v h esrEl2AbortFscSea, exitEsr, true⟩
    else if v.pstate &&& spsrEl2NrwAarch32 ≠ 0#64 then
      return ⟨v, (h.esr &&& ~~~esrEl2AbortIsvBit) &&& esrNonemulatedAbortMask, false⟩
    else if addrInRecPar r fipa then return ⟨v, h.esr &&& esrNonemulatedAbortMask, false⟩
    else return ⟨v, h.esr &&& esrEmulatedAbortMask, false⟩

def handleInstructionAbort (s : State) (r : Rec) (v : RunVcpu) (exitEsr : Word) (h : Syndrome) :
    Rmm Handled := do
  match handleSyncExternalAbort v exitEsr h with
  | some res => return res
  | none =>
    let fipa := hpfarFipa h.hpfar
    let empty ← if recIpaSize r ≤ fipa.toNat || !addrInRecPar r fipa then pure true
      else ipaIsEmpty s r fipa
    if empty then return ⟨injectSyncIdabort v h esrEl2AbortFscSea, exitEsr, true⟩
    else if h.esr &&& esrEl2AbortFscMask &&& ~~~3#64 ≠ esrEl2AbortFscTranslationFault then
      return ⟨v, exitEsr, false⟩
    else return ⟨v, h.esr &&& esrNonemulatedAbortMask, false⟩

/-- The registers that `write_sysreg_by_esr` knows, with their encodings. -/
def vmControlTable : List (Word × SysReg) :=
  [(sysregEsr 3 0 1 0 0, .sctlrEl1), (sysregEsr 3 0 2 0 0, .ttbr0El1),
    (sysregEsr 3 0 2 0 1, .ttbr1El1), (sysregEsr 3 0 2 0 2, .tcrEl1),
    (sysregEsr 3 0 10 2 0, .mairEl1), (sysregEsr 3 0 10 3 0, .amairEl1),
    (sysregEsr 3 0 13 0 1, .contextidrEl1), (sysregEsr 3 0 5 1 0, .afsr0El1),
    (sysregEsr 3 0 5 1 1, .afsr1El1), (sysregEsr 3 0 5 2 0, .esrEl1),
    (sysregEsr 3 0 6 0 0, .farEl1)]

def vmControlRegs : List SysReg := vmControlTable.map Prod.snd

def esrEl2SysregTcr2El1 : Word := sysregEsr 3 0 2 0 3

/-- The values under which `sysreg_handlers` has the handler. -/
def tvmEncodings : List Word := esrEl2SysregTcr2El1 :: vmControlTable.map Prod.fst

/-- The mask is made of the encodings, so that it leaves out bits in which registers differ. -/
def esrEl2SysregHcrTvmMask : Word := tvmEncodings.foldl (· ||| ·) 0#64

/-- The syndromes for which `handle_sysreg_access_trap` comes to the handler. -/
def tvmTrapped (esr : Word) : Bool :=
  esr &&& esrEl2SysregIdMask != esrEl2SysregId &&
    esr &&& esrEl2SysregIccEl1Mask != esrEl2SysregIccEl1 &&
    esr &&& esrEl2SysregMask != esrEl2SysregIccPmrEl1 &&
    tvmEncodings.contains (esr &&& esrEl2SysregHcrTvmMask)

-- a counter of the activity monitors comes here under the mask of CONTEXTIDR_EL1
example : tvmTrapped (sysregEsr 3 3 13 4 1) = true := by decide

def sysregByEsr (sysreg : Word) : Option SysReg :=
  (vmControlTable.find? (·.1 == sysreg)).map Prod.snd

theorem sysregByEsr_mem {sysreg : Word} {x : SysReg} (h : sysregByEsr sysreg = some x) :
    x ∈ vmControlRegs := by
  obtain ⟨e, he, rfl⟩ := Option.map_eq_some_iff.mp h
  exact List.mem_map_of_mem (List.mem_of_find?_eq_some he)

def RunVcpu.readSysreg (v : RunVcpu) (sysregs : SysReg → Word) : SysReg → Word
  | .sctlrEl1 => v.sctlrEl1
  | .esrEl1 => v.el1.esr
  | .farEl1 => v.el1.far
  | x => sysregs x

def RunVcpu.writeSysreg (v : RunVcpu) (val : Word) : SysReg → RunVcpu
  | .sctlrEl1 => { v with sctlrEl1 := val }
  | .esrEl1 => { v with el1 := { v.el1 with esr := val } }
  | .farEl1 => { v with el1 := { v.el1 with far := val } }
  | _ => v

/-- The access that `opencca_handle_esr_tvm_sysreg_trap` makes, on the registers that are kept
here. Element 31 of `rec->regs` is `rec->sp_el0`. -/
def openccaSysregAccess (v : RunVcpu) (esr : Word) (env : TrapEnv) : RunVcpu :=
  let rt := esrEl2SysregIssRt esr
  let sysreg := sysregByEsr (esr &&& esrEl2SysregMask)
  if esrEl2SysregIsWrite esr then
    match sysreg with
    | some x => v.writeSysreg (if h : rt < 31 then v.gprs ⟨rt, h⟩ else env.spEl0) x
    | none => v
  else
    let val := (sysreg.map (v.readSysreg env.sysregs)).getD 0#64
    { v with gprs := writeGpr v.gprs rt val }

/-- ID registers are read by the monitor, the GIC registers are left to the host, the registers
of the translation are accessed for the realm in a build for OpenCCA, and all others read as
zero. -/
def handleSysregAccessTrap (opencca : Bool) (v : RunVcpu) (exitEsr esr : Word) (env : TrapEnv) :
    Handled :=
  let rt := esrEl2SysregIssRt esr
  if esr &&& esrEl2SysregIdMask = esrEl2SysregId then
    if rt = 31 then ⟨v, exitEsr, true⟩
    else ⟨{ v with gprs := writeGpr v.gprs rt env.idReg }, exitEsr, true⟩
  else if esr &&& esrEl2SysregIccEl1Mask = esrEl2SysregIccEl1 ∨
      esr &&& esrEl2SysregMask = esrEl2SysregIccPmrEl1 then ⟨v, esr, false⟩
  else if opencca && tvmTrapped esr then ⟨openccaSysregAccess v esr env, exitEsr, true⟩
  else if !esrEl2SysregIsWrite esr && rt != 31 then
    ⟨{ v with gprs := writeGpr v.gprs rt 0#64 }, exitEsr, true⟩
  else ⟨v, exitEsr, true⟩

/-- A trapped SIMD instruction is always answered, with an undefined instruction or with
the context of the REC. -/
def simdExceptionHandled (v : RunVcpu) (exitEsr : Word) (undef : Bool) : Handled :=
  if undef then ⟨realmInjectUndefAbort v, exitEsr, true⟩ else ⟨v, exitEsr, true⟩

/-- The SError that goes into the realm with the next entry is left out. -/
def handleExceptionSerrorLel (v : RunVcpu) (exitEsr : Word) (h : Syndrome) : Handled :=
  let aet := (h.esr >>> 10) &&& 7#64
  if aet = 1#64 ∨ aet = 3#64 ∨ aet = 6#64 ∨ aet = 2#64 then
    ⟨v, h.esr &&& (0x1000000#64 ||| 0x1C00#64 ||| esrEl2AbortEaBit ||| 0x3F#64), false⟩
  else ⟨v, exitEsr, false⟩

def smc64RsiFid (n : ℕ) : Word := 0xC4000190#64 + BitVec.ofNat 64 n

def smcRsiIpaStateSet : Word := smc64RsiFid 0x7
def smcRsiHostCall : Word := smc64RsiFid 0x9

/-- The calls whose handlers are not modelled here: version, features, measurements,
attestation, realm configuration and the RIPAS query. -/
def smcRsiOthers : List Word :=
  [smc64RsiFid 0x0, smc64RsiFid 0x1, smc64RsiFid 0x2, smc64RsiFid 0x3, smc64RsiFid 0x4,
    smc64RsiFid 0x5, smc64RsiFid 0x6, smc64RsiFid 0x8]

/-- The function of a call, with the SVE hint ignored. -/
def rsiFunctionId (v : RunVcpu) : Word := lowWord (v.gprs 0) &&& ~~~0x10000#64

/-- The calls about memory, with their registers. -/
def rsiCallOf (v : RunVcpu) : Option RsiCall :=
  let fid := rsiFunctionId v
  if fid = smcRsiIpaStateSet then
    some (.ipaStateSet (v.gprs 1) (v.gprs 2) (v.gprs 3) (v.gprs 4))
  else if fid = smc64RsiFid 0xa then some (.csmCreate (v.gprs 2) (v.gprs 3))
  else if fid = smc64RsiFid 0xb then some (.csmShare (v.gprs 1) (v.gprs 2) (v.gprs 3))
  else if fid = smc64RsiFid 0xc then some (.csmReserve (v.gprs 1) (v.gprs 2) (v.gprs 3))
  else if fid = smc64RsiFid 0xd then some (.csmAttach (v.gprs 1))
  else if fid = smc64RsiFid 0xe then some (.csmDetachAndFree (v.gprs 1))
  else if fid = smc64RsiFid 0xf then some (.csmRevoke (v.gprs 1))
  else if fid = smc64RsiFid 0x10 then some (.csmDestroy (v.gprs 1))
  else none

def RsiStatus.word : RsiStatus → Word
  | .SUCCESS => rsiSuccess
  | .ERROR_INPUT => rsiErrorInput
  | .ERROR_STATE => rsiErrorState

/-- The registers with the result of a call: `x3` is cleared, those behind it stay. -/
def rsiResultGprs (gprs : Fin 31 → Word) (res : RsiResult) : Fin 31 → Word :=
  writeGpr (writeGpr (writeGpr (writeGpr gprs 0 res.status.word) 1 res.x1) 2 res.x2) 3 0#64

def RsiResult.outcome (gprs : Fin 31 → Word) (res : RsiResult) : RsiOutcome :=
  if res.exitToHost then .UPDATE_REC_EXIT_TO_HOST (rsiResultGprs gprs res)
  else .UPDATE_REC_RETURN_TO_REALM (rsiResultGprs gprs res)

/-- The end of `handle_realm_rsi`. -/
def finishRsi (v : RunVcpu) (exitEsr : Word) : RsiOutcome → Handled
  | .UPDATE_REC_RETURN_TO_REALM gprs => ⟨advancePc { v with gprs := gprs }, exitEsr, true⟩
  | .UPDATE_REC_EXIT_TO_HOST gprs => ⟨advancePc { v with gprs := gprs }, exitEsr, false⟩
  | .EXIT_TO_HOST => ⟨advancePc v, exitEsr, false⟩
  | .STAGE_2_TRANSLATION_FAULT level => ⟨v, emulateStage2DataAbort level, false⟩

/-- `handle_realm_rsi` with the registers of the REC. -/
def handleRealmSmc (plat : Platform) (s : State) (recAddr : Word) (v : RunVcpu) (exitEsr : Word)
    (other : RsiOutcome) : Rmm (State × Handled) := do
  if isPsciCall v.toVcpu then
    let (s1, v1, goesOn) ← psciCall s recAddr v.toVcpu
    return (s1, ⟨{ v with toVcpu := v1 }, exitEsr, goesOn⟩)
  else match rsiCallOf v with
  | some call =>
    let (s1, res) ← rsiHandler plat s recAddr call
    return (s1, finishRsi v exitEsr (res.outcome v.gprs))
  | none =>
    if rsiFunctionId v = smcRsiHostCall then
      let (v1, outcome) ← handleRsiHostCall s (s.recs recAddr) v
      return (s, finishRsi v1 exitEsr outcome)
    else if rsiFunctionId v = smccVersion then
      return (s, finishRsi v exitEsr
        (.UPDATE_REC_RETURN_TO_REALM (resultGprs v.gprs 0x10002#64)))
    else if rsiFunctionId v ∈ smcRsiOthers then return (s, finishRsi v exitEsr other)
    else return (s, finishRsi v exitEsr
      (.UPDATE_REC_RETURN_TO_REALM (resultGprs v.gprs (-1#64))))

def handleExceptionSync (plat : Platform) (s : State) (recAddr : Word) (v : RunVcpu)
    (exitEsr : Word) (h : Syndrome) (env : TrapEnv) : Rmm (State × Handled) := do
  let ec := ecOf h.esr
  let r := s.recs recAddr
  if ec = esrEl2EcWfx then
    return (s, ⟨advancePc v, h.esr &&& (esrEl2EcMask ||| esrEl2WfxTiBit), false⟩)
  else if ec = esrEl2EcHvc then return (s, ⟨realmInjectUndefAbort v, exitEsr, true⟩)
  else if ec = esrEl2EcSmc then handleRealmSmc plat s recAddr v exitEsr env.rsi
  else if ec = esrEl2EcSysreg then
    let res := handleSysregAccessTrap plat.opencca v exitEsr h.esr env
    return (s, { res with vcpu := advancePc res.vcpu })
  else if ec = esrEl2EcInstAbort then
    let res ← handleInstructionAbort s r v exitEsr h
    return (s, res)
  else if ec = esrEl2EcDataAbort then
    let res ← handleDataAbort s r v exitEsr h
    return (s, res)
  else if ec = esrEl2EcFpu ∨ ec = esrEl2EcSve ∨ ec = esrEl2EcSme then
    return (s, simdExceptionHandled v exitEsr env.simdUndef)
  else return (s, ⟨v, exitEsr, false⟩)

/-- What `handle_realm_exit` records of a synchronous exit: the syndrome keeps its valid
bit only if the host sees it. -/
def recordSync (h : Syndrome) (exitEsr : Word) : Syndrome :=
  if esrIsv exitEsr then h else { h with esr := h.esr &&& ~~~esrEl2AbortIsvBit }

def handleRealmExit (plat : Platform) (s : State) (recAddr : Word) (v : RunVcpu)
    (exitEsr : Word) (exception : RealmException) (env : TrapEnv) : Rmm (State × Handled) :=
  match exception with
  | .sync h => do
    let (s1, res) ← handleExceptionSync plat s recAddr v exitEsr h env
    if res.handled then return (s1, res)
    else
      let v1 := { res.vcpu with lastRunInfo := recordSync h res.exitEsr }
      return (s1, { res with vcpu := v1 })
  | .serror h =>
    let res := handleExceptionSerrorLel v exitEsr h
    if res.handled then return (s, res)
    else return (s, { res with vcpu := { res.vcpu with lastRunInfo := h } })
  | .irq | .fiq | .other => return (s, ⟨v, exitEsr, false⟩)

/-- The memory and the CPUs, the RECs, the syndrome that each CPU has for the host, and the
memory of the realms. -/
structure RunSmp (ι : Type) where
  smp : Smp ι
  vcpu : Word → RunVcpu
  exitEsr : ι → Word
  data : Word → Word

/-- `init_rec_regs` on a zeroed REC. -/
def initRunVcpu (p : VcpuParams) : RunVcpu := { (default : RunVcpu) with toVcpu := initVcpu p }

/-- The RECs after a step that makes some, with the given parameters, or frees some. -/
def runVcpusAfter (s s' : State) (vcpu : Word → RunVcpu) (p : VcpuParams) : Word → RunVcpu :=
  fun g =>
    if (s'.granule g).state = .REC then
      if (s.granule g).state = .REC then vcpu g else initRunVcpu p
    else default

inductive RunAct (ι : Type)
  /-- A step of the machine below on behalf of the host, or a write to memory. -/
  | plain (a : SmpAct ι) (p : VcpuParams)
  | enter (c : ι) (host : Option RmiRecEnter)
  /-- The realm runs. -/
  | guest (c : ι) (regs : Regs) (el1 : El1Regs)
  /-- Memory of realms changes. -/
  | store (data : Word → Word)
  /-- A timer of the realm is pending before the realm runs. -/
  | timer (c : ι)
  | trap (c : ι) (exception : RealmException) (env : TrapEnv)
  | complete (c : ι) (callingAddr targetAddr status : Word)

/-- The hardware reports an SError with its own exception class. -/
def RealmException.Genuine : RealmException → Prop
  | .serror h => ecOf h.esr = esrEl2EcSerror
  | _ => True

instance : (e : RealmException) → Decidable e.Genuine
  | .serror h => inferInstanceAs (Decidable (ecOf h.esr = esrEl2EcSerror))
  | .sync _ | .irq | .fiq | .other => .isTrue trivial

section
variable {ι : Type} [DecidableEq ι]

/-- A step of the machine below that is none of a running or entering REC. -/
def SmpAct.ofHost (m : Smp ι) (a : SmpAct ι) : Bool :=
  !a.enters m && match a with
    | .rsi _ _ | .exit _ => false
    | _ => true

/-- A running REC after an exception. -/
def RunSmp.trapped (m : RunSmp ι) (c : ι) (recAddr : Word) (s : State)
    (res : Handled) : RunSmp ι :=
  ⟨m.smp.put c s (if res.handled then .running recAddr else .leaving recAddr rmiSuccess),
    Function.update m.vcpu recAddr res.vcpu, Function.update m.exitEsr c res.exitEsr, m.data⟩

/-- One step. What an entry leads to and the host's response were noted when the entry
started. -/
def RunNext (plat : Platform) (m : RunSmp ι) (a : RunAct ι) (m' : RunSmp ι) : Prop :=
  match a with
  | .plain a p => a.ofHost m.smp = true ∧ ∃ n, SmpNext plat m.smp a n ∧
      m' = ⟨n, runVcpusAfter m.smp.mem n.mem m.vcpu p, m.exitEsr, m.data⟩
  | .enter c host => ∃ recAddr o, m.smp.cpu c = .entered recAddr o.entry (ripasResponse host) ∧
      recEnterCompletions m.smp.mem recAddr (m.vcpu recAddr) m.data host = .ok o ∧
      ∃ s job reply, recEnterBody m.smp.mem recAddr o.entry (ripasResponse host) =
        .ok (s, job, reply) ∧
      m' = ⟨m.smp.put c s job, Function.update m.vcpu recAddr o.vcpu,
        Function.update m.exitEsr c o.exitEsr, o.data⟩
  | .guest c regs el1 => ∃ recAddr, m.smp.cpu c = .running recAddr ∧
      m' = ⟨m.smp, Function.update m.vcpu recAddr
        { m.vcpu recAddr with toRegs := regs, el1 := el1 }, m.exitEsr, m.data⟩
  | .store data => m' = ⟨m.smp, m.vcpu, m.exitEsr, data⟩
  | .timer c => ∃ recAddr, m.smp.cpu c = .running recAddr ∧
      m' = ⟨m.smp.put c m.smp.mem (.leaving recAddr rmiSuccess), m.vcpu, m.exitEsr, m.data⟩
  | .trap c exception env => ∃ recAddr, m.smp.cpu c = .running recAddr ∧ exception.Genuine ∧
      ∃ s res, handleRealmExit plat m.smp.mem recAddr (m.vcpu recAddr) (m.exitEsr c)
        exception env =
        .ok (s, res) ∧ m' = m.trapped c recAddr s res
  | .complete c callingAddr targetAddr status => m.smp.cpu c = .idle ∧
      ∃ vcpu ret, smcPsciComplete plat m.smp.mem (fun g => (m.vcpu g).toVcpu) callingAddr
        targetAddr status = .ok (vcpu, ret) ∧
      m' = ⟨m.smp, fun g => { m.vcpu g with toVcpu := vcpu g }, m.exitEsr, m.data⟩

def initRun : RunSmp ι := ⟨initSmp, fun _ => default, fun _ => 0#64, fun _ => 0#64⟩

/-- The states that any entries, exits and other calls reach. -/
abbrev RunReachable (plat : Platform) : RunSmp ι → Prop :=
  Reach initRun (RunNext plat) fun _ _ => True

/-- The machine without what entries and exits add. -/
def RunSmp.toPsci (m : RunSmp ι) : PsciSmp ι := ⟨m.smp, fun g => (m.vcpu g).toVcpu⟩

/-- One step as a function. -/
def runStep (plat : Platform) (m : RunSmp ι) : RunAct ι → Option (RunSmp ι)
  | .plain a p =>
    if a.ofHost m.smp then
      (smpStep plat m.smp a).map fun n =>
        ⟨n, runVcpusAfter m.smp.mem n.mem m.vcpu p, m.exitEsr, m.data⟩
    else none
  | .enter c host =>
    match m.smp.cpu c with
    | .entered recAddr entry reject =>
      match recEnterCompletions m.smp.mem recAddr (m.vcpu recAddr) m.data host with
      | .error _ => none
      | .ok o =>
        if entry = o.entry ∧ reject = ripasResponse host then
          match recEnterBody m.smp.mem recAddr o.entry (ripasResponse host) with
          | .error _ => none
          | .ok (s, job, _) => some ⟨m.smp.put c s job, Function.update m.vcpu recAddr o.vcpu,
              Function.update m.exitEsr c o.exitEsr, o.data⟩
        else none
    | _ => none
  | .guest c regs el1 =>
    match m.smp.cpu c with
    | .running recAddr => some ⟨m.smp, Function.update m.vcpu recAddr
        { m.vcpu recAddr with toRegs := regs, el1 := el1 }, m.exitEsr, m.data⟩
    | _ => none
  | .store data => some ⟨m.smp, m.vcpu, m.exitEsr, data⟩
  | .timer c =>
    match m.smp.cpu c with
    | .running recAddr =>
      some ⟨m.smp.put c m.smp.mem (.leaving recAddr rmiSuccess), m.vcpu, m.exitEsr, m.data⟩
    | _ => none
  | .trap c exception env =>
    match m.smp.cpu c with
    | .running recAddr =>
      if exception.Genuine then
        match handleRealmExit plat m.smp.mem recAddr (m.vcpu recAddr) (m.exitEsr c) exception
          env with
        | .error _ => none
        | .ok (s, res) => some (m.trapped c recAddr s res)
      else none
    | _ => none
  | .complete c callingAddr targetAddr status =>
    if m.smp.cpu c = .idle then
      match smcPsciComplete plat m.smp.mem (fun g => (m.vcpu g).toVcpu) callingAddr targetAddr
        status with
      | .error _ => none
      | .ok (vcpu, _) =>
        some ⟨m.smp, fun g => { m.vcpu g with toVcpu := vcpu g }, m.exitEsr, m.data⟩
    else none

theorem runStep_next {plat : Platform} {m m' : RunSmp ι} {a : RunAct ι}
    (h : runStep plat m a = some m') : RunNext plat m a m' := by
  cases a with
  | plain a p =>
    simp only [runStep] at h
    split at h
    · next ha =>
      obtain ⟨n, hn, rfl⟩ := Option.map_eq_some_iff.mp h
      exact ⟨ha, n, smpStep_next hn, rfl⟩
    · cases h
  | enter c host =>
    simp only [runStep] at h
    split at h
    · next recAddr entry reject hjob =>
      split at h
      · cases h
      · next o hcomplete =>
        split at h
        · next hsame =>
          split at h
          · cases h
          · next s job reply hbody =>
            cases h
            rw [hsame.1, hsame.2] at hjob
            exact ⟨recAddr, o, hjob, hcomplete, s, job, reply, hbody, rfl⟩
        · cases h
    · cases h
  | guest c regs el1 =>
    simp only [runStep] at h
    split at h
    · next recAddr hrun =>
      cases h
      exact ⟨recAddr, hrun, rfl⟩
    · cases h
  | store data =>
    cases h
    exact rfl
  | timer c =>
    simp only [runStep] at h
    split at h
    · next recAddr hrun =>
      cases h
      exact ⟨recAddr, hrun, rfl⟩
    · cases h
  | trap c exception env =>
    simp only [runStep] at h
    split at h
    · next recAddr hrun =>
      split at h
      · next hgen =>
        split at h
        · cases h
        · next s res hexit =>
          cases h
          exact ⟨recAddr, hrun, hgen, s, res, hexit, rfl⟩
      · cases h
    · cases h
  | complete c callingAddr targetAddr status =>
    simp only [runStep] at h
    split at h
    · next hidle =>
      split at h
      · cases h
      · next vcpu ret hs =>
        cases h
        exact ⟨hidle, vcpu, ret, hs, rfl⟩
    · cases h

/-- Follow a list of steps, with the memory evaluated after each. -/
def runReplay (keys : Keys) (plat : Platform) :
    RunSmp ι → List (RunAct ι) → Option (RunSmp ι)
  | m, [] => some m
  | m, a :: rest =>
    match runStep plat m a with
    | none => none
    | some m' => compact keys m'.smp.mem fun s =>
        runReplay keys plat ⟨⟨s, m'.smp.cpu⟩, m'.vcpu, m'.exitEsr, m'.data⟩ rest

theorem runReplay_reachable {keys : Keys} {plat : Platform} (acts : List (RunAct ι))
    {m m' : RunSmp ι} (hm : RunReachable plat m) (hr : runReplay keys plat m acts = some m') :
    RunReachable plat m' := by
  induction acts generalizing m with
  | nil =>
    cases hr
    exact hm
  | cons a rest ih =>
    unfold runReplay at hr
    split at hr
    · cases hr
    · next m1 hstep =>
      rw [compact_eq] at hr
      exact ih (.step hm trivial (runStep_next hstep)) hr

end

end RmmCaec
