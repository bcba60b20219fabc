import RmmCaec.SmpLaws

/-!
# The vector registers

The vector registers of a CPU belong to the host, to the REC that runs there, or for a
while to the monitor. A realm finds them trapped until it uses them. The registers are
kept by bytes, and a context in memory as the assembly lays it out for the vector length
in force. Every owner's registers, as it last left them, are recorded beside the state.
-/
namespace RmmCaec
open Outcome Runs

structure SimdConfig where
  sveEn : Bool
  sveVq : ℕ
  smeEn : Bool
  deriving DecidableEq

/-- What the CPUs implement, as `simd_init` finds it: the configuration, the vector length
in force for one that is asked for, the streaming vector length, and FA64. The monitor may
be built to use the registers itself. -/
structure SimdPlatform where
  cfg : SimdConfig
  effVq : ℕ → ℕ
  svq : ℕ
  fa64 : Bool
  fpuUseAtRel2 : Bool
  effVq_le : ∀ n, effVq n ≤ n
  svq_le : svq ≤ 15
  sveVq_le : cfg.sveVq ≤ 15

/-- The registers of a CPU: bytes of Z, P and FFR, and the registers that go with them. -/
structure SimdRegs where
  z : ℕ → ℕ → BitVec 8
  p : ℕ → ℕ → BitVec 8
  ffr : ℕ → BitVec 8
  fpsr : Word
  fpcr : Word
  zcrEl12 : Word
  zcrEl2 : Word
  svcr : Word

instance : Inhabited SimdRegs :=
  ⟨⟨fun _ _ => 0#8, fun _ _ => 0#8, fun _ => 0#8, 0#64, 0#64, 0#64, 0#64, 0#64⟩⟩

namespace SimdRegs

/-- Streaming mode. -/
def isSmeSm (r : SimdRegs) : Bool := r.svcr.getLsbD 0

def zcrLen (zcr : Word) : ℕ := (zcr &&& 0xF#64).toNat

/-- The vector length in force at EL2. -/
def vq (r : SimdRegs) (cpu : SimdPlatform) : ℕ :=
  if r.isSmeSm then cpu.svq else cpu.effVq (zcrLen r.zcrEl2)

/-- A change of the streaming mode clears the vectors. -/
def writeSvcr (r : SimdRegs) (svcr : Word) : SimdRegs :=
  if r.isSmeSm = svcr.getLsbD 0 then { r with svcr := svcr }
  else { r with
    z := fun _ _ => 0#8, p := fun _ _ => 0#8, ffr := fun _ => 0#8, svcr := svcr }

end SimdRegs

def sveRegsOffsetP : ℕ := 16 * (16 * 32)
def sveRegsOffsetFfr : ℕ := sveRegsOffsetP + 16 * (2 * 16)

def fpuSaveRegisters (r : SimdRegs) (mem : ℕ → BitVec 8) : ℕ → BitVec 8 := fun a =>
  if a < 512 then r.z (a / 16) (a % 16) else mem a

/-- Loading a Q register clears the rest of the Z register. -/
def fpuRestoreRegisters (mem : ℕ → BitVec 8) (r : SimdRegs) : SimdRegs :=
  { r with z := fun i b => if b < 16 then mem (16 * i + b) else 0#8 }

def sveSaveVectorRegisters (vq : ℕ) (saveFfr : Bool) (r : SimdRegs) (mem : ℕ → BitVec 8) :
    ℕ → BitVec 8 := fun a =>
  if a < 32 * (16 * (vq + 1)) then r.z (a / (16 * (vq + 1))) (a % (16 * (vq + 1)))
  else if sveRegsOffsetP ≤ a ∧ a < sveRegsOffsetP + 16 * (2 * (vq + 1)) then
    r.p ((a - sveRegsOffsetP) / (2 * (vq + 1))) ((a - sveRegsOffsetP) % (2 * (vq + 1)))
  else if saveFfr = true ∧ sveRegsOffsetFfr ≤ a ∧ a < sveRegsOffsetFfr + 2 * (vq + 1) then
    r.ffr (a - sveRegsOffsetFfr)
  else mem a

/-- FFR is read through P0. -/
def sveSaveClobbers (saveFfr : Bool) (r : SimdRegs) : SimdRegs :=
  if saveFfr then { r with p := Function.update r.p 0 r.ffr } else r

/-- Bytes beyond the vector length in force keep what they hold. -/
def sveRestoreVectorRegisters (vq : ℕ) (restoreFfr : Bool) (mem : ℕ → BitVec 8)
    (r : SimdRegs) :
    SimdRegs :=
  { r with
    z := fun i b => if b < 16 * (vq + 1) then mem (16 * (vq + 1) * i + b) else r.z i b
    p := fun i b => if b < 2 * (vq + 1) then
      mem (sveRegsOffsetP + 2 * (vq + 1) * i + b) else r.p i b
    ffr := fun b => if restoreFfr = true ∧ b < 2 * (vq + 1) then mem (sveRegsOffsetFfr + b)
      else r.ffr b }

def sveClearPFfrRegisters (r : SimdRegs) : SimdRegs :=
  { r with p := fun _ _ => 0#8, ffr := fun _ => 0#8 }

def cptrFpen (cptr : Word) : Word := (cptr >>> 20) &&& 3#64
def cptrZen (cptr : Word) : Word := (cptr >>> 16) &&& 3#64
def cptrSmen (cptr : Word) : Word := (cptr >>> 24) &&& 3#64

/-- A field lets instructions pass. -/
def noTrap11 : Word := 3#64

def cptrEl2VheSimdMask : Word := (3#64 <<< 20) ||| (3#64 <<< 16) ||| (3#64 <<< 24)

/-- Trap all AMU, trace, FPU, SVE and SME accesses. -/
def cptrEl2VheInit : Word := (1#64 <<< 28) ||| (1#64 <<< 30)

def simdEnableCptrFlags (cfg : SimdConfig) (cptr : Word) : Word :=
  (cptr &&& ~~~cptrEl2VheSimdMask) ||| (3#64 <<< 20) |||
    (if cfg.sveEn then 3#64 <<< 16 else 0#64) ||| (if cfg.smeEn then 3#64 <<< 24 else 0#64)

def simdDisableAllCptrFlags (cptr : Word) : Word :=
  (cptr &&& ~~~cptrEl2VheSimdMask) ||| (0#64 <<< 20) ||| (0#64 <<< 16) ||| (0#64 <<< 24)

/-- The owner in zeroed memory is none. -/
inductive SimdOwner
  | NONE
  | NWD
  | REL1
  deriving DecidableEq

/-- A `simd_context`, with a field for each flag. -/
structure SimdContext where
  owner : SimdOwner
  sve : Bool
  sme : Bool
  initDone : Bool
  saved : Bool
  sveHint : Bool
  cptrEl2 : Word
  svcr : Word
  zcrEl2 : Word
  nsZcrEl2 : Word
  fpsr : Word
  fpcr : Word
  zcrEl12 : Word
  vregs : ℕ → BitVec 8

instance : Inhabited SimdContext :=
  ⟨⟨.NONE, false, false, false, false, false, 0#64, 0#64, 0#64, 0#64, 0#64, 0#64, 0#64,
    fun _ => 0#8⟩⟩

namespace SimdContext

def isSveModeStreaming (x : SimdContext) (r : SimdRegs) : Bool := x.sme && r.isSmeSm

def isSveModeNormal (x : SimdContext) (r : SimdRegs) : Bool :=
  x.sve && !x.sveHint && !x.isSveModeStreaming r

/-- The Z, P and FFR registers are in use, not only the Q registers. -/
def usesSve (x : SimdContext) (r : SimdRegs) : Bool := x.isSveModeNormal r || x.isSveModeStreaming r

def includeFfr (x : SimdContext) (cpu : SimdPlatform) (r : SimdRegs) : Bool :=
  if x.isSveModeStreaming r then cpu.fa64 else true

/-- EL2 can use the registers of the context under these traps. -/
def accessible (x : SimdContext) (cptr : Word) : Bool :=
  cptrFpen cptr == noTrap11 && (!x.sve || cptrZen cptr == noTrap11) &&
    (!x.sme || cptrSmen cptr == noTrap11)

end SimdContext

def saveSimdNsEl2Config (x : SimdContext) (r : SimdRegs) : SimdContext :=
  if x.sve then { x with nsZcrEl2 := r.zcrEl2 } else x

def restoreSimdEl2Config (x : SimdContext) (zcr : Word) (r : SimdRegs) : SimdRegs :=
  if x.sve then
    if r.zcrEl2 ≠ zcr then { r with zcrEl2 := zcr } else r
  else r

/-- The memory of a context with the vectors in use, and the registers then. -/
def saveVregs (cpu : SimdPlatform) (x : SimdContext) (r : SimdRegs) :
    (ℕ → BitVec 8) × SimdRegs :=
  if x.usesSve r then
    (sveSaveVectorRegisters (r.vq cpu) (x.includeFfr cpu r) r x.vregs,
      sveSaveClobbers (x.includeFfr cpu r) r)
  else (fpuSaveRegisters r x.vregs, r)

/-- Streaming mode is left at the end. -/
def saveSimdContext (cpu : SimdPlatform) (x : SimdContext) (r : SimdRegs) :
    SimdContext × SimdRegs :=
  let r0 := restoreSimdEl2Config x x.zcrEl2 r
  let svcr := if x.sme then r0.svcr else x.svcr
  let (vregs, r1) := saveVregs cpu x r0
  let zcrEl12 := if x.sve then r1.zcrEl12 else x.zcrEl12
  ({ x with svcr := svcr, vregs := vregs, zcrEl12 := zcrEl12, fpsr := r1.fpsr, fpcr := r1.fpcr },
    if x.isSveModeStreaming r1 then r1.writeSvcr (svcr &&& ~~~1#64) else r1)

/-- A context with SVE that has been saved without it clears what the Q registers leave. -/
def restoreVregs (cpu : SimdPlatform) (x : SimdContext) (r : SimdRegs) : SimdRegs :=
  if x.usesSve r then sveRestoreVectorRegisters (r.vq cpu) (x.includeFfr cpu r) x.vregs r
  else if x.sve then sveClearPFfrRegisters (fpuRestoreRegisters x.vregs r)
  else fpuRestoreRegisters x.vregs r

def restoreSimdContext (cpu : SimdPlatform) (x : SimdContext) (r : SimdRegs) : SimdRegs :=
  let r0 := restoreSimdEl2Config x x.zcrEl2 r
  let r1 := if x.sme then r0.writeSvcr x.svcr else r0
  let r2 := restoreVregs cpu x r1
  { r2 with
    zcrEl12 := if x.sve then x.zcrEl12 else r2.zcrEl12, fpsr := x.fpsr, fpcr := x.fpcr }

def validateSimdConfig (cpu : SimdPlatform) (cfg : SimdConfig) : Bool :=
  !(cfg.sveEn && (!cpu.cfg.sveEn || decide (cpu.cfg.sveVq < cfg.sveVq))) &&
    !(cfg.smeEn && !cpu.cfg.smeEn)

/-- `simd_context_init`, once the CPUs are known. -/
def simdContextInit (cpu : SimdPlatform) (owner : SimdOwner) (x : SimdContext) (cfg : SimdConfig) :
    Option SimdContext :=
  if x.initDone then none
  else if owner ≠ .REL1 ∧ owner ≠ .NWD then none
  else if !validateSimdConfig cpu cfg then none
  else
    let x := { x with
      owner := owner, saved := decide (owner = SimdOwner.REL1),
      cptrEl2 := simdEnableCptrFlags cfg cptrEl2VheInit }
    let x := if cfg.sveEn then { x with sve := true, zcrEl2 := BitVec.ofNat 64 cfg.sveVq } else x
    let x := if cfg.smeEn then { x with sme := true, svcr := 0#64 } else x
    some { x with initDone := true }

/-- The functions of handlers that use the registers at EL2, and some others. -/
inductive RsiFunction
  | ATTEST_TOKEN_CONTINUE
  | MEASUREMENT_EXTEND
  | call (call : RsiCall)
  | other

/-- The handlers that hash. -/
def Act.hashes : Act → Bool
  | .realmCreate .. | .dataCreate .. | .recCreate .. | .rttInitRipas .. => true
  | _ => false

def RsiFunction.hashes : RsiFunction → Bool
  | .ATTEST_TOKEN_CONTINUE | .MEASUREMENT_EXTEND => true
  | _ => false

def rmiHandlerNeedsFpu (cpu : SimdPlatform) (act : Option Act) : Bool :=
  cpu.fpuUseAtRel2 && match act with
  | some (.realmCreate ..) | some (.dataCreate ..) | some (.recCreate ..)
  | some (.rttInitRipas ..) => true
  | _ => false

def rsiHandlerNeedsFpu (cpu : SimdPlatform) (f : RsiFunction) : Bool :=
  cpu.fpuUseAtRel2 && match f with
  | .ATTEST_TOKEN_CONTINUE | .MEASUREMENT_EXTEND => true
  | _ => false

/-- Where a CPU is. A handler that changes nothing in the machine below has no name. -/
inductive SimdPhase
  | host
  | handling (act : Option Act) (restoreNs : Bool)
  /-- At the top of the loop in `rec_run_loop`. -/
  | loop
  | realm (rmmCptr : Word)
  | rsi (f : RsiFunction) (restoreSimdCtx : Bool)

/-- A context of the host or of a REC. -/
inductive SimdCtxId (ι : Type)
  | ns (c : ι)
  | own (r : Word)
  deriving DecidableEq

structure CpuSimd where
  regs : SimdRegs
  cptrEl2 : Word
  stateSaved : Bool
  phase : SimdPhase
  /-- `g_ns_simd_ctx`. -/
  ctx : SimdContext
  /-- The registers at the last call of the host. -/
  left : SimdRegs

structure RecSimd (ι : Type) where
  ctx : SimdContext
  activeSimdCtx : Option (SimdCtxId ι)
  cptrEl2 : Word
  simdCfg : SimdConfig
  /-- The registers as the realm has last left them. -/
  left : SimdRegs

instance {ι : Type} : Inhabited (RecSimd ι) :=
    ⟨⟨default, none, 0#64, ⟨false, 0, false⟩, default⟩⟩

structure SimdSmp (ι : Type) where
  smp : Smp ι
  cpus : ι → CpuSimd
  recs : Word → RecSimd ι

/-- What a realm asks for. -/
structure RealmSimd where
  sve : Bool
  sveVl : ℕ

/-- The checks of `validate_realm_params` against feature register 0. -/
def RealmSimd.valid (cpu : SimdPlatform) (p : RealmSimd) : Bool :=
  !(p.sve && (!cpu.cfg.sveEn || decide (cpu.cfg.sveVq < p.sveVl)))

def RealmSimd.cfg (p : RealmSimd) : SimdConfig := ⟨p.sve, if p.sve then p.sveVl else 0, false⟩

/-- The exceptions that `handle_simd_exception` gets. -/
inductive SimdEc
  | FPU
  | SVE
  | SME
  deriving DecidableEq

section
variable {ι : Type} [DecidableEq ι]

namespace SimdSmp

def setCpu (m : SimdSmp ι) (c : ι) (k : CpuSimd) : SimdSmp ι :=
  { m with cpus := Function.update m.cpus c k }

def setRec (m : SimdSmp ι) (r : Word) (k : RecSimd ι) : SimdSmp ι :=
  { m with recs := Function.update m.recs r k }

def ctx (m : SimdSmp ι) : SimdCtxId ι → SimdContext
  | .ns c => (m.cpus c).ctx
  | .own r => (m.recs r).ctx

def setCtx (m : SimdSmp ι) : SimdCtxId ι → SimdContext → SimdSmp ι
  | .ns c, x => m.setCpu c { m.cpus c with ctx := x }
  | .own r, x => m.setRec r { m.recs r with ctx := x }

def setPhase (m : SimdSmp ι) (c : ι) (phase : SimdPhase) : SimdSmp ι :=
  m.setCpu c { m.cpus c with phase := phase }

end SimdSmp

/-- The first half of `simd_context_switch`. The traps are open for the context, else EL2
traps itself. -/
def simdSave (cpu : SimdPlatform) (m : SimdSmp ι) (c : ι) (id : SimdCtxId ι) :
    Rmm (SimdSmp ι) := do
  let x := m.ctx id
  let k := m.cpus c
  assertThat x.initDone .panic
  assertThat (!x.saved) .panic
  assertThat (!k.stateSaved) .panic
  assertThat (x.accessible x.cptrEl2) .panic
  let x1 := if x.owner = .NWD then saveSimdNsEl2Config x k.regs else x
  let (x2, regs) := saveSimdContext cpu x1 k.regs
  let m1 := m.setCtx id { x2 with saved := true }
  return m1.setCpu c { m1.cpus c with regs := regs, stateSaved := true }

/-- The second half. -/
def simdRestore (cpu : SimdPlatform) (m : SimdSmp ι) (c : ι) (id : SimdCtxId ι) :
    Rmm (SimdSmp ι) := do
  let x := m.ctx id
  let k := m.cpus c
  assertThat x.initDone .panic
  assertThat x.saved .panic
  assertThat k.stateSaved .panic
  assertThat (x.accessible x.cptrEl2) .panic
  let regs := restoreSimdContext cpu x k.regs
  let regs := if x.owner = .NWD then restoreSimdEl2Config x x.nsZcrEl2 regs else regs
  let m1 := m.setCtx id { x with saved := false }
  return m1.setCpu c { m1.cpus c with regs := regs, stateSaved := false }

/-- The traps of the monitor are back at the end. -/
def simdContextSwitch (cpu : SimdPlatform) (m : SimdSmp ι) (c : ι)
    (ctxSave ctxRestore : Option (SimdCtxId ι)) : Rmm (SimdSmp ι) := do
  assertThat (ctxSave.isSome || ctxRestore.isSome) .panic
  let m1 ← match ctxSave with
    | none => pure m
    | some id => simdSave cpu m c id
  match ctxRestore with
  | none => return m1
  | some id => simdRestore cpu m1 c id

def simdUpdateSmcSveHint (x : SimdContext) (sveHint : Bool) : Rmm SimdContext := do
  assertThat x.initDone .panic
  if x.sve then
    assertThat (!x.saved) .panic
    return { x with sveHint := sveHint }
  else return x

/-- `handle_ns_smc` up to the handler. -/
def handleNsSmcEntry (cpu : SimdPlatform) (m : SimdSmp ι) (c : ι) (act : Option Act)
    (sveHint : Bool) : Rmm (SimdSmp ι) := do
  let k := m.cpus c
  assertThat (!k.stateSaved) .panic
  let x ← simdUpdateSmcSveHint k.ctx sveHint
  let m1 := m.setCpu c { k with
    ctx := x, left := k.regs, phase := .handling act (rmiHandlerNeedsFpu cpu act) }
  if rmiHandlerNeedsFpu cpu act then simdContextSwitch cpu m1 c (some (.ns c)) none else return m1

/-- `handle_ns_smc` from the end of the handler. -/
def handleNsSmcExit (cpu : SimdPlatform) (m : SimdSmp ι) (c : ι) : Rmm (SimdSmp ι) := do
  let m1 ← match (m.cpus c).phase with
    | .handling _ true => simdContextSwitch cpu m c none (some (.ns c))
    | _ => pure m
  assertThat (!(m1.cpus c).stateSaved) .panic
  return m1.setPhase c .host

/-- `rec_run_loop` up to its loop. -/
def recRunLoopStart (m : SimdSmp ι) (c : ι) (r : Word) : Rmm (SimdSmp ι) := do
  assertThat (decide ((m.recs r).activeSimdCtx = none)) .panic
  return (m.setRec r { m.recs r with activeSimdCtx := some (.ns c) }).setPhase c .loop

/-- The traps of the REC, before it runs. -/
def recRunLoopEnter (m : SimdSmp ι) (c : ι) (r : Word) : SimdSmp ι :=
  let k := m.cpus c
  let rmmCptr := k.cptrEl2
  m.setCpu c { k with
    cptrEl2 := if rmmCptr ≠ (m.recs r).cptrEl2 then (m.recs r).cptrEl2 else k.cptrEl2
    phase := .realm rmmCptr }

/-- The traps of the monitor, after the REC has run. -/
def recRunLoopExit (m : SimdSmp ι) (c : ι) (r : Word) : SimdSmp ι :=
  match (m.cpus c).phase with
  | .realm rmmCptr => m.setCpu c { m.cpus c with
      cptrEl2 := if rmmCptr ≠ (m.recs r).cptrEl2 then rmmCptr else (m.cpus c).cptrEl2
      phase := .loop }
  | _ => m

/-- `rec_run_loop` from the end of its loop. -/
def recRunLoopEnd (cpu : SimdPlatform) (m : SimdSmp ι) (c : ι) (r : Word) : Rmm (SimdSmp ι) := do
  let m1 ← (if (m.recs r).activeSimdCtx = some (.own r) then do
      let m1 ← simdContextSwitch cpu m c (m.recs r).activeSimdCtx (some (.ns c))
      return m1.setRec r { m1.recs r with cptrEl2 := simdDisableAllCptrFlags (m1.recs r).cptrEl2 }
    else pure m)
  return (m1.setRec r { m1.recs r with activeSimdCtx := none }).setPhase c (.handling none false)

def handleSimdException (cpu : SimdPlatform) (m : SimdSmp ι) (c : ι) (r : Word) (ec : SimdEc) :
    Rmm (SimdSmp ι) := do
  let k := m.recs r
  -- the realm gets an undefined abort
  if ec = .SVE ∧ k.simdCfg.sveEn = false then return m
  else if ec = .SME ∧ (k.simdCfg.sveEn = false ∨ k.activeSimdCtx = some (.own r)) then return m
  else
    assertThat (decide (k.activeSimdCtx ≠ some (.own r))) .panic
    let m1 ← simdContextSwitch cpu m c k.activeSimdCtx (some (.own r))
    return m1.setRec r { m1.recs r with
      activeSimdCtx := some (.own r)
      cptrEl2 := simdEnableCptrFlags k.simdCfg (m1.recs r).cptrEl2 }

/-- `handle_realm_rsi` up to the handler. -/
def handleRealmRsiStart (cpu : SimdPlatform) (m : SimdSmp ι) (c : ι) (r : Word)
    (f : RsiFunction) :
    Rmm (SimdSmp ι) := do
  let m1 ← (if rsiHandlerNeedsFpu cpu f then
      simdContextSwitch cpu m c (m.recs r).activeSimdCtx none
    else pure m)
  return m1.setPhase c (.rsi f (rsiHandlerNeedsFpu cpu f))

/-- `handle_realm_rsi` from the end of the handler. -/
def handleRealmRsiEnd (cpu : SimdPlatform) (m : SimdSmp ι) (c : ι) (r : Word) :
    Rmm (SimdSmp ι) := do
  let m1 ← match (m.cpus c).phase with
    | .rsi _ true => simdContextSwitch cpu m c none (m.recs r).activeSimdCtx
    | _ => pure m
  return m1.setPhase c .loop

/-- A REC that has just been created: its auxiliary granules are zero. -/
def recSimdStateInit (cpu : SimdPlatform) (cfg : SimdConfig) : Rmm (RecSimd ι) :=
  match simdContextInit cpu .REL1 default cfg with
  | none => .error .panic
  | some ctx => .ok ⟨ctx, none, cptrEl2VheInit, cfg, default⟩

/-- New RECs start with a context of their own, freed ones are zeroed. -/
def recSimdAfter (s s' : State) (new : RecSimd ι) (recs : Word → RecSimd ι) :
    Word → RecSimd ι :=
  fun g =>
    if (s'.granule g).state = .REC then
      if (s.granule g).state = .REC then recs g else new
    else default

inductive SimdAct (ι : Type)
  | smc (c : ι) (act : Option Act) (sveHint : Bool)
  | plain (a : SmpAct ι) (p : RealmSimd)
  | enter (c : ι)
  | fpu (c : ι) (regs : SimdRegs)
  | ret (c : ι)
  | host (c : ι) (regs : SimdRegs)
  | run (c : ι) (r : Word)
  | guest (c : ι) (r : Word) (regs : SimdRegs)
  | trap (c : ι) (r : Word) (ec : SimdEc)
  | rsi (c : ι) (r : Word) (f : RsiFunction)
  | rsiEnd (c : ι) (r : Word)
  | exit (c : ι) (r : Word)
  | timer (c : ι) (r : Word)

/-- The steps of handlers. Entering a REC and what follows are steps of their own. -/
def SimdSmp.Handles (m : SimdSmp ι) : SmpAct ι → Prop
  | .start c act => ∃ restore, (m.cpus c).phase = .handling (some act) restore
  | .resume c => (∃ act restore, (m.cpus c).phase = .handling act restore) ∧
      ∀ recAddr entry reject, m.smp.cpu c ≠ .entered recAddr entry reject
  | .write _ _ => True
  | .rsi _ _ | .exit _ => False

/-- The monitor hashes here. -/
def SimdPhase.hashes : SimdPhase → Bool
  | .handling (some act) _ => act.hashes
  | .rsi f _ => f.hashes
  | _ => false

/-- What instructions of a realm can change under the traps. -/
def GuestMay (cptr : Word) (r r' : SimdRegs) : Prop :=
  if cptrFpen cptr ≠ noTrap11 then r' = r
  else r'.zcrEl2 = r.zcrEl2 ∧ (cptrSmen cptr ≠ noTrap11 → r'.svcr = r.svcr) ∧
    (cptrZen cptr ≠ noTrap11 → r'.p = r.p ∧ r'.ffr = r.ffr ∧ r'.zcrEl12 = r.zcrEl12)

/-- The hardware reports FPU and SVE exceptions only where the traps are set. SME
exceptions have other causes as well. -/
def SimdEc.Traps (ec : SimdEc) (cptr : Word) : Prop :=
  match ec with
  | .FPU => cptrFpen cptr ≠ noTrap11
  | .SVE => cptrZen cptr ≠ noTrap11
  | .SME => True

/-- When a step can be taken, and what it does to the machine below. -/
def SimdReady (plat : Platform) (cpu : SimdPlatform) (m : SimdSmp ι)
    (a : SimdAct ι) (n : Smp ι) :
    Prop :=
  match a with
  | .smc c _ _ => (m.cpus c).phase = .host ∧ n = m.smp
  | .plain a p => m.Handles a ∧ p.valid cpu = true ∧ SmpNext plat m.smp a n
  | .enter c => (∃ recAddr runAddr entry reject restore, (m.cpus c).phase =
        .handling (some (.recEnter recAddr runAddr entry reject)) restore) ∧
      (∃ recAddr entry reject, m.smp.cpu c = .entered recAddr entry reject) ∧
      SmpNext plat m.smp (.resume c) n
  | .fpu c _ => cpu.fpuUseAtRel2 = true ∧ (m.cpus c).phase.hashes = true ∧ n = m.smp
  | .ret c => (∃ act restore, (m.cpus c).phase = .handling act restore) ∧
      m.smp.cpu c = .idle ∧
      n = m.smp
  | .host c regs => (m.cpus c).phase = .host ∧ (regs.isSmeSm = true → cpu.cfg.smeEn = true) ∧
      n = m.smp
  | .run c r => (m.cpus c).phase = .loop ∧ m.smp.cpu c = .running r ∧ n = m.smp
  | .guest c r regs => (∃ rmmCptr, (m.cpus c).phase = .realm rmmCptr) ∧
      m.smp.cpu c = .running r ∧
      GuestMay (m.cpus c).cptrEl2 (m.cpus c).regs regs ∧ n = m.smp
  | .trap c r ec => (∃ rmmCptr, (m.cpus c).phase = .realm rmmCptr) ∧
      m.smp.cpu c = .running r ∧
      ec.Traps (m.cpus c).cptrEl2 ∧ n = m.smp
  | .rsi c r _ => (∃ rmmCptr, (m.cpus c).phase = .realm rmmCptr) ∧ m.smp.cpu c = .running r ∧
      n = m.smp
  | .rsiEnd c r => (∃ f restore, (m.cpus c).phase = .rsi f restore ∧
      match f with
      | .call call => SmpNext plat m.smp (.rsi c call) n
      | _ => n = m.smp ∨ SmpNext plat m.smp (.exit c) n) ∧ m.smp.cpu c = .running r
  | .exit c r => (∃ rmmCptr, (m.cpus c).phase = .realm rmmCptr) ∧ m.smp.cpu c = .running r ∧
      (n = m.smp ∨ SmpNext plat m.smp (.exit c) n)
  | .timer c r => (m.cpus c).phase = .loop ∧ m.smp.cpu c = .running r ∧
      SmpNext plat m.smp (.exit c) n

/-- The loop goes on or ends, as the machine below says. -/
def recRunLoopNext (cpu : SimdPlatform) (m : SimdSmp ι) (n : Smp ι) (c : ι) (r : Word) :
    Rmm (SimdSmp ι) := do
  let m1 ← (if n.cpu c = .running r then pure m else recRunLoopEnd cpu m c r)
  return { m1 with smp := n }

/-- What the monitor does in a step, with `n` for the machine below. -/
def simdStep (cpu : SimdPlatform) (m : SimdSmp ι) (a : SimdAct ι) (n : Smp ι) :
    Rmm (SimdSmp ι) :=
  match a with
  | .smc c act sveHint => handleNsSmcEntry cpu m c act sveHint
  | .plain _ p => do
    let new ← recSimdStateInit cpu p.cfg
    return { m with smp := n, recs := recSimdAfter m.smp.mem n.mem new m.recs }
  | .enter c =>
    match n.cpu c with
    | .running r => do
      let m1 ← recRunLoopStart m c r
      return { m1 with smp := n }
    | _ => return { m with smp := n }
  | .fpu c regs => do
    let k := m.cpus c
    assertThat k.stateSaved .panic
    return m.setCpu c { k with
      regs := { regs with zcrEl12 := k.regs.zcrEl12, zcrEl2 := k.regs.zcrEl2, svcr := k.regs.svcr }
        }
  | .ret c => handleNsSmcExit cpu m c
  | .host c regs => return m.setCpu c { m.cpus c with regs := regs }
  | .run c r => return recRunLoopEnter m c r
  | .guest c r regs =>
    let m1 := m.setCpu c { m.cpus c with regs := regs }
    return if cptrFpen (m.cpus c).cptrEl2 = noTrap11 then m1.setRec r { m.recs r with left := regs }
      else m1
  | .trap c r ec => handleSimdException cpu (recRunLoopExit m c r) c r ec
  | .rsi c r f => handleRealmRsiStart cpu (recRunLoopExit m c r) c r f
  | .rsiEnd c r => do
    let m1 ← handleRealmRsiEnd cpu m c r
    recRunLoopNext cpu m1 n c r
  | .exit c r => recRunLoopNext cpu (recRunLoopExit m c r) n c r
  | .timer c r => recRunLoopNext cpu m n c r

def SimdNext (plat : Platform) (cpu : SimdPlatform) (m : SimdSmp ι) (a : SimdAct ι)
    (m' : SimdSmp ι) : Prop :=
  ∃ n, SimdReady plat cpu m a n ∧ simdStep cpu m a n = .ok m'

/-- The context of the host on a CPU, as `init_all_cpus_ns_simd_context` leaves it. -/
def initNsSimdContext (cpu : SimdPlatform) : SimdContext :=
  (simdContextInit cpu .NWD default cpu.cfg).getD default

def initSimd (cpu : SimdPlatform) : SimdSmp ι where
  smp := initSmp
  cpus _ := ⟨default, cptrEl2VheInit, false, .host, initNsSimdContext cpu, default⟩
  recs _ := default

/-- The states that any steps reach. -/
abbrev SimdReachable (plat : Platform) (cpu : SimdPlatform) : SimdSmp ι → Prop :=
  Reach (initSimd cpu) (SimdNext plat cpu) fun _ _ => True

/-- The machine below after a step, if the step can be taken. Only the steps of a run with
one REC are covered. -/
def simdBelow (plat : Platform) (cpu : SimdPlatform) (m : SimdSmp ι) :
    SimdAct ι → Option (Smp ι)
  | .smc c _ _ =>
    match (m.cpus c).phase with
    | .host => some m.smp
    | _ => none
  | .plain (.start c act) p =>
    match (m.cpus c).phase with
    | .handling (some act') _ =>
      if act' = act ∧ p.valid cpu = true then smpStep plat m.smp (.start c act) else none
    | _ => none
  | .plain (.resume c) p =>
    match (m.cpus c).phase, m.smp.cpu c with
    | .handling _ _, .entered _ _ _ => none
    | .handling _ _, _ => if p.valid cpu then smpStep plat m.smp (.resume c) else none
    | _, _ => none
  | .enter c =>
    match (m.cpus c).phase, m.smp.cpu c with
    | .handling (some (.recEnter _ _ _ _)) _, .entered _ _ _ => smpStep plat m.smp (.resume c)
    | _, _ => none
  | .ret c =>
    match (m.cpus c).phase with
    | .handling _ _ => if m.smp.cpu c = .idle then some m.smp else none
    | _ => none
  | .run c r =>
    match (m.cpus c).phase with
    | .loop => if m.smp.cpu c = .running r then some m.smp else none
    | _ => none
  | .trap c r .FPU =>
    match (m.cpus c).phase with
    | .realm _ =>
      if m.smp.cpu c = .running r ∧ cptrFpen (m.cpus c).cptrEl2 ≠ noTrap11 then
        some m.smp else none
    | _ => none
  | _ => none

theorem simdBelow_ready {plat : Platform} {cpu : SimdPlatform} {m : SimdSmp ι} {a : SimdAct ι}
    {n : Smp ι} (h : simdBelow plat cpu m a = some n) : SimdReady plat cpu m a n := by
  unfold simdBelow at h
  split at h
  · split at h
    · next hp =>
      cases h
      exact ⟨hp, rfl⟩
    · cases h
  · split at h
    · next act' restore hp =>
      split at h
      · next hok =>
        obtain ⟨rfl, hv⟩ := hok
        exact ⟨⟨restore, hp⟩, hv, smpStep_next h⟩
      · cases h
    · cases h
  · split at h
    · cases h
    · next job act restore hp hne =>
      split at h
      · next hv => exact ⟨⟨⟨act, restore, hp⟩, fun r e x hj => hne r e x hj⟩, hv,
          smpStep_next h⟩
      · cases h
    · cases h
  · split at h
    · next hp hj => exact ⟨⟨_, _, _, _, _, hp⟩, ⟨_, _, _, hj⟩, smpStep_next h⟩
    · cases h
  · split at h
    · next act restore hp =>
      split at h
      · next hidle =>
        cases h
        exact ⟨⟨act, restore, hp⟩, hidle, rfl⟩
      · cases h
    · cases h
  · split at h
    · next hp =>
      split at h
      · next hrun =>
        cases h
        exact ⟨hp, hrun, rfl⟩
      · cases h
    · cases h
  · split at h
    · next w hp =>
      split at h
      · next hok =>
        cases h
        exact ⟨⟨w, hp⟩, hok.1, hok.2, rfl⟩
      · cases h
    · cases h
  · cases h

/-- Follow a list of steps, with the memory evaluated after each. -/
def simdReplay (keys : Keys) (plat : Platform) (cpu : SimdPlatform) :
    SimdSmp ι → List (SimdAct ι) → Option (SimdSmp ι)
  | m, [] => some m
  | m, a :: rest =>
    (simdBelow plat cpu m a).bind fun n =>
      match simdStep cpu m a n with
      | .error _ => none
      | .ok m' => compact keys m'.smp.mem fun s =>
          simdReplay keys plat cpu { m' with smp := ⟨s, m'.smp.cpu⟩ } rest

theorem simdReplay_reach {keys : Keys} {plat : Platform} {cpu : SimdPlatform}
    (acts : List (SimdAct ι)) {m m' : SimdSmp ι} (hm : SimdReachable plat cpu m)
    (hr : simdReplay keys plat cpu m acts = some m') : SimdReachable plat cpu m' := by
  induction acts generalizing m with
  | nil =>
    cases hr
    exact hm
  | cons a rest ih =>
    unfold simdReplay at hr
    obtain ⟨n, hn, hrest⟩ := Option.bind_eq_some_iff.mp hr
    split at hrest
    · cases hrest
    · next m1 hs =>
      rw [compact_eq] at hrest
      exact ih (.step hm trivial ⟨n, simdBelow_ready hn, hs⟩) hrest

end

end RmmCaec
