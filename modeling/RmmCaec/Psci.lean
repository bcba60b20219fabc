import RmmCaec.SmpLaws

/-!
# PSCI

A realm turns its RECs on and off by PSCI calls. A call that names another REC leaves
the caller pending until the host completes it; the host chooses the RECs, the status
and the time. Here a REC has the registers and flags that these calls use, on top of
the machine with several CPUs. What else an entry or the realm does to the registers
of a REC is left to the steps as a parameter.
-/
namespace RmmCaec
open Outcome Runs

/-- Register numbers are written as literals. -/
instance instNeZeroGprs : NeZero 31 := ⟨by decide⟩

/-- The registers of a REC that PSCI reads or writes. -/
structure Regs where
  gprs : Fin 31 → Word
  pc : Word
  pstate : Word
  sctlrEl1 : Word

/-- The part of a REC that PSCI works on. -/
structure Vcpu extends Regs where
  runnable : Bool
  /-- `psci_info.pending`. -/
  pending : Bool

/-- The content of a zeroed REC granule. -/
instance : Inhabited Vcpu := ⟨⟨⟨fun _ => 0#64, 0#64, 0#64, 0#64⟩, false, false⟩⟩

def smc32PsciFid (n : ℕ) : Word := 0x84000000#64 + BitVec.ofNat 64 n
def smc64PsciFid (n : ℕ) : Word := 0xC4000000#64 + BitVec.ofNat 64 n

def smc32PsciVersion : Word := smc32PsciFid 0x0
def smc32PsciCpuSuspend : Word := smc32PsciFid 0x1
def smc64PsciCpuSuspend : Word := smc64PsciFid 0x1
def smc32PsciCpuOff : Word := smc32PsciFid 0x2
def smc32PsciCpuOn : Word := smc32PsciFid 0x3
def smc64PsciCpuOn : Word := smc64PsciFid 0x3
def smc32PsciAffinityInfo : Word := smc32PsciFid 0x4
def smc64PsciAffinityInfo : Word := smc64PsciFid 0x4
def smc32PsciSystemOff : Word := smc32PsciFid 0x8
def smc32PsciSystemReset : Word := smc32PsciFid 0x9
def smc32PsciFeatures : Word := smc32PsciFid 0xA
def smccVersion : Word := 0x80000000#64

def psciReturnSuccess : Word := 0#64
def psciReturnNotSupported : Word := -1#64
def psciReturnInvalidParams : Word := -2#64
def psciReturnDenied : Word := -3#64
def psciReturnAlreadyOn : Word := -4#64
def psciReturnInvalidAddress : Word := -9#64

def psciAffinityInfoOn : Word := 0#64
def psciAffinityInfoOff : Word := 1#64

/-- EL1h, AArch64, with debug, SError, IRQ and FIQ masked. -/
def pstateReset : Word := 0x3C5#64

/-- `SCTLR_EL1_FLAGS`: SPAN, EIS, nTWE, nTWI, EOS, nAA, CP15BEN, SA0 and SA. -/
def sctlrEl1Flags : Word := 0xC50878#64

/-- `SCTLR_ELx_EE_BIT`. -/
def sctlrEeBit : Word := 0x2000000#64

/-- The REC index in a value of the MPIDR_EL1 register. -/
def mpidrToRecIdx (mpidr : Word) : ℕ :=
  ((mpidr &&& 0xF#64) ||| ((mpidr &&& 0xFF00#64) >>> 4) ||| ((mpidr &&& 0xFF0000#64) >>> 4) |||
    ((mpidr &&& 0xFF00000000#64) >>> 12)).toNat

def recParSize (r : Rec) : ℕ := 2 ^ r.s2Ctx.ipaBits / 2
def addrInRecPar (r : Rec) (addr : Word) : Bool := decide (addr.toNat < recParSize r)

inductive RsiAction
  | UPDATE_REC_RETURN_TO_REALM
  | UPDATE_REC_EXIT_TO_HOST
  | EXIT_TO_HOST
  deriving DecidableEq, Repr

def RsiAction.updatesRec : RsiAction → Bool
  | .EXIT_TO_HOST => false
  | _ => true

def RsiAction.exitsToHost : RsiAction → Bool
  | .UPDATE_REC_RETURN_TO_REALM => false
  | _ => true

/-- What a PSCI handler answers: the action, the first result register, and the registers
that the host sees on an exit. -/
structure PsciResult where
  action : RsiAction
  x0 : Word
  exitGprs : Fin 31 → Word

def forwardArgsToHost (count : ℕ) (v : Vcpu) : Fin 31 → Word :=
  fun i => if i.val < count then v.gprs i else 0#64

/-- The handler answers the realm itself. -/
def psciReturn (x0 : Word) : PsciResult := ⟨.UPDATE_REC_RETURN_TO_REALM, x0, fun _ => 0#64⟩

def psciVersion : PsciResult := psciReturn 0x10001#64

def psciCpuSuspend (v : Vcpu) : PsciResult :=
  ⟨.UPDATE_REC_EXIT_TO_HOST, psciReturnSuccess, forwardArgsToHost 1 v⟩

def psciCpuOff (v : Vcpu) : Vcpu × PsciResult :=
  ({ v with runnable := false },
    ⟨.UPDATE_REC_EXIT_TO_HOST, psciReturnSuccess, forwardArgsToHost 1 v⟩)

/-- A request waits for the host with its registers unchanged. -/
def psciPend (v : Vcpu) : Vcpu × PsciResult :=
  ({ v with pending := true }, ⟨.EXIT_TO_HOST, 0#64, forwardArgsToHost 2 v⟩)

def psciCpuOn (s : State) (r : Rec) (v : Vcpu) : Vcpu × PsciResult :=
  if !addrInRecPar r (v.gprs 2) then (v, psciReturn psciReturnInvalidAddress)
  else if (s.rd r.gRd).recCount ≤ mpidrToRecIdx (v.gprs 1) then
    (v, psciReturn psciReturnInvalidParams)
  else if mpidrToRecIdx (v.gprs 1) = r.recIdx then (v, psciReturn psciReturnAlreadyOn)
  else psciPend v

def psciAffinityInfo (s : State) (r : Rec) (v : Vcpu) : Vcpu × PsciResult :=
  if v.gprs 2 ≠ 0#64 then (v, psciReturn psciReturnInvalidParams)
  else if (s.rd r.gRd).recCount ≤ mpidrToRecIdx (v.gprs 1) then
    (v, psciReturn psciReturnInvalidParams)
  else if mpidrToRecIdx (v.gprs 1) = r.recIdx then (v, psciReturn psciAffinityInfoOn)
  else psciPend v

def psciSystemOffReset (s : State) (r : Rec) (v : Vcpu) : Rmm (State × Vcpu × PsciResult) := do
  let s1 ← systemOffReboot s r.gRd
  return (s1, v, ⟨.EXIT_TO_HOST, 0#64, forwardArgsToHost 1 v⟩)

/-- The low half of a register, as `unsigned int` casts take it. -/
def lowWord (w : Word) : Word := w &&& 0xFFFFFFFF#64

def psciFeatures (v : Vcpu) : PsciResult :=
  if lowWord (v.gprs 1) ∈ [smc32PsciCpuSuspend, smc64PsciCpuSuspend, smc32PsciCpuOff,
      smc32PsciCpuOn, smc64PsciCpuOn, smc32PsciAffinityInfo, smc64PsciAffinityInfo,
      smc32PsciSystemOff, smc32PsciSystemReset, smc32PsciFeatures, smccVersion] then
    psciReturn psciReturnSuccess
  else psciReturn psciReturnNotSupported

/-- The handler reads only the low half of the function id. -/
def handlePsci (s : State) (recAddr : Word) (v : Vcpu) : Rmm (State × Vcpu × PsciResult) :=
  let r := s.recs recAddr
  let fid := lowWord (v.gprs 0)
  if fid = smc32PsciVersion then return (s, v, psciVersion)
  else if fid = smc32PsciCpuSuspend ∨ fid = smc64PsciCpuSuspend then
    return (s, v, psciCpuSuspend v)
  else if fid = smc32PsciCpuOff then return (s, psciCpuOff v)
  else if fid = smc32PsciCpuOn ∨ fid = smc64PsciCpuOn then return (s, psciCpuOn s r v)
  else if fid = smc32PsciAffinityInfo ∨ fid = smc64PsciAffinityInfo then
    return (s, psciAffinityInfo s r v)
  else if fid = smc32PsciSystemOff ∨ fid = smc32PsciSystemReset then psciSystemOffReset s r v
  else if fid = smc32PsciFeatures then return (s, v, psciFeatures v)
  else return (s, v, psciReturn psciReturnNotSupported)

/-- The calls that `handle_realm_rsi` gives to `handle_psci`, with the SVE hint ignored. -/
def isPsciCall (v : Vcpu) : Bool :=
  let fid := lowWord (v.gprs 0) &&& ~~~0x10000#64
  (decide (smc32PsciFid 0 ≤ fid) && decide (fid ≤ smc32PsciFid 0x14)) ||
    (decide (smc64PsciFid 0 ≤ fid) && decide (fid ≤ smc64PsciFid 0x14))

/-- The result registers: `x0` is the answer, `x1` to `x3` are cleared, the others stay. -/
def resultGprs (gprs : Fin 31 → Word) (x0 : Word) : Fin 31 → Word :=
  fun i => if i.val = 0 then x0 else if i.val < 4 then 0#64 else gprs i

/-- A PSCI call in `handle_realm_rsi`. The Boolean tells whether the REC goes on. -/
def psciCall (s : State) (recAddr : Word) (v : Vcpu) : Rmm (State × Vcpu × Bool) := do
  let (s1, v1, res) ← handlePsci s recAddr v
  let gprs := if res.action.updatesRec then resultGprs v1.gprs res.x0 else v1.gprs
  return (s1, { v1 with gprs := gprs, pc := v1.pc + 4#64 }, !res.action.exitsToHost)

def psciResetRec (v : Vcpu) (callerSctlrEl1 : Word) : Vcpu :=
  { v with pstate := pstateReset, sctlrEl1 := sctlrEl1Flags ||| (callerSctlrEl1 &&& sctlrEeBit) }

/-- The target after a completed CPU_ON, and what the caller is told. -/
def completePsciCpuOn (targetCount : ℕ) (target : Vcpu)
    (entryPointAddress contextId callerSctlrEl1 status : Word) : Vcpu × Word :=
  if targetCount ≠ 0 ∨ target.runnable = true then (target, psciReturnAlreadyOn)
  else if status = psciReturnDenied then (target, psciReturnDenied)
  else
    ({ psciResetRec target callerSctlrEl1 with
        gprs := Function.update target.gprs 0 contextId
        pc := entryPointAddress
        runnable := true }, psciReturnSuccess)

def completePsciAffinityInfo (targetCount : ℕ) (target : Vcpu) : Word :=
  if targetCount ≠ 0 ∨ target.runnable = true then psciAffinityInfoOn else psciAffinityInfoOff

/-- The caller gets its answer and is no longer pending. -/
def psciAnswer (calling : Vcpu) (recRet : Word) : Vcpu :=
  { calling with gprs := resultGprs calling.gprs recRet, pending := false }

/-- The caller and the target after a completion. The function id is now read in full. -/
def psciCompleteRequest (callingRec targetRec : Rec) (targetCount : ℕ) (calling target : Vcpu)
    (status : Word) : Rmm (Vcpu × Vcpu × ReturnCode) :=
  if !calling.pending then return (calling, target, rmiErrorInput)
  else if callingRec.gRd ≠ targetRec.gRd then return (calling, target, rmiErrorInput)
  else if mpidrToRecIdx (calling.gprs 1) ≠ targetRec.recIdx then
    return (calling, target, rmiErrorInput)
  else if calling.gprs 0 = smc32PsciCpuOn ∨ calling.gprs 0 = smc64PsciCpuOn then
    if status ≠ psciReturnSuccess ∧ status ≠ psciReturnDenied then
      return (calling, target, rmiErrorInput)
    else
      let (target', recRet) := completePsciCpuOn targetCount target (calling.gprs 2)
        (calling.gprs 3) calling.sctlrEl1 status
      let ret := if status = psciReturnDenied ∧ recRet = psciReturnAlreadyOn then rmiErrorInput
        else rmiSuccess
      return (psciAnswer calling recRet, target', ret)
  else if calling.gprs 0 = smc32PsciAffinityInfo ∨ calling.gprs 0 = smc64PsciAffinityInfo then
    if status ≠ psciReturnSuccess then return (calling, target, rmiErrorInput)
    else
      return (psciAnswer calling (completePsciAffinityInfo targetCount target), target, rmiSuccess)
  else .error .panic

def smcPsciComplete (plat : Platform) (s : State) (vcpu : Word → Vcpu)
    (callingAddr targetAddr status : Word) : Rmm ((Word → Vcpu) × ReturnCode) :=
  if !findLockTwoGranules plat s callingAddr .REC targetAddr .REC then
    return (vcpu, rmiErrorInput)
  else if (s.granule callingAddr).refcount ≠ 0 then return (vcpu, rmiErrorInput)
  else do
    let (calling, target, ret) ← psciCompleteRequest (s.recs callingAddr) (s.recs targetAddr)
      (s.granule targetAddr).refcount (vcpu callingAddr) (vcpu targetAddr) status
    return (Function.update (Function.update vcpu callingAddr calling) targetAddr target, ret)

/-- The parameters of a new REC that its registers start with. -/
structure VcpuParams where
  gprs : Fin 8 → Word
  pc : Word
  runnable : Bool

/-- `init_rec_regs` on a zeroed REC. -/
def initVcpu (p : VcpuParams) : Vcpu where
  gprs i := if h : i.val < 8 then p.gprs ⟨i.val, h⟩ else 0#64
  pc := p.pc
  pstate := pstateReset
  sctlrEl1 := sctlrEl1Flags
  runnable := p.runnable
  pending := false

/-- The memory, the CPUs and the RECs. -/
structure PsciSmp (ι : Type) where
  smp : Smp ι
  vcpu : Word → Vcpu

/-- The RECs after a step that makes some, with the given parameters, or frees some. -/
def vcpusAfter (s s' : State) (vcpu : Word → Vcpu) (p : VcpuParams) : Word → Vcpu := fun g =>
  if (s'.granule g).state = .REC then
    if (s.granule g).state = .REC then vcpu g else initVcpu p
  else default

/-- A REC that is off or pending is refused before any check that a host can pass. -/
def recEnterEntry (v : Vcpu) (entry : RecEntry) : RecEntry :=
  if entry ≠ .unreadable ∧ (v.runnable = false ∨ v.pending = true) then .refused else entry

/-- An entry that is not refused for the REC's own sake completes what the last exit left
open, which may change the registers. -/
def recEnterRegs (s : State) (recAddr : Word) (v : Vcpu) (entry : RecEntry) (regs : Regs) : Vcpu :=
  if entry ≠ .unreadable ∧ (s.rd (s.recs recAddr).gRd).state = .ACTIVE ∧
      v.runnable = true ∧ v.pending = false then
    { v with toRegs := regs }
  else v

inductive PsciAct (ι : Type)
  /-- A step of the machine that looks at no register. -/
  | plain (a : SmpAct ι) (p : VcpuParams)
  | enter (c : ι) (regs : Regs)
  /-- The realm runs. -/
  | guest (c : ι) (regs : Regs)
  | psci (c : ι)
  | complete (c : ι) (callingAddr targetAddr status : Word)

section
variable {ι : Type} [DecidableEq ι]

/-- A step of a CPU that is about to enter a REC. -/
def SmpAct.enters (m : Smp ι) : SmpAct ι → Bool
  | .resume c =>
    match m.cpu c with
    | .entered _ _ _ => true
    | _ => false
  | _ => false

/-- One step. -/
def PsciNext (plat : Platform) (m : PsciSmp ι) (a : PsciAct ι) (m' : PsciSmp ι) : Prop :=
  match a with
  | .plain a p => a.enters m.smp = false ∧ ∃ n, SmpNext plat m.smp a n ∧
      m' = ⟨n, vcpusAfter m.smp.mem n.mem m.vcpu p⟩
  | .enter c regs => ∃ recAddr entry reject, m.smp.cpu c = .entered recAddr entry reject ∧
      ∃ s job reply, recEnterBody m.smp.mem recAddr
        (recEnterEntry (m.vcpu recAddr) entry) reject =
        .ok (s, job, reply) ∧
      m' = ⟨m.smp.put c s job, Function.update m.vcpu recAddr
        (recEnterRegs m.smp.mem recAddr (m.vcpu recAddr) entry regs)⟩
  | .guest c regs => ∃ recAddr, m.smp.cpu c = .running recAddr ∧
      m' = ⟨m.smp, Function.update m.vcpu recAddr { m.vcpu recAddr with toRegs := regs }⟩
  | .psci c => ∃ recAddr, m.smp.cpu c = .running recAddr ∧
      isPsciCall (m.vcpu recAddr) = true ∧
      ∃ s v goesOn, psciCall m.smp.mem recAddr (m.vcpu recAddr) = .ok (s, v, goesOn) ∧
      m' = ⟨m.smp.put c s (if goesOn then .running recAddr else .leaving recAddr rmiSuccess),
        Function.update m.vcpu recAddr v⟩
  | .complete c callingAddr targetAddr status => m.smp.cpu c = .idle ∧
      ∃ vcpu ret, smcPsciComplete plat m.smp.mem m.vcpu callingAddr targetAddr status =
        .ok (vcpu, ret) ∧ m' = ⟨m.smp, vcpu⟩

def initPsci : PsciSmp ι := ⟨initSmp, fun _ => default⟩

/-- The states that any requests, completions and entries reach. -/
abbrev PsciReachable (plat : Platform) : PsciSmp ι → Prop :=
  Reach initPsci (PsciNext plat) fun _ _ => True

/-- One step as a function. -/
def psciStep (plat : Platform) (m : PsciSmp ι) : PsciAct ι → Option (PsciSmp ι)
  | .plain a p =>
    if a.enters m.smp then none
    else (smpStep plat m.smp a).map fun n => ⟨n, vcpusAfter m.smp.mem n.mem m.vcpu p⟩
  | .enter c regs =>
    match m.smp.cpu c with
    | .entered recAddr entry reject =>
      match recEnterBody m.smp.mem recAddr (recEnterEntry (m.vcpu recAddr) entry) reject with
      | .error _ => none
      | .ok (s, job, _) => some ⟨m.smp.put c s job, Function.update m.vcpu recAddr
          (recEnterRegs m.smp.mem recAddr (m.vcpu recAddr) entry regs)⟩
    | _ => none
  | .guest c regs =>
    match m.smp.cpu c with
    | .running recAddr =>
      some ⟨m.smp, Function.update m.vcpu recAddr { m.vcpu recAddr with toRegs := regs }⟩
    | _ => none
  | .psci c =>
    match m.smp.cpu c with
    | .running recAddr =>
      if isPsciCall (m.vcpu recAddr) then
        match psciCall m.smp.mem recAddr (m.vcpu recAddr) with
        | .error _ => none
        | .ok (s, v, goesOn) => some
          ⟨m.smp.put c s (if goesOn then .running recAddr else .leaving recAddr rmiSuccess),
            Function.update m.vcpu recAddr v⟩
      else none
    | _ => none
  | .complete c callingAddr targetAddr status =>
    if m.smp.cpu c = .idle then
      match smcPsciComplete plat m.smp.mem m.vcpu callingAddr targetAddr status with
      | .error _ => none
      | .ok (vcpu, _) => some ⟨m.smp, vcpu⟩
    else none

theorem psciStep_next {plat : Platform} {m m' : PsciSmp ι} {a : PsciAct ι}
    (h : psciStep plat m a = some m') : PsciNext plat m a m' := by
  cases a with
  | plain a p =>
    simp only [psciStep] at h
    split at h
    · cases h
    · next henters =>
      obtain ⟨n, hn, rfl⟩ := Option.map_eq_some_iff.mp h
      exact ⟨by simpa using henters, n, smpStep_next hn, rfl⟩
  | enter c regs =>
    simp only [psciStep] at h
    split at h
    · next recAddr entry reject hjob =>
      split at h
      · cases h
      · next s job reply hbody =>
        cases h
        exact ⟨recAddr, entry, reject, hjob, s, job, reply, hbody, rfl⟩
    · cases h
  | guest c regs =>
    simp only [psciStep] at h
    split at h
    · next recAddr hrun =>
      cases h
      exact ⟨recAddr, hrun, rfl⟩
    · cases h
  | psci c =>
    simp only [psciStep] at h
    split at h
    · next recAddr hrun =>
      split at h
      · next hpsci =>
        split at h
        · cases h
        · next s v goesOn hcall =>
          cases h
          exact ⟨recAddr, hrun, hpsci, s, v, goesOn, hcall, rfl⟩
      · cases h
    · cases h
  | complete c callingAddr targetAddr status =>
    simp only [psciStep] at h
    split at h
    · next hidle =>
      split at h
      · cases h
      · next vcpu ret hs =>
        cases h
        exact ⟨hidle, vcpu, ret, hs, rfl⟩
    · cases h

/-- Evaluate the flags and the first registers of a REC. -/
def forceVcpu {β : Type} (v : Vcpu) (k : Vcpu → β) : β :=
  materialize forceWord v.gprs [0, 1, 2, 3] v.gprs fun gprs =>
    match v.runnable, v.pending with
    | true, true => k ⟨⟨gprs, v.pc, v.pstate, v.sctlrEl1⟩, true, true⟩
    | true, false => k ⟨⟨gprs, v.pc, v.pstate, v.sctlrEl1⟩, true, false⟩
    | false, true => k ⟨⟨gprs, v.pc, v.pstate, v.sctlrEl1⟩, false, true⟩
    | false, false => k ⟨⟨gprs, v.pc, v.pstate, v.sctlrEl1⟩, false, false⟩

theorem forceVcpu_eq {β : Type} (v : Vcpu) (k : Vcpu → β) : forceVcpu v k = k v := by
  obtain ⟨⟨gprs, pc, pstate, sctlr⟩, runnable, pending⟩ := v
  rw [forceVcpu, materialize_eq forceWord_eq]
  cases runnable <;> cases pending <;> rfl

/-- Follow a list of steps that pass a test, with the state evaluated after each. -/
def psciReplay (keys : Keys) (plat : Platform) (ok : PsciSmp ι → Bool) :
    PsciSmp ι → List (PsciAct ι) → Option (PsciSmp ι)
  | m, [] => some m
  | m, a :: rest =>
    if ok m then
      match psciStep plat m a with
      | none => none
      | some m' => compact keys m'.smp.mem fun s =>
          materialize forceVcpu m'.vcpu keys.recs m'.vcpu fun vcpu =>
            psciReplay keys plat ok ⟨⟨s, m'.smp.cpu⟩, vcpu⟩ rest
    else none

theorem psciReplay_guarded {keys : Keys} {plat : Platform} {ok : PsciSmp ι → Bool}
    {P : PsciAct ι → Prop} (acts : List (PsciAct ι)) (hacts : ∀ a ∈ acts, P a)
    {m0 m m' : PsciSmp ι}
    (hm : Reach m0 (PsciNext plat) (fun m a => ok m = true ∧ P a) m)
    (hr : psciReplay keys plat ok m acts = some m') :
    Reach m0 (PsciNext plat) (fun m a => ok m = true ∧ P a) m' := by
  induction acts generalizing m with
  | nil =>
    cases hr
    exact hm
  | cons a rest ih =>
    have hrest : ∀ b ∈ rest, P b := fun b hb => hacts b (List.mem_cons_of_mem a hb)
    unfold psciReplay at hr
    split at hr
    · next hok =>
      split at hr
      · cases hr
      · next m1 hstep =>
        rw [compact_eq, materialize_eq forceVcpu_eq] at hr
        exact ih hrest (.step hm ⟨hok, hacts a List.mem_cons_self⟩ (psciStep_next hstep)) hr
    · cases hr

theorem psciReplay_reach {keys : Keys} {plat : Platform} {ok : PsciSmp ι → Bool}
    (acts : List (PsciAct ι)) {m0 m m' : PsciSmp ι}
    (hm : Reach m0 (PsciNext plat) (fun m _ => ok m = true) m)
    (hr : psciReplay keys plat ok m acts = some m') :
    Reach m0 (PsciNext plat) (fun m _ => ok m = true) m' := by
  have hall : ∀ a ∈ acts, True := fun _ _ => trivial
  exact (psciReplay_guarded acts hall (hm.mono fun _ _ hok => ⟨hok, trivial⟩) hr).mono
    fun _ _ h => h.1

end

end RmmCaec
