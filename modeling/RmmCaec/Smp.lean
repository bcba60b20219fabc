import RmmCaec.Replay

/-!
# Several CPUs

Handlers on several CPUs interleave at the points where they hold no granule lock.
A critical section is one step. The handlers for RECs and data have more than one
section: what a CPU still has to do between two of them is its job. All other
handlers run as one step, and so does each RSI call of a running REC.

Memory is also written without a call: by the host, by realms, and by the monitor in
the parts of its records that the model leaves out.
-/
namespace RmmCaec
open RadixForest Outcome Runs

/-- What a CPU has left to do. -/
inductive Job
  | idle
  /-- `smc_rec_create` in its loop over the auxiliary granules. -/
  | claiming (rdAddr recAddr : Word) (p : RecParams) (left claimed : List Word)
  /-- `smc_rec_create` gives auxiliary granules back before it fails. -/
  | unclaiming (left : List Word) (ret : ReturnCode)
  /-- `smc_rec_destroy` has freed the REC and still holds its reference on the realm. -/
  | releasing (rdAddr : Word)
  /-- `smc_rec_enter` has taken the reference on the REC. -/
  | entered (recAddr : Word) (entry : RecEntry) (reject : Bool)
  | running (recAddr : Word)
  /-- `smc_rec_enter` is about to drop the reference on the REC. -/
  | leaving (recAddr : Word) (ret : ReturnCode)
  /-- A created page has to be mirrored. -/
  | mirroring (rdAddr dataAddr mapAddr : Word) (res : SmcResult)
  /-- A destroyed page has to be removed from the partners. -/
  | unmirroring (rdAddr mapAddr : Word) (res : SmcResult)
  deriving DecidableEq, Repr

namespace Job

/-- The REC that the CPU is in, from taking the reference to dropping it. -/
def inside : Job → Option Word
  | entered recAddr _ _ | running recAddr | leaving recAddr _ => some recAddr
  | _ => none

/-- The realm on which the CPU holds the reference of a REC that it has freed. -/
def releases : Job → Option Word
  | releasing rdAddr => some rdAddr
  | _ => none

/-- The auxiliary granules that belong to no REC yet. -/
def claims : Job → List Word
  | claiming _ _ _ _ claimed => claimed
  | unclaiming left _ => left
  | _ => []

end Job

/-- A critical section: the state behind it, what the CPU has left to do, and the reply
if the handler is done. -/
abbrev Sec := Rmm (State × Job × Option Reply)

/-- The handler returns. -/
def secReturn (s : State) (res : SmcResult) : Sec := return (s, .idle, some (.smc res))

/-- The handler goes on with a job. -/
def secYield (s : State) (job : Job) : Sec := return (s, job, none)

/-- The checks of `smc_rec_create` before its first lock. -/
def recCreateStart (plat : Platform) (s : State) (rdAddr recAddr paramsAddr : Word)
    (nsRead : Option RecParams) : Sec :=
  if !(findGranule plat paramsAddr && (s.granule paramsAddr).state == .NS) then
    secReturn s (smcRet rmiErrorInput)
  else match nsRead with
  | none => secReturn s (smcRet rmiErrorInput)
  | some p =>
    if maxRecAuxGranules < p.aux.length then secReturn s (smcRet rmiErrorInput)
    else secYield s (.claiming rdAddr recAddr p p.aux [])

/-- One round of the loop that claims the auxiliary granules. On a failure the granules
claimed before are unlocked once more. -/
def recAuxClaim (plat : Platform) (s : State) (rdAddr recAddr : Word) (p : RecParams) (a : Word)
    (left claimed : List Word) : Sec := do
  let found ← findLockGranule plat s [] a .DELEGATED
  if !found then
    assertThat claimed.isEmpty .doubleUnlock
    secReturn s (smcRet rmiErrorInput)
  else
    let s1 ← granuleUnlockTransition s a .REC_AUX
    secYield s1 (.claiming rdAddr recAddr p left (claimed ++ [a]))

/-- The section of `smc_rec_create` under the locks of the REC and the RD. -/
def recCreateSection (plat : Platform) (s : State) (rdAddr recAddr : Word) (p : RecParams)
    (claimed : List Word) : Sec := do
  let rd := s.rd rdAddr
  let ret : ReturnCode :=
    if !findLockTwoGranules plat s recAddr .DELEGATED rdAddr .RD then rmiErrorInput
    else if (s.granule rdAddr).refcount = refcountMax then rmiErrorRealm
    else if rd.state ≠ .NEW then rmiErrorRealm
    else if p.mpidrIdx ≠ some rd.recCount then rmiErrorInput
    else if p.aux.length ≠ rd.numRecAux then rmiErrorInput
    else rmiSuccess
  if ret ≠ rmiSuccess then secYield s (.unclaiming claimed ret)
  else
    let r : Rec := { s.recs recAddr with
      recIdx := rd.recCount, gRd := rdAddr, s2Ctx := rd.s2Ctx, gAux := claimed }
    let s1 ← atomicGranuleGet (s.setRec recAddr r) rdAddr
    let s2 := s1.setRd rdAddr { rd with recCount := rd.recCount + 1 }
    let s3 ← granuleUnlockTransition s2 recAddr .REC
    secReturn s3 (smcRet rmiSuccess)

/-- One round of `free_rec_aux_granules`, without scrubbing. -/
def recAuxUnclaim (s : State) (a : Word) (left : List Word) (ret : ReturnCode) : Sec := do
  granuleLock s a .REC_AUX
  let s1 ← granuleUnlockTransition s a .DELEGATED
  secYield s1 (.unclaiming left ret)

/-- `smc_rec_destroy` up to the unlock of the REC. -/
def recDestroySection (plat : Platform) (s : State) (recAddr : Word) : Sec := do
  let found ← findLockGranule plat s [] recAddr .REC
  if !found then secReturn s (smcRet rmiErrorInput)
  else if (s.granule recAddr).refcount ≠ 0 then secReturn s (smcRet rmiErrorRec)
  else
    let r := s.recs recAddr
    let s1 ← freeGranules s r.gAux .REC_AUX true
    let s2 ← granuleUnlockTransition (s1.memzero recAddr) recAddr .DELEGATED
    secYield s2 (.releasing r.gRd)

/-- `smc_rec_enter` up to the unlock of the REC. -/
def recEnterSection (plat : Platform) (s : State) (recAddr runAddr : Word) (entry : RecEntry)
    (reject : Bool) : Sec := do
  if !(findGranule plat runAddr && (s.granule runAddr).state == .NS) then
    secReturn s (smcRet rmiErrorInput)
  else
    let found ← findLockGranule plat s [] recAddr .REC
    if !found then secReturn s (smcRet rmiErrorInput)
    else if (s.granule recAddr).refcount ≠ 0 then secReturn s (smcRet rmiErrorRec)
    else
      let s1 ← atomicGranuleGet s recAddr
      granuleUnlock s1 recAddr
      secYield s1 (.entered recAddr entry reject)

/-- `smc_rec_enter` between taking the reference and the first instruction of the realm:
it only holds the reference. -/
def recEnterBody (s : State) (recAddr : Word) (entry : RecEntry) (reject : Bool) : Sec :=
  if entry = .unreadable then secYield s (.leaving recAddr rmiErrorInput)
  else
    let r := s.recs recAddr
    match (s.rd r.gRd).state with
    | .NEW => secYield s (.leaving recAddr ⟨.ERROR_REALM, 0⟩)
    | .SYSTEM_OFF => secYield s (.leaving recAddr ⟨.ERROR_REALM, 1⟩)
    | .ACTIVE =>
      let r' := completeSetRipas { r with setRipas := { r.setRipas with reject := reject } }
      match entry with
      | .unreadable => secYield s (.leaving recAddr rmiErrorInput)
      | .refused => secYield s (.leaving recAddr rmiErrorRec)
      | .aborted => secYield (s.setRec recAddr r') (.leaving recAddr rmiSuccess)
      | .run => secYield (s.setRec recAddr r') (.running recAddr)

/-- The section of a data creation, with its reply kept for the end. -/
def dataCreateStart (plat : Platform) (s : State) (rdAddr dataAddr mapAddr : Word)
    (measured : Bool) (nsCopy : NsCopy) : Sec := do
  let (s1, res) ← dataCreate plat s rdAddr dataAddr mapAddr measured nsCopy
  if res.ret = rmiSuccess then secYield s1 (.mirroring rdAddr dataAddr mapAddr res)
  else secReturn s1 res

/-- An idle CPU starts a handler. -/
def handlerStart (plat : Platform) (s : State) : Act → Sec
  | .recCreate rdAddr recAddr paramsAddr nsRead =>
    recCreateStart plat s rdAddr recAddr paramsAddr nsRead
  | .recDestroy recAddr => recDestroySection plat s recAddr
  | .recEnter recAddr runAddr entry reject => recEnterSection plat s recAddr runAddr entry reject
  | .dataCreate rdAddr dataAddr mapAddr srcAddr flags nsCopy =>
    if flags ≠ 0#64 ∧ flags ≠ 1#64 then secReturn s (smcRet rmiErrorInput)
    else if !(findGranule plat srcAddr && (s.granule srcAddr).state == .NS) then
      secReturn s (smcRet rmiErrorInput)
    else dataCreateStart plat s rdAddr dataAddr mapAddr true nsCopy
  | .dataCreateUnknown rdAddr dataAddr mapAddr =>
    dataCreateStart plat s rdAddr dataAddr mapAddr false .done
  | .dataDestroy rdAddr mapAddr => do
    let (s1, res) ← dataDestroySection plat s rdAddr mapAddr
    if res.ret = rmiSuccess then secYield s1 (.unmirroring rdAddr mapAddr res)
    else secReturn s1 res
  | .rsi _ _ | .recExit _ => secYield s .idle
  | act => do
    let (s1, reply) ← step plat s act
    return (s1, .idle, some reply)

/-- A CPU goes on with its job. -/
def handlerResume (plat : Platform) (s : State) : Job → Sec
  | .claiming rdAddr recAddr p (a :: left) claimed =>
    recAuxClaim plat s rdAddr recAddr p a left claimed
  | .claiming rdAddr recAddr p [] claimed => recCreateSection plat s rdAddr recAddr p claimed
  | .unclaiming (a :: left) ret => recAuxUnclaim s a left ret
  | .unclaiming [] ret => secReturn s (smcRet ret)
  | .releasing rdAddr => do
    let s1 ← atomicGranulePut s rdAddr
    secReturn s1 (smcRet rmiSuccess)
  | .entered recAddr entry reject => recEnterBody s recAddr entry reject
  | .leaving recAddr ret => do
    let s1 ← atomicGranulePut s recAddr
    secReturn s1 (smcRet ret)
  | .mirroring rdAddr dataAddr mapAddr res => do
    let s1 ← csmPropagateCreate plat s rdAddr dataAddr mapAddr
    secReturn s1 res
  | .unmirroring rdAddr mapAddr res => do
    let s1 ← csmPropagateDestroy plat s rdAddr mapAddr
    secReturn s1 res
  | .idle => secYield s .idle
  | .running recAddr => secYield s (.running recAddr)

/-- The memory and the jobs of any number of CPUs. -/
structure Smp (ι : Type) where
  mem : State
  cpu : ι → Job

section
variable {ι : Type} [DecidableEq ι]

/-- One CPU finishes a section. -/
def Smp.put (m : Smp ι) (c : ι) (s : State) (job : Job) : Smp ι :=
  ⟨s, Function.update m.cpu c job⟩

/-- Memory that can change without a call: not a DELEGATED granule, not a table, and not
an auxiliary granule that has no REC yet. -/
def Smp.Writable (m : Smp ι) (g : Word) : Prop :=
  (m.mem.granule g).state ≠ .DELEGATED ∧ (m.mem.granule g).state ≠ .RTT ∧
    ∀ c, g ∉ (m.cpu c).claims

inductive SmpAct (ι : Type)
  | start (c : ι) (act : Act)
  | resume (c : ι)
  | rsi (c : ι) (call : RsiCall)
  | exit (c : ι)
  | write (g : Word) (words : ℕ → Word)

/-- One step of the machine. -/
def SmpNext (plat : Platform) (m : Smp ι) (a : SmpAct ι) (m' : Smp ι) : Prop :=
  match a with
  | .start c act => m.cpu c = .idle ∧ ∃ s job reply,
      handlerStart plat m.mem act = .ok (s, job, reply) ∧ m' = m.put c s job
  | .resume c => ∃ s job reply,
      handlerResume plat m.mem (m.cpu c) = .ok (s, job, reply) ∧ m' = m.put c s job
  | .rsi c call => ∃ recAddr, m.cpu c = .running recAddr ∧ ∃ s res,
      rsiHandler plat m.mem recAddr call = .ok (s, res) ∧
      m' = m.put c s (if res.exitToHost then .leaving recAddr rmiSuccess else .running recAddr)
  | .exit c => ∃ recAddr, m.cpu c = .running recAddr ∧
      m' = m.put c m.mem (.leaving recAddr rmiSuccess)
  | .write g words => m.Writable g ∧ m' = ⟨m.mem.setTable g words, m.cpu⟩

/-- Before the first call every CPU is idle. -/
def initSmp : Smp ι := ⟨initState, fun _ => .idle⟩

/-- The states of the machine that any steps reach. -/
abbrev SmpReachable (plat : Platform) : Smp ι → Prop :=
  Reach initSmp (SmpNext plat) fun _ _ => True

/-- One step of the machine as a function, for the steps of CPUs. -/
def smpStep (plat : Platform) (m : Smp ι) : SmpAct ι → Option (Smp ι)
  | .start c act => if m.cpu c = .idle then
      match handlerStart plat m.mem act with
      | .error _ => none
      | .ok (s, job, _) => some (m.put c s job)
    else none
  | .resume c =>
    match handlerResume plat m.mem (m.cpu c) with
    | .error _ => none
    | .ok (s, job, _) => some (m.put c s job)
  | .rsi c call =>
    match m.cpu c with
    | .running recAddr =>
      match rsiHandler plat m.mem recAddr call with
      | .error _ => none
      | .ok (s, res) =>
        some (m.put c s (if res.exitToHost then .leaving recAddr rmiSuccess else .running recAddr))
    | _ => none
  | .exit c =>
    match m.cpu c with
    | .running recAddr => some (m.put c m.mem (.leaving recAddr rmiSuccess))
    | _ => none
  | .write _ _ => none

theorem smpStep_next {plat : Platform} {m m' : Smp ι} {a : SmpAct ι}
    (h : smpStep plat m a = some m') : SmpNext plat m a m' := by
  cases a with
  | start c act =>
    simp only [smpStep] at h
    split at h
    · next hidle =>
      split at h
      · cases h
      · next s job reply hs =>
        cases h
        exact ⟨hidle, s, job, reply, hs, rfl⟩
    · cases h
  | resume c =>
    simp only [smpStep] at h
    split at h
    · cases h
    · next s job reply hs =>
      cases h
      exact ⟨s, job, reply, hs, rfl⟩
  | rsi c call =>
    simp only [smpStep] at h
    split at h
    · next recAddr hrun =>
      split at h
      · cases h
      · next s res hs =>
        cases h
        exact ⟨recAddr, hrun, s, res, hs, rfl⟩
    · cases h
  | exit c =>
    simp only [smpStep] at h
    split at h
    · next recAddr hrun =>
      cases h
      exact ⟨recAddr, hrun, rfl⟩
    · cases h
  | write g words => cases h

/-- Follow a list of steps, with the memory evaluated after each. -/
def smpReplay (keys : Keys) (plat : Platform) : Smp ι → List (SmpAct ι) → Option (Smp ι)
  | m, [] => some m
  | m, a :: rest =>
    match smpStep plat m a with
    | none => none
    | some m' => compact keys m'.mem fun s => smpReplay keys plat ⟨s, m'.cpu⟩ rest

/-- The end of a replay has a property that can be evaluated. -/
def smpReplayEnds (keys : Keys) (plat : Platform) (acts : List (SmpAct ι))
    (test : Smp ι → Bool) : Bool :=
  (smpReplay keys plat initSmp acts).any test

theorem smpReplay_reachable {keys : Keys} {plat : Platform} (acts : List (SmpAct ι))
    {m m' : Smp ι} (hm : SmpReachable plat m) (hr : smpReplay keys plat m acts = some m') :
    SmpReachable plat m' := by
  induction acts generalizing m with
  | nil =>
    cases hr
    exact hm
  | cons a rest ih =>
    unfold smpReplay at hr
    split at hr
    · cases hr
    · next m1 hstep =>
      rw [compact_eq] at hr
      exact ih (.step hm trivial (smpStep_next hstep)) hr

theorem smpReplayEnds_reachable {keys : Keys} {plat : Platform} {acts : List (SmpAct ι)}
    {test : Smp ι → Bool} (h : smpReplayEnds keys plat acts test = true) :
    ∃ m, SmpReachable plat m ∧ test m = true := by
  obtain ⟨m, hm, ht⟩ := (Option.any_eq_true _ _).mp h
  exact ⟨m, smpReplay_reachable acts .init hm, ht⟩

end

end RmmCaec
