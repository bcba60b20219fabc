import RmmCaec.Walk

/-!
# Granule, realm and REC handlers

The RMI handlers that delegate granules and that create and destroy realms and
RECs. What the host leaves in non-secure memory, and what EL3 answers, are
inputs of the handlers.
-/
namespace RmmCaec

def smcGranuleDelegate (plat : Platform) (s : State) (addr : Word) (el3Ok : Bool) :
    Rmm (State × SmcResult) := do
  let found ← findLockGranule plat s [] addr .NS
  if !found then return (s, smcRet rmiErrorInput)
  else if !el3Ok then return (s, smcRet rmiErrorInput)
  else
    let s := (s.setState addr .DELEGATED).memzero addr
    granuleUnlock s addr
    return (s, smcRet rmiSuccess)

def smcGranuleUndelegate (plat : Platform) (s : State) (addr : Word) (el3Ok : Bool) :
    Rmm (State × SmcResult) := do
  let found ← findLockGranule plat s [] addr .DELEGATED
  if !found then return (s, smcRet rmiErrorInput)
  else
    assertThat el3Ok .panic
    let s ← granuleUnlockTransition s addr .NS
    return (s, smcRet rmiSuccess)

def realmIpaSize (rd : Rd) : ℕ := 2 ^ rd.s2Ctx.ipaBits
def realmParSize (rd : Rd) : ℕ := realmIpaSize rd / 2
def addrInPar (rd : Rd) (addr : Word) : Bool := decide (addr.toNat < realmParSize rd)

/-- The realm parameters that the host supplies to `smc_realm_create`. -/
structure RealmParams where
  lpa2 : Bool
  sve : Bool
  pmu : Bool
  s2sz : ℕ
  numBps : ℕ
  numWps : ℕ
  sveVl : ℕ
  pmuNumCtrs : ℕ
  algorithm : ℕ
  rttLevelStart : ℤ
  rttNumStart : ℕ
  rttBase : Word
  vmid : ℕ
  deriving DecidableEq, Repr

def s2InconsistentSl (ipaBits : ℕ) (sl : ℤ) (lpa2 : Bool) : Bool :=
  let slMin := (3 - sl).toNat * 9 + 12 + 1
  let slMax := slMin + (if sl = s2ttMinStartingLevelLpa2 ∧ lpa2 = true then 3 else 8) +
    (if 0 < sl ∨ (sl = 0 ∧ lpa2 = true) then 4 else 0)
  decide (ipaBits < slMin) || decide (slMax < ipaBits)

def validateIpaBitsAndSl (plat : Platform) (ipaBits : ℕ) (sl : ℤ) (lpa2 : Bool) : Bool :=
  let maxIpaBits := if lpa2 then 52 else 48
  let minStartingLevel := if lpa2 then s2ttMinStartingLevelLpa2 else s2ttMinStartingLevel
  if ipaBits < 32 ∨ maxIpaBits < ipaBits then false
  else if sl < minStartingLevel ∨ s2ttPageLevel < sl then false
  else if sl = 0 ∧ plat.paWidth < 44 then false
  else !s2InconsistentSl ipaBits sl lpa2

/-- The number of root tables that an IPA size and starting level need. -/
def s2NumRootRtts (ipaBits : ℕ) (sl : ℤ) : ℕ :=
  let slIpaBits := (3 - sl).toNat * 9 + 12 + 9
  if ipaBits ≤ slIpaBits then 1 else 2 ^ (ipaBits - slIpaBits)

/-- The checks of `validate_realm_params` before it reserves the VMID. -/
def realmParamsValid (plat : Platform) (p : RealmParams) : Bool :=
  !(p.lpa2 && !plat.lpa2) &&
  !(decide (p.s2sz < 32) || decide (plat.s2sz < p.s2sz)) &&
  !(p.numBps == 0 || decide (plat.numBps < p.numBps) ||
    p.numWps == 0 || decide (plat.numWps < p.numWps)) &&
  !(p.sve && (!plat.sveEn || decide (plat.sveVl < p.sveVl))) &&
  !(p.pmu && (decide (plat.pmuNumCtrs < p.pmuNumCtrs) || (p.pmuNumCtrs == 0 && !plat.hpmn0))) &&
  validateIpaBitsAndSl plat p.s2sz p.rttLevelStart p.lpa2 &&
  s2NumRootRtts p.s2sz p.rttLevelStart == p.rttNumStart &&
  (p.algorithm == 0 || p.algorithm == 1)

def vmidCount (plat : Platform) : ℕ := if plat.vmid16 then 2 ^ 16 else 2 ^ 8

/-- Mark a VMID as used, unless it is out of range or taken. -/
def vmidReserve (plat : Platform) (s : State) (vmid : ℕ) : Option State :=
  if vmidCount plat ≤ vmid then none
  else if s.vmids vmid then none
  else some { s with vmids := Function.update s.vmids vmid true }

def vmidFree (plat : Platform) (s : State) (vmid : ℕ) : Rmm State := do
  assertThat (decide (vmid < vmidCount plat)) .outOfBounds
  return { s with vmids := Function.update s.vmids vmid false }

/-- The entries of root table `k`: unassigned_empty below the middle of the IPA
space, unassigned_ns above it, and nothing beyond its end. -/
def startingLevelTable (rd : Rd) (old : ℕ → Word) (k : ℕ) : ℕ → Word :=
  let perTable := if rd.s2Ctx.s2StartingLevel = s2ttMinStartingLevelLpa2 then s2ttesPerS2ttLm1
    else s2ttesPerS2tt
  fun i =>
    let ipa := (k * perTable + i) * s2tteMapSize rd.s2Ctx.s2StartingLevel
    if i < perTable ∧ ipa < realmIpaSize rd then
      if ipa < realmParSize rd then s2tteCreateUnassignedEmpty else s2tteCreateUnassignedNs
    else old i

/-- The addresses of the root tables of a realm. -/
def rootTables (ctx : S2ttContext) : List Word := (List.range ctx.numRootRtts).map (rootTable ctx)

/-- Fill the root tables; the loop must meet the end of the IPA space. -/
def initS2StartingLevel (s : State) (rd : Rd) : Rmm State := do
  let mapSize := s2tteMapSize rd.s2Ctx.s2StartingLevel
  let perTable := if rd.s2Ctx.s2StartingLevel = s2ttMinStartingLevelLpa2 then s2ttesPerS2ttLm1
    else s2ttesPerS2tt
  assertThat (decide (realmIpaSize rd % mapSize = 0) &&
    decide (realmIpaSize rd ≤ rd.s2Ctx.numRootRtts * perTable * mapSize)) .startingLevel
  return (List.range rd.s2Ctx.numRootRtts).foldl (fun s k =>
    s.setTable (rootTable rd.s2Ctx k) (startingLevelTable rd (s.rtt (rootTable rd.s2Ctx k)) k)) s

/-- Release a list of locked granules into a new state. -/
def unlockTransitions (s : State) (addrs : List Word) (state : GranuleState) : Rmm State :=
  addrs.foldlM (fun s addr => granuleUnlockTransition s addr state) s

/-- The container bounds are checked before the address is. -/
def addrIsContained (containerBase containerEnd address : Word) : Bool :=
  if containerEnd - 1#64 < containerBase then false
  else decide (containerBase ≤ address) && decide (address ≤ containerEnd - 1#64)

def maxRecAuxGranules : ℕ := 16

def smcRealmCreate (plat : Platform) (s : State) (rdAddr paramsAddr : Word)
    (nsRead : Option RealmParams) : Rmm (State × SmcResult) := do
  if !(findGranule plat paramsAddr && (s.granule paramsAddr).state == .NS) then
    return (s, smcRet rmiErrorInput)
  else match nsRead with
  | none => return (s, smcRet rmiErrorInput)
  | some p =>
    if !realmParamsValid plat p then return (s, smcRet rmiErrorInput)
    else match vmidReserve plat s p.vmid with
    | none => return (s, smcRet rmiErrorInput)
    | some s1 =>
      let ctx : S2ttContext :=
        ⟨p.s2sz, p.rttLevelStart, p.rttNumStart, p.rttBase, p.vmid, p.lpa2, plat.opencca⟩
      let contained := addrIsContained p.rttBase
        (p.rttBase + BitVec.ofNat 64 (p.rttNumStart * granuleSize)) rdAddr
      let locked := (rdAddr :: rootTables ctx).all fun a =>
        findGranule plat a && (s1.granule a).state == .DELEGATED
      if contained || !locked then
        let s2 ← vmidFree plat s1 p.vmid
        return (s2, smcRet rmiErrorInput)
      else
        let rd : Rd := { s1.rd rdAddr with
          state := .NEW, recCount := 0, s2Ctx := ctx, numRecAux := maxRecAuxGranules }
        let s2 ← initS2StartingLevel (s1.setRd rdAddr rd) rd
        let s3 ← granuleUnlockTransition s2 rdAddr .RD
        let s4 ← unlockTransitions s3 (rootTables ctx) .RTT
        return (s4, smcRet rmiSuccess)

def smcRealmActivate (plat : Platform) (s : State) (rdAddr : Word) : Rmm (State × SmcResult) := do
  let found ← findLockGranule plat s [] rdAddr .RD
  if !found then return (s, smcRet rmiErrorInput)
  else if (s.rd rdAddr).state = .NEW then
    return (s.setRd rdAddr { s.rd rdAddr with state := .ACTIVE }, smcRet rmiSuccess)
  else return (s, smcRet rmiErrorRealm)

def totalRootRttRefcount (s : State) (roots : List Word) : Rmm ℕ :=
  roots.foldlM (fun n root => do
    granuleLock s root .RTT
    return n + (s.granule root).refcount) 0

/-- Scrub a list of granules that are in one state and return them to DELEGATED. -/
def freeGranules (s : State) (addrs : List Word) (expected : GranuleState) (scrub : Bool) :
    Rmm State :=
  addrs.foldlM (fun s addr => do
    granuleLock s addr expected
    granuleUnlockTransition (if scrub then s.memzero addr else s) addr .DELEGATED) s

def smcRealmDestroy (plat : Platform) (s : State) (rdAddr : Word) : Rmm (State × SmcResult) := do
  let found ← findLockGranule plat s [] rdAddr .RD
  if !found then return (s, smcRet rmiErrorInput)
  else if (s.granule rdAddr).refcount ≠ 0 then return (s, smcRet rmiErrorRealm)
  else
    let ctx := (s.rd rdAddr).s2Ctx
    let refcount ← totalRootRttRefcount s (rootTables ctx)
    if refcount ≠ 0 then return (s, smcRet rmiErrorRealm)
    else
      let s1 ← vmidFree plat s ctx.vmid
      let s2 ← freeGranules s1 (rootTables ctx) .RTT true
      let s3 ← granuleUnlockTransition (s2.memzero rdAddr) rdAddr .DELEGATED
      return (s3, smcRet rmiSuccess)

/-- The REC parameters that the host supplies to `smc_rec_create`. -/
structure RecParams where
  aux : List Word
  mpidrIdx : Option ℕ
  deriving DecidableEq, Repr

/-- Claim the auxiliary granules one by one. A granule that is not DELEGATED ends
the loop: the granules claimed before it are unlocked once more, although each
was already unlocked. -/
def claimRecAux (plat : Platform) : List Word → State → ℕ → Rmm (Option State)
  | [], s, _ => .ok (some s)
  | a :: rest, s, claimed => do
    let found ← findLockGranule plat s [] a .DELEGATED
    if !found then
      assertThat (claimed == 0) .doubleUnlock
      return none
    else
      let s ← granuleUnlockTransition s a .REC_AUX
      claimRecAux plat rest s (claimed + 1)

def smcRecCreate (plat : Platform) (s : State) (rdAddr recAddr paramsAddr : Word)
    (nsRead : Option RecParams) : Rmm (State × SmcResult) := do
  if !(findGranule plat paramsAddr && (s.granule paramsAddr).state == .NS) then
    return (s, smcRet rmiErrorInput)
  else match nsRead with
  | none => return (s, smcRet rmiErrorInput)
  | some p =>
    if maxRecAuxGranules < p.aux.length then return (s, smcRet rmiErrorInput)
    else
      let claimed ← claimRecAux plat p.aux s 0
      match claimed with
      | none => return (s, smcRet rmiErrorInput)
      | some s1 =>
        let rd := s1.rd rdAddr
        let ret : ReturnCode :=
          if !findLockTwoGranules plat s1 recAddr .DELEGATED rdAddr .RD then rmiErrorInput
          else if (s1.granule rdAddr).refcount = refcountMax then rmiErrorRealm
          else if rd.state ≠ .NEW then rmiErrorRealm
          else if p.mpidrIdx ≠ some rd.recCount then rmiErrorInput
          else if p.aux.length ≠ rd.numRecAux then rmiErrorInput
          else rmiSuccess
        if ret ≠ rmiSuccess then
          let s2 ← freeGranules s1 p.aux .REC_AUX false
          return (s2, smcRet ret)
        else
          let r : Rec := { s1.recs recAddr with
            recIdx := rd.recCount, gRd := rdAddr, s2Ctx := rd.s2Ctx, gAux := p.aux }
          let s2 ← atomicGranuleGet (s1.setRec recAddr r) rdAddr
          let s3 := s2.setRd rdAddr { rd with recCount := rd.recCount + 1 }
          let s4 ← granuleUnlockTransition s3 recAddr .REC
          return (s4, smcRet rmiSuccess)

def smcRecDestroy (plat : Platform) (s : State) (recAddr : Word) : Rmm (State × SmcResult) := do
  let found ← findLockGranule plat s [] recAddr .REC
  if !found then return (s, smcRet rmiErrorInput)
  else if (s.granule recAddr).refcount ≠ 0 then return (s, smcRet rmiErrorRec)
  else
    let r := s.recs recAddr
    let s1 ← freeGranules s r.gAux .REC_AUX true
    let s2 ← granuleUnlockTransition (s1.memzero recAddr) recAddr .DELEGATED
    let s3 ← atomicGranulePut s2 r.gRd
    return (s3, smcRet rmiSuccess)

/-- What the host's run structure and the REC's own execution state make of a
`smc_rec_enter`: an unreadable run structure, an error, an abort while a host
call completes, or a run. -/
inductive RecEntry
  | unreadable
  | refused
  | aborted
  | run
  deriving DecidableEq, Repr

/-- Report the outcome of a RIPAS request and close it. -/
def completeSetRipas (r : Rec) : Rec :=
  if r.setRipas.base = r.setRipas.top then r
  else { r with setRipas := { r.setRipas with base := 0#64, top := 0#64 } }

/-- Enter a REC. On a run the reference stays held until the REC exits. -/
def smcRecEnter (plat : Platform) (s : State) (recAddr runAddr : Word) (entry : RecEntry)
    (reject : Bool) : Rmm (State × SmcResult) := do
  if !(findGranule plat runAddr && (s.granule runAddr).state == .NS) then
    return (s, smcRet rmiErrorInput)
  else
    let found ← findLockGranule plat s [] recAddr .REC
    if !found then return (s, smcRet rmiErrorInput)
    else if (s.granule recAddr).refcount ≠ 0 then return (s, smcRet rmiErrorRec)
    else if entry = .unreadable then return (s, smcRet rmiErrorInput)
    else
      let r := s.recs recAddr
      match (s.rd r.gRd).state with
      | .NEW => return (s, smcRet ⟨.ERROR_REALM, 0⟩)
      | .SYSTEM_OFF => return (s, smcRet ⟨.ERROR_REALM, 1⟩)
      | .ACTIVE =>
        let r' := completeSetRipas { r with setRipas := { r.setRipas with reject := reject } }
        match entry with
        | .unreadable => return (s, smcRet rmiErrorInput)
        | .refused => return (s, smcRet rmiErrorRec)
        | .aborted => return (s.setRec recAddr r', smcRet rmiSuccess)
        | .run =>
          let s1 ← atomicGranuleGet s recAddr
          return (s1.setRec recAddr r', smcRet rmiSuccess)

/-- A running REC returns to the host and gives up its reference. -/
def recExit (s : State) (recAddr : Word) : Rmm State := atomicGranulePut s recAddr

end RmmCaec
