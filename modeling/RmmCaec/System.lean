import RmmCaec.CsmHandlers

/-!
# Attachment table handlers and the whole system

The two RMI handlers for attachment tables, and the transition system: the host
issues RMI calls in any order and with any arguments, and every REC that was
entered and has not exited may issue RSI calls.
-/
namespace RmmCaec

/-- The granule becomes an APT even if the realm is not NEW any more. -/
def smcAptCreate (plat : Platform) (s : State) (rdAddr aptAddr : Word) :
    Rmm (State × SmcResult) := do
  if !findLockTwoGranules plat s aptAddr .DELEGATED rdAddr .RD then
    return (s, smcRet rmiErrorRealm)
  else
    let s1 := s.setApt aptAddr default
    if (s1.rd rdAddr).state ≠ .NEW then
      let s2 ← granuleUnlockTransition s1 aptAddr .APT
      return (s2, smcRet rmiErrorRealm)
    else
      let s2 := s1.setRd rdAddr { s1.rd rdAddr with aptPa := aptAddr }
      let s3 := { s2 with tags := realmTagAssign s2.tags rdAddr }
      let s4 ← granuleUnlockTransition s3 aptAddr .APT
      return (s4, smcRet rmiSuccess)

/-- First phase, slave regions: erase each entry and unmap its range, saving the
master and the region. -/
def aptDestroySlaves (aptAddr : Word) (ctx : S2ttContext) :
    List ℕ → State → List (Word × Byte) → Rmm (State × List (Word × Byte))
  | [], s, saved => .ok (s, saved)
  | sj :: rest, s, saved => do
    let apt := s.apt aptAddr
    if !apt.slaveUsedMask sj then aptDestroySlaves aptAddr ctx rest s saved
    else
      let slave := apt.slaveMemory sj
      let s ← unmapRange (s.setApt aptAddr (aptEraseSlave apt sj)) ctx
        slave.ipaStart slave.mapSize
      aptDestroySlaves aptAddr ctx rest s (saved ++ [(slave.masterRdPa, slave.regionId)])

/-- First phase, master regions: erase each entry and free its identifier, saving
the slaves that held a share. -/
def aptDestroyMasters (aptAddr : Word) :
    List ℕ → State → List (Word × Byte) → State × List (Word × Byte)
  | [], s, saved => (s, saved)
  | mi :: rest, s, saved =>
    let apt := s.apt aptAddr
    if !apt.masterUsedMask mi then aptDestroyMasters aptAddr rest s saved
    else
      let m := apt.masterMemory mi
      let shares := ((List.range csmMaxMasterShares).filter fun sk => (m.shares sk).inUse).map
        fun sk => ((m.shares sk).slaveRdPa, m.regionId)
      let s1 := { s with csmIds := csmRegionIdRemove s.csmIds m.regionId }
      aptDestroyMasters aptAddr rest (s1.setApt aptAddr (aptEraseMaster apt mi)) (saved ++ shares)

/-- Second phase, one saved slave region: free our share slot in the master. -/
def aptDestroyNotifyMaster (plat : Platform) (rdAddr : Word) (s : State) (saved : Word × Byte) :
    Rmm State := do
  let mrd ← findLockGranule plat s [] saved.1 .RD
  if !mrd then return s
  else
    let aptPa := (s.rd saved.1).aptPa
    let mapt ← findLockGranule plat s [saved.1] aptPa .APT
    if !mapt then return s
    else
      let apt := s.apt aptPa
      match aptFindMasterByRegionId apt saved.2 with
      | none => return s
      | some midx =>
        let m := apt.masterMemory midx
        match findFirst csmMaxMasterShares fun sk =>
            (m.shares sk).inUse && (m.shares sk).slaveRdPa == rdAddr with
        | none => return s
        | some sk => return s.setApt aptPa (aptMasterDropShare apt midx sk)

def smcAptDestroy (plat : Platform) (s : State) (rdAddr aptAddr : Word) :
    Rmm (State × SmcResult) := do
  let found ← findLockGranule plat s [] rdAddr .RD
  if !found then return (s, smcRet rmiErrorInput)
  else
    let rd := s.rd rdAddr
    if rd.aptPa ≠ aptAddr then return (s, smcRet rmiErrorRealm)
    else
      let s1 := { s with tags := realmTagRemove s.tags rdAddr }
      let gApt ← findLockGranule plat s1 [rdAddr] aptAddr .APT
      assertThat gApt .nullGranule
      let (s2, slaveEntries) ← aptDestroySlaves aptAddr rd.s2Ctx (List.range maxMemRegions) s1 []
      let (s3, masterShares) := aptDestroyMasters aptAddr (List.range maxMemRegions) s2 []
      let s4 ← granuleUnlockTransition (s3.memzero aptAddr) aptAddr .DELEGATED
      let s5 ← slaveEntries.foldlM (aptDestroyNotifyMaster plat rdAddr) s4
      let s6 ← masterShares.foldlM
        (fun s share => revokeSlave plat s share.1 share.2 aptEraseSlave) s5
      return (s6, smcRet rmiSuccess)

/-- The RSI calls that touch memory management, with the registers they read. -/
inductive RsiCall
  | csmCreate (x2 x3 : Word)
  | csmShare (x1 x2 x3 : Word)
  | csmReserve (x1 x2 x3 : Word)
  | csmAttach (x1 : Word)
  | csmDetachAndFree (x1 : Word)
  | csmRevoke (x1 : Word)
  | csmDestroy (x1 : Word)
  | ipaStateSet (x1 x2 x3 x4 : Word)
  | systemOff
  deriving DecidableEq, Repr

/-- One step of the system. Parameters that are not registers of the call are what
the handler reads from non-secure memory or hears from EL3. -/
inductive Act
  | granuleDelegate (addr : Word) (el3Ok : Bool)
  | granuleUndelegate (addr : Word) (el3Ok : Bool)
  | realmCreate (rdAddr paramsAddr : Word) (nsRead : Option RealmParams)
  | realmActivate (rdAddr : Word)
  | realmDestroy (rdAddr : Word)
  | recCreate (rdAddr recAddr paramsAddr : Word) (nsRead : Option RecParams)
  | recDestroy (recAddr : Word)
  | recEnter (recAddr runAddr : Word) (entry : RecEntry) (reject : Bool)
  | aptCreate (rdAddr aptAddr : Word)
  | aptDestroy (rdAddr aptAddr : Word)
  | dataCreate (rdAddr dataAddr mapAddr srcAddr flags : Word) (nsCopy : NsCopy)
  | dataCreateUnknown (rdAddr dataAddr mapAddr : Word)
  | dataDestroy (rdAddr mapAddr : Word)
  | rttCreate (rdAddr rttAddr mapAddr ulevel : Word)
  | rttFold (rdAddr mapAddr ulevel : Word)
  | rttDestroy (rdAddr mapAddr ulevel : Word)
  | rttMapUnprotected (rdAddr mapAddr ulevel s2tte : Word)
  | rttUnmapUnprotected (rdAddr mapAddr ulevel : Word)
  | rttInitRipas (rdAddr base top : Word)
  | rttSetRipas (rdAddr recAddr base top : Word)
  | rsi (recAddr : Word) (call : RsiCall)
  | recExit (recAddr : Word)
  deriving DecidableEq, Repr

/-- What a step returns to its caller. -/
inductive Reply
  | smc (res : SmcResult)
  | rsi (res : RsiResult)
  | idle
  deriving DecidableEq, Repr

/-- The handler of an RSI call, before the REC's exit is taken into account. -/
def rsiHandler (plat : Platform) (s : State) (recAddr : Word) (call : RsiCall) :
    Rmm (State × RsiResult) :=
  let rdAddr := (s.recs recAddr).gRd
  match call with
  | .csmCreate x2 x3 => handleRsiCsmCreate plat s rdAddr x2 x3
  | .csmShare x1 x2 x3 => handleRsiCsmShare plat s rdAddr x1 x2 x3
  | .csmReserve x1 x2 x3 => handleRsiCsmReserve plat s rdAddr x1 x2 x3
  | .csmAttach x1 => handleRsiCsmAttach plat s rdAddr x1
  | .csmDetachAndFree x1 => handleRsiCsmDetachAndFree plat s rdAddr x1
  | .csmRevoke x1 => handleRsiCsmRevoke plat s rdAddr x1
  | .csmDestroy x1 => handleRsiCsmDestroy plat s rdAddr x1
  | .ipaStateSet x1 x2 x3 x4 => .ok (handleRsiIpaStateSet s recAddr x1 x2 x3 x4)
  | .systemOff => do
    let s ← systemOffReboot s rdAddr
    return (s, ⟨.SUCCESS, 0#64, 0#64, true⟩)

/-- A REC is between its entry and its exit. -/
def recRunning (s : State) (recAddr : Word) : Bool :=
  (s.granule recAddr).state == .REC && (s.granule recAddr).refcount == 1

/-- An RSI call of a running REC; it leaves the realm if the handler says so. A REC
that is not running makes no call. -/
def handleRealmRsi (plat : Platform) (s : State) (recAddr : Word) (call : RsiCall) :
    Rmm (State × Reply) := do
  if !recRunning s recAddr then return (s, .idle)
  else
    let (s1, res) ← rsiHandler plat s recAddr call
    if res.exitToHost then
      let s2 ← recExit s1 recAddr
      return (s2, .rsi res)
    else return (s1, .rsi res)

/-- The reply of an RMI handler. -/
def smcReply (r : Rmm (State × SmcResult)) : Rmm (State × Reply) := do
  let (s, res) ← r
  return (s, .smc res)

def step (plat : Platform) (s : State) : Act → Rmm (State × Reply)
  | .granuleDelegate addr el3Ok => smcReply (smcGranuleDelegate plat s addr el3Ok)
  | .granuleUndelegate addr el3Ok => smcReply (smcGranuleUndelegate plat s addr el3Ok)
  | .realmCreate rdAddr paramsAddr nsRead =>
    smcReply (smcRealmCreate plat s rdAddr paramsAddr nsRead)
  | .realmActivate rdAddr => smcReply (smcRealmActivate plat s rdAddr)
  | .realmDestroy rdAddr => smcReply (smcRealmDestroy plat s rdAddr)
  | .recCreate rdAddr recAddr paramsAddr nsRead =>
    smcReply (smcRecCreate plat s rdAddr recAddr paramsAddr nsRead)
  | .recDestroy recAddr => smcReply (smcRecDestroy plat s recAddr)
  | .recEnter recAddr runAddr entry reject =>
    smcReply (smcRecEnter plat s recAddr runAddr entry reject)
  | .aptCreate rdAddr aptAddr => smcReply (smcAptCreate plat s rdAddr aptAddr)
  | .aptDestroy rdAddr aptAddr => smcReply (smcAptDestroy plat s rdAddr aptAddr)
  | .dataCreate rdAddr dataAddr mapAddr srcAddr flags nsCopy =>
    smcReply (smcDataCreate plat s rdAddr dataAddr mapAddr srcAddr flags nsCopy)
  | .dataCreateUnknown rdAddr dataAddr mapAddr =>
    smcReply (smcDataCreateUnknown plat s rdAddr dataAddr mapAddr)
  | .dataDestroy rdAddr mapAddr => smcReply (smcDataDestroy plat s rdAddr mapAddr)
  | .rttCreate rdAddr rttAddr mapAddr ulevel =>
    smcReply (smcRttCreate plat s rdAddr rttAddr mapAddr ulevel)
  | .rttFold rdAddr mapAddr ulevel => smcReply (smcRttFold plat s rdAddr mapAddr ulevel)
  | .rttDestroy rdAddr mapAddr ulevel => smcReply (smcRttDestroy plat s rdAddr mapAddr ulevel)
  | .rttMapUnprotected rdAddr mapAddr ulevel s2tte =>
    smcReply (smcRttMapUnprotected plat s rdAddr mapAddr ulevel s2tte)
  | .rttUnmapUnprotected rdAddr mapAddr ulevel =>
    smcReply (smcRttUnmapUnprotected plat s rdAddr mapAddr ulevel)
  | .rttInitRipas rdAddr base top => smcReply (smcRttInitRipas plat s rdAddr base top)
  | .rttSetRipas rdAddr recAddr base top =>
    smcReply (smcRttSetRipas plat s rdAddr recAddr base top)
  | .rsi recAddr call => handleRealmRsi plat s recAddr call
  | .recExit recAddr =>
    if recRunning s recAddr then do
      let s ← recExit s recAddr
      return (s, .idle)
    else return (s, .idle)

/-- Before the first call: all memory is non-secure and nothing is registered. -/
def initState : State where
  granule := fun _ => ⟨.NS, 0⟩
  rd := fun _ => default
  recs := fun _ => default
  rtt := fun _ _ => 0#64
  apt := fun _ => default
  tags := default
  csmIds := default
  vmids := fun _ => false
  tlb := fun _ => false

end RmmCaec
