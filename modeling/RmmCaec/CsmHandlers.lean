import RmmCaec.DataHandlers

/-!
# RSI handlers for shared memory and memory state

The calls by which a running realm creates, shares, reserves, attaches, detaches,
revokes and destroys shared regions, requests a RIPAS change and turns itself
off. Register arguments come from the realm and are arbitrary words.
-/
namespace RmmCaec

inductive RsiStatus
  | SUCCESS
  | ERROR_INPUT
  | ERROR_STATE
  deriving DecidableEq, Repr

/-- The registers that a call returns and whether the REC exits to the host. -/
structure RsiResult where
  status : RsiStatus
  x1 : Word
  x2 : Word
  exitToHost : Bool
  deriving DecidableEq, Repr

def rsiRet (status : RsiStatus) : RsiResult := ⟨status, 0#64, 0#64, false⟩

/-- Lock the APT of a realm whose lookup result the handler maps unchecked. -/
def lockApt (plat : Platform) (s : State) (held : List Word) (aptPa : Word) : Rmm Apt := do
  let found ← findLockGranule plat s held aptPa .APT
  assertThat found .nullGranule
  return s.apt aptPa

/-- A size and two alignments that both region calls check first. -/
def illegalRegion (baseIpa sizeIpa : Word) : Bool :=
  sizeIpa == 0#64 || !granuleAligned baseIpa || !granuleAligned sizeIpa

def handleRsiCsmCreate (plat : Platform) (s : State) (rdAddr baseIpa sizeIpa : Word) :
    Rmm (State × RsiResult) := do
  if illegalRegion baseIpa sizeIpa then return (s, rsiRet .ERROR_INPUT)
  else
    granuleLock s rdAddr .RD
    let aptPa := (s.rd rdAddr).aptPa
    let apt ← lockApt plat s [rdAddr] aptPa
    if aptFindEnabledConflict apt baseIpa sizeIpa true then return (s, rsiRet .ERROR_INPUT)
    else match csmRegionIdAssign s.csmIds rdAddr with
      | (ids, none) => return ({ s with csmIds := ids }, rsiRet .ERROR_STATE)
      | (ids, some regionId) =>
        match aptAddMaster apt regionId baseIpa sizeIpa true with
        | none => return ({ s with csmIds := csmRegionIdRemove ids regionId }, rsiRet .ERROR_STATE)
        | some (apt', idx) =>
          return (({ s with csmIds := ids }).setApt aptPa apt',
            ⟨.SUCCESS, regionId.setWidth 64, BitVec.ofNat 64 idx, true⟩)

def handleRsiCsmShare (plat : Platform) (s : State) (rdAddr x1 x2 x3 : Word) :
    Rmm (State × RsiResult) := do
  let regionId : Byte := x1.setWidth 8
  let slaveId : Byte := x2.setWidth 8
  let permission : Byte := x3.setWidth 8
  match realmTagGetByRd s.tags rdAddr with
  | none => return (s, rsiRet .ERROR_STATE)
  | some masterId =>
    if masterId = 0#8 then return (s, rsiRet .ERROR_STATE)
    else if regionId = 0#8 ∨ slaveId = 0#8 then return (s, rsiRet .ERROR_INPUT)
    else match realmTagRdByTag s.tags slaveId with
    | none => return (s, rsiRet .ERROR_INPUT)
    | some slaveRdPa =>
      granuleLock s rdAddr .RD
      let aptPa := (s.rd rdAddr).aptPa
      let apt ← lockApt plat s [rdAddr] aptPa
      match aptFindMasterByRegionId apt regionId with
      | none => return (s, rsiRet .ERROR_INPUT)
      | some midx =>
        match aptMasterAddShare apt midx slaveId slaveRdPa permission with
        | none => return (s, rsiRet .ERROR_STATE)
        | some apt' =>
          return (s.setApt aptPa apt',
            ⟨.SUCCESS, (aptMakeSharingId regionId masterId slaveId).setWidth 64,
              BitVec.ofNat 64 midx, false⟩)

def handleRsiCsmReserve (plat : Platform) (s : State) (rdAddr x1 baseIpa sizeIpa : Word) :
    Rmm (State × RsiResult) := do
  let sharingId : BitVec 32 := x1.setWidth 32
  let regionId := aptSharingRegionId sharingId
  let masterId := aptSharingMasterId sharingId
  let slaveId := aptSharingSlaveId sharingId
  if illegalRegion baseIpa sizeIpa then return (s, rsiRet .ERROR_INPUT)
  else if regionId = 0#8 ∨ masterId = 0#8 ∨ slaveId = 0#8 then return (s, rsiRet .ERROR_INPUT)
  else if realmTagGetByRd s.tags rdAddr ≠ some slaveId then return (s, rsiRet .ERROR_INPUT)
  else match realmTagRdByTag s.tags masterId with
  | none => return (s, rsiRet .ERROR_INPUT)
  | some masterRdPa =>
    granuleLock s rdAddr .RD
    let aptPa := (s.rd rdAddr).aptPa
    let apt ← lockApt plat s [rdAddr] aptPa
    let mrd ← findLockGranule plat s [aptPa, rdAddr] masterRdPa .RD
    assertThat mrd .nullGranule
    let aptMaster ← lockApt plat s [masterRdPa, aptPa, rdAddr] (s.rd masterRdPa).aptPa
    match aptFindMasterByRegionId aptMaster regionId with
    | none => return (s, rsiRet .ERROR_INPUT)
    | some midx =>
      let m := aptMaster.masterMemory midx
      if (aptFindMasterShareSlot m slaveId).isNone then return (s, rsiRet .ERROR_INPUT)
      else if m.mapSize ≠ sizeIpa then return (s, rsiRet .ERROR_INPUT)
      else if aptFindEnabledConflict apt baseIpa sizeIpa false then return (s, rsiRet .ERROR_INPUT)
      else match aptAddSlave apt masterId regionId masterRdPa baseIpa sizeIpa true with
        -- a full table is not reported: the index is then minus one
        | none => return (s, ⟨.SUCCESS, sharingId.setWidth 64, BitVec.allOnes 64, true⟩)
        | some (apt', idx) =>
          return (s.setApt aptPa apt',
            ⟨.SUCCESS, sharingId.setWidth 64, BitVec.ofNat 64 idx, true⟩)

/-- Translate a page of a realm given by its RD: the physical page if the entry is
assigned_ram. -/
def realmIpaToPaWithRd (s : State) (ctx : S2ttContext) (ipa : Word) : Rmm (Option Word) := do
  if !granuleAligned ipa then return none
  else
    let wi ← s2ttWalkLockUnlock s ctx ipa s2ttPageLevel
    let s2tte := s.rtt wi.gLlt wi.index
    if s2tteIsAssignedRam s2tte wi.lastLevel then
      return some (s2ttePa ctx s2tte wi.lastLevel +
        BitVec.ofNat 64 (ipa.toNat % s2tteMapSize wi.lastLevel))
    else return none

/-- Map the master's pages one by one. A page without a mapping ends the loop; after
the first page the error path unlocks the table of the page before once more. -/
def attachLoop (masterCtx slaveCtx : S2ttContext) (masterStart slaveStart : Word) :
    List ℕ → State → Rmm (State × Bool)
  | [], s => .ok (s, true)
  | k :: rest, s => do
    let offset := BitVec.ofNat 64 (k * granuleSize)
    let pa ← realmIpaToPaWithRd s masterCtx (masterStart + offset)
    match pa with
    | none =>
      assertThat (k == 0) .doubleUnlock
      return (s, false)
    | some pa =>
      let s ← mapIpaToPa s slaveCtx pa (slaveStart + offset)
      attachLoop masterCtx slaveCtx masterStart slaveStart rest s

def handleRsiCsmAttach (plat : Platform) (s : State) (rdAddr x1 : Word) :
    Rmm (State × RsiResult) := do
  let regionIndex := (x1.setWidth 32).toInt
  granuleLock s rdAddr .RD
  let aptPa := (s.rd rdAddr).aptPa
  let apt ← lockApt plat s [rdAddr] aptPa
  assertThat (decide (0 ≤ regionIndex) && decide (regionIndex < maxMemRegions)) .outOfBounds
  let slave := apt.slaveMemory regionIndex.toNat
  let mrd ← findLockGranule plat s [aptPa, rdAddr] slave.masterRdPa .RD
  if !mrd then return (s, rsiRet .ERROR_INPUT)
  else
    let masterRd := s.rd slave.masterRdPa
    let aptMaster ← lockApt plat s [slave.masterRdPa, aptPa, rdAddr] masterRd.aptPa
    match aptFindMasterByRegionId aptMaster slave.regionId with
    | none => return (s, rsiRet .ERROR_INPUT)
    | some midx =>
      let m := aptMaster.masterMemory midx
      let (s1, ok) ← attachLoop masterRd.s2Ctx (s.rd rdAddr).s2Ctx m.ipaStart slave.ipaStart
        (List.range (rangePages m.ipaStart m.mapSize).length) s
      return (s1, rsiRet (if ok then .SUCCESS else .ERROR_INPUT))

def handleRsiCsmDetachAndFree (plat : Platform) (s : State) (rdAddr x1 : Word) :
    Rmm (State × RsiResult) := do
  let sharingId : BitVec 32 := x1.setWidth 32
  let regionId := aptSharingRegionId sharingId
  let slaveId := aptSharingSlaveId sharingId
  if regionId = 0#8 ∨ slaveId = 0#8 then return (s, rsiRet .ERROR_INPUT)
  else if realmTagGetByRd s.tags rdAddr ≠ some slaveId then return (s, rsiRet .ERROR_INPUT)
  else
    granuleLock s rdAddr .RD
    let aptPa := (s.rd rdAddr).aptPa
    let found ← findLockGranule plat s [rdAddr] aptPa .APT
    if !found then return (s, rsiRet .ERROR_STATE)
    else match aptFindSlaveByRegionId (s.apt aptPa) regionId with
      | none => return (s, rsiRet .ERROR_INPUT)
      | some sj =>
        let slave := (s.apt aptPa).slaveMemory sj
        let s1 := s.setApt aptPa (aptReleaseSlave (s.apt aptPa) sj)
        let s2 ← unmapRange s1 (s.rd rdAddr).s2Ctx slave.ipaStart slave.mapSize
        return (s2, ⟨.SUCCESS, 0#64, 0#64, true⟩)

/-- The second half of a revocation: drop the first slave entry of the region and
unmap its range. -/
def revokeSlave (plat : Platform) (s : State) (slaveRdPa : Word) (regionId : Byte)
    (drop : Apt → ℕ → Apt) : Rmm State := do
  let srd ← findLockGranule plat s [] slaveRdPa .RD
  if !srd then return s
  else
    let aptPa := (s.rd slaveRdPa).aptPa
    let sapt ← findLockGranule plat s [slaveRdPa] aptPa .APT
    if !sapt then return s
    else match aptFindSlaveByRegionId (s.apt aptPa) regionId with
      | none => return s
      | some sj =>
        let slave := (s.apt aptPa).slaveMemory sj
        unmapRange (s.setApt aptPa (drop (s.apt aptPa) sj)) (s.rd slaveRdPa).s2Ctx slave.ipaStart
          slave.mapSize

def handleRsiCsmRevoke (plat : Platform) (s : State) (rdAddr x1 : Word) :
    Rmm (State × RsiResult) := do
  let sharingId : BitVec 32 := x1.setWidth 32
  let regionId := aptSharingRegionId sharingId
  let masterId := aptSharingMasterId sharingId
  let slaveId := aptSharingSlaveId sharingId
  if regionId = 0#8 ∨ masterId = 0#8 ∨ slaveId = 0#8 then return (s, rsiRet .ERROR_INPUT)
  else if realmTagGetByRd s.tags rdAddr ≠ some masterId then return (s, rsiRet .ERROR_INPUT)
  else
    granuleLock s rdAddr .RD
    let aptPa := (s.rd rdAddr).aptPa
    let found ← findLockGranule plat s [rdAddr] aptPa .APT
    if !found then return (s, rsiRet .ERROR_STATE)
    else match aptFindMasterByRegionId (s.apt aptPa) regionId with
      | none => return (s, rsiRet .ERROR_INPUT)
      | some midx =>
        let m := (s.apt aptPa).masterMemory midx
        match aptFindMasterShareSlot m slaveId with
        | none => return (s, rsiRet .ERROR_INPUT)
        | some slot =>
          let s1 := s.setApt aptPa (aptMasterDropShare (s.apt aptPa) midx slot)
          let s2 ← revokeSlave plat s1 (m.shares slot).slaveRdPa regionId aptReleaseSlave
          return (s2, rsiRet .SUCCESS)

def handleRsiCsmDestroy (plat : Platform) (s : State) (rdAddr x1 : Word) :
    Rmm (State × RsiResult) := do
  let regionId : Byte := x1.setWidth 8
  if regionId = 0#8 then return (s, rsiRet .ERROR_INPUT)
  else
    granuleLock s rdAddr .RD
    let aptPa := (s.rd rdAddr).aptPa
    let found ← findLockGranule plat s [rdAddr] aptPa .APT
    if !found then return (s, rsiRet .ERROR_STATE)
    else match aptFindMasterByRegionId (s.apt aptPa) regionId with
      | none => return (s, rsiRet .ERROR_INPUT)
      | some midx =>
        if ((s.apt aptPa).masterMemory midx).shareCount ≠ 0#8 then
          return (s, rsiRet .ERROR_STATE)
        else
          let s1 := s.setApt aptPa (aptEraseMaster (s.apt aptPa) midx)
          return ({ s1 with csmIds := csmRegionIdRemove s1.csmIds regionId },
            ⟨.SUCCESS, 0#64, 0#64, true⟩)

/-- Record a RIPAS change request. The RIPAS and the destroyed flag are C enums, so
only the low 32 bits of their registers count. -/
def handleRsiIpaStateSet (s : State) (recAddr base top x3 x4 : Word) : State × RsiResult :=
  let r := s.recs recAddr
  let ripas : BitVec 32 := x3.setWidth 32
  let parSize := 2 ^ r.s2Ctx.ipaBits / 2
  if 1#32 < ripas ∨ granuleAligned base = false ∨
    granuleAligned top = false ∨ top ≤ base ∨
      ¬ (base.toNat < parSize ∧ (top - 1#64).toNat < parSize) then
    (s, rsiRet .ERROR_INPUT)
  else
    let request : SetRipas :=
      ⟨base, top, base, if ripas = 1#32 then .RAM else .EMPTY, x4.setWidth 32 == 1#32,
        r.setRipas.reject⟩
    (s.setRec recAddr { r with setRipas := request }, ⟨.SUCCESS, top, 0#64, true⟩)

/-- PSCI_SYSTEM_OFF and PSCI_SYSTEM_RESET. -/
def systemOffReboot (s : State) (rdAddr : Word) : Rmm State := do
  granuleLock s rdAddr .RD
  return s.setRd rdAddr { s.rd rdAddr with state := .SYSTEM_OFF }

end RmmCaec
