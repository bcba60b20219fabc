import RmmCaec.RttHandlers

/-!
# Data handlers and their propagation

Creating and destroying DATA granules. When the page lies in a shared region,
the change is mirrored: from the master of the region into every slave that
reserved it, and from a slave into the master.
-/
namespace RmmCaec

/-- Write an assigned_ram page, whatever the entry held before. -/
def mapIpaToPa (s : State) (ctx : S2ttContext) (paAddr ipaAddr : Word) : Rmm State := do
  let wi ← s2ttWalkLockUnlock s ctx ipaAddr s2ttPageLevel
  if wi.lastLevel ≠ s2ttPageLevel then return s
  else
    assertThat (s2tteCreateAssignedOk ctx paAddr s2ttPageLevel) .unaligned
    let s1 := s2tteWrite s ctx wi.gLlt wi.index (s2tteCreateAssignedRam ctx paAddr s2ttPageLevel)
    let s2 := s2ttInvalidatePage s1 ctx ipaAddr
    let s3 ← atomicGranuleGet s2 wi.gLlt
    granuleUnlock s3 wi.gLlt
    return s3

/-- Remove an assigned page; the data granule itself is left alone. -/
def unmapIpaFromRd (s : State) (ctx : S2ttContext) (ipaAddr : Word) : Rmm State := do
  let wi ← s2ttWalkLockUnlock s ctx ipaAddr s2ttPageLevel
  if wi.lastLevel ≠ s2ttPageLevel then return s
  else
    let s2tte := s.rtt wi.gLlt wi.index
    if s2tteIsAssignedRam s2tte s2ttPageLevel then
      let s1 := s2tteWrite s ctx wi.gLlt wi.index s2tteCreateUnassignedDestroyed
      atomicGranulePut (s2ttInvalidatePage s1 ctx ipaAddr) wi.gLlt
    else if s2tteIsAssignedDestroyed s2tte then
      atomicGranulePut (s2tteWrite s ctx wi.gLlt wi.index s2tteCreateUnassignedDestroyed) wi.gLlt
    else if s2tteIsAssignedEmpty s2tte then
      atomicGranulePut (s2tteWrite s ctx wi.gLlt wi.index s2tteCreateUnassignedEmpty) wi.gLlt
    else return s

/-- The pages of a range, as the loops over `[start, start + size)` visit them;
a range that wraps has none. -/
def rangePages (start size : Word) : List Word :=
  (List.range (((start + size).toNat - start.toNat + (granuleSize - 1)) / granuleSize)).map
    fun k => start + BitVec.ofNat 64 (k * granuleSize)

/-- Unmap every page of a range. -/
def unmapRange (s : State) (ctx : S2ttContext) (start size : Word) : Rmm State :=
  (rangePages start size).foldlM (fun s ipa => unmapIpaFromRd s ctx ipa) s

def inRegion (ipaStart mapSize addr : Word) : Bool :=
  !decide (addr < ipaStart) && decide (addr < ipaStart + mapSize)

/-- Apply a page action in the realm of one share slot of the master's region. -/
def csmPropagateSlot (plat : Platform) (action : State → S2ttContext → Word → Rmm State)
    (held : List Word) (m : MasterMem) (offset : Word) (s : State) (si : ℕ) : Rmm State := do
  if !(m.shares si).inUse then return s
  else
    let slaveRdPa := (m.shares si).slaveRdPa
    let srd ← findLockGranule plat s held slaveRdPa .RD
    if !srd then return s
    else
      let aptPa := (s.rd slaveRdPa).aptPa
      let sapt ← findLockGranule plat s (slaveRdPa :: held) aptPa .APT
      if !sapt then return s
      else match aptFindSlaveByRegionId (s.apt aptPa) m.regionId with
        | none => return s
        | some sj =>
          action s (s.rd slaveRdPa).s2Ctx (((s.apt aptPa).slaveMemory sj).ipaStart + offset)

/-- The calling realm is master: visit the slots of the first enabled master
region that contains the address. -/
def csmPropagateMaster (plat : Platform) (action : State → S2ttContext → Word → Rmm State)
    (held : List Word) (apt : Apt) (mapAddr : Word) (s : State) : Rmm State :=
  match (List.range apt.enabledMr.len).find? fun pos =>
      let m := apt.masterMemory (apt.enabledMr.index pos)
      inRegion m.ipaStart m.mapSize mapAddr with
  | none => return s
  | some pos =>
    let m := apt.masterMemory (apt.enabledMr.index pos)
    (List.range csmMaxMasterShares).foldlM
      (csmPropagateSlot plat action held m (mapAddr - m.ipaStart)) s

/-- The calling realm is slave: visit the master of the first enabled slave
region that contains the address. -/
def csmPropagateSlave (plat : Platform) (action : State → S2ttContext → Word → Rmm State)
    (held : List Word) (apt : Apt) (mapAddr : Word) (s : State) : Rmm State :=
  match (List.range apt.enabledSr.len).find? fun pos =>
      let m := apt.slaveMemory (apt.enabledSr.index pos)
      inRegion m.ipaStart m.mapSize mapAddr with
  | none => return s
  | some pos => do
    let m := apt.slaveMemory (apt.enabledSr.index pos)
    let offset := mapAddr - m.ipaStart
    let mrd ← findLockGranule plat s held m.masterRdPa .RD
    if !mrd then return s
    else
      let aptPa := (s.rd m.masterRdPa).aptPa
      let mapt ← findLockGranule plat s (m.masterRdPa :: held) aptPa .APT
      if !mapt then return s
      else match aptFindMasterByRegionId (s.apt aptPa) m.regionId with
        | none => return s
        | some mi =>
          action s (s.rd m.masterRdPa).s2Ctx (((s.apt aptPa).masterMemory mi).ipaStart + offset)

/-- Mirror a page action into the partners of the shared region. -/
def csmPropagate (plat : Platform) (action : State → S2ttContext → Word → Rmm State)
    (s : State)
    (rdAddr mapAddr : Word) : Rmm State := do
  let found ← findLockGranule plat s [] rdAddr .RD
  if !found then return s
  else
    let aptPa := (s.rd rdAddr).aptPa
    if aptPa = 0#64 then return s
    else
      let gApt ← findLockGranule plat s [rdAddr] aptPa .APT
      if !gApt then return s
      else
        let held := [aptPa, rdAddr]
        let apt := s.apt aptPa
        let s1 ← csmPropagateMaster plat action held apt mapAddr s
        csmPropagateSlave plat action held apt mapAddr s1

def csmPropagateCreate (plat : Platform) (s : State) (rdAddr dataAddr mapAddr : Word) : Rmm State :=
  csmPropagate plat (fun s ctx ipa => mapIpaToPa s ctx dataAddr ipa) s rdAddr mapAddr

def csmPropagateDestroy (plat : Platform) (s : State) (rdAddr mapAddr : Word) : Rmm State :=
  csmPropagate plat unmapIpaFromRd s rdAddr mapAddr

/-- How the copy of a page of the host ends, and what a copy that fails has written. -/
inductive NsCopy
  | done
  | failed (copied : List Word)
  deriving DecidableEq, Repr

def NsCopy.accessOk : NsCopy → Bool
  | done => true
  | failed _ => false

def NsCopy.copied : NsCopy → List Word
  | done => []
  | failed copied => copied

/-- The first words of a granule are overwritten. -/
def State.copyWords (s : State) (addr : Word) (words : List Word) : State :=
  s.setTable addr fun i => words.getD i (s.rtt addr i)

@[simp] theorem State.memzero_copyWords (s : State) (addr : Word) (words : List Word) :
    (s.copyWords addr words).memzero addr = s.memzero addr := by
  simp only [memzero, copyWords, setTable, Function.update_idem]

def validateDataCreateUnknown (mapAddr : Word) (rd : Rd) : ReturnCode :=
  if !addrInPar rd mapAddr then rmiErrorInput
  else if !validateMapAddr mapAddr s2ttPageLevel rd then rmiErrorInput
  else rmiSuccess

def validateDataCreate (mapAddr : Word) (rd : Rd) : ReturnCode :=
  if rd.state ≠ .NEW then rmiErrorRealm else validateDataCreateUnknown mapAddr rd

/-- Both RMI_DATA_CREATE (`measured`, with the outcome of copying the source
granule) and RMI_DATA_CREATE_UNKNOWN. -/
def dataCreate (plat : Platform) (s : State) (rdAddr dataAddr mapAddr : Word) (measured : Bool)
    (nsCopy : NsCopy) : Rmm (State × SmcResult) := do
  if !findLockTwoGranules plat s dataAddr .DELEGATED rdAddr .RD then
    return (s, smcRet rmiErrorInput)
  else
    let rd := s.rd rdAddr
    let ctx := rd.s2Ctx
    let ret := if measured then validateDataCreate mapAddr rd
      else validateDataCreateUnknown mapAddr rd
    if ret ≠ rmiSuccess then return (s, smcRet ret)
    else if !ctx.enableLpa2 && decide (2 ^ 48 ≤ dataAddr.toNat) then
      return (s, smcRet rmiErrorInput)
    else
      let wi ← s2ttWalkLockUnlock s ctx mapAddr s2ttPageLevel
      let s2tte := s.rtt wi.gLlt wi.index
      if wi.lastLevel ≠ s2ttPageLevel then return (s, smcRet (rmiErrorRtt wi.lastLevel))
      else if !s2tteIsUnassigned s2tte then return (s, smcRet (rmiErrorRtt s2ttPageLevel))
      else if measured && !nsCopy.accessOk then
        return ((s.copyWords dataAddr nsCopy.copied).memzero dataAddr, smcRet rmiErrorInput)
      else
        assertThat (s2tteCreateAssignedOk ctx dataAddr s2ttPageLevel) .unaligned
        let entry := if measured then s2tteCreateAssignedRam ctx dataAddr s2ttPageLevel
          else s2tteCreateAssignedUnchanged ctx s2tte dataAddr s2ttPageLevel
        let s1 := s2tteWrite s ctx wi.gLlt wi.index entry
        let s2 ← atomicGranuleGet s1 wi.gLlt
        granuleUnlock s2 wi.gLlt
        let s3 ← granuleUnlockTransition s2 dataAddr .DATA
        return (s3, smcRet rmiSuccess)

def smcDataCreate (plat : Platform) (s : State) (rdAddr dataAddr mapAddr srcAddr flags : Word)
    (nsCopy : NsCopy) : Rmm (State × SmcResult) := do
  if flags ≠ 0#64 ∧ flags ≠ 1#64 then return (s, smcRet rmiErrorInput)
  else if !(findGranule plat srcAddr && (s.granule srcAddr).state == .NS) then
    return (s, smcRet rmiErrorInput)
  else
    let (s1, res) ← dataCreate plat s rdAddr dataAddr mapAddr true nsCopy
    if res.ret = rmiSuccess then
      let s2 ← csmPropagateCreate plat s1 rdAddr dataAddr mapAddr
      return (s2, res)
    else return (s1, res)

def smcDataCreateUnknown (plat : Platform) (s : State) (rdAddr dataAddr mapAddr : Word) :
    Rmm (State × SmcResult) := do
  let (s1, res) ← dataCreate plat s rdAddr dataAddr mapAddr false .done
  if res.ret = rmiSuccess then
    let s2 ← csmPropagateCreate plat s1 rdAddr dataAddr mapAddr
    return (s2, res)
  else return (s1, res)

/-- The entry that replaces an assigned page and whether the TLB is invalidated. -/
def dataDestroyEntry (s2tte : Word) : Option (Word × Bool) :=
  if s2tteIsAssignedRam s2tte s2ttPageLevel then some (s2tteCreateUnassignedDestroyed, true)
  else if s2tteIsAssignedEmpty s2tte then some (s2tteCreateUnassignedEmpty, false)
  else if s2tteIsAssignedDestroyed s2tte then some (s2tteCreateUnassignedDestroyed, false)
  else none

def smcDataDestroy (plat : Platform) (s : State) (rdAddr mapAddr : Word) :
    Rmm (State × SmcResult) := do
  let found ← findLockGranule plat s [] rdAddr .RD
  if !found then return (s, smcRet rmiErrorInput)
  else
    let rd := s.rd rdAddr
    let ctx := rd.s2Ctx
    if !addrInPar rd mapAddr || !validateMapAddr mapAddr s2ttPageLevel rd then
      return (s, smcRet rmiErrorInput)
    else
      let wi ← s2ttWalkLockUnlock s ctx mapAddr s2ttPageLevel
      let s2tte := s.rtt wi.gLlt wi.index
      let skip := fun s : State => s2ttSkipNonLiveEntries mapAddr (s.rtt wi.gLlt) wi
      if wi.lastLevel ≠ s2ttPageLevel then
        return (s, ⟨rmiErrorRtt wi.lastLevel, 0#64, skip s⟩)
      else match dataDestroyEntry s2tte with
        | none => return (s, ⟨rmiErrorRtt s2ttPageLevel, 0#64, skip s⟩)
        | some (entry, tlbi) =>
          let dataAddr := s2ttePa ctx s2tte s2ttPageLevel
          let s1 := s2tteWrite s ctx wi.gLlt wi.index entry
          let s2 := if tlbi then s2ttInvalidatePage s1 ctx mapAddr else s1
          let s3 ← atomicGranulePut s2 wi.gLlt
          let gData ← findLockGranule plat s3 [] dataAddr .DATA
          assertThat gData .dataNotData
          let s4 ← granuleUnlockTransition (s3.memzero dataAddr) dataAddr .DELEGATED
          let s5 ← csmPropagateDestroy plat s4 rdAddr mapAddr
          return (s5, ⟨rmiSuccess, dataAddr, skip s4⟩)

/-- `smc_data_destroy` up to the point where its locks are released, before the
propagation. -/
def dataDestroySection (plat : Platform) (s : State) (rdAddr mapAddr : Word) :
    Rmm (State × SmcResult) := do
  let found ← findLockGranule plat s [] rdAddr .RD
  if !found then return (s, smcRet rmiErrorInput)
  else
    let rd := s.rd rdAddr
    let ctx := rd.s2Ctx
    if !addrInPar rd mapAddr || !validateMapAddr mapAddr s2ttPageLevel rd then
      return (s, smcRet rmiErrorInput)
    else
      let wi ← s2ttWalkLockUnlock s ctx mapAddr s2ttPageLevel
      let s2tte := s.rtt wi.gLlt wi.index
      let skip := fun s : State => s2ttSkipNonLiveEntries mapAddr (s.rtt wi.gLlt) wi
      if wi.lastLevel ≠ s2ttPageLevel then
        return (s, ⟨rmiErrorRtt wi.lastLevel, 0#64, skip s⟩)
      else match dataDestroyEntry s2tte with
        | none => return (s, ⟨rmiErrorRtt s2ttPageLevel, 0#64, skip s⟩)
        | some (entry, tlbi) =>
          let dataAddr := s2ttePa ctx s2tte s2ttPageLevel
          let s1 := s2tteWrite s ctx wi.gLlt wi.index entry
          let s2 := if tlbi then s2ttInvalidatePage s1 ctx mapAddr else s1
          let s3 ← atomicGranulePut s2 wi.gLlt
          let gData ← findLockGranule plat s3 [] dataAddr .DATA
          assertThat gData .dataNotData
          let s4 ← granuleUnlockTransition (s3.memzero dataAddr) dataAddr .DELEGATED
          return (s4, ⟨rmiSuccess, dataAddr, skip s4⟩)

end RmmCaec
