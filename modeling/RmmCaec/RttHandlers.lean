import RmmCaec.RealmHandlers

/-!
# Table handlers

The RMI handlers that create, fold and destroy stage 2 tables, map and unmap
unprotected memory and change the RIPAS of protected memory.
-/
namespace RmmCaec

def validateMapAddr (mapAddr : Word) (level : ℤ) (rd : Rd) : Bool :=
  decide (mapAddr.toNat < realmIpaSize rd) && s2tteIsAddrLvlAligned rd.s2Ctx mapAddr level

/-- Structure commands work on every table except the root. -/
def validateRttStructureCmds (mapAddr : Word) (level : ℤ) (rd : Rd) : Bool :=
  if level < rd.s2Ctx.s2StartingLevel + 1 ∨ s2ttPageLevel < level then false
  else validateMapAddr mapAddr (level - 1) rd

/-- Entry commands work on every table. -/
def validateRttEntryCmds (mapAddr : Word) (level : ℤ) (rd : Rd) : Bool :=
  if level < rd.s2Ctx.s2StartingLevel ∨ s2ttPageLevel < level then false
  else validateMapAddr mapAddr level rd

/-- Map commands work on blocks and pages. -/
def validateRttMapCmds (mapAddr : Word) (level : ℤ) (rd : Rd) : Bool :=
  if level < s2ttMinBlockLevel ∨ s2ttPageLevel < level then false
  else validateMapAddr mapAddr level rd

/-- Fill a new table with what its parent entry means, and account for it: a
table under an unassigned or unprotected entry adds a reference on the parent,
one under an assigned block takes 512 references itself. A valid block is
unmapped first. The result is `none` if the entry is a table already. -/
def rttUnfold (s : State) (ctx : S2ttContext) (wi : S2ttWalk)
    (rttAddr mapAddr : Word) (level : ℤ) :
    Rmm (Option State) :=
  let parent := s.rtt wi.gLlt wi.index
  let old := s.rtt rttAddr
  if s2tteIsUnassignedEmpty parent then do
    let s ← atomicGranuleGet (s.setTable rttAddr (s2ttInitUnassigned .EMPTY old)) wi.gLlt
    return some s
  else if s2tteIsUnassignedRam parent then do
    let s ← atomicGranuleGet (s.setTable rttAddr (s2ttInitUnassigned .RAM old)) wi.gLlt
    return some s
  else if s2tteIsUnassignedNs parent then do
    let s ← atomicGranuleGet (s.setTable rttAddr (s2ttInitUnassignedNs old)) wi.gLlt
    return some s
  else if s2tteIsUnassignedDestroyed parent then do
    let s ← atomicGranuleGet (s.setTable rttAddr (s2ttInitUnassigned .DESTROYED old)) wi.gLlt
    return some s
  else if s2tteIsAssignedDestroyed parent then do
    assertThat (decide (s2ttMinBlockLevel < level)) .blockLevel
    let pa := s2ttePa ctx parent (level - 1)
    let s ← granuleRefcountInc (s.setTable rttAddr (s2ttInitAssigned .DESTROYED ctx pa level old))
      rttAddr s2ttesPerS2tt
    return some s
  else if s2tteIsAssignedEmpty parent then do
    assertThat (decide (s2ttMinBlockLevel < level)) .blockLevel
    let pa := s2ttePa ctx parent (level - 1)
    let s ← granuleRefcountInc (s.setTable rttAddr (s2ttInitAssigned .EMPTY ctx pa level old))
      rttAddr s2ttesPerS2tt
    return some s
  else if s2tteIsAssignedRam parent (level - 1) then do
    assertThat (decide (s2ttMinBlockLevel < level)) .blockLevel
    let s := s2ttInvalidateBlock (s2tteWrite s ctx wi.gLlt wi.index 0#64) ctx mapAddr
    let pa := s2ttePa ctx parent (level - 1)
    let s ← granuleRefcountInc (s.setTable rttAddr (s2ttInitAssigned .RAM ctx pa level old))
      rttAddr s2ttesPerS2tt
    return some s
  else if s2tteIsAssignedNs parent (level - 1) then do
    assertThat (decide (s2ttMinBlockLevel < level)) .blockLevel
    let s := s2ttInvalidateBlock (s2tteWrite s ctx wi.gLlt wi.index 0#64) ctx mapAddr
    let pa := s2ttePa ctx parent (level - 1)
    let s ← atomicGranuleGet (s.setTable rttAddr (s2ttInitAssignedNs ctx parent pa level old))
      wi.gLlt
    return some s
  else if s2tteIsTable parent (level - 1) then return none
  else .error .unknownEntry

def smcRttCreate (plat : Platform) (s : State) (rdAddr rttAddr mapAddr ulevel : Word) :
    Rmm (State × SmcResult) := do
  let level := ulevel.toInt
  if !findLockTwoGranules plat s rttAddr .DELEGATED rdAddr .RD then
    return (s, smcRet rmiErrorInput)
  else
    let rd := s.rd rdAddr
    let ctx := rd.s2Ctx
    if !validateRttStructureCmds mapAddr level rd then return (s, smcRet rmiErrorInput)
    else if !ctx.enableLpa2 && decide (2 ^ 48 ≤ rttAddr.toNat) then
      return (s, smcRet rmiErrorInput)
    else
      let wi ← s2ttWalkLockUnlock s ctx mapAddr (level - 1)
      if wi.lastLevel ≠ level - 1 then return (s, smcRet (rmiErrorRtt wi.lastLevel))
      else
        let unfolded ← rttUnfold s ctx wi rttAddr mapAddr level
        match unfolded with
        | none => return (s, smcRet (rmiErrorRtt (level - 1)))
        | some s1 =>
          let s2 := s1.setState rttAddr .RTT
          let s3 := s2tteWrite s2 ctx wi.gLlt wi.index (s2tteCreateTable ctx rttAddr)
          granuleUnlock s3 wi.gLlt
          granuleUnlock s3 rttAddr
          return (s3, smcRet rmiSuccess)

/-- The entry that replaces a table, with the reference counts adjusted, or the
level that the error code reports. -/
def rttFoldEntry (s : State) (ctx : S2ttContext) (wi : S2ttWalk) (rttAddr : Word) (level : ℤ) :
    Rmm (Except ℤ (State × Word)) :=
  let table := s.rtt rttAddr
  if (s.granule rttAddr).refcount = 0 then
    let entry : Except ℤ Word :=
      if tableIsUniformBlock table s2tteIsUnassignedDestroyed then
        .ok s2tteCreateUnassignedDestroyed
      else if tableIsUniformBlock table s2tteIsUnassignedEmpty then .ok s2tteCreateUnassignedEmpty
      else if tableIsUniformBlock table s2tteIsUnassignedRam then .ok s2tteCreateUnassignedRam
      else if tableIsUniformBlock table s2tteIsUnassignedNs then .ok s2tteCreateUnassignedNs
      else if tableMapsBlock ctx table level s2tteIsAssignedNs true then
        if level ≤ s2ttMinBlockLevel then .error wi.lastLevel
        else .ok (s2tteCreateAssignedNs ctx (table 0) (level - 1))
      else .error level
    match entry with
    | .error l => return .error l
    | .ok e => do
      let s ← atomicGranulePut s wi.gLlt
      return .ok (s, e)
  else if (s.granule rttAddr).refcount = s2ttesPerS2tt then
    if level ≤ s2ttMinBlockLevel then return .error wi.lastLevel
    else do
      assertThat (s2tteHasPa (table 0)) .unknownEntry
      let pa := s2ttePa ctx (table 0) level
      let entry : Except ℤ Word :=
        if tableMapsBlock ctx table level (fun w _ => s2tteIsAssignedEmpty w) false then
          .ok (s2tteCreateAssignedEmpty ctx pa (level - 1))
        else if tableMapsBlock ctx table level s2tteIsAssignedRam false then
          .ok (s2tteCreateAssignedRam ctx pa (level - 1))
        else if tableMapsBlock ctx table level (fun w _ => s2tteIsAssignedDestroyed w) false then
          .ok (s2tteCreateAssignedDestroyed ctx pa (level - 1))
        else .error level
      match entry with
      | .error l => return .error l
      | .ok e =>
        let s ← granuleRefcountDec s rttAddr s2ttesPerS2tt
        return .ok (s, e)
  else return .error level

def smcRttFold (plat : Platform) (s : State) (rdAddr mapAddr ulevel : Word) :
    Rmm (State × SmcResult) := do
  let level := ulevel.toInt
  let found ← findLockGranule plat s [] rdAddr .RD
  if !found then return (s, smcRet rmiErrorInput)
  else
    let rd := s.rd rdAddr
    let ctx := rd.s2Ctx
    if !validateRttStructureCmds mapAddr level rd then return (s, smcRet rmiErrorInput)
    else
      let wi ← s2ttWalkLockUnlock s ctx mapAddr (level - 1)
      let parent := s.rtt wi.gLlt wi.index
      if wi.lastLevel ≠ level - 1 then return (s, smcRet (rmiErrorRtt wi.lastLevel))
      else if !s2tteIsTable parent (level - 1) then return (s, smcRet (rmiErrorRtt (level - 1)))
      else
        let rttAddr := s2ttePa ctx parent (level - 1)
        let tbl ← findLockGranule plat s [] rttAddr .RTT
        assertThat tbl .nullGranule
        let folded ← rttFoldEntry s ctx wi rttAddr level
        match folded with
        | .error l => return (s, smcRet (rmiErrorRtt l))
        | .ok (s1, entry) =>
          let s2 := s2tteWrite s1 ctx wi.gLlt wi.index 0#64
          let s3 :=
            if s2tteIsAssignedRam entry (level - 1) || s2tteIsAssignedNs entry (level - 1) then
              s2ttInvalidatePagesInBlock s2 ctx mapAddr
            else s2ttInvalidateBlock s2 ctx mapAddr
          let s4 := s2tteWrite s3 ctx wi.gLlt wi.index entry
          let s5 := (s4.memzero rttAddr).setState rttAddr .DELEGATED
          granuleUnlock s5 rttAddr
          granuleUnlock s5 wi.gLlt
          return (s5, ⟨rmiSuccess, rttAddr, 0#64⟩)

def smcRttDestroy (plat : Platform) (s : State) (rdAddr mapAddr ulevel : Word) :
    Rmm (State × SmcResult) := do
  let level := ulevel.toInt
  let found ← findLockGranule plat s [] rdAddr .RD
  if !found then return (s, smcRet rmiErrorInput)
  else
    let rd := s.rd rdAddr
    let ctx := rd.s2Ctx
    if !validateRttStructureCmds mapAddr level rd then return (s, smcRet rmiErrorInput)
    else
      let inPar := addrInPar rd mapAddr
      let wi ← s2ttWalkLockUnlock s ctx mapAddr (level - 1)
      let parent := s.rtt wi.gLlt wi.index
      if wi.lastLevel ≠ level - 1 ∨ s2tteIsTable parent (level - 1) = false then
        return (s, ⟨rmiErrorRtt wi.lastLevel, 0#64,
          s2ttSkipNonLiveEntries mapAddr (s.rtt wi.gLlt) wi⟩)
      else
        let rttAddr := s2ttePa ctx parent (level - 1)
        let tbl ← findLockGranule plat s [] rttAddr .RTT
        assertThat tbl .nullGranule
        if (s.granule rttAddr).refcount ≠ 0 then
          return (s, ⟨rmiErrorRtt level, 0#64, mapAddr⟩)
        else
          let entry := if inPar then s2tteCreateUnassignedDestroyed else s2tteCreateUnassignedNs
          let s1 ← atomicGranulePut s wi.gLlt
          let s2 := s2tteWrite s1 ctx wi.gLlt wi.index 0#64
          let s3 := if inPar then s2ttInvalidateBlock s2 ctx mapAddr
            else s2ttInvalidatePagesInBlock s2 ctx mapAddr
          let s4 := s2tteWrite s3 ctx wi.gLlt wi.index entry
          let s5 := (s4.memzero rttAddr).setState rttAddr .DELEGATED
          granuleUnlock s5 rttAddr
          granuleUnlock s5 wi.gLlt
          return (s5, ⟨rmiSuccess, rttAddr,
            s2ttSkipNonLiveEntries mapAddr (s5.rtt wi.gLlt) wi⟩)

inductive MapUnmapNsOp
  | MAP_NS
  | UNMAP_NS
  deriving DecidableEq, Repr

def mapUnmapNs (plat : Platform) (s : State) (rdAddr mapAddr : Word) (level : ℤ)
    (hostS2tte : Word)
    (op : MapUnmapNsOp) : Rmm (State × SmcResult) := do
  let found ← findLockGranule plat s [] rdAddr .RD
  if !found then return (s, smcRet rmiErrorInput)
  else
    let rd := s.rd rdAddr
    let ctx := rd.s2Ctx
    if op = .MAP_NS ∧ hostNsS2tteIsValid ctx hostS2tte level = false then
      return (s, smcRet rmiErrorInput)
    else if !validateRttMapCmds mapAddr level rd then return (s, smcRet rmiErrorInput)
    else if addrInPar rd mapAddr then return (s, smcRet rmiErrorInput)
    else
      let wi ← s2ttWalkLockUnlock s ctx mapAddr level
      let s2tte := s.rtt wi.gLlt wi.index
      match op with
      | .MAP_NS =>
        if wi.lastLevel ≠ level then return (s, smcRet (rmiErrorRtt wi.lastLevel))
        else if !s2tteIsUnassignedNs s2tte then return (s, smcRet (rmiErrorRtt level))
        else
          let s1 := s2tteWrite s ctx wi.gLlt wi.index (s2tteCreateAssignedNs ctx hostS2tte level)
          return (s1, smcRet rmiSuccess)
      | .UNMAP_NS =>
        if wi.lastLevel ≠ level ∨ s2tteIsAssignedNs s2tte wi.lastLevel = false then
          return (s, ⟨rmiErrorRtt wi.lastLevel,
            s2ttSkipNonLiveEntries mapAddr (s.rtt wi.gLlt) wi, 0#64⟩)
        else
          let s1 := s2tteWrite s ctx wi.gLlt wi.index s2tteCreateUnassignedNs
          let s2 := if level = s2ttPageLevel then s2ttInvalidatePage s1 ctx mapAddr
            else s2ttInvalidateBlock s1 ctx mapAddr
          return (s2, ⟨rmiSuccess,
            s2ttSkipNonLiveEntries mapAddr (s2.rtt wi.gLlt) wi, 0#64⟩)

def smcRttMapUnprotected (plat : Platform) (s : State) (rdAddr mapAddr ulevel s2tte : Word) :
    Rmm (State × SmcResult) :=
  let level := ulevel.toInt
  if level < s2ttMinBlockLevel ∨ s2ttPageLevel < level then .ok (s, smcRet rmiErrorInput)
  else mapUnmapNs plat s rdAddr mapAddr level s2tte .MAP_NS

def smcRttUnmapUnprotected (plat : Platform) (s : State) (rdAddr mapAddr ulevel : Word) :
    Rmm (State × SmcResult) :=
  let level := ulevel.toInt
  if level < s2ttMinBlockLevel ∨ s2ttPageLevel < level then .ok (s, smcRet rmiErrorInput)
  else mapUnmapNs plat s rdAddr mapAddr level 0#64 .UNMAP_NS

inductive RttEntryState
  | UNASSIGNED
  | ASSIGNED
  | TABLE
  deriving DecidableEq, Repr

/-- What the host is told about an entry. -/
structure RttEntry where
  level : ℤ
  state : RttEntryState
  desc : Word
  ripas : Ripas
  deriving DecidableEq, Repr

/-- The attributes and the address of an unprotected entry, as the host chose them. -/
def hostNsS2tte (ctx : S2ttContext) (s2tte : Word) (level : ℤ) : Rmm Word := do
  assertThat (decide (s2ttMinBlockLevel ≤ level)) .blockLevel
  return s2tte &&& (s2tteLvlMask level ctx.enableLpa2 ||| s2tteNsAttrMask)

/-- The kinds of an entry, tried one after the other. -/
def rttReadEntry (ctx : S2ttContext) (s2tte : Word) (level : ℤ) : Rmm RttEntry :=
  if s2tteIsUnassignedEmpty s2tte then return ⟨level, .UNASSIGNED, 0#64, .EMPTY⟩
  else if s2tteIsUnassignedRam s2tte then return ⟨level, .UNASSIGNED, 0#64, .RAM⟩
  else if s2tteIsUnassignedDestroyed s2tte then return ⟨level, .UNASSIGNED, 0#64, .DESTROYED⟩
  else if s2tteIsAssignedEmpty s2tte then
    return ⟨level, .ASSIGNED, s2ttePa ctx s2tte level, .EMPTY⟩
  else if s2tteIsAssignedRam s2tte level then
    return ⟨level, .ASSIGNED, s2ttePa ctx s2tte level, .RAM⟩
  else if s2tteIsAssignedDestroyed s2tte then return ⟨level, .ASSIGNED, 0#64, .DESTROYED⟩
  else if s2tteIsUnassignedNs s2tte then return ⟨level, .UNASSIGNED, 0#64, .EMPTY⟩
  else if s2tteIsAssignedNs s2tte level then do
    let desc ← hostNsS2tte ctx s2tte level
    return ⟨level, .ASSIGNED, desc, .EMPTY⟩
  else if s2tteIsTable s2tte level then
    return ⟨level, .TABLE, s2ttePa ctx s2tte level, .EMPTY⟩
  else .error .unknownEntry

def smcRttReadEntry (plat : Platform) (s : State) (rdAddr mapAddr ulevel : Word) :
    Rmm (ReturnCode × Option RttEntry) := do
  let level := ulevel.toInt
  let found ← findLockGranule plat s [] rdAddr .RD
  if !found then return (rmiErrorInput, none)
  else
    let rd := s.rd rdAddr
    let ctx := rd.s2Ctx
    if !validateRttEntryCmds mapAddr level rd then return (rmiErrorInput, none)
    else
      let wi ← s2ttWalkLockUnlock s ctx mapAddr level
      let entry ← rttReadEntry ctx (s.rtt wi.gLlt wi.index) wi.lastLevel
      granuleUnlock s wi.gLlt
      return (rmiSuccess, some entry)

/-- What a RIPAS change does to one entry. -/
inductive RipasUpdate
  | refused
  | unchanged
  | write (s2tte : Word) (tlbi : Bool)
  deriving DecidableEq, Repr

def updateRipas (ctx : S2ttContext) (s2tte : Word) (level : ℤ) (ripasVal : Ripas)
    (changeDestroyed : Bool) : RipasUpdate :=
  let pa := s2ttePa ctx s2tte level
  if !s2tteHasRipas s2tte level then .refused
  else match ripasVal with
  | .RAM =>
    if s2tteIsUnassignedEmpty s2tte then .write s2tteCreateUnassignedRam false
    else if s2tteIsUnassignedDestroyed s2tte then
      if changeDestroyed then .write s2tteCreateUnassignedRam false else .refused
    else if s2tteIsAssignedEmpty s2tte then .write (s2tteCreateAssignedRam ctx pa level) false
    else if s2tteIsAssignedDestroyed s2tte then
      if changeDestroyed then .write (s2tteCreateAssignedRam ctx pa level) false else .refused
    else .unchanged
  | .EMPTY =>
    if s2tteIsUnassignedRam s2tte then .write s2tteCreateUnassignedEmpty false
    else if s2tteIsUnassignedDestroyed s2tte then
      if changeDestroyed then .write s2tteCreateUnassignedEmpty false else .refused
    else if s2tteIsAssignedRam s2tte level then
      .write (s2tteCreateAssignedEmpty ctx pa level) true
    else if s2tteIsAssignedDestroyed s2tte then
      if changeDestroyed then .write (s2tteCreateAssignedEmpty ctx pa level) true else .refused
    else .unchanged
  | .DESTROYED => .write s2tte false

/-- Turn entries from unassigned_empty to unassigned_ram while they lie below
`top`; the result is the address where the loop stopped. -/
def initRipasLoop (ctx : S2ttContext) (tbl : Word) (mapSize top : ℕ) :
    ℕ → State → ℕ → ℕ → State × ℕ
  | 0, s, _, addr => (s, addr)
  | n + 1, s, index, addr =>
    if top < addr + mapSize then (s, addr)
    else if s2tteIsUnassignedEmpty (s.rtt tbl index) then
      initRipasLoop ctx tbl mapSize top n (s2tteWrite s ctx tbl index s2tteCreateUnassignedRam)
        (index + 1) (addr + mapSize)
    else if s2tteIsUnassignedRam (s.rtt tbl index) then
      initRipasLoop ctx tbl mapSize top n s (index + 1) (addr + mapSize)
    else (s, addr)

def smcRttInitRipas (plat : Platform) (s : State) (rdAddr base top : Word) :
    Rmm (State × SmcResult) := do
  if top ≤ base then return (s, smcRet rmiErrorInput)
  else
    let found ← findLockGranule plat s [] rdAddr .RD
    if !found then return (s, smcRet rmiErrorInput)
    else
      let rd := s.rd rdAddr
      let ctx := rd.s2Ctx
      if !(validateMapAddr base s2ttPageLevel rd && validateMapAddr top s2ttPageLevel rd &&
          addrInPar rd base && addrInPar rd (top - BitVec.ofNat 64 granuleSize)) then
        return (s, smcRet rmiErrorInput)
      else if rd.state ≠ .NEW then return (s, smcRet rmiErrorRealm)
      else
        let wi ← s2ttWalkLockUnlock s ctx base s2ttPageLevel
        let mapSize := s2tteMapSize wi.lastLevel
        if base.toNat % mapSize ≠ 0 then return (s, smcRet (rmiErrorRtt wi.lastLevel))
        else
          let perTable := if wi.lastLevel = s2ttMinStartingLevelLpa2 then s2ttesPerS2ttLm1
            else s2ttesPerS2tt
          let (s1, addr) := initRipasLoop ctx wi.gLlt mapSize top.toNat (perTable - wi.index) s
            wi.index base.toNat
          if base.toNat < addr then return (s1, ⟨rmiSuccess, BitVec.ofNat 64 addr, 0#64⟩)
          else return (s1, smcRet (rmiErrorRtt wi.lastLevel))

/-- Update entries while they lie below `top` and the change is allowed,
invalidating the TLB where an entry was valid. -/
def setRipasLoop (ctx : S2ttContext) (tbl : Word) (level : ℤ) (top : ℕ) (ripasVal : Ripas)
    (changeDestroyed : Bool) : ℕ → State → ℕ → ℕ → State × ℕ
  | 0, s, _, addr => (s, addr)
  | n + 1, s, index, addr =>
    if top < addr + s2tteMapSize level then (s, addr)
    else match updateRipas ctx (s.rtt tbl index) level ripasVal changeDestroyed with
    | .refused => (s, addr)
    | .unchanged =>
      setRipasLoop ctx tbl level top ripasVal changeDestroyed n s (index + 1)
        (addr + s2tteMapSize level)
    | .write s2tte tlbi =>
      let s := s2tteWrite s ctx tbl index s2tte
      let s :=
        if tlbi then
          if level = s2ttPageLevel then s2ttInvalidatePage s ctx (BitVec.ofNat 64 addr)
          else s2ttInvalidateBlock s ctx (BitVec.ofNat 64 addr)
        else s
      setRipasLoop ctx tbl level top ripasVal changeDestroyed n s (index + 1)
        (addr + s2tteMapSize level)

def smcRttSetRipas (plat : Platform) (s : State) (rdAddr recAddr base top : Word) :
    Rmm (State × SmcResult) := do
  if top ≤ base then return (s, smcRet rmiErrorInput)
  else if !findLockTwoGranules plat s rdAddr .RD recAddr .REC then
    return (s, smcRet rmiErrorInput)
  else if (s.granule recAddr).refcount ≠ 0 then return (s, smcRet rmiErrorRec)
  else
    let r := s.recs recAddr
    if rdAddr ≠ r.gRd then return (s, smcRet rmiErrorRec)
    else if base ≠ r.setRipas.addr ∨ r.setRipas.top < top then return (s, smcRet rmiErrorInput)
    else
      let rd := s.rd rdAddr
      let ctx := rd.s2Ctx
      assertThat (validateMapAddr base s2ttPageLevel rd) .unaligned
      let wi ← s2ttWalkLockUnlock s ctx base s2ttPageLevel
      if !validateMapAddr base wi.lastLevel rd then
        return (s, smcRet (rmiErrorRtt wi.lastLevel))
      else if base.toNat % s2tteMapSize wi.lastLevel ≠ 0 then
        return (s, smcRet (rmiErrorRtt wi.lastLevel))
      else
        let (s1, addr) := setRipasLoop ctx wi.gLlt wi.lastLevel top.toNat r.setRipas.ripasVal
          r.setRipas.changeDestroyed (s2ttesPerS2tt - wi.index) s wi.index base.toNat
        if base.toNat < addr then
          let s2 := s1.setRec recAddr
            { r with setRipas := { r.setRipas with addr := BitVec.ofNat 64 addr } }
          return (s2, ⟨rmiSuccess, BitVec.ofNat 64 addr, 0#64⟩)
        else return (s1, smcRet (rmiErrorRtt wi.lastLevel))

end RmmCaec
