import RmmCaec.Descriptor

/-!
# Attachment tables and their registries

The attachment table (APT) of a realm holds the confidential shared memory
regions it owns as master and the ones it borrowed as slave. Realm tags and
region identifiers come from two global registries. Arrays are functions of
their index and masks are functions of the bit number; the operations only use
indices below the array sizes.
-/
namespace RmmCaec

/-- An 8-bit tag or identifier. -/
abbrev Byte := BitVec 8

def maxMemRegions : ℕ := 20
def csmMaxMasterShares : ℕ := 3
def configMaxRealms : ℕ := 10
def configMaxCsmRegionIds : ℕ := 64

structure MasterShare where
  slaveId : Byte
  slaveRdPa : Word
  permission : Byte
  inUse : Bool
  deriving DecidableEq

instance : Inhabited MasterShare := ⟨⟨0#8, 0#64, 0#8, false⟩⟩

structure MasterMem where
  regionId : Byte
  ipaStart : Word
  mapSize : Word
  shareCount : Byte
  shares : ℕ → MasterShare

instance : Inhabited MasterMem := ⟨⟨0#8, 0#64, 0#64, 0#8, fun _ => default⟩⟩

structure SlaveMem where
  masterId : Byte
  regionId : Byte
  masterRdPa : Word
  ipaStart : Word
  mapSize : Word
  deriving DecidableEq

instance : Inhabited SlaveMem := ⟨⟨0#8, 0#8, 0#64, 0#64, 0#64⟩⟩

/-- An unordered, packed set of enabled regions with its inverse map. -/
structure EnabledRegions where
  len : ℕ
  index : ℕ → ℕ
  posByIndex : ℕ → ℕ

instance : Inhabited EnabledRegions := ⟨⟨0, fun _ => 0, fun _ => 0⟩⟩

structure Apt where
  masterMemory : ℕ → MasterMem
  slaveMemory : ℕ → SlaveMem
  enabledMr : EnabledRegions
  enabledSr : EnabledRegions
  masterUsedMask : ℕ → Bool
  slaveUsedMask : ℕ → Bool
  masterEnabledMask : ℕ → Bool
  slaveEnabledMask : ℕ → Bool

/-- The zeroed table that `apt_reset` leaves. -/
instance : Inhabited Apt :=
  ⟨⟨fun _ => default, fun _ => default, default, default,
    fun _ => false, fun _ => false, fun _ => false, fun _ => false⟩⟩

/-- The first index below a bound that satisfies a test, as the search loops of
the table return it. -/
def findFirst (n : ℕ) (p : ℕ → Bool) : Option ℕ := (List.range n).find? p

def aptFindMasterByRegionId (a : Apt) (regionId : Byte) : Option ℕ :=
  findFirst maxMemRegions fun i => a.masterUsedMask i && (a.masterMemory i).regionId == regionId

def aptFindSlaveByRegionId (a : Apt) (regionId : Byte) : Option ℕ :=
  findFirst maxMemRegions fun i => a.slaveUsedMask i && (a.slaveMemory i).regionId == regionId

def aptFindMasterShareSlot (m : MasterMem) (slaveId : Byte) : Option ℕ :=
  findFirst csmMaxMasterShares fun i => (m.shares i).inUse && (m.shares i).slaveId == slaveId

def EnabledRegions.push (e : EnabledRegions) (idx : ℕ) : EnabledRegions :=
  { len := (e.len + 1) % 256
    index := Function.update e.index e.len idx
    posByIndex := Function.update e.posByIndex idx e.len }

/-- Swap the last enabled position into the freed one; `len - 1` is computed in
`size_t`. -/
def EnabledRegions.swapPop (e : EnabledRegions) (idx : ℕ) : EnabledRegions :=
  let pos := e.posByIndex idx
  let lastPos := (e.len + 2 ^ 64 - 1) % 2 ^ 64
  let e' : EnabledRegions :=
    if pos ≠ lastPos then
      { e with
        index := Function.update e.index pos (e.index lastPos)
        posByIndex := Function.update e.posByIndex (e.index lastPos) pos }
    else e
  { e' with len := (e.len + 255) % 256 }

def enablePushMaster (a : Apt) (idx : ℕ) : Apt :=
  { a with
    enabledMr := a.enabledMr.push idx
    masterEnabledMask := Function.update a.masterEnabledMask idx true }

def enablePushSlave (a : Apt) (idx : ℕ) : Apt :=
  { a with
    enabledSr := a.enabledSr.push idx
    slaveEnabledMask := Function.update a.slaveEnabledMask idx true }

def disableSwapPopMaster (a : Apt) (idx : ℕ) : Apt :=
  { a with
    enabledMr := a.enabledMr.swapPop idx
    masterEnabledMask := Function.update a.masterEnabledMask idx false }

def disableSwapPopSlave (a : Apt) (idx : ℕ) : Apt :=
  { a with
    enabledSr := a.enabledSr.swapPop idx
    slaveEnabledMask := Function.update a.slaveEnabledMask idx false }

def aptAddMaster (a : Apt) (regionId : Byte) (ipaStart mapSize : Word) (enableNow : Bool) :
    Option (Apt × ℕ) :=
  match findFirst maxMemRegions fun i => !a.masterUsedMask i with
  | none => none
  | some idx =>
    let a' : Apt :=
      { a with
        masterMemory := Function.update a.masterMemory idx
          ⟨regionId, ipaStart, mapSize, 0#8, fun _ => default⟩
        masterUsedMask := Function.update a.masterUsedMask idx true }
    if enableNow && !a'.masterEnabledMask idx then some (enablePushMaster a' idx, idx)
    else some (a', idx)

def aptAddSlave (a : Apt) (masterId regionId : Byte) (masterRdPa ipaStart mapSize : Word)
    (enableNow : Bool) : Option (Apt × ℕ) :=
  match findFirst maxMemRegions fun i => !a.slaveUsedMask i with
  | none => none
  | some idx =>
    let a' : Apt :=
      { a with
        slaveMemory := Function.update a.slaveMemory idx
          ⟨masterId, regionId, masterRdPa, ipaStart, mapSize⟩
        slaveUsedMask := Function.update a.slaveUsedMask idx true }
    if enableNow && !a'.slaveEnabledMask idx then some (enablePushSlave a' idx, idx)
    else some (a', idx)

/-- Enabling a region that is not used or already enabled does nothing. -/
def aptEnableMasterIdx (a : Apt) (idx : ℕ) : Apt :=
  if idx < maxMemRegions ∧ a.masterUsedMask idx = true ∧ a.masterEnabledMask idx = false then
    enablePushMaster a idx
  else a

def aptEnableSlaveIdx (a : Apt) (idx : ℕ) : Apt :=
  if idx < maxMemRegions ∧ a.slaveUsedMask idx = true ∧ a.slaveEnabledMask idx = false then
    enablePushSlave a idx
  else a

def aptDisableMasterIdx (a : Apt) (idx : ℕ) : Apt :=
  if idx < maxMemRegions ∧ a.masterEnabledMask idx = true then disableSwapPopMaster a idx else a

def aptDisableSlaveIdx (a : Apt) (idx : ℕ) : Apt :=
  if idx < maxMemRegions ∧ a.slaveEnabledMask idx = true then disableSwapPopSlave a idx else a

/-- Half-open ranges overlap; a range that wraps conflicts with everything. -/
def rangeOverlapsUl (aStart aSize bStart bSize : Word) : Bool :=
  if aSize = 0#64 ∨ bSize = 0#64 then false
  else if aStart + aSize < aStart ∨ bStart + bSize < bStart then true
  else !(decide (aStart + aSize ≤ bStart) || decide (bStart + bSize ≤ aStart))

/-- A given range meets some enabled region. -/
def aptFindEnabledConflict (a : Apt) (ipaStart mapSize : Word) (skipMasterCheck : Bool) : Bool :=
  (!skipMasterCheck && (List.range a.enabledMr.len).any fun pos =>
      let m := a.masterMemory (a.enabledMr.index pos)
      rangeOverlapsUl ipaStart mapSize m.ipaStart m.mapSize) ||
    (List.range a.enabledSr.len).any fun pos =>
      let s := a.slaveMemory (a.enabledSr.index pos)
      rangeOverlapsUl ipaStart mapSize s.ipaStart s.mapSize

/-- Fill the first free share slot of a used region, unless the slave already
has one. -/
def aptMasterAddShare (a : Apt) (idx : ℕ) (slaveId : Byte) (slaveRdPa : Word)
    (permission : Byte) :
    Option Apt :=
  if ¬ idx < maxMemRegions then none
  else if a.masterUsedMask idx = false then none
  else
    let m := a.masterMemory idx
    if (aptFindMasterShareSlot m slaveId).isSome then none
    else
      match findFirst csmMaxMasterShares fun i => !(m.shares i).inUse with
      | none => none
      | some i =>
        let m' : MasterMem :=
          { m with
            shares := Function.update m.shares i ⟨slaveId, slaveRdPa, permission, true⟩
            shareCount := m.shareCount + 1#8 }
        some { a with masterMemory := Function.update a.masterMemory idx m' }

/-- Free one share slot of a region. -/
def aptMasterDropShare (a : Apt) (idx slot : ℕ) : Apt :=
  let m := a.masterMemory idx
  let m' : MasterMem :=
    { m with
      shares := Function.update m.shares slot { m.shares slot with inUse := false }
      shareCount := m.shareCount - 1#8 }
  { a with masterMemory := Function.update a.masterMemory idx m' }

/-- Disable a slave region and clear its used bit, keeping the record. -/
def aptReleaseSlave (a : Apt) (idx : ℕ) : Apt :=
  let a' := aptDisableSlaveIdx a idx
  { a' with slaveUsedMask := Function.update a'.slaveUsedMask idx false }

/-- Disable a slave region, clear its used bit and zero the record. -/
def aptEraseSlave (a : Apt) (idx : ℕ) : Apt :=
  let a' := aptReleaseSlave a idx
  { a' with slaveMemory := Function.update a'.slaveMemory idx default }

/-- Disable a master region, clear its used bit and zero the record. -/
def aptEraseMaster (a : Apt) (idx : ℕ) : Apt :=
  let a' := aptDisableMasterIdx a idx
  { a' with
    masterUsedMask := Function.update a'.masterUsedMask idx false
    masterMemory := Function.update a'.masterMemory idx default }

def aptMakeSharingId (regionId masterId slaveId : Byte) : BitVec 32 :=
  (regionId.setWidth 32 <<< 16) ||| (masterId.setWidth 32 <<< 8) ||| slaveId.setWidth 32

def aptSharingRegionId (sharingId : BitVec 32) : Byte := (sharingId >>> 16).setWidth 8
def aptSharingMasterId (sharingId : BitVec 32) : Byte := (sharingId >>> 8).setWidth 8
def aptSharingSlaveId (sharingId : BitVec 32) : Byte := sharingId.setWidth 8

structure TagEntry where
  rdPa : Word
  tag : Byte
  inUse : Bool
  deriving DecidableEq

instance : Inhabited TagEntry := ⟨⟨0#64, 0#8, false⟩⟩

/-- The tag registry with the two counters that generate tags. -/
structure TagRegistry where
  entries : ℕ → TagEntry
  nextIndex : ℕ
  counter : Byte

instance : Inhabited TagRegistry := ⟨⟨fun _ => default, 0, 0#8⟩⟩

def kDefaultTags : List Byte :=
  [0x11#8, 0x22#8, 0x33#8, 0x44#8, 0x55#8, 0x66#8, 0x77#8, 0x88#8, 0x99#8, 0xaa#8]

def realmTagGenerateNext (t : TagRegistry) : TagRegistry × Byte :=
  match kDefaultTags[t.nextIndex]? with
  | some tag => ({ t with nextIndex := t.nextIndex + 1 }, if tag = 0#8 then 1#8 else tag)
  | none =>
    let candidate := 0xf0#8 ^^^ t.counter
    ({ t with counter := t.counter + 1#8 }, if candidate = 0#8 then 1#8 else candidate)

def findSlotByRd (t : TagRegistry) (rdPa : Word) : Option ℕ :=
  findFirst configMaxRealms fun i => (t.entries i).inUse && (t.entries i).rdPa == rdPa

def findSlotByTag (t : TagRegistry) (tag : Byte) : Option ℕ :=
  findFirst configMaxRealms fun i => (t.entries i).inUse && (t.entries i).tag == tag

def tagCollides (t : TagRegistry) (tag : Byte) : Bool := (findSlotByTag t tag).isSome

/-- Draw tags until one is free; the seventeenth draw is given up. -/
def realmTagDraw : ℕ → TagRegistry → TagRegistry × Option Byte
  | 0, t => ((realmTagGenerateNext t).1, none)
  | n + 1, t =>
    let (t', tag) := realmTagGenerateNext t
    if tagCollides t' tag then realmTagDraw n t' else (t', some tag)

def realmTagAssign (t : TagRegistry) (rdPa : Word) : TagRegistry :=
  if (findSlotByRd t rdPa).isSome then t
  else
    match findFirst configMaxRealms fun i => !(t.entries i).inUse with
    | none => t
    | some slot =>
      match realmTagDraw 16 t with
      | (t', none) => t'
      | (t', some tag) =>
          { t' with entries := Function.update t'.entries slot ⟨rdPa, tag, true⟩ }

def realmTagGetByRd (t : TagRegistry) (rdPa : Word) : Option Byte :=
  (findSlotByRd t rdPa).map fun i => (t.entries i).tag

def realmTagRemove (t : TagRegistry) (rdPa : Word) : TagRegistry :=
  match findSlotByRd t rdPa with
  | none => t
  | some i => { t with entries := Function.update t.entries i ⟨0#64, 0#8, false⟩ }

def realmTagRdByTag (t : TagRegistry) (tag : Byte) : Option Word :=
  if tag = 0#8 then none else (findSlotByTag t tag).map fun i => (t.entries i).rdPa

structure CsmRegionIdEntry where
  ownerRdPa : Word
  regionId : Byte
  inUse : Bool
  deriving DecidableEq

instance : Inhabited CsmRegionIdEntry := ⟨⟨0#64, 0#8, false⟩⟩

structure CsmIdRegistry where
  entries : ℕ → CsmRegionIdEntry
  counter : Byte

instance : Inhabited CsmIdRegistry := ⟨⟨fun _ => default, 1#8⟩⟩

def csmRegionIdCollides (r : CsmIdRegistry) (regionId : Byte) : Bool :=
  (findFirst configMaxCsmRegionIds fun i =>
    (r.entries i).inUse && (r.entries i).regionId == regionId).isSome

/-- The next candidate; zero is never handed out. -/
def csmRegionIdNext (r : CsmIdRegistry) : CsmIdRegistry × Byte :=
  if r.counter = 0#8 then ({ r with counter := r.counter + 2#8 }, r.counter + 1#8)
  else ({ r with counter := r.counter + 1#8 }, r.counter)

/-- Draw candidates until one is free; the draw after the last allowed one is
given up. -/
def csmRegionIdDraw : ℕ → CsmIdRegistry → CsmIdRegistry × Option Byte
  | 0, r => ((csmRegionIdNext r).1, none)
  | n + 1, r =>
    let (r', candidate) := csmRegionIdNext r
    if csmRegionIdCollides r' candidate then csmRegionIdDraw n r' else (r', some candidate)

def csmRegionIdAssign (r : CsmIdRegistry) (ownerRdPa : Word) : CsmIdRegistry × Option Byte :=
  match findFirst configMaxCsmRegionIds fun i => !(r.entries i).inUse with
  | none => (r, none)
  | some slot =>
    match csmRegionIdDraw configMaxCsmRegionIds r with
    | (r', none) => (r', none)
    | (r', some candidate) =>
      ({ r' with entries := Function.update r'.entries slot ⟨ownerRdPa, candidate, true⟩ },
        some candidate)

def csmRegionIdRemove (r : CsmIdRegistry) (regionId : Byte) : CsmIdRegistry :=
  match findFirst configMaxCsmRegionIds fun i =>
      (r.entries i).inUse && (r.entries i).regionId == regionId with
  | none => r
  | some i => { r with entries := Function.update r.entries i ⟨0#64, 0#8, false⟩ }

end RmmCaec
