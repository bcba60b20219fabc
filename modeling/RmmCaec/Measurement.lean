import RmmCaec.ByteLayout
import RmmCaec.Vmids
import RmmCaec.Lifecycle

/-!
# Realm measurements

The realm initial measurement (RIM) and the extensible measurements of a realm live in
its descriptor. Four RMI handlers extend the RIM on their way; they are written here in
full, with the memory that the other modules are about as one part of the state. The
hash function is a parameter; it hashes the bytes of the structures as they lie in memory.
-/
namespace RmmCaec
open RadixForest Outcome Runs ByteLayout

inductive HashAlgo
  | SHA_256
  | SHA_512
  deriving DecidableEq, Repr

def measurementGetSize : HashAlgo → ℕ
  | .SHA_256 => 32
  | .SHA_512 => 64

/-- `unsigned char [MAX_MEASUREMENT_SIZE]`. -/
abbrev Measurement := Fin 64 → Byte

def measurementSlotNr : ℕ := 5
def rimMeasurementSlot : ℕ := 0
def maxExtendedSize : ℕ := 64

/-- The content of a granule. -/
abbrev Page := Fin 4096 → Byte

/-- The realm parameters that are measured; all others are zero. -/
structure MeasuredRealmParams where
  flags : Word
  s2sz : ℕ
  sveVl : ℕ
  numBps : ℕ
  numWps : ℕ
  pmuNumCtrs : ℕ
  algorithm : ℕ

/-- The REC parameters that are measured; all others are zero. -/
structure MeasuredRecParams where
  flags : Word
  pc : Word
  gprs : Fin 8 → Word

structure MeasurementDescData where
  descType : Byte
  len : Word
  rim : Measurement
  ipa : Word
  flags : Word
  content : Measurement

structure MeasurementDescRec where
  descType : Byte
  len : Word
  rim : Measurement
  content : Measurement

structure MeasurementDescRipas where
  descType : Byte
  len : Word
  rim : Measurement
  base : Word
  top : Word

/-- `SET_MEMBER`: a member and the reserved bytes up to the next one, in a zeroed structure. -/
def setMember (start stop : ℕ) (member : List Byte) : List Byte :=
  member ++ List.replicate (stop - start - member.length) 0#8

def MeasuredRealmParams.bytes (p : MeasuredRealmParams) : List Byte :=
  setMember 0x0 0x8 (leBytes 8 p.flags.toNat) ++ setMember 0x8 0x10 (leBytes 4 p.s2sz) ++
  setMember 0x10 0x18 (leBytes 4 p.sveVl) ++ setMember 0x18 0x20 (leBytes 4 p.numBps) ++
  setMember 0x20 0x28 (leBytes 4 p.numWps) ++ setMember 0x28 0x30 (leBytes 4 p.pmuNumCtrs) ++
  setMember 0x30 0x400 (leBytes 1 p.algorithm) ++ setMember 0x400 0x800 [] ++
  setMember 0x800 0x1000 []

def MeasuredRecParams.bytes (p : MeasuredRecParams) : List Byte :=
  setMember 0x0 0x100 (leBytes 8 p.flags.toNat) ++ setMember 0x100 0x200 [] ++
  setMember 0x200 0x300 (leBytes 8 p.pc.toNat) ++
  setMember 0x300 0x800 ((List.ofFn p.gprs).flatMap fun gpr => leBytes 8 gpr.toNat) ++
  setMember 0x800 0x1000 []

def MeasurementDescData.bytes (d : MeasurementDescData) : List Byte :=
  setMember 0x0 0x8 [d.descType] ++ setMember 0x8 0x10 (leBytes 8 d.len.toNat) ++
  setMember 0x10 0x50 (List.ofFn d.rim) ++ setMember 0x50 0x58 (leBytes 8 d.ipa.toNat) ++
  setMember 0x58 0x60 (leBytes 8 d.flags.toNat) ++ setMember 0x60 0x100 (List.ofFn d.content)

def MeasurementDescRec.bytes (d : MeasurementDescRec) : List Byte :=
  setMember 0x0 0x8 [d.descType] ++ setMember 0x8 0x10 (leBytes 8 d.len.toNat) ++
  setMember 0x10 0x50 (List.ofFn d.rim) ++ setMember 0x50 0x100 (List.ofFn d.content)

def MeasurementDescRipas.bytes (d : MeasurementDescRipas) : List Byte :=
  setMember 0x0 0x8 [d.descType] ++ setMember 0x8 0x10 (leBytes 8 d.len.toNat) ++
  setMember 0x10 0x50 (List.ofFn d.rim) ++ setMember 0x50 0x58 (leBytes 8 d.base.toNat) ++
  setMember 0x58 0x100 (leBytes 8 d.top.toNat)

/-- The bytes of a hash; only as many as the algorithm has are used. -/
abbrev Hasher := HashAlgo → List Byte → ℕ → Byte

/-- The host's realm parameters with the word that the feature flags come from. -/
structure RealmPage extends RealmParams where
  flags : Word
  flags_eq : lpa2 = flags.getLsbD 0 ∧ sve = flags.getLsbD 1 ∧ pmu = flags.getLsbD 2

/-- The host's REC parameters with those that are only measured and copied. -/
structure RecPage extends RecParams where
  flags : Word
  pc : Word
  gprs : Fin 8 → Word

/-- `REC_PARAMS_FLAG_RUNNABLE`. -/
def RecPage.runnable (p : RecPage) : Bool := p.flags &&& 1#64 != 0#64

section
variable (h : Hasher)

/-- The hash is written over the first bytes of the output. -/
def measurementHashCompute (algorithm : HashAlgo) (data : List Byte) (out : Measurement) :
    Measurement :=
  fun i => if i.val < measurementGetSize algorithm then h algorithm data i else out i

/-- The measurement as it is copied into a zeroed descriptor. -/
def descRim (algorithm : HashAlgo) (rim : Measurement) : Measurement :=
  fun i => if i.val < measurementGetSize algorithm then rim i else 0#8

def measurementDataGranuleMeasure (rim : Measurement) (algorithm : HashAlgo) (data : Page)
    (ipa flags : Word) : Measurement :=
  let content : Measurement :=
    if flags = 1#64 then measurementHashCompute h algorithm (List.ofFn data) fun _ => 0#8
    else fun _ => 0#8
  let measureDesc : MeasurementDescData :=
    ⟨0#8, 0x100#64, descRim algorithm rim, ipa, flags, content⟩
  measurementHashCompute h algorithm measureDesc.bytes rim

def measurementRealmParamsMeasure (rim : Measurement) (algorithm : HashAlgo) (p : RealmPage) :
    Measurement :=
  let rimParams : MeasuredRealmParams :=
    ⟨p.flags, p.s2sz, p.sveVl, p.numBps, p.numWps, p.pmuNumCtrs, p.algorithm⟩
  measurementHashCompute h algorithm rimParams.bytes rim

def measurementRecParamsMeasure (rim : Measurement) (algorithm : HashAlgo) (p : RecPage) :
    Measurement :=
  let recParamsMeasured : MeasuredRecParams := ⟨p.flags, p.pc, p.gprs⟩
  let content := measurementHashCompute h algorithm recParamsMeasured.bytes fun _ => 0#8
  let measureDesc : MeasurementDescRec := ⟨1#8, 0x100#64, descRim algorithm rim, content⟩
  measurementHashCompute h algorithm measureDesc.bytes rim

def measurementInitRipasMeasure (rim : Measurement) (algorithm : HashAlgo) (base top : Word) :
    Measurement :=
  let measureDesc : MeasurementDescRipas := ⟨2#8, 0x100#64, descRim algorithm rim, base, top⟩
  measurementHashCompute h algorithm measureDesc.bytes rim

/-- Extend a measurement in place: the value is hashed behind the current measurement. -/
def measurementExtend (algorithm : HashAlgo) (current : Measurement) (value : List Byte) :
    Measurement :=
  measurementHashCompute h algorithm
    ((List.ofFn current).take (measurementGetSize algorithm) ++ value) current

end

/-- The memory, and the algorithm and the measurements in each RD granule. -/
structure MeasuredState where
  mem : State
  algorithm : Word → HashAlgo
  measurement : Word → ℕ → Measurement

namespace MeasuredState

/-- The RIM of a realm. -/
def rim (ms : MeasuredState) (rdAddr : Word) : Measurement :=
    ms.measurement rdAddr rimMeasurementSlot

def setSlot (ms : MeasuredState) (rdAddr : Word) (slot : ℕ) (m : Measurement) : MeasuredState :=
  { ms with measurement :=
      Function.update ms.measurement rdAddr (Function.update (ms.measurement rdAddr) slot m) }

def setRim (ms : MeasuredState) (rdAddr : Word) (m : Measurement) : MeasuredState :=
  ms.setSlot rdAddr rimMeasurementSlot m

def setMem (ms : MeasuredState) (s : State) : MeasuredState := { ms with mem := s }

def setAlgorithm (ms : MeasuredState) (rdAddr : Word) (a : HashAlgo) : MeasuredState :=
  { ms with algorithm := Function.update ms.algorithm rdAddr a }

/-- The measurements in a zeroed granule. -/
def wipe (ms : MeasuredState) (g : Word) : MeasuredState where
  mem := ms.mem
  algorithm := Function.update ms.algorithm g .SHA_256
  measurement := Function.update ms.measurement g fun _ _ => 0#8

def memzero (ms : MeasuredState) (g : Word) : MeasuredState := (ms.setMem (ms.mem.memzero g)).wipe g

end MeasuredState

section
variable (plat : Platform) (h : Hasher)

def smcRealmCreateMeasured (ms : MeasuredState) (rdAddr paramsAddr : Word)
    (nsRead : Option RealmPage) : Rmm (MeasuredState × SmcResult) := do
  let s := ms.mem
  if !(findGranule plat paramsAddr && (s.granule paramsAddr).state == .NS) then
    return (ms, smcRet rmiErrorInput)
  else match nsRead with
  | none => return (ms, smcRet rmiErrorInput)
  | some p =>
    if !realmParamsValid plat p.toRealmParams then return (ms, smcRet rmiErrorInput)
    else match vmidReserve plat s p.vmid with
    | none => return (ms, smcRet rmiErrorInput)
    | some s1 =>
      let ctx : S2ttContext :=
        ⟨p.s2sz, p.rttLevelStart, p.rttNumStart, p.rttBase, p.vmid, p.lpa2, plat.opencca⟩
      let contained := addrIsContained p.rttBase
        (p.rttBase + BitVec.ofNat 64 (p.rttNumStart * granuleSize)) rdAddr
      let locked := (rdAddr :: rootTables ctx).all fun a =>
        findGranule plat a && (s1.granule a).state == .DELEGATED
      if contained || !locked then
        let s2 ← vmidFree plat s1 p.vmid
        return (ms.setMem s2, smcRet rmiErrorInput)
      else
        let rd : Rd := { s1.rd rdAddr with
          state := .NEW, recCount := 0, s2Ctx := ctx, numRecAux := maxRecAuxGranules }
        let algorithm : HashAlgo := if p.algorithm = 0 then .SHA_256 else .SHA_512
        let ms1 := ms.setAlgorithm rdAddr algorithm
        let s2 ← initS2StartingLevel (s1.setRd rdAddr rd) rd
        let ms2 := ms1.setRim rdAddr (measurementRealmParamsMeasure h (ms1.rim rdAddr) algorithm p)
        let s3 ← granuleUnlockTransition s2 rdAddr .RD
        let s4 ← unlockTransitions s3 (rootTables ctx) .RTT
        return (ms2.setMem s4, smcRet rmiSuccess)

def smcRecCreateMeasured (ms : MeasuredState) (rdAddr recAddr paramsAddr : Word)
    (nsRead : Option RecPage) : Rmm (MeasuredState × SmcResult) := do
  let s := ms.mem
  if !(findGranule plat paramsAddr && (s.granule paramsAddr).state == .NS) then
    return (ms, smcRet rmiErrorInput)
  else match nsRead with
  | none => return (ms, smcRet rmiErrorInput)
  | some p =>
    if maxRecAuxGranules < p.aux.length then return (ms, smcRet rmiErrorInput)
    else
      let claimed ← claimRecAux plat p.aux s 0
      match claimed with
      | none => return (ms, smcRet rmiErrorInput)
      | some s1 =>
        let rd := s1.rd rdAddr
        let ret : ReturnCode :=
          if !findLockTwoGranules plat s1 recAddr .DELEGATED rdAddr .RD then rmiErrorInput
          else if (s1.granule rdAddr).refcount = refcountMax then rmiErrorRealm
          else if rd.state ≠ .NEW then rmiErrorRealm
          else if p.mpidrIdx ≠ some rd.recCount then rmiErrorInput
          else if p.aux.length ≠ rd.numRecAux then rmiErrorInput
          else rmiSuccess
        if ret ≠ rmiSuccess then
          let s2 ← freeGranules s1 p.aux .REC_AUX false
          return (ms.setMem s2, smcRet ret)
        else
          let r : Rec := { s1.recs recAddr with
            recIdx := rd.recCount, gRd := rdAddr, s2Ctx := rd.s2Ctx, gAux := p.aux }
          let ms1 := if p.runnable then
              ms.setRim rdAddr (measurementRecParamsMeasure h (ms.rim rdAddr)
                (ms.algorithm rdAddr) p)
            else ms
          let s2 ← atomicGranuleGet (s1.setRec recAddr r) rdAddr
          let s3 := s2.setRd rdAddr { rd with recCount := rd.recCount + 1 }
          let s4 ← granuleUnlockTransition s3 recAddr .REC
          return (ms1.setMem s4, smcRet rmiSuccess)

/-- How the copy of a page of the host ends, with the page. -/
inductive NsPage
  | done (content : Page)
  | failed (copied : List Word)

def NsPage.toNsCopy : NsPage → NsCopy
  | done _ => .done
  | failed copied => .failed copied

/-- `data_create` with a source granule. -/
def dataCreateMeasured (ms : MeasuredState) (rdAddr dataAddr mapAddr flags : Word)
    (nsPage : NsPage) : Rmm (MeasuredState × SmcResult) := do
  let s := ms.mem
  if !findLockTwoGranules plat s dataAddr .DELEGATED rdAddr .RD then
    return (ms, smcRet rmiErrorInput)
  else
    let rd := s.rd rdAddr
    let ctx := rd.s2Ctx
    let ret := validateDataCreate mapAddr rd
    if ret ≠ rmiSuccess then return (ms, smcRet ret)
    else if !ctx.enableLpa2 && decide (2 ^ 48 ≤ dataAddr.toNat) then
      return (ms, smcRet rmiErrorInput)
    else
      let wi ← s2ttWalkLockUnlock s ctx mapAddr s2ttPageLevel
      let s2tte := s.rtt wi.gLlt wi.index
      if wi.lastLevel ≠ s2ttPageLevel then return (ms, smcRet (rmiErrorRtt wi.lastLevel))
      else if !s2tteIsUnassigned s2tte then return (ms, smcRet (rmiErrorRtt s2ttPageLevel))
      else match nsPage with
      | .failed copied =>
        let ms1 := ms.setMem (s.copyWords dataAddr copied)
        return (ms1.memzero dataAddr, smcRet rmiErrorInput)
      | .done data =>
        let ms1 := ms.setRim rdAddr (measurementDataGranuleMeasure h (ms.rim rdAddr)
          (ms.algorithm rdAddr) data mapAddr flags)
        assertThat (s2tteCreateAssignedOk ctx dataAddr s2ttPageLevel) .unaligned
        let entry := s2tteCreateAssignedRam ctx dataAddr s2ttPageLevel
        let s1 := s2tteWrite s ctx wi.gLlt wi.index entry
        let s2 ← atomicGranuleGet s1 wi.gLlt
        granuleUnlock s2 wi.gLlt
        let s3 ← granuleUnlockTransition s2 dataAddr .DATA
        return (ms1.setMem s3, smcRet rmiSuccess)

def smcDataCreateMeasured (ms : MeasuredState) (rdAddr dataAddr mapAddr srcAddr flags : Word)
    (nsPage : NsPage) : Rmm (MeasuredState × SmcResult) := do
  if flags ≠ 0#64 ∧ flags ≠ 1#64 then return (ms, smcRet rmiErrorInput)
  else if !(findGranule plat srcAddr && (ms.mem.granule srcAddr).state == .NS) then
    return (ms, smcRet rmiErrorInput)
  else
    let (ms1, res) ← dataCreateMeasured plat h ms rdAddr dataAddr mapAddr flags nsPage
    if res.ret = rmiSuccess then
      let s2 ← csmPropagateCreate plat ms1.mem rdAddr dataAddr mapAddr
      return (ms1.setMem s2, res)
    else return (ms1, res)

/-- The loop of `smc_rtt_init_ripas`: each entry that it passes is measured. -/
def initRipasLoopMeasured (ctx : S2ttContext) (rdAddr tbl : Word) (mapSize top : ℕ) :
    ℕ → MeasuredState → ℕ → ℕ → MeasuredState × ℕ
  | 0, ms, _, addr => (ms, addr)
  | n + 1, ms, index, addr =>
    let measure (ms : MeasuredState) : MeasuredState :=
      ms.setRim rdAddr (measurementInitRipasMeasure h (ms.rim rdAddr) (ms.algorithm rdAddr)
        (BitVec.ofNat 64 addr) (BitVec.ofNat 64 (addr + mapSize)))
    if top < addr + mapSize then (ms, addr)
    else if s2tteIsUnassignedEmpty (ms.mem.rtt tbl index) then
      initRipasLoopMeasured ctx rdAddr tbl mapSize top n
        (measure (ms.setMem (s2tteWrite ms.mem ctx tbl index s2tteCreateUnassignedRam)))
        (index + 1) (addr + mapSize)
    else if s2tteIsUnassignedRam (ms.mem.rtt tbl index) then
      initRipasLoopMeasured ctx rdAddr tbl mapSize top n (measure ms) (index + 1) (addr + mapSize)
    else (ms, addr)

def smcRttInitRipasMeasured (ms : MeasuredState) (rdAddr base top : Word) :
    Rmm (MeasuredState × SmcResult) := do
  let s := ms.mem
  if top ≤ base then return (ms, smcRet rmiErrorInput)
  else
    let found ← findLockGranule plat s [] rdAddr .RD
    if !found then return (ms, smcRet rmiErrorInput)
    else
      let rd := s.rd rdAddr
      let ctx := rd.s2Ctx
      if !(validateMapAddr base s2ttPageLevel rd && validateMapAddr top s2ttPageLevel rd &&
          addrInPar rd base && addrInPar rd (top - BitVec.ofNat 64 granuleSize)) then
        return (ms, smcRet rmiErrorInput)
      else if rd.state ≠ .NEW then return (ms, smcRet rmiErrorRealm)
      else
        let wi ← s2ttWalkLockUnlock s ctx base s2ttPageLevel
        let mapSize := s2tteMapSize wi.lastLevel
        if base.toNat % mapSize ≠ 0 then return (ms, smcRet (rmiErrorRtt wi.lastLevel))
        else
          let perTable := if wi.lastLevel = s2ttMinStartingLevelLpa2 then s2ttesPerS2ttLm1
            else s2ttesPerS2tt
          let (ms1, addr) := initRipasLoopMeasured h ctx rdAddr wi.gLlt mapSize top.toNat
            (perTable - wi.index) ms wi.index base.toNat
          if base.toNat < addr then return (ms1, ⟨rmiSuccess, BitVec.ofNat 64 addr, 0#64⟩)
          else return (ms1, smcRet (rmiErrorRtt wi.lastLevel))

/-- `handle_rsi_measurement_extend`, with the value in registers X3 to X10. -/
def handleRsiMeasurementExtend (ms : MeasuredState) (recAddr index size : Word)
    (value : List Byte) : MeasuredState × RsiResult :=
  let rdAddr := (ms.mem.recs recAddr).gRd
  if index.toNat = rimMeasurementSlot ∨ measurementSlotNr ≤ index.toNat then
    (ms, rsiRet .ERROR_INPUT)
  else if maxExtendedSize < size.toNat then (ms, rsiRet .ERROR_INPUT)
  else (ms.setSlot rdAddr index.toNat (measurementExtend h (ms.algorithm rdAddr)
    (ms.measurement rdAddr index.toNat) (value.take size.toNat)), rsiRet .SUCCESS)

end

/-- The calls whose handlers measure. -/
def Act.measures : Act → Bool
  | .realmCreate .. | .recCreate .. | .dataCreate .. | .rttInitRipas .. => true
  | _ => false

/-- A call, with everything that its handler measures. -/
inductive MeasuredAct
  | realmCreate (rdAddr paramsAddr : Word) (nsRead : Option RealmPage)
  | recCreate (rdAddr recAddr paramsAddr : Word) (nsRead : Option RecPage)
  | dataCreate (rdAddr dataAddr mapAddr srcAddr flags : Word) (nsPage : NsPage)
  | rttInitRipas (rdAddr base top : Word)
  | measurementExtend (recAddr index size : Word) (value : List Byte)
  | plain (act : Act) (unmeasured : act.measures = false)

/-- The call as the other modules have it. -/
def MeasuredAct.erase : MeasuredAct → Option Act
  | realmCreate rdAddr paramsAddr nsRead =>
    some (.realmCreate rdAddr paramsAddr (nsRead.map RealmPage.toRealmParams))
  | recCreate rdAddr recAddr paramsAddr nsRead =>
    some (.recCreate rdAddr recAddr paramsAddr (nsRead.map RecPage.toRecParams))
  | dataCreate rdAddr dataAddr mapAddr srcAddr flags nsPage =>
    some (.dataCreate rdAddr dataAddr mapAddr srcAddr flags nsPage.toNsCopy)
  | rttInitRipas rdAddr base top => some (.rttInitRipas rdAddr base top)
  | measurementExtend .. => none
  | plain act _ => some act

/-- A handler that does not measure; destroying a realm zeroes its descriptor. -/
def plainStep (plat : Platform) (ms : MeasuredState) (act : Act) :
    Rmm (MeasuredState × Reply) := do
  let (s, reply) ← step plat ms.mem act
  match act, reply with
  | .realmDestroy rdAddr, .smc res =>
    return (if res.ret = rmiSuccess then (ms.setMem s).wipe rdAddr else ms.setMem s, reply)
  | _, _ => return (ms.setMem s, reply)

def measuredReply (r : Rmm (MeasuredState × SmcResult)) : Rmm (MeasuredState × Reply) := do
  let (ms, res) ← r
  return (ms, .smc res)

def measuredStep (plat : Platform) (h : Hasher) (ms : MeasuredState) :
    MeasuredAct → Rmm (MeasuredState × Reply)
  | .realmCreate rdAddr paramsAddr nsRead =>
    measuredReply (smcRealmCreateMeasured plat h ms rdAddr paramsAddr nsRead)
  | .recCreate rdAddr recAddr paramsAddr nsRead =>
    measuredReply (smcRecCreateMeasured plat h ms rdAddr recAddr paramsAddr nsRead)
  | .dataCreate rdAddr dataAddr mapAddr srcAddr flags nsPage =>
    measuredReply (smcDataCreateMeasured plat h ms rdAddr dataAddr mapAddr srcAddr flags nsPage)
  | .rttInitRipas rdAddr base top =>
    measuredReply (smcRttInitRipasMeasured plat h ms rdAddr base top)
  | .measurementExtend recAddr index size value =>
    if recRunning ms.mem recAddr then
      let (ms1, res) := handleRsiMeasurementExtend h ms recAddr index size value
      return (ms1, .rsi res)
    else return (ms, .idle)
  | .plain act _ => plainStep plat ms act

def initMeasured : MeasuredState := ⟨initState, fun _ => .SHA_256, fun _ _ _ => 0#8⟩

end RmmCaec
