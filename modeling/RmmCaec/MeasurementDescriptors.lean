import RmmCaec.ByteLayout
import RmmCaec.Measurement

/-!
# Measurement descriptors

What the initial measurement of a realm stands for, said apart from the code: an event of
the construction is described by a record of 256 bytes (the realm by its page of
parameters), and the measurement after it is the digest of the record, which holds the
measurement before it. The four measuring functions compute this.
-/
namespace RmmCaec
open ByteLayout

/-- A measured operation on a realm. -/
inductive RimEvent
  | realm (p : RealmPage)
  | data (content : Page) (ipa flags : Word)
  | ripas (base top : Word)
  | recs (p : RecPage)

def HashAlgo.digestSize : HashAlgo → ℕ
  | .SHA_256 => 32
  | .SHA_512 => 64

/-- The algorithm that a realm is created with. -/
def RealmPage.hashAlgo (p : RealmPage) : HashAlgo :=
  if p.algorithm = 0 then .SHA_256 else .SHA_512

/-- The page of realm parameters, with those that are not measured left out. -/
def RealmPage.descriptor (p : RealmPage) : List Byte :=
  layout 0#8 0x1000
    [(0x0, leBytes 8 p.flags.toNat), (0x8, leBytes 4 p.s2sz), (0x10, leBytes 4 p.sveVl),
      (0x18, leBytes 4 p.numBps), (0x20, leBytes 4 p.numWps), (0x28, leBytes 4 p.pmuNumCtrs),
      (0x30, leBytes 1 p.algorithm)]

/-- The page of REC parameters, with those that are not measured left out. -/
def RecPage.descriptor (p : RecPage) : List Byte :=
  layout 0#8 0x1000
    [(0x0, leBytes 8 p.flags.toNat), (0x200, leBytes 8 p.pc.toNat),
      (0x300, (List.ofFn p.gprs).flatMap fun gpr => leBytes 8 gpr.toNat)]

/-- A descriptor: the type, the length, the measurement so far, and what is particular to
the type. -/
def eventRecord (descType : Byte) (rim : Measurement) (fields : Fields Byte) : List Byte :=
  layout 0#8 0x100
    ((0x0, [descType]) :: (0x8, leBytes 8 0x100) :: (0x10, List.ofFn rim) :: fields)

section
variable (h : Hasher) (algorithm : HashAlgo)

/-- The digest of some bytes, with zeros up to the size of a measurement. -/
def digest (data : List Byte) : Measurement :=
  fun i => if i.val < algorithm.digestSize then h algorithm data i else 0#8

/-- What is hashed for an event. -/
def RimEvent.descriptor (rim : Measurement) : RimEvent → List Byte
  | realm p => p.descriptor
  | data content ipa flags =>
    let contentHash : Measurement :=
      if flags = 1#64 then digest h algorithm (List.ofFn content) else fun _ => 0#8
    eventRecord 0#8 rim
      [(0x50, leBytes 8 ipa.toNat), (0x58, leBytes 8 flags.toNat), (0x60, List.ofFn contentHash)]
  | recs p => eventRecord 1#8 rim [(0x50, List.ofFn (digest h algorithm p.descriptor))]
  | ripas base top =>
    eventRecord 2#8 rim [(0x50, leBytes 8 base.toNat), (0x58, leBytes 8 top.toNat)]

/-- The measurement after an event. -/
def RimEvent.extend (rim : Measurement) (e : RimEvent) : Measurement :=
  digest h algorithm (e.descriptor h algorithm rim)

end

/-- The algorithm of the realm that a log is about. -/
def logAlgorithm : List RimEvent → HashAlgo
  | .realm p :: _ => p.hashAlgo
  | _ => .SHA_256

/-- The RIM that a log stands for. -/
def rimOf (h : Hasher) (events : List RimEvent) : Measurement :=
  events.foldl (RimEvent.extend h (logAlgorithm events)) fun _ => 0#8

/-- The function that measures an event. -/
def RimEvent.measure (h : Hasher) (algorithm : HashAlgo) (rim : Measurement) :
    RimEvent → Measurement
  | realm p => measurementRealmParamsMeasure h rim algorithm p
  | data content ipa flags => measurementDataGranuleMeasure h rim algorithm content ipa flags
  | ripas base top => measurementInitRipasMeasure h rim algorithm base top
  | recs p => measurementRecParamsMeasure h rim algorithm p

/-- The measuring functions, one event after the other. -/
def rimMeasured (h : Hasher) (algorithm : HashAlgo) (rim : Measurement) (events : List RimEvent) :
    Measurement :=
  events.foldl (RimEvent.measure h algorithm) rim

/-- A structure in memory has its members at their offsets. -/
theorem setMember_cells {member : List Byte} {fields : Fields Byte} {start stop n : ℕ}
    (hle : start ≤ stop) (hlen : member.length ≤ stop - start)
    (hf : ∀ f ∈ fields, stop ≤ f.1) :
    setMember start stop member ++ cells 0#8 fields stop n =
      cells 0#8 ((start, member) :: fields) start (stop - start + n) := by
  have hstop : start + (stop - start) = stop := by omega
  rw [cells_cons hlen (by rwa [hstop]), hstop]
  rfl

/-- Members that are never written are padding. -/
theorem setMember_nil_cells {fields : Fields Byte} {start stop n : ℕ} (hle : start ≤ stop)
    (hf : ∀ f ∈ fields, stop ≤ f.1) :
    setMember start stop [] ++ cells 0#8 fields stop n =
      cells 0#8 fields start (stop - start + n) := by
  have hstop : start + (stop - start) = stop := by omega
  have hpad : cells 0#8 fields start (stop - start) = setMember start stop [] := by
    rw [cells_of_le (by rwa [hstop])]
    rfl
  rw [cells_add, hpad, hstop]

/-- The last member, and a structure that ends in members that are never written. -/
theorem setMember_last {member : List Byte} (start stop : ℕ)
    (hlen : member.length ≤ stop - start) :
    setMember start stop member = cells 0#8 [(start, member)] start (stop - start) :=
  (cells_member hlen (by simp)).symm

theorem setMember_nil (start stop : ℕ) :
    setMember start stop [] = cells 0#8 [] start (stop - start) :=
  (cells_of_le (by simp)).symm

/-- A structure is the record of its members; so are all that follow. -/
theorem MeasurementDescData.bytes_eq (d : MeasurementDescData) :
    d.bytes = layout 0#8 0x100 [(0x0, [d.descType]), (0x8, leBytes 8 d.len.toNat),
      (0x10, List.ofFn d.rim), (0x50, leBytes 8 d.ipa.toNat), (0x58, leBytes 8 d.flags.toNat),
      (0x60, List.ofFn d.content)] := by
  rw [MeasurementDescData.bytes, setMember_last 0x60 0x100 (by simp)]
  simp only [List.append_assoc]
  rw [setMember_cells, setMember_cells, setMember_cells, setMember_cells, setMember_cells]
  · rfl
  all_goals simp [length_leBytes]

theorem MeasurementDescRec.bytes_eq (d : MeasurementDescRec) :
    d.bytes = layout 0#8 0x100 [(0x0, [d.descType]), (0x8, leBytes 8 d.len.toNat),
      (0x10, List.ofFn d.rim), (0x50, List.ofFn d.content)] := by
  rw [MeasurementDescRec.bytes, setMember_last 0x50 0x100 (by simp)]
  simp only [List.append_assoc]
  rw [setMember_cells, setMember_cells, setMember_cells]
  · rfl
  all_goals simp [length_leBytes]

theorem MeasurementDescRipas.bytes_eq (d : MeasurementDescRipas) :
    d.bytes = layout 0#8 0x100 [(0x0, [d.descType]), (0x8, leBytes 8 d.len.toNat),
      (0x10, List.ofFn d.rim), (0x50, leBytes 8 d.base.toNat), (0x58, leBytes 8 d.top.toNat)] := by
  rw [MeasurementDescRipas.bytes, setMember_last 0x58 0x100 (by simp [length_leBytes])]
  simp only [List.append_assoc]
  rw [setMember_cells, setMember_cells, setMember_cells, setMember_cells]
  · rfl
  all_goals simp [length_leBytes]

theorem RealmPage.measured_bytes (p : RealmPage) :
    (⟨p.flags, p.s2sz, p.sveVl, p.numBps, p.numWps, p.pmuNumCtrs, p.algorithm⟩ :
      MeasuredRealmParams).bytes = p.descriptor := by
  rw [MeasuredRealmParams.bytes, setMember_nil 0x800 0x1000]
  simp only [List.append_assoc]
  rw [setMember_nil_cells, setMember_cells, setMember_cells, setMember_cells,
    setMember_cells, setMember_cells, setMember_cells, setMember_cells]
  · rfl
  all_goals simp [length_leBytes]

theorem RecPage.measured_bytes (p : RecPage) :
    (⟨p.flags, p.pc, p.gprs⟩ : MeasuredRecParams).bytes = p.descriptor := by
  rw [MeasuredRecParams.bytes, setMember_nil 0x800 0x1000]
  simp only [List.append_assoc]
  rw [setMember_cells, setMember_cells, setMember_nil_cells, setMember_cells]
  · rfl
  all_goals simp [length_leBytes]

/-- The bytes behind the digest are zero. -/
def Padded (algorithm : HashAlgo) (rim : Measurement) : Prop :=
  ∀ i : Fin 64, algorithm.digestSize ≤ i.val → rim i = 0#8

section
variable {h : Hasher} {algorithm : HashAlgo} {rim : Measurement}

theorem digestSize_eq (algorithm : HashAlgo) :
    algorithm.digestSize = measurementGetSize algorithm := by
  cases algorithm <;> rfl

theorem padded_digest (data : List Byte) : Padded algorithm (digest h algorithm data) :=
  fun _ hi => if_neg (Nat.not_lt_of_le hi)

theorem Padded.descRim (hp : Padded algorithm rim) : descRim algorithm rim = rim := by
  funext i
  unfold RmmCaec.descRim
  by_cases hi : i.val < measurementGetSize algorithm
  · rw [if_pos hi]
  · rw [if_neg hi, hp i (by rw [digestSize_eq]; omega)]

/-- A hash over a measurement with a padding leaves the digest. -/
theorem Padded.hash (hp : Padded algorithm rim) (data : List Byte) :
    measurementHashCompute h algorithm data rim = digest h algorithm data := by
  funext i
  unfold measurementHashCompute digest
  rw [digestSize_eq]
  by_cases hi : i.val < measurementGetSize algorithm
  · rw [if_pos hi, if_pos hi]
  · rw [if_neg hi, if_neg hi, hp i (by rw [digestSize_eq]; omega)]

theorem padded_zero : Padded algorithm fun _ => 0#8 := fun _ _ => rfl

/-- Each measuring function hashes the descriptor of its event. -/
theorem RimEvent.measure_eq (hp : Padded algorithm rim) (e : RimEvent) :
    e.measure h algorithm rim = e.extend h algorithm rim := by
  cases e with
  | realm p =>
    simp only [measure, measurementRealmParamsMeasure, hp.hash, p.measured_bytes]
    rfl
  | data content ipa flags =>
    simp only [measure, measurementDataGranuleMeasure, hp.hash, hp.descRim, padded_zero.hash,
      MeasurementDescData.bytes_eq]
    rfl
  | ripas base top =>
    simp only [measure, measurementInitRipasMeasure, hp.hash, hp.descRim,
      MeasurementDescRipas.bytes_eq]
    rfl
  | recs p =>
    simp only [measure, measurementRecParamsMeasure, hp.hash, hp.descRim, padded_zero.hash,
      MeasurementDescRec.bytes_eq, p.measured_bytes]
    rfl

/-- The measuring functions fold the descriptors. -/
theorem rimMeasured_eq (hp : Padded algorithm rim) (events : List RimEvent) :
    rimMeasured h algorithm rim events = events.foldl (RimEvent.extend h algorithm) rim := by
  induction events generalizing rim with
  | nil => rfl
  | cons e rest ih =>
    calc rimMeasured h algorithm rim (e :: rest)
        = rimMeasured h algorithm (e.measure h algorithm rim) rest := rfl
      _ = rimMeasured h algorithm (e.extend h algorithm rim) rest := by rw [e.measure_eq hp]
      _ = rest.foldl (RimEvent.extend h algorithm) (e.extend h algorithm rim) :=
          ih (padded_digest _)

end

end RmmCaec
