import RmmCaec.Regions

/-!
# What a reservation records

A successful reservation should leave a used and enabled entry with the request in the
table of the caller, at the index that the caller is told. The index of a full table is
minus one, and the handler passes it on with a success. In all other cases the entry is
recorded, and it is disjoint from the other enabled regions because every record of a
table in use is a region of whole granules that is not empty.
-/
namespace RmmCaec

open RadixForest Outcome Runs PackedSet

namespace Region

/-- Two regions that pass the overlap test do not wrap. -/
theorem apart_of_checked {r q : Region}
    (h : rangeOverlapsUl r.start r.size q.start q.size = false) (hr : r.size ≠ 0#64)
    (hq : q.size ≠ 0#64) : r.Apart q := by
  have hwrap : ¬ (r.start + r.size < r.start ∨ q.start + q.size < q.start) := by
    intro hc
    rw [rangeOverlapsUl, if_neg (by simp [hr, hq]), if_pos hc] at h
    cases h
  have hlt : ∀ a b : Word, ¬ a + b < a → a.toNat + b.toNat < 2 ^ 64 := by
    intro a b hab
    rw [BitVec.lt_def, BitVec.toNat_add] at hab
    have := a.isLt
    have := b.isLt
    omega
  rw [not_or] at hwrap
  exact apart_of_not_overlaps h hr hq (hlt _ _ hwrap.1) (hlt _ _ hwrap.2)

end Region

namespace Apt

variable {a a' : Apt}

def used (a : Apt) : AptRegionKind × ℕ → Bool
  | (.MASTER, i) => a.masterUsedMask i
  | (.SLAVE, i) => a.slaveUsedMask i

/-- Every record, also one that was released, spans whole granules, and a record in
use spans at least one. -/
structure RecordsOk (a : Apt) : Prop where
  startAligned : ∀ r, granuleAligned (a.region r).start = true
  sizeAligned : ∀ r, granuleAligned (a.region r).size = true
  nonempty : ∀ r, a.used r = true → (a.region r).size ≠ 0#64

/-- Each record is kept, perhaps without being used any longer, or is cleared. -/
def Forgets (a a' : Apt) : Prop :=
  ∀ r, (a'.region r = a.region r ∧ (a'.used r = true → a.used r = true)) ∨
    (a'.region r = ⟨0#64, 0#64⟩ ∧ a'.used r = false)

/-- One record is new and the others are as before. -/
structure Records (a a' : Apt) (new : AptRegionKind × ℕ) (r : Region) : Prop where
  region : a'.region new = r
  old : ∀ q, q ≠ new → a'.region q = a.region q ∧ a'.used q = a.used q

theorem region_default (r : AptRegionKind × ℕ) :
    (default : Apt).region r = ⟨0#64, 0#64⟩ := by
  obtain ⟨kind, i⟩ := r
  cases kind <;> rfl

theorem recordsOk_default : RecordsOk default where
  startAligned r := by
    rw [region_default]
    rfl
  sizeAligned r := by
    rw [region_default]
    rfl
  nonempty r h := by
    obtain ⟨kind, i⟩ := r
    cases kind <;> cases h

theorem RecordsOk.forget (h : RecordsOk a) (hf : Forgets a a') : RecordsOk a' where
  startAligned r := by
    rcases hf r with ⟨hr, -⟩ | ⟨hr, -⟩
    · rw [hr]
      exact h.startAligned r
    · rw [hr]
      rfl
  sizeAligned r := by
    rcases hf r with ⟨hr, -⟩ | ⟨hr, -⟩
    · rw [hr]
      exact h.sizeAligned r
    · rw [hr]
      rfl
  nonempty r hu := by
    rcases hf r with ⟨hr, hused⟩ | ⟨-, hc⟩
    · rw [hr]
      exact h.nonempty r (hused hu)
    · rw [hc] at hu
      cases hu

theorem RecordsOk.record {new : AptRegionKind × ℕ} {r : Region} (h : RecordsOk a)
    (hn : Records a a' new r) (hr : r.Regular) : RecordsOk a' where
  startAligned q := by
    by_cases hq : q = new
    · rw [hq, hn.region]
      exact hr.startAligned
    · rw [(hn.old q hq).1]
      exact h.startAligned q
  sizeAligned q := by
    by_cases hq : q = new
    · rw [hq, hn.region]
      exact hr.sizeAligned
    · rw [(hn.old q hq).1]
      exact h.sizeAligned q
  nonempty q hu := by
    by_cases hq : q = new
    · rw [hq, hn.region]
      exact hr.nonempty
    · obtain ⟨h1, h2⟩ := hn.old q hq
      rw [h1]
      exact h.nonempty q (h2 ▸ hu)

theorem Forgets.refl (a : Apt) : Forgets a a := fun _ => .inl ⟨rfl, id⟩

theorem Forgets.trans {b : Apt} (h : Forgets a b) (h' : Forgets b a') : Forgets a a' := by
  intro r
  rcases h' r with ⟨h1, h2⟩ | hz
  · rcases h r with ⟨h3, h4⟩ | ⟨h3, h4⟩
    · exact .inl ⟨h1.trans h3, fun hu => h4 (h2 hu)⟩
    · refine .inr ⟨h1.trans h3, ?_⟩
      rw [Bool.eq_false_iff]
      intro hu
      rw [h2 hu] at h4
      cases h4
  · exact .inr hz

theorem forgets_dropShare (a : Apt) (idx slot : ℕ) :
    Forgets a (aptMasterDropShare a idx slot) := by
  rintro ⟨kind, i⟩
  refine .inl ⟨?_, ?_⟩
  · cases kind with
    | SLAVE => rfl
    | MASTER =>
      by_cases hi : i = idx
      · simp [region, aptMasterDropShare, hi]
      · simp [region, aptMasterDropShare, hi]
  · cases kind <;> exact id

theorem forgets_releaseSlave (a : Apt) (idx : ℕ) : Forgets a (aptReleaseSlave a idx) := by
  have hsame : (aptReleaseSlave a idx).masterMemory = a.masterMemory ∧
      (aptReleaseSlave a idx).slaveMemory = a.slaveMemory ∧
      (aptReleaseSlave a idx).masterUsedMask = a.masterUsedMask ∧
      (aptReleaseSlave a idx).slaveUsedMask = Function.update a.slaveUsedMask idx false := by
    unfold aptReleaseSlave aptDisableSlaveIdx
    split <;> exact ⟨rfl, rfl, rfl, rfl⟩
  obtain ⟨h1, h2, h3, h4⟩ := hsame
  rintro ⟨kind, i⟩
  refine .inl ⟨?_, ?_⟩
  · cases kind with
    | MASTER => simp only [region, h1]
    | SLAVE => simp only [region, h2]
  · cases kind with
    | MASTER => simp only [used, h3, imp_self]
    | SLAVE =>
      simp only [used, h4]
      by_cases hi : i = idx
      · simp [hi]
      · simp [hi]

theorem forgets_eraseSlave (a : Apt) (idx : ℕ) : Forgets a (aptEraseSlave a idx) := by
  refine (forgets_releaseSlave a idx).trans ?_
  rintro ⟨kind, i⟩
  cases kind with
  | MASTER => exact .inl ⟨rfl, id⟩
  | SLAVE =>
    by_cases hi : i = idx
    · refine .inr ⟨?_, ?_⟩
      · simp only [region, aptEraseSlave, hi, Function.update_self]
        rfl
      · simp [used, aptEraseSlave, aptReleaseSlave, hi]
    · exact .inl ⟨by simp [region, aptEraseSlave, hi], id⟩

theorem forgets_of_trim (h : Trim a a') : Forgets a a' := by
  induction h with
  | refl => exact .refl a
  | tail _ hop ih =>
    cases hop with
    | dropShare hs hu => exact ih.trans (forgets_dropShare _ _ _)
    | releaseSlave idx => exact ih.trans (forgets_releaseSlave _ _)
    | eraseSlave idx => exact ih.trans (forgets_eraseSlave _ _)

theorem forgets_addShare {idx : ℕ} {slaveId permission : Byte} {rd : Word}
    (h : aptMasterAddShare a idx slaveId rd permission = some a') : Forgets a a' := by
  obtain ⟨hm, hs⟩ : (∀ i, (a'.masterMemory i).ipaStart = (a.masterMemory i).ipaStart ∧
      (a'.masterMemory i).mapSize = (a.masterMemory i).mapSize) ∧
      a'.slaveMemory = a.slaveMemory ∧ a'.masterUsedMask = a.masterUsedMask ∧
      a'.slaveUsedMask = a.slaveUsedMask := by
    unfold aptMasterAddShare at h
    split at h
    · cases h
    split at h
    · cases h
    simp only at h
    split at h
    · cases h
    split at h
    · cases h
    · cases h
      refine ⟨fun i => ?_, rfl, rfl, rfl⟩
      by_cases hi : i = idx
      · subst hi
        simp
      · simp [hi]
  obtain ⟨h1, h2, h3⟩ := hs
  rintro ⟨kind, i⟩
  refine .inl ⟨?_, ?_⟩
  · cases kind with
    | MASTER => simp only [region, (hm i).1, (hm i).2]
    | SLAVE => simp only [region, h1]
  · cases kind with
    | MASTER => simp only [used, h2, imp_self]
    | SLAVE => simp only [used, h3, imp_self]

theorem forgets_eraseMaster (a : Apt) (idx : ℕ) : Forgets a (aptEraseMaster a idx) := by
  have hsame : (aptEraseMaster a idx).slaveMemory = a.slaveMemory ∧
      (aptEraseMaster a idx).slaveUsedMask = a.slaveUsedMask := by
    unfold aptEraseMaster aptDisableMasterIdx
    split <;> exact ⟨rfl, rfl⟩
  obtain ⟨h1, h2⟩ := aptEraseMaster_masters a idx
  rintro ⟨kind, i⟩
  cases kind with
  | SLAVE => exact .inl ⟨by simp only [region, hsame.1], by simp only [used, hsame.2, imp_self]⟩
  | MASTER =>
    by_cases hi : i = idx
    · refine .inr ⟨?_, ?_⟩
      · simp only [region, h2, hi, Function.update_self]
        rfl
      · simp only [used, h1, hi, Function.update_self]
    · refine .inl ⟨?_, ?_⟩
      · simp only [region, h2, Function.update_of_ne hi]
      · simp only [used, h1, Function.update_of_ne hi, imp_self]

theorem records_addMaster {regionId : Byte} {start size : Word} {enable : Bool} {idx : ℕ}
    (h : aptAddMaster a regionId start size enable = some (a', idx)) :
    Records a a' (.MASTER, idx) ⟨start, size⟩ := by
  unfold aptAddMaster at h
  split at h
  · cases h
  simp only at h
  split at h <;>
    · cases h
      refine ⟨by simp [region, enablePushMaster], ?_⟩
      rintro ⟨kind, i⟩ hne
      cases kind with
      | SLAVE => exact ⟨rfl, rfl⟩
      | MASTER =>
        have hi : i ≠ idx := fun hc => hne (by rw [hc])
        simp [region, used, enablePushMaster, hi]

theorem records_addSlave {masterId regionId : Byte} {rd start size : Word}
    {enable : Bool} {idx : ℕ}
    (h : aptAddSlave a masterId regionId rd start size enable = some (a', idx)) :
    Records a a' (.SLAVE, idx) ⟨start, size⟩ := by
  unfold aptAddSlave at h
  split at h
  · cases h
  simp only at h
  split at h <;>
    · cases h
      refine ⟨by simp [region, enablePushSlave], ?_⟩
      rintro ⟨kind, i⟩ hne
      cases kind with
      | MASTER => exact ⟨rfl, rfl⟩
      | SLAVE =>
        have hi : i ≠ idx := fun hc => hne (by rw [hc])
        simp [region, used, enablePushSlave, hi]

end Apt

/-- A table after a step: it is reset, its records get fewer, or one is new. -/
theorem AptChange.recordsOk {plat : Platform} {s : State} {act : Act} {g : Word} {a : Apt}
    (h : AptChange plat s act g a)
    (hok : (s.granule g).state = .APT → (s.apt g).RecordsOk) : a.RecordsOk := by
  cases h with
  | reset => exact Apt.recordsOk_default
  | trim was ht => exact (hok was).forget (Apt.forgets_of_trim ht)
  | create call running own lock legal conflict drawn add =>
    exact (hok (lockable_state lock)).record (Apt.records_addMaster add)
      (Region.regular_of_legal legal)
  | share call running own lock master slave find add =>
    exact (hok (lockable_state lock)).forget (Apt.forgets_addShare add)
  | reserve call running own lock legal tag master other masterLock masterApt find
      slot size conflict
      add =>
    exact (hok (lockable_state lock)).record (Apt.records_addSlave add)
      (Region.regular_of_legal legal)
  | destroy call running own lock find unshared =>
    exact (hok (lockable_state lock)).forget (Apt.forgets_eraseMaster _ _)

/-- The records of all tables of a reached state are regions of whole granules. -/
theorem Reached.recordsOk {plat : Platform} {guard : State → Act → Prop} {s : State}
    (h : Reached plat guard s) : ∀ g, (s.granule g).state = .APT → (s.apt g).RecordsOk := by
  refine Reached.records (I := fun s => ∀ g, (s.granule g).state = .APT → (s.apt g).RecordsOk)
    ?_ ?_ h
  · intro g hg
    simp [initState] at hg
  · rintro s F act s' reply - hF hI - hd g hg
    exact (hd.aptChange hF hg).recordsOk (hI g)

/-- The operation fills the first free entry and enables it. -/
structure AddedSlave (a a' : Apt) (slave : SlaveMem) (idx : ℕ) : Prop where
  lt : idx < maxMemRegions
  free : a.slaveUsedMask idx = false
  used : a'.slaveUsedMask idx = true
  enabled : a'.slaveEnabledMask idx = true
  entry : a'.slaveMemory idx = slave

theorem aptAddSlave_added {a a' : Apt} (hok : AptOk a) {masterId regionId : Byte}
    {rd start size : Word} {idx : ℕ}
    (h : aptAddSlave a masterId regionId rd start size true = some (a', idx)) :
    AddedSlave a a' ⟨masterId, regionId, rd, start, size⟩ idx := by
  unfold aptAddSlave at h
  split at h
  · cases h
  case h_2 i hfree =>
  obtain ⟨hi, hu⟩ := findFirst_some hfree
  rw [Bool.not_eq_true'] at hu
  have hdis : a.slaveEnabledMask i = false := by
    rw [Bool.eq_false_iff]
    intro hc
    rw [hok.slaves.used i hc] at hu
    cases hu
  simp only [hdis, Bool.not_false, Bool.and_self, if_true, Option.some.injEq, Prod.mk.injEq] at h
  obtain ⟨rfl, rfl⟩ := h
  refine ⟨hi, hu, ?_, ?_, ?_⟩
  · simp [enablePushSlave]
  · simp [enablePushSlave]
  · simp [enablePushSlave]

theorem aptAddSlave_isSome_iff (a : Apt) (masterId regionId : Byte) (rd start size : Word)
    (enable : Bool) : (aptAddSlave a masterId regionId rd start size enable).isSome = true ↔
      ∃ i < maxMemRegions, a.slaveUsedMask i = false := by
  unfold aptAddSlave
  cases hfree : findFirst maxMemRegions fun i => !a.slaveUsedMask i with
  | none =>
    refine ⟨fun hc => absurd hc Bool.false_ne_true, fun ⟨i, hi, hu⟩ => ?_⟩
    have := findFirst_none hfree hi
    rw [hu] at this
    cases this
  | some i =>
    obtain ⟨hi, hu⟩ := findFirst_some hfree
    rw [Bool.not_eq_true'] at hu
    refine ⟨fun _ => ⟨i, hi, hu⟩, fun _ => ?_⟩
    simp only
    split <;> rfl

/-- A success is recorded at the index that it returns, an error changes no table. -/
structure ReserveRecorded (s : State) (rdAddr x1 baseIpa sizeIpa : Word) (s' : State)
    (res : RsiResult) : Prop where
  recorded : res.status = .SUCCESS → ∃ masterRdPa midx, ∃ idx < maxMemRegions,
    realmTagRdByTag s.tags (aptSharingMasterId (x1.setWidth 32)) = some masterRdPa ∧
    aptFindMasterByRegionId (s.apt (s.rd masterRdPa).aptPa) (aptSharingRegionId (x1.setWidth 32)) =
      some midx ∧
    ((s.apt (s.rd masterRdPa).aptPa).masterMemory midx).mapSize = sizeIpa ∧
    res.x2.toNat = idx ∧
    (s'.apt (s.rd rdAddr).aptPa).slaveUsedMask idx = true ∧
    (s'.apt (s.rd rdAddr).aptPa).slaveEnabledMask idx = true ∧
    (s'.apt (s.rd rdAddr).aptPa).slaveMemory idx = ⟨aptSharingMasterId (x1.setWidth 32),
      aptSharingRegionId (x1.setWidth 32), masterRdPa, baseIpa, sizeIpa⟩ ∧
    ∀ r, (s'.apt (s.rd rdAddr).aptPa).enabled r = true → r ≠ (.SLAVE, idx) →
      Region.Apart ⟨baseIpa, sizeIpa⟩ ((s'.apt (s.rd rdAddr).aptPa).region r)
  refused : res.status ≠ .SUCCESS → s'.apt = s.apt

/-- The table of the caller has a free entry. -/
def SlaveEntryFree (s : State) (rdAddr : Word) : Prop :=
  ∃ i < maxMemRegions, (s.apt (s.rd rdAddr).aptPa).slaveUsedMask i = false

/-- The request passes all checks that the handler makes. -/
def ReserveAccepted (plat : Platform) (s : State) (rdAddr x1 baseIpa sizeIpa : Word) : Prop :=
  ∃ masterRdPa midx, CsmReservable plat s rdAddr x1 baseIpa sizeIpa masterRdPa midx

/-- A reservation that returns is recorded exactly if it is refused or an entry is free. -/
theorem reserveRecorded_iff {plat : Platform} {s s' : State} (hs : Reachable plat s) {rdAddr : Word}
    (hrd : (s.granule rdAddr).state = .RD) {x1 baseIpa sizeIpa : Word} {res : RsiResult}
    (hcall : handleRsiCsmReserve plat s rdAddr x1 baseIpa sizeIpa = .ok (s', res)) :
    ReserveRecorded s rdAddr x1 baseIpa sizeIpa s' res ↔
      (ReserveAccepted plat s rdAddr x1 baseIpa sizeIpa → SlaveEntryFree s rdAddr) := by
  rcases (handleRsiCsmReserve_answer hrd x1 baseIpa sizeIpa).of_ok hcall with
    ⟨rfl, hres, hno⟩ | ⟨masterRdPa, midx, hacc, hadd⟩
  · refine iff_of_true ⟨fun hc => ?_, fun _ => rfl⟩ fun ⟨m, i, hc⟩ => absurd hc (hno m i)
    rw [hres] at hc
    cases hc
  have hgoal : (ReserveAccepted plat s rdAddr x1 baseIpa sizeIpa → SlaveEntryFree s rdAddr) ↔
      SlaveEntryFree s rdAddr := ⟨fun hf => hf ⟨masterRdPa, midx, hacc⟩, fun hf _ => hf⟩
  rw [hgoal, SlaveEntryFree, ← aptAddSlave_isSome_iff _ (aptSharingMasterId (x1.setWidth 32))
    (aptSharingRegionId (x1.setWidth 32)) masterRdPa baseIpa sizeIpa true]
  rcases hadd with ⟨hnone, rfl, rfl⟩ | ⟨apt', idx, hsome, rfl, rfl⟩
  · -- the table is full: the index that is returned names no entry
    refine iff_of_false (fun hrec => ?_) (by rw [hnone]; decide)
    obtain ⟨_, _, idx, hidx, -, -, -, hx2, -⟩ := hrec.recorded rfl
    change (BitVec.allOnes 64).toNat = idx at hx2
    rw [BitVec.toNat_allOnes] at hx2
    simp only [maxMemRegions] at hidx
    omega
  · refine iff_of_true ⟨fun _ => ?_, fun hc => absurd rfl hc⟩ (by rw [hsome]; rfl)
    have hapt := lockable_state hacc.lock
    have hok := (Reached.aptBuilt hs _ hapt).ok
    have hrec := Reached.recordsOk hs _ hapt
    have hnew := aptAddSlave_added hok hsome
    have hgain := Apt.gains_addSlave hsome
    have hreg := Region.regular_of_legal hacc.legal
    refine ⟨masterRdPa, midx, idx, hnew.lt, hacc.master, hacc.find, hacc.size, ?_, ?_⟩
    · have hlt := hnew.lt
      simp only [maxMemRegions] at hlt
      simp only [BitVec.toNat_ofNat]
      omega
    · rw [State.setApt_same]
      refine ⟨hnew.used, hnew.enabled, hnew.entry, fun r hr hne => ?_⟩
      obtain ⟨hold, hsame⟩ := hgain.old r hr hne
      rw [hsame]
      refine Region.apart_of_checked
        (Apt.not_overlaps_of_no_conflict hok hacc.conflict hold fun hc => by cases hc)
        hreg.nonempty (hrec.nonempty r ?_)
      obtain ⟨kind, i⟩ := r
      cases kind with
      | MASTER => exact hok.masters.used i hold
      | SLAVE => exact hok.slaves.used i hold

/-- Two realms; the second has reserved the region of the first a number of times. -/
def demoReserves (n : ℕ) : List Act :=
  demoRealm 16 1 ++ demoRealm 64 2 ++ demoShare 0x1000 0x1000 0 0x1000 ++
    (List.range n).flatMap fun k =>
      [.rsi (gr 70) (.csmReserve 0x011122 (gr (k + 2)) 0x1000), .recEnter (gr 70) (gr 0) .run false]

set_option maxRecDepth 100000 in
/-- The second entry of a slave. -/
theorem reserveRecorded_second : ∃ s, Reachable demoPlat s ∧ ∃ s' res,
    handleRsiCsmReserve demoPlat s (gr 64) 0x011122 0x9000 0x1000 = .ok (s', res) ∧
      res.status = .SUCCESS ∧ ReserveRecorded s (gr 64) 0x011122 0x9000 0x1000 s' res := by
  have hrun : replayEnds (demoKeys [16, 64] [] []) demoPlat (fun _ _ => true) (demoReserves 0)
      (fun s => match handleRsiCsmReserve demoPlat s (gr 64) 0x011122 0x9000 0x1000 with
        | .ok (_, res) => res.status == .SUCCESS && (s.granule (gr 64)).state == .RD &&
            !(s.apt (s.rd (gr 64)).aptPa).slaveUsedMask 1
        | .error _ => false) = true := by
    decide +kernel
  obtain ⟨s, hs, ht⟩ := replayEnds_reachable hrun
  revert ht
  cases hcall : handleRsiCsmReserve demoPlat s (gr 64) 0x011122 0x9000 0x1000 with
  | error f => exact fun hc => by cases hc
  | ok p =>
    obtain ⟨s', res⟩ := p
    intro ht
    simp only [Bool.and_eq_true, beq_iff_eq, Bool.not_eq_true'] at ht
    obtain ⟨⟨hret, hrd⟩, hfree⟩ := ht
    exact ⟨s, hs, s', res, hcall, hret,
      (reserveRecorded_iff hs hrd hcall).mpr fun _ => ⟨1, by decide, hfree⟩⟩

set_option maxRecDepth 100000 in
/-- The twenty-first entry of a slave: a success that records nothing. -/
theorem reserve_full_unrecorded : ∃ s, Reachable demoPlat s ∧ recRunning s (gr 70) = true ∧
    (s.recs (gr 70)).gRd = gr 64 ∧ ∃ s' res,
      handleRsiCsmReserve demoPlat s (gr 64) 0x011122 0x20000 0x1000 = .ok (s', res) ∧
        res.status = .SUCCESS ∧ res.x2 = BitVec.allOnes 64 ∧
        ¬ ReserveRecorded s (gr 64) 0x011122 0x20000 0x1000 s' res := by
  have hrun : replayEnds (demoKeys [16, 64] [] []) demoPlat (fun _ _ => true) (demoReserves 19)
      (fun s => match handleRsiCsmReserve demoPlat s (gr 64) 0x011122 0x20000 0x1000 with
        | .ok (_, res) => res.status == .SUCCESS && res.x2 == BitVec.allOnes 64 &&
            recRunning s (gr 70) && (s.recs (gr 70)).gRd == gr 64
        | .error _ => false) = true := by
    decide +kernel
  obtain ⟨s, hs, ht⟩ := replayEnds_reachable hrun
  revert ht
  cases hcall : handleRsiCsmReserve demoPlat s (gr 64) 0x011122 0x20000 0x1000 with
  | error f => exact fun hc => by cases hc
  | ok p =>
    obtain ⟨s', res⟩ := p
    intro ht
    simp only [Bool.and_eq_true, beq_iff_eq] at ht
    obtain ⟨⟨⟨hret, hx2⟩, hrun⟩, hrd⟩ := ht
    refine ⟨s, hs, hrun, hrd, s', res, hcall, hret, hx2, fun hrec => ?_⟩
    obtain ⟨_, _, idx, hidx, -, -, -, hx, -⟩ := hrec.recorded hret
    rw [hx2, BitVec.toNat_allOnes] at hx
    simp only [maxMemRegions] at hidx
    omega

end RmmCaec
