import RmmCaec.Clearing

/-!
# Effects of the shared memory calls

What each RSI call of a running realm does to the state, in terms of the state
before it: the registries and attachment tables it changes, the pages it maps
and the pages it removes.
-/
namespace RmmCaec

open RadixForest Outcome

/-- A lock that is granted was not held before. -/
theorem findLockGranule_apart {plat : Platform} {s : State} {held : List Word} {addr : Word}
    {expected : GranuleState} {α : Type} {k : Bool → Rmm α} {Q : α → Prop}
    {E : Fault → Prop}
    (hE : E .deadlock)
    (hk : (lockable plat s addr expected = true → addr ∉ held) →
      Sat (k (lockable plat s addr expected)) Q E) :
    Sat (findLockGranule plat s held addr expected >>= k) Q E := by
  by_cases hm : addr ∈ held
  · by_cases hf : findGranule plat addr = true
    · unfold findLockGranule
      rw [if_pos hf, if_pos hm]
      exact Sat.error_bind hE
    · refine findLockGranule_sat hE (hk fun hl => ?_)
      simp only [lockable, Bool.and_eq_true] at hl
      exact absurd hl.1 hf
  · exact findLockGranule_sat hE (hk fun _ => hm)

/-- The lock of an attachment table that the handler maps unchecked. -/
theorem lockApt_sat {plat : Platform} {s : State} {held : List Word} {aptPa : Word} {α : Type}
    {k : Apt → Rmm α} {Q : α → Prop} {E : Fault → Prop} (hE : E .deadlock)
    (hN : E .nullGranule)
    (hk : lockable plat s aptPa .APT = true → Sat (k (s.apt aptPa)) Q E) :
    Sat (lockApt plat s held aptPa >>= k) Q E := by
  unfold lockApt
  rw [bind_assoc]
  refine findLockGranule_sat hE ?_
  rw [bind_assoc]
  exact assertThat_sat (fun _ => hN) hk

/-- What CSM create does: nothing, a draw of an identifier that is not used, or a new
master region. -/
def CsmCreated (plat : Platform) (s : State) (rdAddr baseIpa sizeIpa : Word) (s' : State)
    (status : RsiStatus) : Prop :=
  let aptPa := (s.rd rdAddr).aptPa
  (s' = s ∧ status ≠ .SUCCESS) ∨
  (∃ ids, csmRegionIdAssign s.csmIds rdAddr = (ids, none) ∧ s' = { s with csmIds := ids } ∧
    status ≠ .SUCCESS) ∨
  (∃ ids regionId, csmRegionIdAssign s.csmIds rdAddr = (ids, some regionId) ∧
    s' = { s with csmIds := csmRegionIdRemove ids regionId } ∧ status ≠ .SUCCESS) ∨
  (status = .SUCCESS ∧ illegalRegion baseIpa sizeIpa = false ∧
    lockable plat s aptPa .APT = true ∧
    aptFindEnabledConflict (s.apt aptPa) baseIpa sizeIpa true = false ∧ ∃ ids regionId apt' idx,
      csmRegionIdAssign s.csmIds rdAddr = (ids, some regionId) ∧
      aptAddMaster (s.apt aptPa) regionId baseIpa sizeIpa true = some (apt', idx) ∧
      s' = ({ s with csmIds := ids }).setApt aptPa apt')

theorem handleRsiCsmCreate_sat {plat : Platform} {s : State} {rdAddr : Word}
    (hrd : (s.granule rdAddr).state = .RD) (baseIpa sizeIpa : Word) :
    Sat (handleRsiCsmCreate plat s rdAddr baseIpa sizeIpa)
      (fun res => CsmCreated plat s rdAddr baseIpa sizeIpa res.1 res.2.status) Benign := by
  unfold handleRsiCsmCreate
  refine Sat.ite (fun _ => Sat.pure (.inl ⟨rfl, by simp [rsiRet]⟩)) fun hill => ?_
  rw [Bool.not_eq_true] at hill
  rw [granuleLock_ok hrd]
  refine Sat.ok_bind (lockApt_sat (by decide) (by decide) fun hapt => ?_)
  refine Sat.ite (fun _ => Sat.pure (.inl ⟨rfl, by simp [rsiRet]⟩)) fun hconf => ?_
  rw [Bool.not_eq_true] at hconf
  rcases hid : csmRegionIdAssign s.csmIds rdAddr with ⟨ids, _ | regionId⟩
  · exact Sat.pure (.inr (.inl ⟨ids, hid, rfl, by simp [rsiRet]⟩))
  · simp only
    cases hadd : aptAddMaster (s.apt (s.rd rdAddr).aptPa) regionId baseIpa sizeIpa true with
    | none => exact Sat.pure (.inr (.inr (.inl ⟨ids, regionId, hid, rfl, by simp [rsiRet]⟩)))
    | some res =>
      obtain ⟨apt', idx⟩ := res
      exact Sat.pure
        (.inr (.inr (.inr ⟨rfl, hill, hapt, hconf, ids, regionId, apt', idx, hid, hadd,
        rfl⟩)))

/-- What CSM share does: nothing, or one more share slot in use. -/
def CsmShared (plat : Platform) (s : State) (rdAddr x1 x2 x3 : Word) (s' : State)
    (status : RsiStatus) : Prop :=
  let aptPa := (s.rd rdAddr).aptPa
  (s' = s ∧ status ≠ .SUCCESS) ∨
  (status = .SUCCESS ∧ lockable plat s aptPa .APT = true ∧
    ∃ masterId slaveRdPa midx apt', realmTagGetByRd s.tags rdAddr = some masterId ∧
      realmTagRdByTag s.tags (x2.setWidth 8) = some slaveRdPa ∧
      aptFindMasterByRegionId (s.apt aptPa) (x1.setWidth 8) = some midx ∧
      aptMasterAddShare (s.apt aptPa) midx (x2.setWidth 8) slaveRdPa (x3.setWidth 8) = some apt' ∧
      s' = s.setApt aptPa apt')

theorem handleRsiCsmShare_sat {plat : Platform} {s : State} {rdAddr : Word}
    (hrd : (s.granule rdAddr).state = .RD) (x1 x2 x3 : Word) :
    Sat (handleRsiCsmShare plat s rdAddr x1 x2 x3)
      (fun res => CsmShared plat s rdAddr x1 x2 x3 res.1 res.2.status) Benign := by
  have idle : ∀ st : RsiStatus, st ≠ .SUCCESS →
      CsmShared plat s rdAddr x1 x2 x3 s st := fun st h => .inl ⟨rfl, h⟩
  unfold handleRsiCsmShare
  simp only
  cases htag : realmTagGetByRd s.tags rdAddr with
  | none => exact Sat.pure (idle _ (by simp [rsiRet]))
  | some masterId =>
    refine Sat.ite (fun _ => Sat.pure (idle _ (by simp [rsiRet]))) fun _ => ?_
    refine Sat.ite (fun _ => Sat.pure (idle _ (by simp [rsiRet]))) fun _ => ?_
    cases hslave : realmTagRdByTag s.tags (x2.setWidth 8) with
    | none => exact Sat.pure (idle _ (by simp [rsiRet]))
    | some slaveRdPa =>
      simp only
      rw [granuleLock_ok hrd]
      refine Sat.ok_bind (lockApt_sat (by decide) (by decide) fun hapt => ?_)
      cases hfind : aptFindMasterByRegionId (s.apt (s.rd rdAddr).aptPa) (x1.setWidth 8) with
      | none => exact Sat.pure (idle _ (by simp [rsiRet]))
      | some midx =>
        simp only
        cases hadd : aptMasterAddShare (s.apt (s.rd rdAddr).aptPa) midx (x2.setWidth 8) slaveRdPa
            (x3.setWidth 8) with
        | none => exact Sat.pure (idle _ (by simp [rsiRet]))
        | some apt' =>
          exact Sat.pure (.inr ⟨rfl, hapt, masterId, slaveRdPa, midx, apt', htag, hslave, hfind,
            hadd, rfl⟩)

/-- What CSM reserve does: nothing, or a new slave region of the size of a region
that the named master shares with the caller. A full table changes nothing. -/
def CsmReserved (plat : Platform) (s : State) (rdAddr x1 baseIpa sizeIpa : Word) (s' : State) :
    Prop :=
  let aptPa := (s.rd rdAddr).aptPa
  let regionId := aptSharingRegionId (x1.setWidth 32)
  let masterId := aptSharingMasterId (x1.setWidth 32)
  let slaveId := aptSharingSlaveId (x1.setWidth 32)
  s' = s ∨
  (illegalRegion baseIpa sizeIpa = false ∧ lockable plat s aptPa .APT = true ∧
    realmTagGetByRd s.tags rdAddr = some slaveId ∧ ∃ masterRdPa midx apt' idx,
      realmTagRdByTag s.tags masterId = some masterRdPa ∧ masterRdPa ≠ rdAddr ∧
      lockable plat s masterRdPa .RD = true ∧
        lockable plat s (s.rd masterRdPa).aptPa .APT = true ∧
      aptFindMasterByRegionId (s.apt (s.rd masterRdPa).aptPa) regionId = some midx ∧
      (aptFindMasterShareSlot ((s.apt (s.rd masterRdPa).aptPa).masterMemory midx)
        slaveId).isSome ∧
      ((s.apt (s.rd masterRdPa).aptPa).masterMemory midx).mapSize = sizeIpa ∧
      aptFindEnabledConflict (s.apt aptPa) baseIpa sizeIpa false = false ∧
      aptAddSlave (s.apt aptPa) masterId regionId masterRdPa baseIpa sizeIpa true =
        some (apt', idx) ∧
      s' = s.setApt aptPa apt')

/-- The checks that a reservation passes, with the realm and the region that its
identifier names. -/
structure CsmReservable (plat : Platform) (s : State) (rdAddr x1 baseIpa sizeIpa masterRdPa : Word)
    (midx : ℕ) : Prop where
  legal : illegalRegion baseIpa sizeIpa = false
  ids : ¬ (aptSharingRegionId (x1.setWidth 32) = 0#8 ∨
    aptSharingMasterId (x1.setWidth 32) = 0#8 ∨
    aptSharingSlaveId (x1.setWidth 32) = 0#8)
  tag : realmTagGetByRd s.tags rdAddr = some (aptSharingSlaveId (x1.setWidth 32))
  master : realmTagRdByTag s.tags (aptSharingMasterId (x1.setWidth 32)) = some masterRdPa
  lock : lockable plat s (s.rd rdAddr).aptPa .APT = true
  other : masterRdPa ≠ rdAddr
  masterLock : lockable plat s masterRdPa .RD = true
  masterApt : lockable plat s (s.rd masterRdPa).aptPa .APT = true
  find : aptFindMasterByRegionId (s.apt (s.rd masterRdPa).aptPa)
    (aptSharingRegionId (x1.setWidth 32)) = some midx
  share : (aptFindMasterShareSlot ((s.apt (s.rd masterRdPa).aptPa).masterMemory midx)
    (aptSharingSlaveId (x1.setWidth 32))).isSome = true
  size : ((s.apt (s.rd masterRdPa).aptPa).masterMemory midx).mapSize = sizeIpa
  conflict : aptFindEnabledConflict (s.apt (s.rd rdAddr).aptPa) baseIpa sizeIpa false = false

/-- How CSM reserve answers: a request that fails a check is refused, any other is a
success, with the index of the new entry or with minus one. -/
def CsmReserveAnswer (plat : Platform) (s : State) (rdAddr x1 baseIpa sizeIpa : Word) (s' : State)
    (res : RsiResult) : Prop :=
  (s' = s ∧ res.status = .ERROR_INPUT ∧
    ∀ masterRdPa midx, ¬ CsmReservable plat s rdAddr x1 baseIpa sizeIpa masterRdPa midx) ∨
  ∃ masterRdPa midx, CsmReservable plat s rdAddr x1 baseIpa sizeIpa masterRdPa midx ∧
    ((aptAddSlave (s.apt (s.rd rdAddr).aptPa) (aptSharingMasterId (x1.setWidth 32))
          (aptSharingRegionId (x1.setWidth 32)) masterRdPa baseIpa sizeIpa true = none ∧
        s' = s ∧ res = ⟨.SUCCESS, (x1.setWidth 32).setWidth 64, BitVec.allOnes 64, true⟩) ∨
      ∃ apt' idx, aptAddSlave (s.apt (s.rd rdAddr).aptPa) (aptSharingMasterId (x1.setWidth 32))
          (aptSharingRegionId (x1.setWidth 32)) masterRdPa baseIpa sizeIpa true =
            some (apt', idx) ∧
        s' = s.setApt (s.rd rdAddr).aptPa apt' ∧
        res = ⟨.SUCCESS, (x1.setWidth 32).setWidth 64, BitVec.ofNat 64 idx, true⟩)

theorem handleRsiCsmReserve_answer {plat : Platform} {s : State} {rdAddr : Word}
    (hrd : (s.granule rdAddr).state = .RD) (x1 baseIpa sizeIpa : Word) :
    Sat (handleRsiCsmReserve plat s rdAddr x1 baseIpa sizeIpa)
      (fun res => CsmReserveAnswer plat s rdAddr x1 baseIpa sizeIpa res.1 res.2) Benign := by
  have refuse : (∀ masterRdPa midx, ¬ CsmReservable plat s rdAddr x1 baseIpa sizeIpa
      masterRdPa midx) →
      CsmReserveAnswer plat s rdAddr x1 baseIpa sizeIpa s (rsiRet .ERROR_INPUT) :=
    fun h => .inl ⟨rfl, rfl, h⟩
  unfold handleRsiCsmReserve
  simp only
  refine Sat.ite (fun hill => Sat.pure (refuse fun m i hc => ?_)) fun hill => ?_
  · rw [hc.legal] at hill
    cases hill
  rw [Bool.not_eq_true] at hill
  refine Sat.ite (fun hz => Sat.pure (refuse fun m i hc => hc.ids hz)) fun hids => ?_
  refine Sat.ite (fun hn => Sat.pure (refuse fun m i hc => hn hc.tag)) fun htag => ?_
  rw [not_ne_iff] at htag
  cases hmaster : realmTagRdByTag s.tags (aptSharingMasterId (x1.setWidth 32)) with
  | none =>
    refine Sat.pure (refuse fun m i hc => ?_)
    have := hc.master
    rw [hmaster] at this
    cases this
  | some masterRdPa =>
    have hsame : ∀ {m i}, CsmReservable plat s rdAddr x1 baseIpa sizeIpa m i →
        m = masterRdPa := by
      intro m i hc
      have := hc.master
      rw [hmaster] at this
      exact (Option.some.inj this).symm
    simp only
    rw [granuleLock_ok hrd]
    refine Sat.ok_bind (lockApt_sat (by decide) (by decide) fun hapt => ?_)
    refine findLockGranule_apart (by decide) fun hapart => ?_
    refine assertThat_sat (fun _ => by decide) fun hmrd => ?_
    have hne : masterRdPa ≠ rdAddr := fun hc => hapart hmrd (by simp [hc])
    refine lockApt_sat (by decide) (by decide) fun hmapt => ?_
    cases hfind : aptFindMasterByRegionId (s.apt (s.rd masterRdPa).aptPa)
        (aptSharingRegionId (x1.setWidth 32)) with
    | none =>
      refine Sat.pure (refuse fun m i hc => ?_)
      have := hc.find
      rw [hsame hc, hfind] at this
      cases this
    | some midx =>
      have hregion : ∀ {m i}, CsmReservable plat s rdAddr x1 baseIpa sizeIpa m i →
          i = midx := by
        intro m i hc
        have := hc.find
        rw [hsame hc, hfind] at this
        exact (Option.some.inj this).symm
      simp only
      refine Sat.ite (fun hnone => Sat.pure (refuse fun m i hc => ?_)) fun hslot => ?_
      · have := hc.share
        rw [hsame hc, hregion hc, Option.isSome_iff_ne_none, ne_eq,
          ← Option.isNone_iff_eq_none] at this
        exact this hnone
      refine Sat.ite (fun hn => Sat.pure (refuse fun m i hc => ?_)) fun hsize => ?_
      · have := hc.size
        rw [hsame hc, hregion hc] at this
        exact hn this
      rw [not_ne_iff] at hsize
      refine Sat.ite (fun hn => Sat.pure (refuse fun m i hc => ?_)) fun hconf => ?_
      · rw [hc.conflict] at hn
        cases hn
      rw [Bool.not_eq_true] at hconf
      have hslot' : (aptFindMasterShareSlot ((s.apt (s.rd masterRdPa).aptPa).masterMemory midx)
          (aptSharingSlaveId (x1.setWidth 32))).isSome = true := by
        rwa [Option.isSome_iff_ne_none, ne_eq, ← Option.isNone_iff_eq_none]
      have hacc : CsmReservable plat s rdAddr x1 baseIpa sizeIpa masterRdPa midx :=
        ⟨hill, hids, htag, hmaster, hapt, hne, hmrd, hmapt, hfind, hslot', hsize, hconf⟩
      cases hadd : aptAddSlave (s.apt (s.rd rdAddr).aptPa) (aptSharingMasterId (x1.setWidth 32))
          (aptSharingRegionId (x1.setWidth 32)) masterRdPa baseIpa sizeIpa true with
      | none => exact Sat.pure (.inr ⟨masterRdPa, midx, hacc, .inl ⟨hadd, rfl, rfl⟩⟩)
      | some res =>
        obtain ⟨apt', idx⟩ := res
        exact Sat.pure (.inr ⟨masterRdPa, midx, hacc, .inr ⟨apt', idx, hadd, rfl, rfl⟩⟩)

theorem handleRsiCsmReserve_sat {plat : Platform} {s : State} {rdAddr : Word}
    (hrd : (s.granule rdAddr).state = .RD) (x1 baseIpa sizeIpa : Word) :
    Sat (handleRsiCsmReserve plat s rdAddr x1 baseIpa sizeIpa)
      (fun res => CsmReserved plat s rdAddr x1 baseIpa sizeIpa res.1) Benign := by
  refine (handleRsiCsmReserve_answer hrd x1 baseIpa sizeIpa).imp ?_
  rintro ⟨s', res⟩ (⟨rfl, -⟩ | ⟨m, i, hacc,
    ⟨-, rfl, -⟩ | ⟨apt', idx, hadd, rfl, -⟩⟩)
  · exact .inl rfl
  · exact .inl rfl
  · exact .inr ⟨hacc.legal, hacc.lock, hacc.tag, m, i, apt', idx, hacc.master, hacc.other,
      hacc.masterLock, hacc.masterApt, hacc.find, hacc.share, hacc.size, hacc.conflict, hadd, rfl⟩

/-- What CSM destroy does: nothing, or an unshared master region and its identifier
are freed. -/
def CsmDestroyed (plat : Platform) (s : State) (rdAddr x1 : Word) (s' : State)
    (status : RsiStatus) : Prop :=
  let aptPa := (s.rd rdAddr).aptPa
  let regionId : Byte := x1.setWidth 8
  (s' = s ∧ status ≠ .SUCCESS) ∨
  (status = .SUCCESS ∧ lockable plat s aptPa .APT = true ∧ ∃ midx,
    aptFindMasterByRegionId (s.apt aptPa) regionId = some midx ∧
    ((s.apt aptPa).masterMemory midx).shareCount = 0#8 ∧
    s' = { s.setApt aptPa (aptEraseMaster (s.apt aptPa) midx) with
      csmIds := csmRegionIdRemove s.csmIds regionId })

theorem handleRsiCsmDestroy_sat {plat : Platform} {s : State} {rdAddr : Word}
    (hrd : (s.granule rdAddr).state = .RD) (x1 : Word) :
    Sat (handleRsiCsmDestroy plat s rdAddr x1)
      (fun res => CsmDestroyed plat s rdAddr x1 res.1 res.2.status) Benign := by
  have idle : ∀ st : RsiStatus, st ≠ .SUCCESS →
      CsmDestroyed plat s rdAddr x1 s st := fun st h => .inl ⟨rfl, h⟩
  unfold handleRsiCsmDestroy
  simp only
  refine Sat.ite (fun _ => Sat.pure (idle _ (by simp [rsiRet]))) fun _ => ?_
  rw [granuleLock_ok hrd]
  refine Sat.ok_bind (findLockGranule_sat (by decide) ?_)
  refine Sat.ite (fun _ => Sat.pure (idle _ (by simp [rsiRet]))) fun hapt => ?_
  cases hfind : aptFindMasterByRegionId (s.apt (s.rd rdAddr).aptPa) (x1.setWidth 8) with
  | none => exact Sat.pure (idle _ (by simp [rsiRet]))
  | some midx =>
    simp only
    refine Sat.ite (fun _ => Sat.pure (idle _ (by simp [rsiRet]))) fun hcount => ?_
    rw [not_ne_iff] at hcount
    exact Sat.pure (.inr ⟨rfl, by simpa using hapt, midx, hfind, hcount, rfl⟩)

/-- The slave region that a detach finds. -/
def detachedIndex (plat : Platform) (s : State) (rdAddr x1 : Word) : Option ℕ :=
  let aptPa := (s.rd rdAddr).aptPa
  let regionId := aptSharingRegionId (x1.setWidth 32)
  let slaveId := aptSharingSlaveId (x1.setWidth 32)
  if regionId ≠ 0#8 ∧ slaveId ≠ 0#8 ∧ realmTagGetByRd s.tags rdAddr = some slaveId ∧
      lockable plat s aptPa .APT = true then
    aptFindSlaveByRegionId (s.apt aptPa) regionId
  else none

/-- The pages that a detach unmaps. -/
def detachPlaces (plat : Platform) (s : State) (rdAddr x1 : Word) : List (Word × Word) :=
  match detachedIndex plat s rdAddr x1 with
  | none => []
  | some sj => slavePlaces rdAddr ((s.apt (s.rd rdAddr).aptPa).slaveMemory sj)

/-- What CSM detach does: nothing, or the first slave region with the identifier is
released and its pages are removed. -/
def CsmDetached (plat : Platform) (s : State) (F : Tables) (rdAddr x1 : Word) (s' : State)
    (status : RsiStatus) : Prop :=
  let aptPa := (s.rd rdAddr).aptPa
  (s' = s ∧ status ≠ .SUCCESS) ∨
  (status = .SUCCESS ∧ ∃ sj F', detachedIndex plat s rdAddr x1 = some sj ∧
    s'.apt = Function.update s.apt aptPa (aptReleaseSlave (s.apt aptPa) sj) ∧
    Cleared s F (detachPlaces plat s rdAddr x1) s' F')

theorem handleRsiCsmDetachAndFree_sat {plat : Platform} {s : State} {F : Tables} (h : Wf s F)
    {rdAddr : Word} (hrd : (s.granule rdAddr).state = .RD) (x1 : Word) :
    Sat (handleRsiCsmDetachAndFree plat s rdAddr x1)
      (fun res => CsmDetached plat s F rdAddr x1 res.1 res.2.status) Benign := by
  have idle : ∀ st : RsiStatus, st ≠ .SUCCESS →
      CsmDetached plat s F rdAddr x1 s st := fun st h => .inl ⟨rfl, h⟩
  unfold handleRsiCsmDetachAndFree
  simp only
  refine Sat.ite (fun _ => Sat.pure (idle _ (by simp [rsiRet]))) fun hid => ?_
  rw [not_or] at hid
  refine Sat.ite (fun _ => Sat.pure (idle _ (by simp [rsiRet]))) fun htag => ?_
  rw [not_ne_iff] at htag
  rw [granuleLock_ok hrd]
  refine Sat.ok_bind (findLockGranule_sat (by decide) ?_)
  refine Sat.ite (fun _ => Sat.pure (idle _ (by simp [rsiRet]))) fun hapt => ?_
  have hapt' : lockable plat s (s.rd rdAddr).aptPa .APT = true := by simpa using hapt
  cases hfind : aptFindSlaveByRegionId (s.apt (s.rd rdAddr).aptPa)
      (aptSharingRegionId (x1.setWidth 32)) with
  | none => exact Sat.pure (idle _ (by simp [rsiRet]))
  | some sj =>
    simp only
    have hc := (Cleared.refl h).setApt (lockable_state hapt') (.single (.releaseSlave _ sj))
    refine Sat.bind (hc.unmap hrd _ _) ?_
    rintro s' ⟨ha, F', hF'⟩
    have hidx : detachedIndex plat s rdAddr x1 = some sj := by
      unfold detachedIndex
      simp only
      rw [if_pos ⟨hid.1, hid.2, htag, hapt'⟩, hfind]
    refine Sat.pure (.inr ⟨rfl, sj, F', hidx, ha, ?_⟩)
    unfold detachPlaces
    rw [hidx]
    exact hF'

/-- The master region and the share slot that a revoke finds. -/
def revokedSlot (plat : Platform) (s : State) (rdAddr x1 : Word) : Option (ℕ × ℕ) :=
  let aptPa := (s.rd rdAddr).aptPa
  let regionId := aptSharingRegionId (x1.setWidth 32)
  let masterId := aptSharingMasterId (x1.setWidth 32)
  let slaveId := aptSharingSlaveId (x1.setWidth 32)
  if regionId ≠ 0#8 ∧ masterId ≠ 0#8 ∧ slaveId ≠ 0#8 ∧
      realmTagGetByRd s.tags rdAddr = some masterId ∧ lockable plat s aptPa .APT = true then
    (aptFindMasterByRegionId (s.apt aptPa) regionId).bind fun midx =>
      (aptFindMasterShareSlot ((s.apt aptPa).masterMemory midx) slaveId).map
        fun slot => (midx, slot)
  else none

/-- The state after the first half of a revoke: the share slot is free. -/
def shareDropped (s : State) (rdAddr : Word) (midx slot : ℕ) : State :=
  let aptPa := (s.rd rdAddr).aptPa
  s.setApt aptPa (aptMasterDropShare (s.apt aptPa) midx slot)

/-- The realm that a share slot names. -/
def sharedWith (s : State) (rdAddr : Word) (midx slot : ℕ) : Word :=
  (((s.apt (s.rd rdAddr).aptPa).masterMemory midx).shares slot).slaveRdPa

/-- The pages that a revoke unmaps. -/
def revokePlaces (plat : Platform) (s : State) (rdAddr x1 : Word) : List (Word × Word) :=
  match revokedSlot plat s rdAddr x1 with
  | none => []
  | some (midx, slot) => revokedPlaces plat (shareDropped s rdAddr midx slot)
      (sharedWith s rdAddr midx slot) (aptSharingRegionId (x1.setWidth 32))

/-- What CSM revoke does: nothing, or the share slot is freed, and if the slave's
tables can be locked its first region with the identifier is released and unmapped. -/
def CsmRevoked (plat : Platform) (s : State) (F : Tables) (rdAddr x1 : Word) (s' : State)
    (status : RsiStatus) : Prop :=
  (s' = s ∧ status ≠ .SUCCESS) ∨
  (status = .SUCCESS ∧ ∃ midx slot F', revokedSlot plat s rdAddr x1 = some (midx, slot) ∧
    s'.apt = revokedApts plat (shareDropped s rdAddr midx slot) (sharedWith s rdAddr midx slot)
      (aptSharingRegionId (x1.setWidth 32)) aptReleaseSlave ∧
    Cleared s F (revokePlaces plat s rdAddr x1) s' F')

theorem handleRsiCsmRevoke_sat {plat : Platform} {s : State} {F : Tables} (h : Wf s F)
    {rdAddr : Word} (hrd : (s.granule rdAddr).state = .RD) (x1 : Word) :
    Sat (handleRsiCsmRevoke plat s rdAddr x1)
      (fun res => CsmRevoked plat s F rdAddr x1 res.1 res.2.status) Benign := by
  have idle : ∀ st : RsiStatus, st ≠ .SUCCESS →
      CsmRevoked plat s F rdAddr x1 s st := fun st h => .inl ⟨rfl, h⟩
  unfold handleRsiCsmRevoke
  simp only
  refine Sat.ite (fun _ => Sat.pure (idle _ (by simp [rsiRet]))) fun hid => ?_
  simp only [not_or] at hid
  refine Sat.ite (fun _ => Sat.pure (idle _ (by simp [rsiRet]))) fun htag => ?_
  rw [not_ne_iff] at htag
  rw [granuleLock_ok hrd]
  refine Sat.ok_bind (findLockGranule_sat (by decide) ?_)
  refine Sat.ite (fun _ => Sat.pure (idle _ (by simp [rsiRet]))) fun hapt => ?_
  have hapt' : lockable plat s (s.rd rdAddr).aptPa .APT = true := by simpa using hapt
  cases hfind : aptFindMasterByRegionId (s.apt (s.rd rdAddr).aptPa)
      (aptSharingRegionId (x1.setWidth 32)) with
  | none => exact Sat.pure (idle _ (by simp [rsiRet]))
  | some midx =>
    simp only
    cases hslot : aptFindMasterShareSlot ((s.apt (s.rd rdAddr).aptPa).masterMemory midx)
        (aptSharingSlaveId (x1.setWidth 32)) with
    | none => exact Sat.pure (idle _ (by simp [rsiRet]))
    | some slot =>
      simp only
      obtain ⟨hlt, huse⟩ := findFirst_some hslot
      rw [Bool.and_eq_true] at huse
      have hc := (Cleared.refl h).setApt (lockable_state hapt')
        (.single (.dropShare hlt huse.1))
      refine Sat.bind (revokeSlave_sat hc _ _ fun a i => .releaseSlave a i) ?_
      rintro s' ⟨ha, F', hF'⟩
      have hrev : revokedSlot plat s rdAddr x1 = some (midx, slot) := by
        unfold revokedSlot
        simp only
        rw [if_pos ⟨hid.1, hid.2.1, hid.2.2, htag, hapt'⟩, hfind, Option.bind_some, hslot,
          Option.map_some]
      refine Sat.pure (.inr ⟨rfl, midx, slot, F', hrev, ha, ?_⟩)
      unfold revokePlaces
      rw [hrev]
      exact hF'

/-- A RIPAS request does nothing, or replaces the request of the REC. -/
theorem handleRsiIpaStateSet_spec (s : State) (recAddr base top x3 x4 : Word) :
    (handleRsiIpaStateSet s recAddr base top x3 x4).1 = s ∨ ∃ request,
      (handleRsiIpaStateSet s recAddr base top x3 x4).1 =
        s.setRec recAddr { s.recs recAddr with setRipas := request } := by
  unfold handleRsiIpaStateSet
  simp only
  split
  · exact .inl rfl
  · exact .inr ⟨_, rfl⟩

end RmmCaec
