import RmmCaec.AptCreation
import RmmCaec.PageReturns

/-!
# When the shared memory handlers return

The conditions under which the seven CSM calls and the two calls for attachment
tables return a status. They follow links from a realm to its table, to the partner
that an entry or a tag names and to the tables of the partner, and most of these links
are not checked. What is left out of a condition is checked by the handler itself.
-/
namespace RmmCaec

open RadixForest Outcome Runs

/-- The realm links to a granule that is an attachment table. -/
def HasApt (plat : Platform) (s : State) (rd : Word) : Prop :=
  lockable plat s (s.rd rd).aptPa .APT = true

/-- The second realm is a realm with a table, and both differ from those of the caller. -/
structure Partnered (plat : Platform) (s : State) (rdAddr partner : Word) : Prop where
  isRd : lockable plat s partner .RD = true
  other : partner ≠ rdAddr
  hasApt : HasApt plat s partner
  otherApt : (s.rd partner).aptPa ≠ (s.rd rdAddr).aptPa

/-- The pages lie in the address spaces of their realms. -/
def InIpaSpace (s : State) (places : List (Word × Word)) : Prop :=
  ∀ p ∈ places, p.2.toNat < 2 ^ (s.rd p.1).s2Ctx.ipaBits

/-- The RD does not stand where the table should be. -/
def AptApart (plat : Platform) (s : State) (rd : Word) : Prop :=
  ¬ SelfWait plat [rd] (s.rd rd).aptPa

/-- A revocation from a slave: its table can be locked, and the pages of its entry, if it
has one, are pages. -/
def RevokeReturns (plat : Platform) (s : State) (slaveRdPa : Word) (regionId : Byte) : Prop :=
  (lockable plat s slaveRdPa .RD = true → AptApart plat s slaveRdPa) ∧
    InIpaSpace s (revokedPlaces plat s slaveRdPa regionId)

def CsmCreateReturns (plat : Platform) (s : State) (rdAddr x2 x3 : Word) : Prop :=
  illegalRegion x2 x3 = false → HasApt plat s rdAddr

def CsmShareReturns (plat : Platform) (s : State) (rdAddr x1 x2 : Word) : Prop :=
  ∀ masterId, realmTagGetByRd s.tags rdAddr = some masterId → masterId ≠ 0#8 →
    ¬ (x1.setWidth 8 = 0#8 ∨ x2.setWidth 8 = 0#8) →
    (realmTagRdByTag s.tags (x2.setWidth 8)).isSome = true → HasApt plat s rdAddr

def CsmReserveReturns (plat : Platform) (s : State) (rdAddr x1 x2 x3 : Word) : Prop :=
  let sharingId : BitVec 32 := x1.setWidth 32
  illegalRegion x2 x3 = false →
    ¬ (aptSharingRegionId sharingId = 0#8 ∨ aptSharingMasterId sharingId = 0#8 ∨
      aptSharingSlaveId sharingId = 0#8) →
    realmTagGetByRd s.tags rdAddr = some (aptSharingSlaveId sharingId) →
    ∀ masterRdPa, realmTagRdByTag s.tags (aptSharingMasterId sharingId) = some masterRdPa →
      HasApt plat s rdAddr ∧ Partnered plat s rdAddr masterRdPa

def CsmAttachReturns (plat : Platform) (s : State) (rdAddr x1 : Word) : Prop :=
  let regionIndex := (x1.setWidth 32).toInt
  let slave := (s.apt (s.rd rdAddr).aptPa).slaveMemory regionIndex.toNat
  HasApt plat s rdAddr ∧ (0 ≤ regionIndex ∧ regionIndex < maxMemRegions) ∧
    ¬ SelfWait plat [(s.rd rdAddr).aptPa, rdAddr] slave.masterRdPa ∧
    (lockable plat s slave.masterRdPa .RD = true → Partnered plat s rdAddr slave.masterRdPa ∧
      ∀ midx, aptFindMasterByRegionId (s.apt (s.rd slave.masterRdPa).aptPa) slave.regionId =
          some midx →
        AttachRuns s rdAddr slave ((s.apt (s.rd slave.masterRdPa).aptPa).masterMemory midx))

def CsmDetachReturns (plat : Platform) (s : State) (rdAddr x1 : Word) : Prop :=
  let sharingId : BitVec 32 := x1.setWidth 32
  ¬ (aptSharingRegionId sharingId = 0#8 ∨ aptSharingSlaveId sharingId = 0#8) →
    realmTagGetByRd s.tags rdAddr = some (aptSharingSlaveId sharingId) →
    AptApart plat s rdAddr ∧ (HasApt plat s rdAddr →
      ∀ sj, aptFindSlaveByRegionId (s.apt (s.rd rdAddr).aptPa)
        (aptSharingRegionId sharingId) = some sj →
        InIpaSpace s (slavePlaces rdAddr ((s.apt (s.rd rdAddr).aptPa).slaveMemory sj)))

def CsmRevokeReturns (plat : Platform) (s : State) (rdAddr x1 : Word) : Prop :=
  let sharingId : BitVec 32 := x1.setWidth 32
  let apt := s.apt (s.rd rdAddr).aptPa
  ¬ (aptSharingRegionId sharingId = 0#8 ∨ aptSharingMasterId sharingId = 0#8 ∨
      aptSharingSlaveId sharingId = 0#8) →
    realmTagGetByRd s.tags rdAddr = some (aptSharingMasterId sharingId) →
    AptApart plat s rdAddr ∧ (HasApt plat s rdAddr →
      ∀ midx, aptFindMasterByRegionId apt (aptSharingRegionId sharingId) = some midx →
        ∀ slot, aptFindMasterShareSlot (apt.masterMemory midx) (aptSharingSlaveId sharingId) =
            some slot →
        RevokeReturns plat s ((apt.masterMemory midx).shares slot).slaveRdPa
          (aptSharingRegionId sharingId))

def CsmDestroyReturns (plat : Platform) (s : State) (rdAddr x1 : Word) : Prop :=
  x1.setWidth 8 ≠ 0#8 → AptApart plat s rdAddr

/-- The condition of a call. The two calls that are not about shared memory return. -/
def CsmReturns (plat : Platform) (s : State) (rdAddr : Word) : RsiCall → Prop
  | .csmCreate x2 x3 => CsmCreateReturns plat s rdAddr x2 x3
  | .csmShare x1 x2 _ => CsmShareReturns plat s rdAddr x1 x2
  | .csmReserve x1 x2 x3 => CsmReserveReturns plat s rdAddr x1 x2 x3
  | .csmAttach x1 => CsmAttachReturns plat s rdAddr x1
  | .csmDetachAndFree x1 => CsmDetachReturns plat s rdAddr x1
  | .csmRevoke x1 => CsmRevokeReturns plat s rdAddr x1
  | .csmDestroy x1 => CsmDestroyReturns plat s rdAddr x1
  | .ipaStateSet .. | .systemOff => True

/-- The partners that the second phase of a destruction visits. -/
def destroyPartners (s : State) (aptAddr : Word) : List Word :=
  (usedSlaves (s.apt aptAddr) (List.range maxMemRegions)).map SlaveMem.masterRdPa ++
    ((usedMasters (s.apt aptAddr) (List.range maxMemRegions)).flatMap sharePartners).map Prod.fst

def AptDestroyReturns (plat : Platform) (s : State) (rdAddr aptAddr : Word) : Prop :=
  lockable plat s rdAddr .RD = true → (s.rd rdAddr).aptPa = aptAddr →
    HasApt plat s rdAddr ∧ InIpaSpace s (aptDestroyPlaces plat s rdAddr aptAddr) ∧
    ∀ rd ∈ destroyPartners s aptAddr, lockable plat s rd .RD = true → AptApart plat s rd

section

variable {plat : Platform} {s : State} {F : Tables} {rdAddr : Word}

theorem ownApt_exact (hrd : (s.granule rdAddr).state = .RD) :
    Exact (lockApt plat s [rdAddr] (s.rd rdAddr).aptPa) (HasApt plat s rdAddr)
      fun a => a = s.apt (s.rd rdAddr).aptPa := by
  refine (lockApt_exact plat s [rdAddr] _).congr ⟨And.left, fun hl => ⟨hl, ?_⟩⟩
  rw [List.mem_singleton]
  intro hc
  have hapt := lockable_state hl
  rw [hc, hrd] at hapt
  cases hapt

theorem handleRsiCsmCreate_exact (hrd : (s.granule rdAddr).state = .RD) (x2 x3 : Word) :
    Exact (handleRsiCsmCreate plat s rdAddr x2 x3) (CsmCreateReturns plat s rdAddr x2 x3)
      fun _ => True := by
  unfold handleRsiCsmCreate CsmCreateReturns
  cases hill : illegalRegion x2 x3 with
  | true => exact (Exact.pure trivial).congr (by simp)
  | false =>
    simp only [Bool.false_eq_true, if_false, forall_const]
    rw [granuleLock_ok hrd]
    refine (Exact.ok_bind (Exact.bind (D := True) (ownApt_exact hrd) ?_)).congr
      (and_iff_left trivial)
    rintro _ - rfl
    refine Exact.ite_same (fun _ => Exact.pure trivial) fun _ => ?_
    rcases csmRegionIdAssign s.csmIds rdAddr with ⟨ids, _ | regionId⟩
    · exact Exact.pure trivial
    · simp only
      cases aptAddMaster (s.apt (s.rd rdAddr).aptPa) regionId x2 x3 true with
      | none => exact Exact.pure trivial
      | some res => exact Exact.pure trivial

theorem handleRsiCsmShare_exact (hrd : (s.granule rdAddr).state = .RD) (x1 x2 x3 : Word) :
    Exact (handleRsiCsmShare plat s rdAddr x1 x2 x3) (CsmShareReturns plat s rdAddr x1 x2)
      fun _ => True := by
  unfold handleRsiCsmShare CsmShareReturns
  simp only
  cases realmTagGetByRd s.tags rdAddr with
  | none => exact (Exact.pure trivial).congr (by simp)
  | some masterId =>
    simp only [Option.some.injEq, forall_eq']
    by_cases hz : masterId = 0#8
    · rw [if_pos hz]
      exact (Exact.pure trivial).congr (by simp [hz])
    by_cases hid : x1.setWidth 8 = 0#8 ∨ x2.setWidth 8 = 0#8
    · rw [if_neg hz, if_pos hid]
      exact (Exact.pure trivial).congr (by simp [hid])
    rw [if_neg hz, if_neg hid]
    cases realmTagRdByTag s.tags (x2.setWidth 8) with
    | none => exact (Exact.pure trivial).congr (by simp)
    | some slaveRdPa =>
      simp only [granuleLock_ok hrd]
      refine (Exact.ok_bind (Exact.bind (D := True) (ownApt_exact hrd) ?_)).congr
        (by simp [hz, hid])
      rintro _ - rfl
      cases aptFindMasterByRegionId (s.apt (s.rd rdAddr).aptPa) (x1.setWidth 8) with
      | none => exact Exact.pure trivial
      | some midx =>
        simp only
        cases aptMasterAddShare (s.apt (s.rd rdAddr).aptPa) midx (x2.setWidth 8) slaveRdPa
            (x3.setWidth 8) with
        | none => exact Exact.pure trivial
        | some apt' => exact Exact.pure trivial

/-- The partner's RD and table, as reserve locks them without a check. -/
theorem partner_iff (hrd : (s.granule rdAddr).state = .RD) (hown : HasApt plat s rdAddr)
    {partner : Word} (hp : lockable plat s partner .RD = true) :
    (¬ SelfWait plat [(s.rd rdAddr).aptPa, rdAddr] partner ∧
      (lockable plat s (s.rd partner).aptPa .APT = true ∧
        (s.rd partner).aptPa ∉ [partner, (s.rd rdAddr).aptPa, rdAddr])) ↔
      Partnered plat s rdAddr partner := by
  have hapt : ∀ {g : Word}, lockable plat s g .APT = true → g ≠ rdAddr ∧ g ≠ partner := by
    intro g hg
    constructor
    · rintro rfl
      have hst := lockable_state hg
      rw [hrd] at hst
      cases hst
    · rintro rfl
      have hst := lockable_state hg
      rw [lockable_state hp] at hst
      cases hst
  simp only [SelfWait, lockable_findGranule hp, true_and, List.mem_cons, List.not_mem_nil, or_false,
    not_or]
  constructor
  · rintro ⟨⟨-, h1⟩, h2, -, h3, -⟩
    exact ⟨hp, h1, h2, h3⟩
  · intro h
    exact ⟨⟨(hapt hown).2.symm, h.other⟩, h.hasApt, (hapt h.hasApt).2, h.otherApt,
      (hapt h.hasApt).1⟩

theorem handleRsiCsmReserve_exact (hrd : (s.granule rdAddr).state = .RD) (x1 x2 x3 : Word) :
    Exact (handleRsiCsmReserve plat s rdAddr x1 x2 x3) (CsmReserveReturns plat s rdAddr x1 x2 x3)
      fun _ => True := by
  unfold handleRsiCsmReserve CsmReserveReturns
  simp only
  cases hill : illegalRegion x2 x3 with
  | true => exact (Exact.pure trivial).congr (by simp)
  | false =>
    simp only [Bool.false_eq_true, if_false, forall_const]
    by_cases hid : aptSharingRegionId (x1.setWidth 32) = 0#8 ∨
      aptSharingMasterId (x1.setWidth 32) = 0#8 ∨
        aptSharingSlaveId (x1.setWidth 32) = 0#8
    · rw [if_pos hid]
      exact (Exact.pure trivial).congr (by simp [hid])
    rw [if_neg hid]
    by_cases htag : realmTagGetByRd s.tags rdAddr = some (aptSharingSlaveId (x1.setWidth 32))
    case neg =>
      rw [if_pos htag]
      exact (Exact.pure trivial).congr (by simp [htag])
    rw [if_neg (not_not.mpr htag)]
    simp only [htag, forall_const, hid, not_false_eq_true]
    cases realmTagRdByTag s.tags (aptSharingMasterId (x1.setWidth 32)) with
    | none => exact (Exact.pure trivial).congr (by simp)
    | some masterRdPa =>
      simp only [granuleLock_ok hrd, Option.some.injEq, forall_eq']
      refine Exact.ok_bind (Exact.bind (ownApt_exact hrd) ?_)
      rintro _ hown rfl
      refine (Exact.bind (D := lockable plat s masterRdPa .RD = true ∧
        (lockable plat s (s.rd masterRdPa).aptPa .APT = true ∧
          (s.rd masterRdPa).aptPa ∉ [masterRdPa, (s.rd rdAddr).aptPa, rdAddr]))
        (findLockGranule_exact plat s _ masterRdPa .RD) ?_).congr ?_
      · rintro _ - rfl
        refine assertThat_bind fun _ => ?_
        refine (Exact.bind (D := True) (lockApt_exact plat s _ _) ?_).congr (and_iff_left trivial)
        rintro _ - rfl
        cases aptFindMasterByRegionId (s.apt (s.rd masterRdPa).aptPa)
            (aptSharingRegionId (x1.setWidth 32)) with
        | none => exact Exact.pure trivial
        | some midx =>
          simp only
          refine Exact.ite_same (fun _ => Exact.pure trivial) fun _ => ?_
          refine Exact.ite_same (fun _ => Exact.pure trivial) fun _ => ?_
          refine Exact.ite_same (fun _ => Exact.pure trivial) fun _ => ?_
          cases aptAddSlave (s.apt (s.rd rdAddr).aptPa) (aptSharingMasterId (x1.setWidth 32))
              (aptSharingRegionId (x1.setWidth 32)) masterRdPa x2 x3 true with
          | none => exact Exact.pure trivial
          | some res => exact Exact.pure trivial
      · constructor
        · rintro ⟨hw, hp, hm⟩
          exact (partner_iff hrd hown hp).mp ⟨hw, hm⟩
        · intro h
          obtain ⟨hw, hm⟩ := (partner_iff hrd hown h.isRd).mpr h
          exact ⟨hw, h.isRd, hm⟩

theorem handleRsiCsmAttach_exact (h : Wf s F) (hrd : (s.granule rdAddr).state = .RD) (x1 : Word) :
    Exact (handleRsiCsmAttach plat s rdAddr x1) (CsmAttachReturns plat s rdAddr x1)
      fun _ => True := by
  unfold handleRsiCsmAttach CsmAttachReturns
  simp only
  rw [granuleLock_ok hrd]
  refine Exact.ok_bind (Exact.bind (ownApt_exact hrd) ?_)
  rintro _ hown rfl
  refine (assertThat_bind fun _ => ?_).congr (and_congr_left fun _ => by simp)
  set slave := (s.apt (s.rd rdAddr).aptPa).slaveMemory (x1.setWidth 32).toInt.toNat
  refine Exact.bind (findLockGranule_exact plat s _ slave.masterRdPa .RD) ?_
  rintro _ hwait rfl
  cases hp : lockable plat s slave.masterRdPa .RD with
  | false => exact (Exact.pure trivial).congr (by simp)
  | true =>
    simp only [Bool.not_true, Bool.false_eq_true, if_false, forall_const]
    refine (Exact.bind (D := ∀ midx, aptFindMasterByRegionId (s.apt (s.rd slave.masterRdPa).aptPa)
        slave.regionId = some midx →
      AttachRuns s rdAddr slave ((s.apt (s.rd slave.masterRdPa).aptPa).masterMemory midx))
      (lockApt_exact plat s _ _) ?_).congr (and_congr_left fun _ => ?_)
    · rintro _ - rfl
      cases aptFindMasterByRegionId (s.apt (s.rd slave.masterRdPa).aptPa) slave.regionId with
      | none => exact (Exact.pure trivial).congr (by simp)
      | some midx =>
        have hne : slave.masterRdPa ≠ rdAddr := by
          intro hc
          exact hwait ⟨lockable_findGranule hp, by simp [hc]⟩
        simp only [Option.some.injEq, forall_eq']
        refine (Exact.bind (D := True) (attachRegion_exact h hrd (lockable_state hp) hne) ?_).congr
          (and_iff_left trivial)
        exact fun _ _ _ => Exact.pure trivial
    · rw [← partner_iff hrd hown hp]
      exact ⟨fun hm => ⟨hwait, hm⟩, And.right⟩

/-- The range of an entry is unmapped once the entry is dropped. -/
theorem unmapEntry_exact (h : Wf s F) {rd : Word} (hrd : (s.granule rd).state = .RD) {aptPa : Word}
    (hapt : (s.granule aptPa).state = .APT) (a : Apt) (m : SlaveMem) :
    Exact (unmapRange (s.setApt aptPa a) (s.rd rd).s2Ctx m.ipaStart m.mapSize)
      (InIpaSpace s (slavePlaces rd m)) fun _ => True := by
  have hw := (recordChange_setApt s.csmIds hapt (a := a)).wf h
  refine ((unmapRange_exact hw hrd m.ipaStart m.mapSize).congr ?_).imp fun _ _ => trivial
  unfold InIpaSpace slavePlaces
  rw [List.forall_mem_map]
  exact Iff.rfl

theorem handleRsiCsmDetachAndFree_exact (h : Wf s F) (hrd : (s.granule rdAddr).state = .RD)
    (x1 : Word) :
    Exact (handleRsiCsmDetachAndFree plat s rdAddr x1) (CsmDetachReturns plat s rdAddr x1)
      fun _ => True := by
  unfold handleRsiCsmDetachAndFree CsmDetachReturns
  simp only
  by_cases hid : aptSharingRegionId (x1.setWidth 32) = 0#8 ∨
    aptSharingSlaveId (x1.setWidth 32) = 0#8
  · rw [if_pos hid]
    exact (Exact.pure trivial).congr (by simp [hid])
  rw [if_neg hid]
  by_cases htag : realmTagGetByRd s.tags rdAddr = some (aptSharingSlaveId (x1.setWidth 32))
  case neg =>
    rw [if_pos htag]
    exact (Exact.pure trivial).congr (by simp [htag])
  rw [if_neg (not_not.mpr htag)]
  simp only [htag, forall_const, hid, not_false_eq_true, granuleLock_ok hrd]
  refine Exact.ok_bind (Exact.bind (findLockGranule_exact plat s _ _ .APT) ?_)
  rintro _ - rfl
  unfold HasApt
  cases hapt : lockable plat s (s.rd rdAddr).aptPa .APT with
  | false => exact (Exact.pure trivial).congr (by simp)
  | true =>
    simp only [Bool.not_true, Bool.false_eq_true, if_false, forall_const]
    cases aptFindSlaveByRegionId (s.apt (s.rd rdAddr).aptPa)
      (aptSharingRegionId (x1.setWidth 32)) with
    | none => exact (Exact.pure trivial).congr (by simp)
    | some sj =>
      simp only [Option.some.injEq, forall_eq']
      refine (Exact.bind (D := True) (unmapEntry_exact h hrd (lockable_state hapt) _ _) ?_).congr
        (and_iff_left trivial)
      exact fun _ _ _ => Exact.pure trivial

theorem revokeSlave_exact (h : Wf s F) (slaveRdPa : Word) (regionId : Byte)
    (drop : Apt → ℕ → Apt) :
    Exact (revokeSlave plat s slaveRdPa regionId drop) (RevokeReturns plat s slaveRdPa regionId)
      fun _ => True := by
  unfold revokeSlave RevokeReturns revokedPlaces revokedIndex
  refine (Exact.bind (D := (lockable plat s slaveRdPa .RD = true → AptApart plat s slaveRdPa) ∧
    InIpaSpace s (revokedPlaces plat s slaveRdPa regionId))
    (findLockGranule_exact plat s [] slaveRdPa .RD) ?_).congr
    (by simp [revokedPlaces, revokedIndex])
  rintro _ - rfl
  unfold revokedPlaces revokedIndex
  cases hrd : lockable plat s slaveRdPa .RD with
  | false => exact (Exact.pure trivial).congr (by simp [InIpaSpace])
  | true =>
    simp only [Bool.not_true, Bool.false_eq_true, if_false, forall_const, Bool.true_and]
    refine Exact.bind (findLockGranule_exact plat s _ _ .APT) ?_
    rintro _ - rfl
    cases hapt : lockable plat s (s.rd slaveRdPa).aptPa .APT with
    | false => exact (Exact.pure trivial).congr (by simp [InIpaSpace])
    | true =>
      simp only [Bool.not_true, Bool.false_eq_true, if_false, if_true]
      cases aptFindSlaveByRegionId (s.apt (s.rd slaveRdPa).aptPa) regionId with
      | none => exact (Exact.pure trivial).congr (by simp [InIpaSpace])
      | some sj => exact unmapEntry_exact h (lockable_state hrd) (lockable_state hapt) _ _

/-- Dropping a share touches no slave entry. -/
theorem SameSlaves.dropShare (s : State) (aptPa : Word) (midx slot : ℕ) :
    SameSlaves s (s.setApt aptPa (aptMasterDropShare (s.apt aptPa) midx slot)) := by
  refine ⟨fun _ => Iff.rfl, fun _ => Iff.rfl, fun _ _ => rfl, fun g _ => ?_, fun g _ => ?_⟩
  · by_cases hg : g = aptPa
    · rw [hg, State.setApt_same]
      rfl
    · rw [State.setApt_of_ne _ hg]
  · by_cases hg : g = aptPa
    · rw [hg, State.setApt_same]
      rfl
    · rw [State.setApt_of_ne _ hg]

theorem SameSlaves.revokeReturns_iff {s' : State} (h : SameSlaves s s') (hrd : s'.rd = s.rd)
    (slaveRdPa : Word) (regionId : Byte) :
    RevokeReturns plat s' slaveRdPa regionId ↔ RevokeReturns plat s slaveRdPa regionId := by
  unfold RevokeReturns AptApart InIpaSpace
  rw [h.lockable_rd, h.revokedPlaces_eq, hrd]

theorem handleRsiCsmRevoke_exact (h : Wf s F) (hrd : (s.granule rdAddr).state = .RD) (x1 : Word) :
    Exact (handleRsiCsmRevoke plat s rdAddr x1) (CsmRevokeReturns plat s rdAddr x1)
      fun _ => True := by
  unfold handleRsiCsmRevoke CsmRevokeReturns
  simp only
  by_cases hid : aptSharingRegionId (x1.setWidth 32) = 0#8 ∨
    aptSharingMasterId (x1.setWidth 32) = 0#8 ∨
      aptSharingSlaveId (x1.setWidth 32) = 0#8
  · rw [if_pos hid]
    exact (Exact.pure trivial).congr (by simp [hid])
  rw [if_neg hid]
  by_cases htag : realmTagGetByRd s.tags rdAddr = some (aptSharingMasterId (x1.setWidth 32))
  case neg =>
    rw [if_pos htag]
    exact (Exact.pure trivial).congr (by simp [htag])
  rw [if_neg (not_not.mpr htag)]
  simp only [htag, forall_const, hid, not_false_eq_true, granuleLock_ok hrd]
  refine Exact.ok_bind (Exact.bind (findLockGranule_exact plat s _ _ .APT) ?_)
  rintro _ - rfl
  unfold HasApt
  cases hapt : lockable plat s (s.rd rdAddr).aptPa .APT with
  | false => exact (Exact.pure trivial).congr (by simp)
  | true =>
    simp only [Bool.not_true, Bool.false_eq_true, if_false, forall_const]
    cases aptFindMasterByRegionId (s.apt (s.rd rdAddr).aptPa)
        (aptSharingRegionId (x1.setWidth 32)) with
    | none => exact (Exact.pure trivial).congr (by simp)
    | some midx =>
      simp only [Option.some.injEq, forall_eq']
      cases aptFindMasterShareSlot ((s.apt (s.rd rdAddr).aptPa).masterMemory midx)
          (aptSharingSlaveId (x1.setWidth 32)) with
      | none => exact (Exact.pure trivial).congr (by simp)
      | some slot =>
        simp only [Option.some.injEq, forall_eq']
        have hw := (recordChange_setApt s.csmIds (lockable_state hapt)
          (a := aptMasterDropShare (s.apt (s.rd rdAddr).aptPa) midx slot)).wf h
        refine (Exact.bind (D := True) (revokeSlave_exact hw _ _ _) ?_).congr ?_
        · exact fun _ _ _ => Exact.pure trivial
        · rw [and_iff_left trivial]
          exact (SameSlaves.dropShare s _ midx slot).revokeReturns_iff rfl _ _

theorem handleRsiCsmDestroy_exact (hrd : (s.granule rdAddr).state = .RD) (x1 : Word) :
    Exact (handleRsiCsmDestroy plat s rdAddr x1) (CsmDestroyReturns plat s rdAddr x1)
      fun _ => True := by
  unfold handleRsiCsmDestroy CsmDestroyReturns
  simp only
  by_cases hid : x1.setWidth 8 = 0#8
  · rw [if_pos hid]
    exact (Exact.pure trivial).congr (by simp [hid])
  rw [if_neg hid]
  simp only [hid, ne_eq, not_false_eq_true, forall_const, granuleLock_ok hrd]
  refine (Exact.ok_bind (Exact.bind (D := True) (findLockGranule_exact plat s _ _ .APT) ?_)).congr
    (and_iff_left trivial)
  rintro _ - rfl
  refine Exact.ite_same (fun _ => Exact.pure trivial) fun _ => ?_
  cases aptFindMasterByRegionId (s.apt (s.rd rdAddr).aptPa) (x1.setWidth 8) with
  | none => exact Exact.pure trivial
  | some midx => exact Exact.ite_same (fun _ => Exact.pure trivial) fun _ => Exact.pure trivial

theorem rsiHandler_exact (h : Wf s F) {recAddr : Word} (hrec : (s.granule recAddr).state = .REC)
    (call : RsiCall) :
    Exact (rsiHandler plat s recAddr call) (CsmReturns plat s (s.recs recAddr).gRd call)
      fun _ => True := by
  have hrd := h.recRd recAddr hrec
  unfold rsiHandler CsmReturns
  cases call with
  | csmCreate x2 x3 => exact handleRsiCsmCreate_exact hrd x2 x3
  | csmShare x1 x2 x3 => exact handleRsiCsmShare_exact hrd x1 x2 x3
  | csmReserve x1 x2 x3 => exact handleRsiCsmReserve_exact hrd x1 x2 x3
  | csmAttach x1 => exact handleRsiCsmAttach_exact h hrd x1
  | csmDetachAndFree x1 => exact handleRsiCsmDetachAndFree_exact h hrd x1
  | csmRevoke x1 => exact handleRsiCsmRevoke_exact h hrd x1
  | csmDestroy x1 => exact handleRsiCsmDestroy_exact hrd x1
  | ipaStateSet x1 x2 x3 x4 => exact Exact.ok trivial
  | systemOff =>
    simp only [systemOffReboot]
    rw [granuleLock_ok hrd]
    exact Exact.ok_bind (Exact.pure trivial)

/-- The entries of the first phase, each of which is erased before its range is
unmapped. -/
theorem aptDestroySlaves_exact {aptAddr : Word} (l : List ℕ) :
    l.Nodup → ∀ (cur : State) F1 saved,
    Wf cur F1 → (∀ g, (cur.granule g).state = (s.granule g).state) → cur.rd = s.rd →
    (s.granule rdAddr).state = .RD → (s.granule aptAddr).state = .APT →
    (∀ i ∈ l, (cur.apt aptAddr).slaveUsedMask i = (s.apt aptAddr).slaveUsedMask i ∧
      (cur.apt aptAddr).slaveMemory i = (s.apt aptAddr).slaveMemory i) →
    Exact (aptDestroySlaves aptAddr (s.rd rdAddr).s2Ctx l cur saved)
      (InIpaSpace s ((usedSlaves (s.apt aptAddr) l).flatMap (slavePlaces rdAddr)))
        fun _ => True := by
  induction l with
  | nil =>
    intro _ cur F1 saved _ _ _ _ _ _
    exact (Exact.ok trivial).congr (by simp [usedSlaves, InIpaSpace])
  | cons sj rest ih =>
    intro hnd cur F1 saved hw hstate hrd1 hrd hapt hsame
    obtain ⟨hnot, hnd'⟩ := List.nodup_cons.mp hnd
    obtain ⟨hu, hmem⟩ := hsame sj (by simp)
    rw [aptDestroySlaves]
    simp only [hu, hmem]
    cases hused : (s.apt aptAddr).slaveUsedMask sj with
    | false =>
      have hl : usedSlaves (s.apt aptAddr) (sj :: rest) = usedSlaves (s.apt aptAddr) rest := by
        simp [usedSlaves, hused]
      simp only [Bool.not_false, if_true]
      rw [hl]
      exact ih hnd' cur F1 saved hw hstate hrd1 hrd hapt
        fun i hi => hsame i (List.mem_cons_of_mem _ hi)
    | true =>
      have hl : usedSlaves (s.apt aptAddr) (sj :: rest) =
          (s.apt aptAddr).slaveMemory sj :: usedSlaves (s.apt aptAddr) rest := by
        simp [usedSlaves, hused]
      simp only [Bool.not_true, Bool.false_eq_true, if_false]
      set cur1 := cur.setApt aptAddr (aptEraseSlave (cur.apt aptAddr) sj) with hcur1
      have hw1 : Wf cur1 F1 := (recordChange_setApt cur.csmIds (by rw [hstate, hapt])).wf hw
      have hrdc : (cur1.granule rdAddr).state = .RD := (hstate rdAddr).trans hrd
      have hun := unmapRange_exact hw1 hrdc
        ((s.apt aptAddr).slaveMemory sj).ipaStart ((s.apt aptAddr).slaveMemory sj).mapSize
      rw [show cur1.rd = s.rd from hrd1] at hun
      refine (Exact.bind (D := InIpaSpace s
        ((usedSlaves (s.apt aptAddr) rest).flatMap (slavePlaces rdAddr))) hun ?_).congr ?_
      · rintro s1 - ⟨F2, hr⟩
        refine ih hnd' s1 F2 _ hr.wf (fun g => (hr.same.state g).trans (hstate g))
          (hr.same.rd.trans hrd1) hrd hapt fun i hi => ?_
        have hne : i ≠ sj := by
          rintro rfl
          exact hnot hi
        obtain ⟨h1, h2⟩ := eraseSlave_other (cur.apt aptAddr) hne
        obtain ⟨h3, h4⟩ := hsame i (List.mem_cons_of_mem _ hi)
        rw [hr.same.apt, hcur1, State.setApt_same]
        exact ⟨h1.trans h3, h2.trans h4⟩
      · rw [hl, List.flatMap_cons]
        unfold InIpaSpace
        rw [List.forall_mem_append, slavePlaces, List.forall_mem_map]

/-- The second phase for the regions that the realm had borrowed. -/
theorem aptDestroyNotifyMaster_exact (saved : Word × Byte) :
    Exact (aptDestroyNotifyMaster plat rdAddr s saved)
      (lockable plat s saved.1 .RD = true → AptApart plat s saved.1) fun _ => True := by
  unfold aptDestroyNotifyMaster
  refine (Exact.bind (D := lockable plat s saved.1 .RD = true → AptApart plat s saved.1)
    (findLockGranule_exact plat s [] saved.1 .RD) ?_).congr (by simp)
  rintro _ - rfl
  cases lockable plat s saved.1 .RD with
  | false => exact (Exact.pure trivial).congr (by simp)
  | true =>
    simp only [Bool.not_true, Bool.false_eq_true, if_false, forall_const]
    refine (Exact.bind (D := True) (findLockGranule_exact plat s _ _ .APT) ?_).congr
      (and_iff_left trivial)
    rintro _ - rfl
    refine Exact.ite_same (fun _ => Exact.pure trivial) fun _ => ?_
    cases aptFindMasterByRegionId (s.apt (s.rd saved.1).aptPa) saved.2 with
    | none => exact Exact.pure trivial
    | some midx =>
      simp only
      split
      · exact Exact.pure trivial
      · exact Exact.pure trivial

theorem SameSlaves.apart_iff {s' : State} (h : SameSlaves s s') (rd : Word) :
    (lockable plat s' rd .RD = true → AptApart plat s' rd) ↔
      (lockable plat s rd .RD = true → AptApart plat s rd) := by
  rw [h.lockable_rd]
  refine forall_congr' fun hl => ?_
  unfold AptApart
  rw [h.rd rd (lockable_state hl)]

/-- The second phase for the shares that the realm had granted. -/
theorem revokeAll_exact (l : List (Word × Byte)) : ∀ (s1 : State) F1, Wf s1 F1 →
    Exact (l.foldlM (fun s share => revokeSlave plat s share.1 share.2 aptEraseSlave) s1)
      ((∀ x ∈ l, lockable plat s1 x.1 .RD = true → AptApart plat s1 x.1) ∧
        InIpaSpace s1 (revokeAllPlaces plat l s1)) fun _ => True := by
  induction l with
  | nil =>
    intro s1 F1 _
    exact (Exact.pure trivial).congr (by simp [revokeAllPlaces, InIpaSpace])
  | cons x rest ih =>
    intro s1 F1 hw
    rw [List.foldlM_cons]
    have hone := (@revokeSlave_exact plat s1 F1 hw x.1 x.2 aptEraseSlave).and_sat
      (@revokeSlave_sat plat s1 s1 F1 F1 [] (.refl hw) x.1 x.2 _ fun a i => .eraseSlave a i)
    refine (Exact.bind (D := (∀ y ∈ rest, lockable plat s1 y.1 .RD = true →
      AptApart plat s1 y.1) ∧
      InIpaSpace s1 (revokeAllPlaces plat rest
        { s1 with apt := revokedApts plat s1 x.1 x.2 aptEraseSlave })) hone ?_).congr ?_
    · rintro s2 - ⟨-, ha, F2, hc⟩
      have hss := (Cleared.refl hw).sameSlaves_of_apt hc ha
      refine (ih s2 F2 hc.wf).congr (and_congr (forall₂_congr fun y _ => ?_) ?_)
      · exact hss.apart_iff y.1
      · unfold InIpaSpace
        rw [hss.revokeAllPlaces_eq, hc.rd]
    · rw [List.forall_mem_cons, revokeAllPlaces]
      unfold RevokeReturns InIpaSpace
      rw [List.forall_mem_append]
      exact and_and_and_comm

theorem revokeAllPlaces_isRd (l : List (Word × Byte)) : ∀ (s1 : State) p,
    p ∈ revokeAllPlaces plat l s1 → (s1.granule p.1).state = .RD := by
  induction l with
  | nil => rintro s1 p ⟨⟩
  | cons x rest ih =>
    intro s1 p hp
    rw [revokeAllPlaces, List.mem_append] at hp
    rcases hp with hp | hp
    · unfold revokedPlaces at hp
      cases hi : revokedIndex plat s1 x.1 x.2 with
      | none =>
        rw [hi] at hp
        cases hp
      | some sj =>
        rw [hi] at hp
        obtain ⟨ipa, -, rfl⟩ := List.mem_map.mp hp
        exact (SameSlaves.of_revokedIndex hi).1
    · exact (ih _ p hp :)

/-- The second phase, in terms of a state that agrees on what it reads. -/
theorem aptDestroyPartners_exact {s0 s4 : State} {F4 : Tables} (hw : Wf s4 F4)
    (hss : SameSlaves s0 s4) (hrd0 : ∀ g, (s0.granule g).state = .RD → s4.rd g = s0.rd g)
    (entries shares : List (Word × Byte)) (res : SmcResult) :
    Exact (do
        let s5 ← entries.foldlM (aptDestroyNotifyMaster plat rdAddr) s4
        let s6 ← shares.foldlM
          (fun s share => revokeSlave plat s share.1 share.2 aptEraseSlave) s5
        return (s6, res))
      ((∀ x ∈ entries, lockable plat s0 x.1 .RD = true → AptApart plat s0 x.1) ∧
        (∀ x ∈ shares, lockable plat s0 x.1 .RD = true → AptApart plat s0 x.1) ∧
        InIpaSpace s0 (revokeAllPlaces plat shares s0)) fun _ => True := by
  have hnotify : Exact (entries.foldlM (aptDestroyNotifyMaster plat rdAddr) s4)
      (∀ x ∈ entries, lockable plat s0 x.1 .RD = true → AptApart plat s0 x.1)
      (fun cur => SameSlaves s4 cur ∧ ∃ F', Cleared s4 F4 [] cur F') := by
    refine Exact.foldlM (fun _ cur => SameSlaves s4 cur ∧ ∃ F', Cleared s4 F4 [] cur F') _
      ⟨.refl _, F4, .refl hw⟩ ?_
    rintro done x rest cur - ⟨hcur, F', hc⟩
    refine (((aptDestroyNotifyMaster_exact x).and_sat
      (aptDestroyNotifyMaster_sat hc rdAddr x)).congr ?_).imp ?_
    · exact (hss.trans hcur).apart_iff x.1
    · rintro s' ⟨-, hss', -, hc'⟩
      exact ⟨hcur.trans hss', hc'⟩
  refine Exact.bind hnotify ?_
  rintro s5 - ⟨hss5, F5, hc5⟩
  refine (Exact.bind (D := True) (revokeAll_exact shares s5 F5 hc5.wf)
    fun _ _ _ => Exact.pure trivial).congr ?_
  rw [and_iff_left trivial, (hss.trans hss5).revokeAllPlaces_eq]
  refine and_congr (forall₂_congr fun x _ => (hss.trans hss5).apart_iff x.1)
    (forall₂_congr fun p hp => ?_)
  rw [hc5.rd, hrd0 p.1 (revokeAllPlaces_isRd shares s0 p hp)]

/-- The phases of a destruction after the locks, from the realm's own entries on. -/
theorem smcAptDestroy_exact (h : Wf s F) (rdAddr aptAddr : Word) :
    Exact (smcAptDestroy plat s rdAddr aptAddr) (AptDestroyReturns plat s rdAddr aptAddr)
      fun _ => True := by
  unfold smcAptDestroy AptDestroyReturns
  refine (Exact.bind (D := AptDestroyReturns plat s rdAddr aptAddr)
    (findLockGranule_exact plat s [] rdAddr .RD) ?_).congr (by simp [AptDestroyReturns])
  rintro _ - rfl
  unfold AptDestroyReturns
  cases hr : lockable plat s rdAddr .RD with
  | false => exact (Exact.pure trivial).congr (by simp)
  | true =>
    have hrd := lockable_state hr
    simp only [Bool.not_true, Bool.false_eq_true, if_false, forall_const]
    by_cases hlink : (s.rd rdAddr).aptPa = aptAddr
    case neg =>
      rw [if_pos hlink]
      exact (Exact.pure trivial).congr (by simp [hlink])
    rw [if_neg (not_not.mpr hlink)]
    simp only [hlink, forall_const]
    unfold HasApt
    rw [hlink]
    set s1 : State := { s with tags := realmTagRemove s.tags rdAddr } with hs1
    have hw1 : Wf s1 F := (recordChange_registries s (realmTagRemove s.tags rdAddr) s.csmIds).wf h
    have hlock : lockable plat s1 aptAddr .APT = true → ¬ SelfWait plat [rdAddr] aptAddr := by
      rintro hl ⟨-, hm⟩
      rw [List.mem_singleton] at hm
      have hst := lockable_state hl
      rw [hm] at hst
      exact absurd (hst.symm.trans hrd) (by decide)
    refine (Exact.bind (D := lockable plat s aptAddr .APT = true ∧
      InIpaSpace s (aptDestroyPlaces plat s rdAddr aptAddr) ∧
      ∀ rd ∈ destroyPartners s aptAddr, lockable plat s rd .RD = true → AptApart plat s rd)
      (findLockGranule_exact plat s1 _ aptAddr .APT) ?_).congr
      ⟨And.right, fun hD => ⟨hlock hD.1, hD⟩⟩
    rintro _ - rfl
    refine assertThat_bind fun hl => ?_
    have hapt : (s.granule aptAddr).state = .APT := lockable_state hl
    have hnd : (List.range maxMemRegions).Nodup := List.nodup_range
    have hslaves :=
      (@aptDestroySlaves_exact s1 rdAddr aptAddr (List.range maxMemRegions) hnd s1 F []
      hw1 (fun _ => rfl) rfl hrd hapt fun _ _ => ⟨rfl, rfl⟩).and_sat
      (@aptDestroySlaves_sat s1 F aptAddr rdAddr hrd hapt (List.range maxMemRegions) hnd [] s1 F []
        (.refl hw1) (fun _ _ => rfl) ⟨rfl, rfl⟩ fun _ _ => ⟨rfl, rfl⟩)
    set shares := (usedMasters (s.apt aptAddr) (List.range maxMemRegions)).flatMap sharePartners
      with hshares
    set entries := (usedSlaves (s.apt aptAddr) (List.range maxMemRegions)).map
      fun m => (m.masterRdPa, m.regionId) with hentries
    refine (Exact.bind (D := (∀ x ∈ entries, lockable plat s x.1 .RD = true →
      AptApart plat s x.1) ∧
      (∀ x ∈ shares, lockable plat s x.1 .RD = true → AptApart plat s x.1) ∧
      InIpaSpace s (revokeAllPlaces plat shares (s.setState aptAddr .DELEGATED)))
        hslaves ?_).congr ?_
    · rintro ⟨s2, saved⟩ - ⟨-, hsaved, hoth, hmast, F2, hc2⟩
      rw [List.nil_append] at hsaved hc2
      simp only at hsaved hoth hmast hc2 ⊢
      subst hsaved
      obtain ⟨a', hm1, hm2⟩ := @aptDestroyMasters_spec aptAddr (s.apt aptAddr)
        (List.range maxMemRegions) hnd s2 [] fun i
          _ => by rw [hmast.1, hmast.2]; exact ⟨rfl, rfl⟩
      rw [hm1, hm2, List.nil_append]
      have hapt2 : (s2.granule aptAddr).state = .APT := by rw [hc2.state]; exact hapt
      set ids := removeRegions s2.csmIds (usedMasters (s.apt aptAddr) (List.range maxMemRegions))
      have hfree := plainChange_freeApt hc2.wf hapt2 a' ids
      have hcount := hc2.wf.plain aptAddr (by rw [hapt2]; rfl)
      rw [granuleUnlockTransition_ok (by
        rw [State.setState_self]
        exact decide_eq_true hcount)]
      set s4 := freeApt s2 aptAddr a' ids with hs4
      have hw4 : Wf s4 F2 := hfree.wf hc2.wf
      have hss := hc2.sameSlaves_freeApt hapt hoth a' ids
      have hpre : SameSlaves (s.setState aptAddr .DELEGATED) s4 :=
        ⟨hss.rdState, hss.aptState, hss.rd, hss.used, hss.memory⟩
      have hne : ∀ g, ((s.setState aptAddr .DELEGATED).granule g).state = .RD →
          g ≠ aptAddr := by
        rintro g hg rfl
        rw [State.setState_self] at hg
        cases hg
      refine (aptDestroyPartners_exact hw4 hpre (fun g hg => ?_) entries shares _).congr ?_
      · rw [hfree.rd g (hne g hg), hc2.rd]
        rfl
      · -- the table is no RD before or after
        have hlockable : ∀ g, lockable plat (s.setState aptAddr .DELEGATED) g .RD =
            lockable plat s g .RD := by
          intro g
          unfold lockable
          by_cases hg : g = aptAddr
          · rw [hg, State.setState_self, hapt]
            rfl
          · rw [State.setState_of_ne _ hg]
        simp only [hlockable]
        exact Iff.rfl
    · simp only [aptDestroyPlaces, destroyPartners, InIpaSpace, ← hshares, hentries,
        List.forall_mem_append, List.forall_mem_map]
      exact ⟨fun hD => ⟨⟨hD.1, hD.2.2.2⟩, hD.2.1, hD.2.2.1⟩,
        fun hD => ⟨hD.1.1, hD.2.1, hD.2.2, hD.1.2⟩⟩

end

/-- In every reachable state a CSM call of a running realm returns exactly under its
condition, the creation of a table always returns, and its destruction returns exactly
under its condition. -/
theorem csmHandlers_return_iff {plat : Platform} {s : State} (hs : Reachable plat s) :
    (∀ recAddr, recRunning s recAddr = true → ∀ call,
      (∃ out, rsiHandler plat s recAddr call = .ok out) ↔
        CsmReturns plat s (s.recs recAddr).gRd call) ∧
    (∀ rdAddr aptAddr, ∃ out, smcAptCreate plat s rdAddr aptAddr = .ok out) ∧
    ∀ rdAddr aptAddr, (∃ out, smcAptDestroy plat s rdAddr aptAddr = .ok out) ↔
      AptDestroyReturns plat s rdAddr aptAddr := by
  obtain ⟨F, hF⟩ := Reached.wf hs
  refine ⟨fun recAddr hrun call => ?_, fun rdAddr aptAddr => ?_, fun rdAddr aptAddr => ?_⟩
  · exact (rsiHandler_exact hF (recRunning_spec hrun).1 call).returns_iff
  · rcases smcAptCreate_cases plat hF rdAddr aptAddr with ⟨-, hc⟩ |
      ⟨-, -, hc⟩ | ⟨-, -, hc⟩
    · exact ⟨_, hc⟩
    · exact ⟨_, hc⟩
    · exact ⟨_, hc⟩
  · exact (smcAptDestroy_exact hF rdAddr aptAddr).returns_iff

/-- A realm with a table creates a region. -/
theorem csmCreate_returns_demo : ∃ s, Reachable demoPlat s ∧ recRunning s (gr 22) = true ∧
    ∃ out, rsiHandler demoPlat s (gr 22) (.csmCreate 0x1000#64 0x1000#64) = .ok out := by
  have hrun : replayEnds (demoKeys [16] [] []) demoPlat (fun _ _ => true) (demoRealm 16 1)
      (fun s => recRunning s (gr 22) && (s.recs (gr 22)).gRd == gr 16 &&
        lockable demoPlat s (s.rd (gr 16)).aptPa .APT) = true := by
    decide +kernel
  obtain ⟨s, hs, ht⟩ := replayEnds_reachable hrun
  simp only [Bool.and_eq_true, beq_iff_eq] at ht
  obtain ⟨⟨hrec, hrd⟩, hapt⟩ := ht
  refine ⟨s, hs, hrec, ((csmHandlers_return_iff hs).1 (gr 22) hrec _).mpr fun _ => ?_⟩
  rw [hrd]
  exact hapt

/-- A realm that was never given a table reaches a NULL granule. -/
theorem csmCreate_noApt_faults : ∃ s, Reachable demoPlat s ∧ recRunning s (gr 22) = true ∧
    rsiHandler demoPlat s (gr 22) (.csmCreate 0x1000#64 0x1000#64) = .error .nullGranule := by
  have hrun : replayEnds (demoKeys [16] [] []) demoPlat (fun _ _ => true)
      ((demoRealm 16 1).eraseIdx 25)
      (fun s => recRunning s (gr 22) &&
        match rsiHandler demoPlat s (gr 22) (.csmCreate 0x1000#64 0x1000#64) with
        | .error f => f == .nullGranule
        | .ok _ => false) = true := by
    decide +kernel
  obtain ⟨s, hs, ht⟩ := replayEnds_reachable hrun
  rw [Bool.and_eq_true] at ht
  obtain ⟨hrec, ht⟩ := ht
  refine ⟨s, hs, hrec, ?_⟩
  split at ht
  · next f hf =>
    rw [hf, beq_iff_eq.mp ht]
  · cases ht

end RmmCaec
