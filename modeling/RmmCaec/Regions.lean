import RmmCaec.RegionIds

/-!
# The shape of shared regions

The loops that mirror a page stop at the first enabled region that contains an
address, so the enabled regions of one table have to be disjoint, and they have to
lie in the protected half of the address space of the realm that uses the table.
A region that is borrowed is compared with all enabled regions when it is added, a
region that is created only with the borrowed ones, and neither is compared with the
size of the address space.
-/
namespace RmmCaec

open RadixForest Outcome Runs PackedSet

inductive AptRegionKind
  | MASTER
  | SLAVE
  deriving DecidableEq, Repr

/-- A range of addresses of one realm. -/
structure Region where
  start : Word
  size : Word
  deriving DecidableEq, Repr

namespace Region

/-- The end of a region, which need not fit into a word. -/
def finish (r : Region) : ℕ := r.start.toNat + r.size.toNat

/-- Whole granules, at least one of them. -/
structure Regular (r : Region) : Prop where
  startAligned : granuleAligned r.start = true
  sizeAligned : granuleAligned r.size = true
  nonempty : r.size ≠ 0#64

def Apart (r q : Region) : Prop := r.finish ≤ q.start.toNat ∨ q.finish ≤ r.start.toNat

theorem Apart.symm {r q : Region} (h : r.Apart q) : q.Apart r := Or.symm h

theorem regular_of_legal {start size : Word} (h : illegalRegion start size = false) :
    Regular ⟨start, size⟩ := by
  unfold illegalRegion at h
  simp only [Bool.or_eq_false_iff, beq_eq_false_iff_ne, Bool.not_eq_false'] at h
  exact ⟨h.1.2, h.2, h.1.1⟩

/-- The overlap test is exact on regions that do not wrap. -/
theorem apart_of_not_overlaps {r q : Region}
    (h : rangeOverlapsUl r.start r.size q.start q.size = false) (hr : r.size ≠ 0#64)
    (hq : q.size ≠ 0#64) (hrw : r.finish < 2 ^ 64) (hqw : q.finish < 2 ^ 64) : r.Apart q := by
  unfold finish at hrw hqw
  unfold rangeOverlapsUl at h
  rw [if_neg (by simp [hr, hq])] at h
  have hadd : ∀ a b : Word, a.toNat + b.toNat < 2 ^ 64 → (a + b).toNat = a.toNat + b.toNat := by
    intro a b hab
    rw [BitVec.toNat_add, Nat.mod_eq_of_lt hab]
  split at h
  · cases h
  · simp only [Bool.not_eq_false', Bool.or_eq_true, decide_eq_true_eq, BitVec.le_def,
      hadd _ _ hrw, hadd _ _ hqw] at h
    exact h

end Region

namespace Apt

variable {a a' : Apt}

/-- The region that a table keeps at an index, as master or as slave. -/
def region (a : Apt) : AptRegionKind × ℕ → Region
  | (.MASTER, i) => ⟨(a.masterMemory i).ipaStart, (a.masterMemory i).mapSize⟩
  | (.SLAVE, i) => ⟨(a.slaveMemory i).ipaStart, (a.slaveMemory i).mapSize⟩

def enabled (a : Apt) : AptRegionKind × ℕ → Bool
  | (.MASTER, i) => a.masterEnabledMask i
  | (.SLAVE, i) => a.slaveEnabledMask i

/-- No region is new and none has moved. -/
def Narrows (a a' : Apt) : Prop :=
  ∀ r, a'.enabled r = true → a.enabled r = true ∧ a'.region r = a.region r

/-- One region is new and the others are as before. -/
structure Gains (a a' : Apt) (new : AptRegionKind × ℕ) (r : Region) : Prop where
  region : a'.region new = r
  old : ∀ q, a'.enabled q = true → q ≠ new → a.enabled q = true ∧ a'.region q = a.region q

/-- The enabled regions are whole granules and apart from each other. -/
structure RegionsOk (a : Apt) : Prop where
  regular : ∀ r, a.enabled r = true → (a.region r).Regular
  apart : ∀ r q, a.enabled r = true → a.enabled q = true → r ≠ q →
    (a.region r).Apart (a.region q)

/-- The enabled regions end at or below an address. -/
def Below (a : Apt) (top : ℕ) : Prop := ∀ r, a.enabled r = true → (a.region r).finish ≤ top

theorem Narrows.refl (a : Apt) : Narrows a a := fun _ h => ⟨h, rfl⟩

theorem regionsOk_default : RegionsOk default where
  regular r h := by
    obtain ⟨kind, i⟩ := r
    cases kind <;> cases h
  apart r q h := by
    obtain ⟨kind, i⟩ := r
    cases kind <;> cases h

theorem below_default (top : ℕ) : Below default top := by
  rintro ⟨kind, i⟩ h
  cases kind <;> cases h

theorem RegionsOk.narrow (h : RegionsOk a) (hn : Narrows a a') : RegionsOk a' where
  regular r hr := by
    obtain ⟨h1, h2⟩ := hn r hr
    rw [h2]
    exact h.regular r h1
  apart r q hr hq hne := by
    obtain ⟨h1, h2⟩ := hn r hr
    obtain ⟨h3, h4⟩ := hn q hq
    rw [h2, h4]
    exact h.apart r q h1 h3 hne

theorem Below.narrow {top : ℕ} (h : Below a top) (hn : Narrows a a') : Below a' top := by
  intro r hr
  obtain ⟨h1, h2⟩ := hn r hr
  rw [h2]
  exact h r h1

theorem RegionsOk.gain {new : AptRegionKind × ℕ} {r : Region} (h : RegionsOk a)
    (hg : Gains a a' new r) (hr : r.Regular)
    (hapart : ∀ q, a.enabled q = true → q ≠ new → r.Apart (a.region q)) : RegionsOk a' where
  regular q hq := by
    by_cases hqn : q = new
    · rw [hqn, hg.region]
      exact hr
    · obtain ⟨h1, h2⟩ := hg.old q hq hqn
      rw [h2]
      exact h.regular q h1
  apart q p hq hp hne := by
    by_cases hqn : q = new
    · subst hqn
      obtain ⟨h1, h2⟩ := hg.old p hp (Ne.symm hne)
      rw [hg.region, h2]
      exact hapart p h1 (Ne.symm hne)
    · obtain ⟨h1, h2⟩ := hg.old q hq hqn
      by_cases hpn : p = new
      · subst hpn
        rw [hg.region, h2]
        exact (hapart q h1 hqn).symm
      · obtain ⟨h3, h4⟩ := hg.old p hp hpn
        rw [h2, h4]
        exact h.apart q p h1 h3 hne

theorem Below.gain {top : ℕ} {new : AptRegionKind × ℕ} {r : Region} (h : Below a top)
    (hg : Gains a a' new r) (hr : r.finish ≤ top) : Below a' top := by
  intro q hq
  by_cases hqn : q = new
  · rw [hqn, hg.region]
    exact hr
  · obtain ⟨h1, h2⟩ := hg.old q hq hqn
    rw [h2]
    exact h q h1

/-- Trimming narrows, since a slave region that is enabled is used. -/
theorem narrows_of_trimmed (h : Trimmed a a') (hok : AptOk a') : Narrows a a' := by
  rintro ⟨kind, i⟩ hi
  cases kind with
  | MASTER =>
    change a'.masterEnabledMask i = true at hi
    obtain ⟨-, h1, h2⟩ := h.region i
    rw [h.masterEnabled] at hi
    exact ⟨hi, by simp only [region, h1, h2]⟩
  | SLAVE =>
    obtain ⟨-, h2⟩ := h.slaveUsed i (hok.slaves.used i hi)
    exact ⟨h.slaveEnabled i hi, by simp only [region, h2]⟩

theorem narrows_addShare {idx : ℕ} {slaveId permission : Byte} {rd : Word}
    (h : aptMasterAddShare a idx slaveId rd permission = some a') : Narrows a a' := by
  unfold aptMasterAddShare at h
  split at h
  · cases h
  split at h
  · cases h
  simp only at h
  split at h
  · cases h
  split at h
  · cases h
  · cases h
    rintro ⟨kind, i⟩ hi
    refine ⟨hi, ?_⟩
    cases kind with
    | SLAVE => rfl
    | MASTER =>
      by_cases hk : i = idx
      · subst hk
        simp [region]
      · simp [region, hk]

theorem narrows_eraseMaster (hok : AptOk a) (idx : ℕ) : Narrows a (aptEraseMaster a idx) := by
  have hmask : ∀ i, (aptEraseMaster a idx).masterEnabledMask i = true →
      a.masterEnabledMask i = true ∧ i ≠ idx := by
    intro i hi
    change (aptDisableMasterIdx a idx).masterEnabledMask i = true at hi
    have hne : i ≠ idx := by
      rintro rfl
      rw [hok.disableMaster_mask i] at hi
      cases hi
    refine ⟨?_, hne⟩
    unfold aptDisableMasterIdx at hi
    split at hi
    · simpa [disableSwapPopMaster, hne] using hi
    · exact hi
  have hslave : (aptEraseMaster a idx).slaveEnabledMask = a.slaveEnabledMask ∧
      (aptEraseMaster a idx).slaveMemory = a.slaveMemory := by
    unfold aptEraseMaster aptDisableMasterIdx
    split <;> exact ⟨rfl, rfl⟩
  rintro ⟨kind, i⟩ hi
  cases kind with
  | MASTER =>
    obtain ⟨h1, h2⟩ := hmask i hi
    refine ⟨h1, ?_⟩
    simp only [region]
    rw [(aptEraseMaster_masters a idx).2, Function.update_of_ne h2]
  | SLAVE =>
    refine ⟨?_, ?_⟩
    · rw [← hi]
      simp only [enabled, hslave.1]
    · simp only [region, hslave.2]

theorem gains_addMaster {regionId : Byte} {start size : Word} {enableNow : Bool} {idx : ℕ}
    (h : aptAddMaster a regionId start size enableNow = some (a', idx)) :
    Gains a a' (.MASTER, idx) ⟨start, size⟩ := by
  unfold aptAddMaster at h
  split at h
  · cases h
  simp only at h
  split at h <;>
    · cases h
      refine ⟨by simp [region, enablePushMaster], ?_⟩
      rintro ⟨kind, i⟩ hi hne
      cases kind with
      | SLAVE => exact ⟨hi, rfl⟩
      | MASTER =>
        have hk : i ≠ idx := fun hc => hne (by rw [hc])
        simpa [enabled, region, enablePushMaster, hk] using hi

theorem gains_addSlave {masterId regionId : Byte} {rd start size : Word}
    {enableNow : Bool} {idx : ℕ}
    (h : aptAddSlave a masterId regionId rd start size enableNow = some (a', idx)) :
    Gains a a' (.SLAVE, idx) ⟨start, size⟩ := by
  unfold aptAddSlave at h
  split at h
  · cases h
  simp only at h
  split at h <;>
    · cases h
      refine ⟨by simp [region, enablePushSlave], ?_⟩
      rintro ⟨kind, i⟩ hi hne
      cases kind with
      | MASTER => exact ⟨hi, rfl⟩
      | SLAVE =>
        have hk : i ≠ idx := fun hc => hne (by rw [hc])
        simpa [enabled, region, enablePushSlave, hk] using hi

/-- The regions that the conflict search looks at: all enabled slave regions, and the
enabled master regions unless they are skipped. -/
theorem not_overlaps_of_no_conflict (hok : AptOk a) {start size : Word} {skip : Bool}
    (h : aptFindEnabledConflict a start size skip = false) {r : AptRegionKind × ℕ}
    (hr : a.enabled r = true) (hskip : skip = true → r.1 = .SLAVE) :
    rangeOverlapsUl start size (a.region r).start (a.region r).size = false := by
  unfold aptFindEnabledConflict at h
  rw [Bool.or_eq_false_iff] at h
  obtain ⟨kind, i⟩ := r
  cases kind with
  | MASTER =>
    have hs : skip = false := by
      cases skip with
      | false => rfl
      | true => cases hskip rfl
    obtain ⟨p, hp, rfl⟩ := (hok.masters.packed.mem i).mp hr
    have h1 := h.1
    rw [hs, Bool.not_false, Bool.true_and, List.any_eq_false] at h1
    simpa [region] using h1 p (List.mem_range.mpr hp)
  | SLAVE =>
    obtain ⟨p, hp, rfl⟩ := (hok.slaves.packed.mem i).mp hr
    have h2 := h.2
    rw [List.any_eq_false] at h2
    simpa [region] using h2 p (List.mem_range.mpr hp)

end Apt

/-- A master shares a region of the given size with the caller. -/
def reservable (plat : Platform) (s : State) (rdAddr x1 size : Word) : Bool :=
  let sharingId : BitVec 32 := x1.setWidth 32
  realmTagGetByRd s.tags rdAddr == some (aptSharingSlaveId sharingId) &&
    (realmTagRdByTag s.tags (aptSharingMasterId sharingId)).any fun masterRdPa =>
      masterRdPa != rdAddr && lockable plat s masterRdPa .RD &&
        lockable plat s (s.rd masterRdPa).aptPa .APT &&
        (aptFindMasterByRegionId (s.apt (s.rd masterRdPa).aptPa)
          (aptSharingRegionId sharingId)).any fun midx =>
            let m := (s.apt (s.rd masterRdPa).aptPa).masterMemory midx
            (aptFindMasterShareSlot m (aptSharingSlaveId sharingId)).isSome && m.mapSize == size

/-- The region that a call adds, with the table that it is added to. -/
def addedRegion (plat : Platform) (s : State) : Act → Option (Word × AptRegionKind × Region)
  | .rsi recAddr (.csmCreate x2 x3) =>
    let rdAddr := (s.recs recAddr).gRd
    let aptPa := (s.rd rdAddr).aptPa
    if recRunning s recAddr && !illegalRegion x2 x3 && lockable plat s aptPa .APT &&
        !aptFindEnabledConflict (s.apt aptPa) x2 x3 true &&
        (csmRegionIdAssign s.csmIds rdAddr).2.isSome &&
        (findFirst maxMemRegions fun i => !(s.apt aptPa).masterUsedMask i).isSome then
      some (aptPa, .MASTER, ⟨x2, x3⟩)
    else none
  | .rsi recAddr (.csmReserve x1 x2 x3) =>
    let rdAddr := (s.recs recAddr).gRd
    let aptPa := (s.rd rdAddr).aptPa
    if recRunning s recAddr && !illegalRegion x2 x3 && lockable plat s aptPa .APT &&
        reservable plat s rdAddr x1 x3 && !aptFindEnabledConflict (s.apt aptPa) x2 x3 false &&
        (findFirst maxMemRegions fun i => !(s.apt aptPa).slaveUsedMask i).isSome then
      some (aptPa, .SLAVE, ⟨x2, x3⟩)
    else none
  | _ => none

theorem aptAddMaster_free {a a' : Apt} {regionId : Byte} {start size : Word}
    {enable : Bool} {idx : ℕ}
    (h : aptAddMaster a regionId start size enable = some (a', idx)) :
    (findFirst maxMemRegions fun i => !a.masterUsedMask i).isSome = true := by
  unfold aptAddMaster at h
  split at h
  · cases h
  · next hfree => rw [hfree]; rfl

theorem aptAddSlave_free {a a' : Apt} {masterId regionId : Byte} {rd start size : Word}
    {enable : Bool} {idx : ℕ}
    (h : aptAddSlave a masterId regionId rd start size enable = some (a', idx)) :
    (findFirst maxMemRegions fun i => !a.slaveUsedMask i).isSome = true := by
  unfold aptAddSlave at h
  split at h
  · cases h
  · next hfree => rw [hfree]; rfl

/-- A table is new and reset, or its regions get fewer, or the call adds a region. -/
theorem AptChange.regions {plat : Platform} {s : State} {act : Act} {g : Word} {a : Apt}
    (h : AptChange plat s act g a) (hb : (s.granule g).state = .APT → AptBuilt (s.apt g)) :
    a = default ∨ ((s.granule g).state = .APT ∧ ((s.apt g).Narrows a ∨ ∃ kind idx r,
      addedRegion plat s act = some (g, kind, r) ∧ (s.apt g).Gains a (kind, idx) r)) := by
  cases h with
  | reset => exact .inl rfl
  | trim was ht =>
    exact .inr ⟨was, .inl (Apt.narrows_of_trimmed ht.trimmed (ht.built (hb was)).ok)⟩
  | @create recAddr x2 x3 ids id a idx call running own lock legal conflict drawn add =>
    subst call own
    refine .inr ⟨lockable_state lock,
      .inr ⟨.MASTER, idx, ⟨x2, x3⟩, ?_, Apt.gains_addMaster add⟩⟩
    simp only [addedRegion, running, legal, lock, conflict, drawn, aptAddMaster_free add,
      Bool.not_false, Option.isSome_some, Bool.and_self, if_true]
  | share call running own lock master slave find add =>
    exact .inr ⟨lockable_state lock, .inl (Apt.narrows_addShare add)⟩
  | @reserve recAddr x1 x2 x3 masterRdPa a midx idx call running own lock legal tag master other
      masterLock masterApt find slot size conflict add =>
    subst call own
    have hres : reservable plat s (s.recs recAddr).gRd x1 x3 = true := by
      simp only [reservable, tag, master, Option.any_some, masterLock, masterApt, find, slot, size,
        beq_self_eq_true, bne_iff_ne.mpr other, Bool.and_self]
    refine .inr ⟨lockable_state lock,
      .inr ⟨.SLAVE, idx, ⟨x2, x3⟩, ?_, Apt.gains_addSlave add⟩⟩
    simp only [addedRegion, running, legal, lock, conflict, hres, aptAddSlave_free add,
      Bool.not_false,
      Bool.and_self, if_true]
  | destroy call running own lock find unshared =>
    have hg := lockable_state lock
    exact .inr ⟨hg, .inl (Apt.narrows_eraseMaster (hb hg).ok _)⟩

/-- The calls about shared regions leave the realms alone. -/
theorem RsiDone.realms_same {plat : Platform} {s s1 : State} {F : Tables} {recAddr : Word}
    {res : RsiResult} {call : RsiCall} (hd : RsiDone plat s F recAddr s1 res call)
    (hc : (Act.rsi recAddr call).sharing = true) :
    s1.rd = s.rd ∧ ∀ g, (s1.granule g).state = (s.granule g).state := by
  cases call with
  | csmCreate x2 x3 =>
    rcases hd with ⟨rfl, -⟩ | ⟨ids, -, rfl, -⟩ | ⟨ids, id, -, rfl, -⟩ |
      ⟨-, -, -, -, ids, id, apt', idx, -, -, rfl⟩ <;> exact ⟨rfl, fun _ => rfl⟩
  | csmShare x1 x2 x3 =>
    rcases hd with ⟨rfl, -⟩ | ⟨-, -, _, _, _, _, -, -, -, -, rfl⟩ <;>
      exact ⟨rfl, fun _ => rfl⟩
  | csmReserve x1 x2 x3 =>
    rcases hd with rfl | ⟨-, -, -, _, _, _, _, -, -, -, -, -, -, -, -, -, rfl⟩ <;>
      exact ⟨rfl, fun _ => rfl⟩
  | csmDetachAndFree x1 =>
    rcases hd with ⟨rfl, -⟩ | ⟨-, _, _, -, -, hcl⟩
    · exact ⟨rfl, fun _ => rfl⟩
    · exact ⟨hcl.rd, hcl.state⟩
  | csmRevoke x1 =>
    rcases hd with ⟨rfl, -⟩ | ⟨-, _, _, _, -, -, hcl⟩
    · exact ⟨rfl, fun _ => rfl⟩
    · exact ⟨hcl.rd, hcl.state⟩
  | csmDestroy x1 =>
    rcases hd with ⟨rfl, -⟩ | ⟨-, -, _, -, -, rfl⟩ <;> exact ⟨rfl, fun _ => rfl⟩
  | csmAttach x1 => cases hc
  | ipaStateSet x1 x2 x3 x4 => cases hc
  | systemOff => cases hc

/-- A realm that was there before keeps its geometry and its table, unless it gets a
new one. -/
theorem StepDone.realm_kept {plat : Platform} {s s' : State} {F : Tables} {reply : Reply}
    {act : Act} (h : Wf s F) (hd : StepDone plat s F s' reply act) {rd : Word}
    (hrd : (s.granule rd).state = .RD) (hrd' : (s'.granule rd).state = .RD) :
    (s'.rd rd).s2Ctx = (s.rd rd).s2Ctx ∧
      ((s'.rd rd).aptPa = (s.rd rd).aptPa ∨ s'.apt (s'.rd rd).aptPa = default) := by
  cases hact : act.sharing with
  | false =>
    rcases (hd.calm h hact).rd rd hrd' with ⟨-, h1, h2⟩ | ⟨hc, -⟩
    · exact ⟨h2, .inl h1⟩
    · rw [hrd] at hc
      cases hc
  | true =>
    rcases Act.sharing_cases hact with ⟨rdAddr, aptAddr, rfl⟩ | ⟨rdAddr, aptAddr, rfl⟩ |
      ⟨recAddr, call, rfl⟩
    · obtain ⟨res, -, ⟨rfl, -⟩ | ⟨-, hdel, -, ⟨-, -, rfl⟩ | ⟨-, -, rfl⟩⟩⟩ := hd
      · exact ⟨rfl, .inl rfl⟩
      · exact ⟨rfl, .inl rfl⟩
      · by_cases hr : rd = rdAddr
        · subst hr
          have hz := (h.zero aptAddr (by rw [lockable_state hdel]; rfl)).2.2
          exact ⟨by simp [State.setState, State.setRd], .inr (by simpa [State.setState, State.setRd])⟩
        · simp [State.setState, State.setRd, hr]
    · obtain ⟨res, -, ⟨rfl, -⟩ | ⟨-, F', hf⟩⟩ := hd
      · exact ⟨rfl, .inl rfl⟩
      have hne : rd ≠ aptAddr := by
        rintro rfl
        rw [hf.isApt] at hrd
        cases hrd
      rw [hf.rd rd hne]
      exact ⟨rfl, .inl rfl⟩
    · rcases RealmRsiDone.cases hd with rfl | ⟨s1, res, -, hdone, -, hsame⟩
      · exact ⟨rfl, .inl rfl⟩
      · rw [hsame.rd, (hdone.realms_same hact).1]
        exact ⟨rfl, .inl rfl⟩

/-- The condition on a call: a region that it adds ends in the protected half of every
realm that uses the table and, if it is created, is apart from the regions created
before; and a realm is made while the granule at address zero, which its descriptor
names at first, is not a table with regions that reach beyond the realm's half. -/
def KeepsRegions (plat : Platform) (s : State) (act : Act) : Prop :=
  (∀ g kind r, addedRegion plat s act = some (g, kind, r) →
    (∀ rd, (s.granule rd).state = .RD → (s.rd rd).aptPa = g →
      r.finish ≤ 2 ^ (s.rd rd).s2Ctx.ipaBits / 2) ∧
    (kind = .MASTER → ∀ i, (s.apt g).masterEnabledMask i = true →
      r.Apart ((s.apt g).region (.MASTER, i)))) ∧
  ∀ rd paramsAddr p, act = .realmCreate rd paramsAddr (some p) →
    (s.granule 0#64).state = .APT →
    (s.apt 0#64).Below (2 ^ p.s2sz / 2)

/-- All tables have regular regions, and those of a realm lie in its protected half. -/
structure RegionsInv (s : State) : Prop where
  ok : ∀ g, (s.granule g).state = .APT → (s.apt g).RegionsOk
  below : ∀ rd, (s.granule rd).state = .RD → (s.granule (s.rd rd).aptPa).state = .APT →
    (s.apt (s.rd rd).aptPa).Below (2 ^ (s.rd rd).s2Ctx.ipaBits / 2)

/-- The protected half ends far below the last address. -/
theorem Wf.parSize_lt {s : State} {F : Tables} (h : Wf s F) {rd : Word}
    (hrd : (s.granule rd).state = .RD) : 2 ^ (s.rd rd).s2Ctx.ipaBits / 2 < 2 ^ 64 := by
  have h52 : 2 ^ (s.rd rd).s2Ctx.ipaBits ≤ 2 ^ 52 :=
    Nat.pow_le_pow_right (by omega) (h.holds.ctx rd hrd).bits_le_52
  omega

/-- What the checks of the call that adds a region establish. -/
theorem addedRegion_spec {plat : Platform} {s : State} {act : Act} {g : Word} {kind : AptRegionKind}
    {r : Region} (h : addedRegion plat s act = some (g, kind, r)) :
    ∃ recAddr, recRunning s recAddr = true ∧ (s.rd (s.recs recAddr).gRd).aptPa = g ∧
      (s.granule g).state = .APT ∧ r.Regular ∧
      aptFindEnabledConflict (s.apt g) r.start r.size (kind == .MASTER) = false := by
  unfold addedRegion at h
  split at h
  · simp only [Option.ite_none_right_eq_some, Bool.and_eq_true, Bool.not_eq_true',
      Option.some.injEq, Prod.mk.injEq] at h
    obtain ⟨⟨⟨⟨⟨⟨hrun, hlegal⟩, hapt⟩, hconf⟩, -⟩, -⟩, rfl, rfl, rfl⟩ := h
    exact ⟨_, hrun, rfl, lockable_state hapt, Region.regular_of_legal hlegal, hconf⟩
  · simp only [Option.ite_none_right_eq_some, Bool.and_eq_true, Bool.not_eq_true',
      Option.some.injEq, Prod.mk.injEq] at h
    obtain ⟨⟨⟨⟨⟨⟨hrun, hlegal⟩, hapt⟩, -⟩, hconf⟩, -⟩, rfl, rfl, rfl⟩ := h
    exact ⟨_, hrun, rfl, lockable_state hapt, Region.regular_of_legal hlegal, hconf⟩
  · cases h

/-- An allowed call adds a region apart from those of its table. -/
theorem RegionsInv.apart_of_added {plat : Platform} {s : State} {F : Tables} {act : Act} {g : Word}
    {kind : AptRegionKind} {r : Region} (hI : RegionsInv s) (hw : Wf s F)
    (hok : AptOk (s.apt g)) (hg : KeepsRegions plat s act)
    (hadd : addedRegion plat s act = some (g, kind, r)) {q : AptRegionKind × ℕ}
    (hq : (s.apt g).enabled q = true) : r.Apart ((s.apt g).region q) := by
  obtain ⟨recAddr, hrun, hpa, hapt, hreg, hconf⟩ := addedRegion_spec hadd
  obtain ⟨hfit, hmaster⟩ := hg.1 _ kind r hadd
  have hrd := hw.recRd recAddr (recRunning_spec hrun).1
  have htop := hw.parSize_lt hrd
  have hbelow := hI.below _ hrd (by rw [hpa, hapt])
  rw [hpa] at hbelow
  have hchecked : ((kind == .MASTER) = true → q.1 = .SLAVE) → r.Apart ((s.apt g).region q) := by
    intro hskip
    exact Region.apart_of_not_overlaps (Apt.not_overlaps_of_no_conflict hok hconf hq hskip)
      hreg.nonempty ((hI.ok _ hapt).regular q hq).nonempty ((hfit _ hrd hpa).trans_lt htop)
      ((hbelow q hq).trans_lt htop)
  obtain ⟨kind', i⟩ := q
  cases kind' with
  | SLAVE => exact hchecked fun _ => rfl
  | MASTER =>
    cases kind with
    | MASTER => exact hmaster rfl i hq
    | SLAVE => exact hchecked fun hc => by cases hc

theorem RegionsInv.step {plat : Platform} {s s' : State} {F : Tables} {reply : Reply} {act : Act}
    (hI : RegionsInv s) (hw : Wf s F)
    (hb : ∀ g, (s.granule g).state = .APT → AptBuilt (s.apt g)) (hg : KeepsRegions plat s act)
    (hd : StepDone plat s F s' reply act)
    (hnew : ∀ rd, (s'.granule rd).state = .RD → (s.granule rd).state = .RD ∨ ∃ paramsAddr p,
      act = .realmCreate rd paramsAddr (some p) ∧ (s'.rd rd).s2Ctx = paramsCtx plat p) :
    RegionsInv s' where
  ok g hga := by
    rcases (hd.aptChange hw hga).regions (hb g) with hz |
      ⟨hga', hn | ⟨kind, idx, r, hadd, hgain⟩⟩
    · rw [hz]
      exact Apt.regionsOk_default
    · exact (hI.ok g hga').narrow hn
    · obtain ⟨-, -, -, -, hreg, -⟩ := addedRegion_spec hadd
      exact (hI.ok g hga').gain hgain hreg fun q hq _ =>
        hI.apart_of_added hw (hb g hga').ok hg hadd hq
  below rd hrd hapt := by
    by_cases hold : (s.granule rd).state = .RD
    · obtain ⟨hctx, hpa | hz⟩ := hd.realm_kept hw hold hrd
      · rw [hpa] at hapt ⊢
        rw [hctx]
        rcases (hd.aptChange hw hapt).regions (hb _) with hz |
          ⟨hapt', hn | ⟨kind, idx, r, hadd, hgain⟩⟩
        · rw [hz]
          exact Apt.below_default _
        · exact (hI.below rd hold hapt').narrow hn
        · exact (hI.below rd hold hapt').gain hgain ((hg.1 _ kind r hadd).1 rd hold rfl)
      · rw [hz]
        exact Apt.below_default _
    · -- a new realm names the granule at address zero
      obtain hc | ⟨paramsAddr, p, rfl, hctx⟩ := hnew rd hrd
      · exact absurd hc hold
      have hcalm := hd.calm hw rfl
      obtain ⟨hc, -⟩ | ⟨-, hz⟩ := hcalm.rd rd hrd
      · exact absurd hc hold
      rw [hz] at hapt ⊢
      have hapt' := (hcalm.isApt _).mp hapt
      rw [hcalm.apt _ hapt', hctx]
      exact hg.2 rd paramsAddr p rfl hapt'

theorem Reached.regionsInv {plat : Platform} {s : State} (h : Reached plat (KeepsRegions plat) s) :
    RegionsInv s := by
  have hinit : RegionsInv initState := by
    constructor
    · intro g hg
      cases hg
    · intro rd hrd
      cases hrd
  refine Reach.invariant hinit ?_ h
  intro s act s' hs hI hg hn
  obtain ⟨F, hF⟩ := Reached.wf hs
  obtain ⟨⟨reply, hd⟩, -⟩ := hn.done hF
  exact hI.step hF (Reached.aptBuilt hs) hg hd fun rd hrd => (hn.realm_new hF hrd).imp_right
    fun ⟨paramsAddr, p, hact, hctx, _⟩ => ⟨paramsAddr, p, hact, hctx⟩

/-- What the propagation loops rely on. -/
structure RegionsWellFormed (a : Apt) (parSize : ℕ) : Prop where
  startAligned : ∀ r, a.enabled r = true → granuleAligned (a.region r).start = true
  sizeAligned : ∀ r, a.enabled r = true → granuleAligned (a.region r).size = true
  nonempty : ∀ r, a.enabled r = true → (a.region r).size ≠ 0#64
  noWrap : ∀ r, a.enabled r = true → (a.region r).start.toNat + (a.region r).size.toNat < 2 ^ 64
  inside : ∀ r, a.enabled r = true →
    (a.region r).start.toNat + (a.region r).size.toNat ≤ parSize
  disjoint : ∀ r q, a.enabled r = true → a.enabled q = true → r ≠ q →
    (a.region r).start.toNat + (a.region r).size.toNat ≤ (a.region q).start.toNat ∨
    (a.region q).start.toNat + (a.region q).size.toNat ≤ (a.region r).start.toNat

/-- In a run whose calls all meet the condition, the regions of every realm's table are
well formed. -/
theorem regionsWellFormed_of_kept {plat : Platform} {s : State}
    (h : Reached plat (KeepsRegions plat) s) {rd : Word} (hrd : (s.granule rd).state = .RD)
    (hapt : (s.granule (s.rd rd).aptPa).state = .APT) :
    RegionsWellFormed (s.apt (s.rd rd).aptPa) (2 ^ (s.rd rd).s2Ctx.ipaBits / 2) := by
  obtain ⟨F, hF⟩ := h.wf
  have hI := h.regionsInv
  have hok := hI.ok _ hapt
  have hbelow := hI.below rd hrd hapt
  exact ⟨fun r hr => (hok.regular r hr).startAligned, fun r hr => (hok.regular r hr).sizeAligned,
    fun r hr => (hok.regular r hr).nonempty, fun r hr => (hbelow r hr).trans_lt (hF.parSize_lt hrd),
    hbelow, hok.apart⟩

/-- A test of the condition, in two megabytes that are protected in every realm and for the
regions in the packed list. -/
def keepsRegionsTest (plat : Platform) (s : State) (act : Act) : Bool :=
  (match addedRegion plat s act with
    | none => true
    | some (g, kind, r) => decide (r.finish ≤ 2 ^ 21) && (kind == .SLAVE ||
      (List.range (s.apt g).enabledMr.len).all fun p =>
        let q := (s.apt g).region (.MASTER, (s.apt g).enabledMr.index p)
        decide (r.finish ≤ q.start.toNat ∨ q.finish ≤ r.start.toNat))) &&
    (s.granule 0#64).state != .APT

theorem keepsRegions_of_test {plat : Platform} {guard : State → Act → Prop}
    {s : State} {act : Act}
    (hs : Reached plat guard s) (h : keepsRegionsTest plat s act = true) :
    KeepsRegions plat s act := by
  rw [keepsRegionsTest, Bool.and_eq_true, bne_iff_ne] at h
  refine ⟨fun g kind r hadd => ?_, fun _ _ _ _ hc => absurd hc h.2⟩
  rw [hadd] at h
  simp only [Bool.and_eq_true, decide_eq_true_eq, Bool.or_eq_true, beq_iff_eq, List.all_eq_true,
    List.mem_range] at h
  obtain ⟨⟨htop, happart⟩, -⟩ := h
  refine ⟨fun rd hrd _ => htop.trans ?_, fun hkind i hi => ?_⟩
  · obtain ⟨F, hF⟩ := hs.wf
    have hctx := hF.holds.ctx rd hrd
    have h22 : 2 ^ 22 ≤ 2 ^ (s.rd rd).s2Ctx.ipaBits := by
      refine Nat.pow_le_pow_right (by omega) (le_trans ?_ hctx.half)
      have := hctx.start_le
      unfold levelLsb
      omega
    omega
  · obtain ⟨_, -, -, hapt, -, -⟩ := addedRegion_spec hadd
    obtain ⟨p, hp, rfl⟩ := ((Reached.aptBuilt hs g hapt).ok.masters.packed.mem i).mp hi
    rcases happart with hslave | hall
    · rw [hslave] at hkind
      cases hkind
    · exact hall p hp

set_option maxRecDepth 100000 in
/-- A master with two regions left of three, and a slave with a region of its own behind the one
it has reserved. -/
theorem regionsWellFormed_of_kept_demo : ∃ s, Reached demoPlat (KeepsRegions demoPlat) s ∧
    (s.apt (gr 21)).enabled (.MASTER, 1) = true ∧ (s.apt (gr 21)).enabled (.MASTER, 2) = true ∧
    RegionsWellFormed (s.apt (gr 21)) (2 ^ 31) ∧
    (s.apt (gr 69)).enabled (.MASTER, 0) = true ∧ (s.apt (gr 69)).enabled (.SLAVE, 1) = true ∧
    RegionsWellFormed (s.apt (gr 69)) (2 ^ 31) := by
  have hrun : replayEnds demoRegionsKeys demoPlat (keepsRegionsTest demoPlat) demoRegions (fun s =>
      ((s.granule (gr 16)).state == .RD && (s.rd (gr 16)).aptPa == gr 21 &&
        (s.rd (gr 16)).s2Ctx.ipaBits == 32 && (s.granule (gr 21)).state == .APT &&
        (s.apt (gr 21)).enabled (.MASTER, 1) && (s.apt (gr 21)).enabled (.MASTER, 2)) &&
      ((s.granule (gr 64)).state == .RD && (s.rd (gr 64)).aptPa == gr 69 &&
        (s.rd (gr 64)).s2Ctx.ipaBits == 32 && (s.granule (gr 69)).state == .APT &&
        (s.apt (gr 69)).enabled (.MASTER, 0) && (s.apt (gr 69)).enabled (.SLAVE, 1))) = true := by
    decide +kernel
  obtain ⟨s, hs, ht⟩ :=
    replayEnds_reached_of (fun _ _ hs hok => keepsRegions_of_test hs hok) hrun
  simp only [Bool.and_eq_true, beq_iff_eq] at ht
  obtain ⟨⟨⟨⟨⟨⟨hrd, hpa⟩, hbits⟩, hapt⟩, h1⟩, h2⟩,
      ⟨⟨⟨⟨hrd', hpa'⟩, hbits'⟩, hapt'⟩, h0'⟩, h1'⟩ := ht
  have hwf := regionsWellFormed_of_kept hs hrd (by rw [hpa, hapt])
  have hwf' := regionsWellFormed_of_kept hs hrd' (by rw [hpa', hapt'])
  rw [hpa, hbits] at hwf
  rw [hpa', hbits'] at hwf'
  exact ⟨s, hs, h1, h2, hwf, h0', h1', hwf'⟩

set_option maxRecDepth 100000 in
/-- A realm creates the same region twice. -/
theorem regions_overlap : ∃ s, Reachable demoPlat s ∧ (s.granule (gr 16)).state = .RD ∧
    (s.granule (s.rd (gr 16)).aptPa).state = .APT ∧
    ¬ RegionsWellFormed (s.apt (s.rd (gr 16)).aptPa) (2 ^ (s.rd (gr 16)).s2Ctx.ipaBits / 2) := by
  have hrun : replayEnds (demoKeys [16] [] [0]) demoPlat (fun _ _ => true)
      (demoRealm 16 1 ++ [.rsi (gr 22) (.csmCreate 0x1000#64 0x1000#64),
        .recEnter (gr 22) (gr 0) .run false, .rsi (gr 22) (.csmCreate 0x1000#64 0x1000#64)])
      (fun s => (s.granule (gr 16)).state == .RD &&
      (s.granule (s.rd (gr 16)).aptPa).state == .APT &&
        (s.apt (s.rd (gr 16)).aptPa).enabled (.MASTER, 0) &&
        (s.apt (s.rd (gr 16)).aptPa).enabled (.MASTER, 1) &&
        (s.apt (s.rd (gr 16)).aptPa).region (.MASTER, 0) == ⟨0x1000#64, 0x1000#64⟩ &&
        (s.apt (s.rd (gr 16)).aptPa).region (.MASTER, 1) == ⟨0x1000#64, 0x1000#64⟩) = true := by
    decide +kernel
  obtain ⟨s, hs, ht⟩ := replayEnds_reachable hrun
  simp only [Bool.and_eq_true, beq_iff_eq] at ht
  obtain ⟨⟨⟨⟨⟨hrd, hapt⟩, h0⟩, h1⟩, hr0⟩, hr1⟩ := ht
  refine ⟨s, hs, hrd, hapt, fun hwf => ?_⟩
  have := hwf.disjoint _ _ h0 h1 (by decide)
  rw [hr0, hr1] at this
  revert this
  decide

end RmmCaec
