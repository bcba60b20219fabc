import RmmCaec.AptInvariants

/-!
# Region identifiers

The registry of region identifiers and the master regions of all attachment
tables describe the same set: every identifier in use belongs to exactly one used
master region, and every used master region has its identifier registered.
-/
namespace RmmCaec

open RadixForest Outcome Runs

/-- Slot `i` of the registry is in use for an identifier. -/
def CsmIdRegistry.Has (r : CsmIdRegistry) (i : ℕ) (id : Byte) : Prop :=
  i < configMaxCsmRegionIds ∧ (r.entries i).inUse = true ∧ (r.entries i).regionId = id

/-- The identifiers in use are not zero and stand in one slot each. -/
structure CsmIdRegistry.Ok (r : CsmIdRegistry) : Prop where
  nonzero : ∀ i id, r.Has i id → id ≠ 0#8
  distinct : ∀ i j id, r.Has i id → r.Has j id → i = j

/-- The identifiers in use. -/
def CsmIdRegistry.ids (r : CsmIdRegistry) : Set Byte := {id | ∃ i, r.Has i id}

namespace CsmIdRegistry

variable {r r' : CsmIdRegistry}

theorem Ok.congr (h : r.Ok) (he : r'.entries = r.entries) : r'.Ok ∧ r'.ids = r.ids := by
  have hhas : ∀ i id, r'.Has i id ↔ r.Has i id := fun i id => by rw [Has, Has, he]
  refine ⟨⟨fun i id hi => h.nonzero i id ((hhas i id).mp hi), fun i j id hi hj =>
    h.distinct i j id ((hhas i id).mp hi) ((hhas j id).mp hj)⟩, ?_⟩
  ext id
  exact exists_congr fun i => hhas i id

theorem collides_iff (r : CsmIdRegistry) (id : Byte) :
    csmRegionIdCollides r id = true ↔ id ∈ r.ids := by
  unfold csmRegionIdCollides
  constructor
  · intro h
    obtain ⟨i, hi⟩ := Option.isSome_iff_exists.mp h
    obtain ⟨hlt, hp⟩ := findFirst_some hi
    simp only [Bool.and_eq_true, beq_iff_eq] at hp
    exact ⟨i, hlt, hp.1, hp.2⟩
  · rintro ⟨i, hlt, hu, hid⟩
    rw [Option.isSome_iff_ne_none]
    intro hnone
    have := findFirst_none hnone hlt
    simp [hu, hid] at this

theorem next_spec (r : CsmIdRegistry) :
    (csmRegionIdNext r).1.entries = r.entries ∧ (csmRegionIdNext r).2 ≠ 0#8 := by
  unfold csmRegionIdNext
  split
  · next h => exact ⟨rfl, by simp [h]⟩
  · next h => exact ⟨rfl, h⟩

/-- A draw changes no entry, and what it returns is free and not zero. -/
theorem draw_spec (n : ℕ) (r : CsmIdRegistry) :
    (csmRegionIdDraw n r).1.entries = r.entries ∧ ∀ id, (csmRegionIdDraw n r).2 = some id →
      id ≠ 0#8 ∧ id ∉ r.ids := by
  induction n generalizing r with
  | zero => exact ⟨(next_spec r).1, by rintro id ⟨⟩⟩
  | succ n ih =>
    obtain ⟨hent, hne⟩ := next_spec r
    have hids : (csmRegionIdNext r).1.ids = r.ids := by
      ext id
      exact exists_congr fun i => by rw [Has, Has, hent]
    rw [csmRegionIdDraw]
    cases hc : csmRegionIdCollides (csmRegionIdNext r).1 (csmRegionIdNext r).2 with
    | true =>
      obtain ⟨h1, h2⟩ := ih (csmRegionIdNext r).1
      simp only [hc, if_true]
      exact ⟨h1.trans hent, fun id hid => by rw [← hids]; exact h2 id hid⟩
    | false =>
      simp only [hc, Bool.false_eq_true, if_false]
      refine ⟨hent, fun id hid => ?_⟩
      cases hid
      refine ⟨hne, fun hmem => ?_⟩
      rw [← hids, ← collides_iff, hc] at hmem
      cases hmem

theorem assign_none {owner : Word} (h : r.Ok) (ha : csmRegionIdAssign r owner = (r', none)) :
    r'.Ok ∧ r'.ids = r.ids := by
  refine h.congr ?_
  unfold csmRegionIdAssign at ha
  split at ha
  · cases ha
    rfl
  · split at ha
    · next hdraw =>
      cases ha
      rw [← (draw_spec configMaxCsmRegionIds r).1, hdraw]
    · cases ha

/-- Assigning puts a new identifier into a free slot. -/
theorem assign_some {owner : Word} {id : Byte} (ha : csmRegionIdAssign r owner = (r', some id)) :
    id ≠ 0#8 ∧ id ∉ r.ids ∧ ∃ slot < configMaxCsmRegionIds,
      (r.entries slot).inUse = false ∧
      r'.entries = Function.update r.entries slot ⟨owner, id, true⟩ := by
  unfold csmRegionIdAssign at ha
  split at ha
  · cases ha
  · next slot hslot =>
    obtain ⟨hlt, hfree⟩ := findFirst_some hslot
    split at ha
    · cases ha
    · next r1 candidate hdraw =>
      cases ha
      obtain ⟨hent, hid⟩ := draw_spec configMaxCsmRegionIds r
      rw [hdraw] at hent hid
      obtain ⟨h0, hnew⟩ := hid id rfl
      simp only at hent
      refine ⟨h0, hnew, slot, hlt, by simpa using hfree, ?_⟩
      rw [hent]

/-- The registry with one more identifier. -/
theorem Ok.insert (h : r.Ok) {slot : ℕ} {owner : Word} {id : Byte} (h0 : id ≠ 0#8)
    (hnew : id ∉ r.ids) (hlt : slot < configMaxCsmRegionIds)
    (hfree : (r.entries slot).inUse = false)
    (he : r'.entries = Function.update r.entries slot ⟨owner, id, true⟩) :
    r'.Ok ∧ r'.ids = Insert.insert id r.ids := by
  have hhas : ∀ i x, r'.Has i x ↔ (i = slot ∧ x = id) ∨ r.Has i x := by
    intro i x
    by_cases hi : i = slot
    · subst hi
      simp [Has, he, hfree, hlt, eq_comm]
    · simp [Has, he, hi]
  refine ⟨⟨?_, ?_⟩, ?_⟩
  · intro i x hx
    rcases (hhas i x).mp hx with ⟨-, rfl⟩ | hx
    · exact h0
    · exact h.nonzero i x hx
  · intro i j x hi hj
    rcases (hhas i x).mp hi with ⟨hi', rfl⟩ | hi' <;>
      rcases (hhas j _).mp hj with ⟨hj', hx⟩ | hj'
    · rw [hi', hj']
    · exact absurd ⟨j, hj'⟩ hnew
    · exact absurd ⟨i, hx ▸ hi'⟩ hnew
    · exact h.distinct i j x hi' hj'
  · ext x
    simp only [ids, Set.mem_ofPred_eq, hhas, Set.mem_insert_iff]
    constructor
    · rintro ⟨i, ⟨-, rfl⟩ | hx⟩
      · exact .inl rfl
      · exact .inr ⟨i, hx⟩
    · rintro (rfl | ⟨i, hx⟩)
      · exact ⟨slot, .inl ⟨rfl, rfl⟩⟩
      · exact ⟨i, .inr hx⟩

theorem remove_spec (h : r.Ok) (id : Byte) :
    (csmRegionIdRemove r id).Ok ∧ (csmRegionIdRemove r id).ids = r.ids \ {id} := by
  unfold csmRegionIdRemove
  split
  · next hnone =>
    refine ⟨h, (Set.sdiff_singleton_eq_self ?_).symm⟩
    rintro ⟨i, hlt, hu, hid⟩
    have := findFirst_none hnone hlt
    simp [hu, hid] at this
  · next slot hslot =>
    obtain ⟨hlt, hp⟩ := findFirst_some hslot
    simp only [Bool.and_eq_true, beq_iff_eq] at hp
    have hslot' : r.Has slot id := ⟨hlt, hp.1, hp.2⟩
    set r1 : CsmIdRegistry :=
      { r with entries := Function.update r.entries slot ⟨0#64, 0#8, false⟩ }
    have hhas : ∀ i x, r1.Has i x ↔ r.Has i x ∧ i ≠ slot := by
      intro i x
      by_cases hi : i = slot
      · subst hi
        simp [Has, r1]
      · simp [Has, r1, hi]
    refine ⟨⟨fun i x hx => h.nonzero i x ((hhas i x).mp hx).1, fun i j x hi hj =>
      h.distinct i j x ((hhas i x).mp hi).1 ((hhas j x).mp hj).1⟩, ?_⟩
    ext x
    simp only [ids, Set.mem_ofPred_eq, hhas, Set.mem_sdiff, Set.mem_singleton_iff]
    constructor
    · rintro ⟨i, hx, hi⟩
      refine ⟨⟨i, hx⟩, ?_⟩
      rintro rfl
      exact hi (h.distinct i slot x hx hslot')
    · rintro ⟨⟨i, hx⟩, hne⟩
      refine ⟨i, hx, ?_⟩
      rintro rfl
      exact hne (hx.2.2.symm.trans hslot'.2.2)

end CsmIdRegistry

/-- Entry `k` of the table at granule `g` is a used master region with an identifier. -/
def Owns (s : State) (g : Word) (k : ℕ) (id : Byte) : Prop :=
  (s.granule g).state = .APT ∧ k < maxMemRegions ∧ (s.apt g).masterUsedMask k = true ∧
    ((s.apt g).masterMemory k).regionId = id

structure RegionIdsOk (s : State) : Prop where
  registry : s.csmIds.Ok
  ids : ∀ id, id ∈ s.csmIds.ids ↔ ∃ g k, Owns s g k id
  unique : ∀ g k g' k' id, Owns s g k id → Owns s g' k' id → g = g' ∧ k = k'

namespace RegionIdsOk

variable {s s' : State}

/-- No region and no identifier changes. -/
theorem same (h : RegionIdsOk s) (ho : ∀ g k id, Owns s' g k id ↔ Owns s g k id)
    (hr : s'.csmIds.Ok ∧ s'.csmIds.ids = s.csmIds.ids) : RegionIdsOk s' where
  registry := hr.1
  ids id := by
    rw [hr.2, h.ids]
    exact exists_congr fun g => exists_congr fun k => (ho g k id).symm
  unique g k g' k' id h1 h2 := h.unique g k g' k' id ((ho _ _ _).mp h1) ((ho _ _ _).mp h2)

/-- A region with a new identifier. -/
theorem add (h : RegionIdsOk s) (g0 : Word) (k0 : ℕ) (id0 : Byte) (hnew : id0 ∉ s.csmIds.ids)
    (ho : ∀ g k id, Owns s' g k id ↔ (g = g0 ∧ k = k0 ∧ id = id0) ∨ Owns s g k id)
    (hr : s'.csmIds.Ok ∧ s'.csmIds.ids = Insert.insert id0 s.csmIds.ids) : RegionIdsOk s' where
  registry := hr.1
  ids id := by
    rw [hr.2, Set.mem_insert_iff, h.ids]
    constructor
    · rintro (rfl | ⟨g, k, hg⟩)
      · exact ⟨g0, k0, (ho _ _ _).mpr (.inl ⟨rfl, rfl, rfl⟩)⟩
      · exact ⟨g, k, (ho _ _ _).mpr (.inr hg)⟩
    · rintro ⟨g, k, hg⟩
      rcases (ho _ _ _).mp hg with ⟨-, -, hid⟩ | hg
      · exact .inl hid
      · exact .inr ⟨g, k, hg⟩
  unique g k g' k' id h1 h2 := by
    rcases (ho _ _ _).mp h1 with ⟨rfl, rfl, rfl⟩ | h1 <;>
      rcases (ho _ _ _).mp h2 with ⟨rfl, rfl, hid⟩ | h2
    · exact ⟨rfl, rfl⟩
    · exact absurd ((h.ids _).mpr ⟨_, _, h2⟩) hnew
    · exact absurd ((h.ids _).mpr ⟨_, _, hid ▸ h1⟩) hnew
    · exact h.unique _ _ _ _ _ h1 h2

/-- Some regions go with their identifiers. -/
theorem remove (h : RegionIdsOk s) (gone : Word → ℕ → Prop) (ids : Set Byte)
    (hgone : ∀ id, id ∈ ids ↔ ∃ g k, gone g k ∧ Owns s g k id)
    (ho : ∀ g k id, Owns s' g k id ↔ Owns s g k id ∧ ¬ gone g k)
    (hr : s'.csmIds.Ok ∧ s'.csmIds.ids = s.csmIds.ids \ ids) : RegionIdsOk s' where
  registry := hr.1
  ids id := by
    rw [hr.2, Set.mem_sdiff, h.ids]
    constructor
    · rintro ⟨⟨g, k, hg⟩, hid⟩
      refine ⟨g, k, (ho _ _ _).mpr ⟨hg, fun hc => hid ?_⟩⟩
      exact (hgone id).mpr ⟨g, k, hc, hg⟩
    · rintro ⟨g, k, hg⟩
      obtain ⟨hg, hn⟩ := (ho _ _ _).mp hg
      refine ⟨⟨g, k, hg⟩, fun hid => ?_⟩
      obtain ⟨g', k', hc, hg'⟩ := (hgone id).mp hid
      obtain ⟨rfl, rfl⟩ := h.unique _ _ _ _ _ hg hg'
      exact hn hc
  unique g k g' k' id h1 h2 :=
    h.unique g k g' k' id ((ho _ _ _).mp h1).1 ((ho _ _ _).mp h2).1

end RegionIdsOk

/-- Tables change only in ways that keep their master regions. -/
theorem owns_congr {s s' : State}
    (hstate : ∀ g, (s'.granule g).state = .APT ↔ (s.granule g).state = .APT)
    (hapt : ∀ g, (s.granule g).state = .APT →
      (s'.apt g).masterUsedMask = (s.apt g).masterUsedMask ∧
      ∀ k, ((s'.apt g).masterMemory k).regionId = ((s.apt g).masterMemory k).regionId)
    (g : Word) (k : ℕ) (id : Byte) : Owns s' g k id ↔ Owns s g k id := by
  unfold Owns
  rw [hstate]
  constructor
  · rintro ⟨hg, hk, hu, hid⟩
    obtain ⟨h1, h2⟩ := hapt g hg
    exact ⟨hg, hk, by rw [← h1, hu], by rw [← h2, hid]⟩
  · rintro ⟨hg, hk, hu, hid⟩
    obtain ⟨h1, h2⟩ := hapt g hg
    exact ⟨hg, hk, by rw [h1, hu], by rw [h2, hid]⟩

/-- The master regions of a table after one was added. -/
theorem aptAddMaster_owns {a a' : Apt} {id0 : Byte} {start size : Word} {enable : Bool} {idx : ℕ}
    (h : aptAddMaster a id0 start size enable = some (a', idx)) :
    idx < maxMemRegions ∧ a.masterUsedMask idx = false ∧
      a'.masterUsedMask = Function.update a.masterUsedMask idx true ∧
      a'.masterMemory = Function.update a.masterMemory idx
        ⟨id0, start, size, 0#8, fun _ => default⟩ := by
  unfold aptAddMaster at h
  split at h
  · cases h
  · next i hi =>
    obtain ⟨hlt, hfree⟩ := findFirst_some hi
    simp only at h
    split at h <;>
      · cases h
        exact ⟨hlt, by simpa using hfree, rfl, rfl⟩

theorem aptAddSlave_masters {a a' : Apt} {masterId regionId : Byte} {rd start size : Word}
    {enable : Bool} {idx : ℕ}
    (h : aptAddSlave a masterId regionId rd start size enable = some (a', idx)) :
    a'.masterUsedMask = a.masterUsedMask ∧ a'.masterMemory = a.masterMemory := by
  unfold aptAddSlave at h
  split at h
  · cases h
  · simp only at h
    split at h <;>
      · cases h
        exact ⟨rfl, rfl⟩

theorem aptMasterAddShare_masters {a a' : Apt} {idx : ℕ} {slaveId permission : Byte} {rd : Word}
    (h : aptMasterAddShare a idx slaveId rd permission = some a') :
    a'.masterUsedMask = a.masterUsedMask ∧
      ∀ k, (a'.masterMemory k).regionId = (a.masterMemory k).regionId := by
  unfold aptMasterAddShare at h
  split at h
  · cases h
  split at h
  · cases h
  simp only at h
  split at h
  · cases h
  split at h
  · cases h
  · cases h
    refine ⟨rfl, fun k => ?_⟩
    by_cases hk : k = idx
    · subst hk
      simp
    · simp [hk]

theorem aptEraseMaster_masters (a : Apt) (idx : ℕ) :
    (aptEraseMaster a idx).masterUsedMask = Function.update a.masterUsedMask idx false ∧
      (aptEraseMaster a idx).masterMemory = Function.update a.masterMemory idx default := by
  unfold aptEraseMaster aptDisableMasterIdx
  split <;> exact ⟨rfl, rfl⟩

/-- One table is replaced. -/
theorem owns_setApt {s : State} (s' : State) {aptPa : Word} {a : Apt}
    (hapt : (s.granule aptPa).state = .APT)
    (hstate : ∀ g, (s'.granule g).state = (s.granule g).state)
    (ha : s'.apt = Function.update s.apt aptPa a) (g : Word) (k : ℕ) (id : Byte) :
    Owns s' g k id ↔ (g = aptPa ∧ k < maxMemRegions ∧ a.masterUsedMask k = true ∧
      (a.masterMemory k).regionId = id) ∨ (g ≠ aptPa ∧ Owns s g k id) := by
  unfold Owns
  rw [hstate, ha]
  by_cases hg : g = aptPa
  · subst hg
    simp [hapt]
  · simp [hg]

theorem removeRegions_spec {r : CsmIdRegistry} (l : List MasterMem) (h : r.Ok) :
    (removeRegions r l).Ok ∧ (removeRegions r l).ids =
      r.ids \ {id | ∃ m ∈ l, m.regionId = id} := by
  induction l generalizing r with
  | nil => exact ⟨h, by simp [removeRegions]⟩
  | cons m l ih =>
    obtain ⟨h1, h2⟩ := CsmIdRegistry.remove_spec h m.regionId
    obtain ⟨h3, h4⟩ := ih h1
    refine ⟨h3, ?_⟩
    change (removeRegions (csmRegionIdRemove r m.regionId) l).ids = _
    rw [h4, h2]
    ext id
    simp only [Set.mem_sdiff, Set.mem_singleton_iff, Set.mem_ofPred_eq, List.mem_cons,
      exists_eq_or_imp, not_or]
    tauto

namespace RegionIdsOk

variable {s : State} {aptPa : Word}

/-- A new master region with an identifier drawn for it. -/
theorem addMaster (h : RegionIdsOk s) (hapt : (s.granule aptPa).state = .APT)
    {owner start size : Word}
    {ids : CsmIdRegistry} {id : Byte} {enable : Bool} {apt' : Apt} {idx : ℕ}
    (ha : csmRegionIdAssign s.csmIds owner = (ids, some id))
    (hadd : aptAddMaster (s.apt aptPa) id start size enable = some (apt', idx)) :
    RegionIdsOk (({ s with csmIds := ids }).setApt aptPa apt') := by
  obtain ⟨h0, hnew, slot, hlt, hfree, hent⟩ := CsmIdRegistry.assign_some ha
  obtain ⟨hk, hun, hu, hm⟩ := aptAddMaster_owns hadd
  refine h.add aptPa idx id hnew (fun g k x => ?_) (h.registry.insert h0 hnew hlt hfree hent)
  refine (owns_setApt (({ s with csmIds := ids }).setApt aptPa apt') hapt (fun _ => rfl) rfl g k
    x).trans ?_
  rw [hu, hm]
  by_cases hg : g = aptPa
  · subst hg
    by_cases hki : k = idx
    · subst hki
      simp [hk, Owns, hun, eq_comm (a := id)]
    · simp [hki, Owns, hapt]
  · simp [hg]

/-- A master region goes with its identifier. -/
theorem eraseMaster (h : RegionIdsOk s) (hapt : (s.granule aptPa).state = .APT) {id : Byte}
    {midx : ℕ} (hfind : aptFindMasterByRegionId (s.apt aptPa) id = some midx) :
    RegionIdsOk { s.setApt aptPa (aptEraseMaster (s.apt aptPa) midx) with
      csmIds := csmRegionIdRemove s.csmIds id } := by
  obtain ⟨hk, hp⟩ := findFirst_some hfind
  simp only [Bool.and_eq_true, beq_iff_eq] at hp
  obtain ⟨hu, hm⟩ := aptEraseMaster_masters (s.apt aptPa) midx
  refine h.remove (fun g k => g = aptPa ∧ k = midx) {id} (fun x => ?_) (fun g k x => ?_)
    (CsmIdRegistry.remove_spec h.registry _)
  · constructor
    · rintro rfl
      exact ⟨aptPa, midx, ⟨rfl, rfl⟩, hapt, hk, hp.1, hp.2⟩
    · rintro ⟨g, k, ⟨rfl, rfl⟩, -, -, -, hid⟩
      exact hid.symm.trans hp.2
  · refine (owns_setApt (s.setApt aptPa (aptEraseMaster (s.apt aptPa) midx)) hapt
      (fun _ => rfl) rfl
      g k x).trans ?_
    rw [hu, hm]
    by_cases hg : g = aptPa
    · subst hg
      by_cases hki : k = midx
      · subst hki
        simp
      · simp [hki, Owns, hapt]
    · simp [hg]

end RegionIdsOk

theorem RsiDone.regionIds {plat : Platform} {s s1 : State} {F : Tables} {recAddr : Word}
    {res : RsiResult} {call : RsiCall} (h : RegionIdsOk s)
    (hc : (Act.rsi recAddr call).sharing = true)
    (hd : RsiDone plat s F recAddr s1 res call) : RegionIdsOk s1 := by
  set aptPa := (s.rd (s.recs recAddr).gRd).aptPa
  have hids : s.csmIds.Ok ∧ s.csmIds.ids = s.csmIds.ids := ⟨h.registry, rfl⟩
  cases call with
  | csmCreate x2 x3 =>
    rcases hd with ⟨rfl, -⟩ | ⟨ids, ha, rfl, -⟩ | ⟨ids, id, ha, rfl, -⟩ |
      ⟨-, -, hapt, -, ids, id, apt', idx, ha, hadd, rfl⟩
    · exact h
    · exact h.same (fun _ _ _ => Iff.rfl) (CsmIdRegistry.assign_none h.registry ha)
    · -- the identifier that was drawn is given back
      obtain ⟨h0, hnew, slot, hlt, hfree, hent⟩ := CsmIdRegistry.assign_some ha
      obtain ⟨h1, h2⟩ := h.registry.insert h0 hnew hlt hfree hent
      obtain ⟨h3, h4⟩ := CsmIdRegistry.remove_spec h1 id
      refine h.same (fun _ _ _ => Iff.rfl) ⟨h3, ?_⟩
      change (csmRegionIdRemove ids id).ids = s.csmIds.ids
      rw [h4, h2]
      exact Set.insert_sdiff_self_of_notMem hnew
    · exact h.addMaster (lockable_state hapt) ha hadd
  | csmShare x1 x2 x3 =>
    rcases hd with ⟨rfl, -⟩ | ⟨-, hapt, _, _, _, _, -, -, -, hadd, rfl⟩
    · exact h
    · obtain ⟨hu, hm⟩ := aptMasterAddShare_masters hadd
      refine h.same (owns_congr (fun _ => Iff.rfl) fun g _ => ?_) hids
      by_cases hg : g = aptPa
      · subst hg
        rw [State.setApt_same]
        exact ⟨hu, hm⟩
      · rw [State.setApt_of_ne s hg]
        exact ⟨rfl, fun _ => rfl⟩
  | csmReserve x1 x2 x3 =>
    rcases hd with rfl | ⟨-, hapt, -, _, _, _, _, -, -, -, -, -, -, -, -, hadd, rfl⟩
    · exact h
    · obtain ⟨hu, hm⟩ := aptAddSlave_masters hadd
      refine h.same (owns_congr (fun _ => Iff.rfl) fun g _ => ?_) hids
      by_cases hg : g = aptPa
      · subst hg
        rw [State.setApt_same]
        exact ⟨hu, fun k => by rw [hm]⟩
      · rw [State.setApt_of_ne s hg]
        exact ⟨rfl, fun _ => rfl⟩
  | csmDetachAndFree x1 =>
    rcases hd with ⟨rfl, -⟩ | ⟨-, _, _, -, -, hcl⟩
    · exact h
    · refine h.same (owns_congr (fun g => by rw [hcl.state]) fun g _ => ?_)
        (by rw [hcl.csmIds]; exact hids)
      exact ⟨(hcl.apt g).trimmed.masterUsed, fun k => ((hcl.apt g).trimmed.region k).1⟩
  | csmRevoke x1 =>
    rcases hd with ⟨rfl, -⟩ | ⟨-, _, _, _, -, -, hcl⟩
    · exact h
    · refine h.same (owns_congr (fun g => by rw [hcl.state]) fun g _ => ?_)
        (by rw [hcl.csmIds]; exact hids)
      exact ⟨(hcl.apt g).trimmed.masterUsed, fun k => ((hcl.apt g).trimmed.region k).1⟩
  | csmDestroy x1 =>
    rcases hd with ⟨rfl, -⟩ | ⟨-, hapt, midx, hfind, -, rfl⟩
    · exact h
    exact h.eraseMaster (lockable_state hapt) hfind
  | csmAttach x1 => cases hc
  | ipaStateSet x1 x2 x3 x4 => cases hc
  | systemOff => cases hc

theorem AptFreed.regionIds {plat : Platform} {s s' : State} {F F' : Tables} {rdAddr aptAddr : Word}
    (h : RegionIdsOk s) (hf : AptFreed plat s F rdAddr aptAddr s' F') : RegionIdsOk s' := by
  have hcongr : ∀ g k id, g ≠ aptAddr → (Owns s' g k id ↔ Owns s g k id) := by
    intro g k id hg
    unfold Owns
    rw [hf.state g hg, (hf.apt g hg).trimmed.masterUsed, ((hf.apt g hg).trimmed.region k).1]
  refine h.remove (fun g _ => g = aptAddr)
    {id | ∃ m ∈ usedMasters (s.apt aptAddr) (List.range maxMemRegions), m.regionId = id}
    (fun id => ?_) (fun g k id => ?_) ?_
  · simp only [usedMasters, Set.mem_ofPred_eq, List.mem_map, List.mem_filter, List.mem_range]
    constructor
    · rintro ⟨m, ⟨k, ⟨hk, hu⟩, rfl⟩, hid⟩
      exact ⟨aptAddr, k, rfl, hf.isApt, hk, hu, hid⟩
    · rintro ⟨g, k, rfl, -, hk, hu, hid⟩
      exact ⟨_, ⟨k, ⟨hk, hu⟩, rfl⟩, hid⟩
  · by_cases hg : g = aptAddr
    · subst hg
      simp [Owns, hf.freed]
    · simp [hg, hcongr g k id hg]
  · rw [hf.csmIds]
    exact removeRegions_spec _ h.registry

theorem StepDone.regionIds {plat : Platform} {s s' : State} {F : Tables} {reply : Reply} {act : Act}
    (hw : Wf s F) (h : RegionIdsOk s) (hd : StepDone plat s F s' reply act) : RegionIdsOk s' := by
  have hids : s.csmIds.Ok ∧ s.csmIds.ids = s.csmIds.ids := ⟨h.registry, rfl⟩
  cases hact : act.sharing with
  | false =>
    have hc := hd.calm hw hact
    refine h.same (owns_congr hc.isApt fun g hg => ?_) (by rw [hc.csmIds]; exact hids)
    rw [hc.apt g hg]
    exact ⟨rfl, fun _ => rfl⟩
  | true =>
    rcases Act.sharing_cases hact with ⟨rdAddr, aptAddr, rfl⟩ | ⟨rdAddr, aptAddr, rfl⟩ |
      ⟨recAddr, call, rfl⟩
    · obtain ⟨res, -, ⟨rfl, -⟩ | ⟨hne, hdel, -, hs⟩⟩ := hd
      · exact h
      -- the new table has no region
      have hblank := (hw.zero aptAddr (by rw [lockable_state hdel]; rfl)).2.2
      have hsame : s'.apt = s.apt ∧ s'.csmIds = s.csmIds ∧ ∀ g, g ≠ aptAddr →
          (s'.granule g).state = (s.granule g).state := by
        rcases hs with ⟨-, -, rfl⟩ | ⟨-, -, rfl⟩
        · exact ⟨rfl, rfl, fun g hg => by rw [State.setState_of_ne s hg]⟩
        · exact ⟨rfl, rfl, fun g hg => by rw [State.setState_of_ne _ hg]; rfl⟩
      refine h.same (fun g k id => ?_) (by rw [hsame.2.1]; exact hids)
      unfold Owns
      rw [hsame.1]
      by_cases hg : g = aptAddr
      · subst hg
        have : (s.apt g).masterUsedMask k = false := by
          rw [hblank]
          rfl
        simp [this]
      · rw [hsame.2.2 g hg]
    · obtain ⟨res, -, ⟨rfl, -⟩ | ⟨-, F', hf⟩⟩ := hd
      · exact h
      · exact hf.regionIds h
    · rcases RealmRsiDone.cases hd with rfl | ⟨s1, res, -, hdone, -, hsame⟩
      · exact h
      · have h1 := hdone.regionIds h hact
        refine h1.same (fun g k id => ?_)
          ⟨by rw [hsame.csmIds]; exact h1.registry, by rw [hsame.csmIds]⟩
        rw [Owns, Owns, hsame.state, hsame.apt]

theorem regionIdsOk_init : RegionIdsOk initState where
  registry := by
    constructor
    · rintro i id ⟨-, hu, -⟩
      cases hu
    · rintro i j id ⟨-, hu, -⟩
      cases hu
  ids id := by
    constructor
    · rintro ⟨i, -, hu, -⟩
      cases hu
    · rintro ⟨g, k, hg, -⟩
      cases hg
  unique g k g' k' id hg := by cases hg.1

theorem Reached.regionIds {plat : Platform} {guard : State → Act → Prop} {s : State}
    (h : Reached plat guard s) : RegionIdsOk s := by
  refine Reached.records regionIdsOk_init ?_ h
  intro s F act s' reply _ hF hI _ hd
  exact hd.regionIds hF hI

/-- In every reachable state the identifiers in use are not zero, pairwise distinct,
and exactly those of the used master regions, which have different ones. -/
theorem regionIds_unique {plat : Platform} {s : State} (h : Reachable plat s) :
    (∀ i < configMaxCsmRegionIds, (s.csmIds.entries i).inUse = true →
      (s.csmIds.entries i).regionId ≠ 0#8) ∧
    (∀ i < configMaxCsmRegionIds, ∀ j < configMaxCsmRegionIds,
    (s.csmIds.entries i).inUse = true →
      (s.csmIds.entries j).inUse = true →
      (s.csmIds.entries i).regionId = (s.csmIds.entries j).regionId → i = j) ∧
    (∀ id, (∃ i < configMaxCsmRegionIds, (s.csmIds.entries i).inUse = true ∧
        (s.csmIds.entries i).regionId = id) ↔ ∃ g k, Owns s g k id) ∧
    ∀ g k g' k' id, Owns s g k id → Owns s g' k' id → g = g' ∧ k = k' := by
  have hok := Reached.regionIds h
  refine ⟨fun i hi hu => hok.registry.nonzero i _ ⟨hi, hu, rfl⟩, fun i hi j hj hu hu' heq =>
    hok.registry.distinct i j _ ⟨hi, hu, rfl⟩ ⟨hj, hu', heq.symm⟩,
      fun id => ?_, hok.unique⟩
  rw [← hok.ids]
  exact exists_congr fun i => by rw [CsmIdRegistry.Has]

set_option maxRecDepth 100000 in
/-- Two realms with three regions, after a fourth one was destroyed: nobody has its identifier. -/
theorem regionIds_unique_demo : ∃ s, Reachable demoPlat s ∧ Owns s (gr 21) 1 2#8 ∧
    Owns s (gr 21) 2 3#8 ∧ Owns s (gr 69) 0 4#8 ∧
    (∀ id ∈ [2#8, 3#8, 4#8], ∃ i < configMaxCsmRegionIds,
    (s.csmIds.entries i).inUse = true ∧
      (s.csmIds.entries i).regionId = id) ∧ ∀ g k, ¬ Owns s g k 1#8 := by
  have hrun : replayEnds demoRegionsKeys demoPlat (fun _ _ => true) demoRegions (fun s =>
      (s.granule (gr 21)).state == .APT && (s.granule (gr 69)).state == .APT &&
        ((s.apt (gr 21)).masterUsedMask 1 && ((s.apt (gr 21)).masterMemory 1).regionId == 2#8) &&
        ((s.apt (gr 21)).masterUsedMask 2 && ((s.apt (gr 21)).masterMemory 2).regionId == 3#8) &&
        ((s.apt (gr 69)).masterUsedMask 0 && ((s.apt (gr 69)).masterMemory 0).regionId == 4#8) &&
        (List.range configMaxCsmRegionIds).all fun i =>
          !(s.csmIds.entries i).inUse || (s.csmIds.entries i).regionId != 1#8) = true := by
    decide +kernel
  obtain ⟨s, hs, ht⟩ := replayEnds_reachable hrun
  simp only [Bool.and_eq_true, beq_iff_eq, List.all_eq_true, List.mem_range, Bool.or_eq_true,
    Bool.not_eq_true', bne_iff_ne] at ht
  obtain ⟨⟨⟨⟨⟨hmaster, hslave⟩, h1⟩, h2⟩, h0⟩, hgone⟩ := ht
  obtain ⟨-, -, hids, -⟩ := regionIds_unique hs
  have howns1 : Owns s (gr 21) 1 2#8 := ⟨hmaster, by decide, h1.1, h1.2⟩
  have howns2 : Owns s (gr 21) 2 3#8 := ⟨hmaster, by decide, h2.1, h2.2⟩
  have howns0 : Owns s (gr 69) 0 4#8 := ⟨hslave, by decide, h0.1, h0.2⟩
  refine ⟨s, hs, howns1, howns2, howns0, fun id hid => (hids id).mpr ?_, fun g k hown => ?_⟩
  · simp only [List.mem_cons, List.not_mem_nil, or_false] at hid
    rcases hid with rfl | rfl | rfl
    · exact ⟨_, _, howns1⟩
    · exact ⟨_, _, howns2⟩
    · exact ⟨_, _, howns0⟩
  · obtain ⟨i, hi, huse, hid⟩ := (hids 1#8).mpr ⟨g, k, hown⟩
    rcases hgone i hi with hfree | hne
    · rw [hfree] at huse
      cases huse
    · exact hne hid

end RmmCaec
