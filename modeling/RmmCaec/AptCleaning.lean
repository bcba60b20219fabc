import RmmCaec.AttachRegion
import RmmCaec.FirstMatch
import RmmCaec.RegionIds

/-!
# What the destruction of a table cleans up

Destroying the table of a realm looks up its partners by the entries that the table
holds, and in each partner the first share or the first slave entry that fits. This
leaves behind a share that was granted and never reserved, the second entry of a slave
that reserved a region twice, and pages that a partner has folded into a block. What is
left is described exactly by the ranks of shares and entries among those that fit.
-/
namespace RmmCaec

open RadixForest Outcome Runs FirstMatch

/-- The number of used slave entries of the same region before an entry. -/
def slaveRank (a : Apt) (sj : ℕ) : ℕ :=
  rank (fun i => (a.slaveMemory i).regionId) a.slaveUsedMask sj

/-- The first entry of each region of a list is gone, and nothing else changed. -/
structure SlavesDropped (a : Apt) (ids : List Byte) (a' : Apt) : Prop where
  used : a'.slaveUsedMask =
    ids.foldl (removeFirst maxMemRegions fun i => (a.slaveMemory i).regionId) a.slaveUsedMask
  entry : ∀ i, a'.slaveUsedMask i = true → a.slaveUsedMask i = true ∧
    a'.slaveMemory i = a.slaveMemory i ∧ a'.slaveEnabledMask i = a.slaveEnabledMask i
  masters : SameMasters a a'
  enabled : a'.masterEnabledMask = a.masterEnabledMask

theorem aptFindSlave_eq_first (a : Apt) (id : Byte) : aptFindSlaveByRegionId a id =
    first maxMemRegions (fun i => (a.slaveMemory i).regionId) a.slaveUsedMask id := rfl

theorem SlavesDropped.find {a a' : Apt} {ids : List Byte} (h : SlavesDropped a ids a') (id : Byte) :
    aptFindSlaveByRegionId a' id =
      first maxMemRegions (fun i => (a.slaveMemory i).regionId) a'.slaveUsedMask id := by
  rw [aptFindSlave_eq_first]
  exact first_congr (fun j _ hu => by rw [(h.entry j hu).2.1]) id

theorem slavesDropped (a : Apt) (ids : List Byte) :
    SlavesDropped a ids (ids.foldl dropSlaveOf a) := by
  induction ids using List.reverseRecOn with
  | nil => exact ⟨rfl, fun _ hu => ⟨hu, rfl, rfl⟩, ⟨rfl, rfl⟩, rfl⟩
  | append_singleton ids id ih =>
    rw [List.foldl_append, List.foldl_cons, List.foldl_nil]
    set b := ids.foldl dropSlaveOf a
    have hfind := ih.find id
    unfold dropSlaveOf
    rw [hfind]
    cases hf : first maxMemRegions (fun i => (a.slaveMemory i).regionId) b.slaveUsedMask id with
    | none =>
      refine ⟨?_, ih.entry, ih.masters, ih.enabled⟩
      rw [List.foldl_append, ← ih.used, List.foldl_cons, List.foldl_nil, removeFirst, hf]
    | some sj =>
      have hmask : (aptEraseSlave b sj).slaveUsedMask = Function.update b.slaveUsedMask sj false ∧
          (∀ i, i ≠ sj → (aptEraseSlave b sj).slaveMemory i = b.slaveMemory i ∧
            (aptEraseSlave b sj).slaveEnabledMask i = b.slaveEnabledMask i) ∧
          (aptEraseSlave b sj).masterEnabledMask = b.masterEnabledMask := by
        unfold aptEraseSlave aptReleaseSlave aptDisableSlaveIdx disableSwapPopSlave
        split
        · exact ⟨rfl, fun i hi => ⟨Function.update_of_ne hi _ _,
            Function.update_of_ne hi _ _⟩, rfl⟩
        · exact ⟨rfl, fun i hi => ⟨Function.update_of_ne hi _ _, rfl⟩, rfl⟩
      obtain ⟨hused, hother, hen⟩ := hmask
      have hsame := eraseSlave_sameMasters b sj
      refine ⟨?_, fun i hu => ?_, ⟨hsame.1.trans ih.masters.1, hsame.2.trans ih.masters.2⟩,
        hen.trans ih.enabled⟩
      · rw [List.foldl_append, ← ih.used, List.foldl_cons, List.foldl_nil, removeFirst, hf]
        exact hused
      · simp only [hused] at hu
        have hi : i ≠ sj := by
          rintro rfl
          simp at hu
        rw [Function.update_of_ne hi] at hu
        obtain ⟨h1, h2, h3⟩ := ih.entry i hu
        obtain ⟨h4, h5⟩ := hother i hi
        exact ⟨h1, h4.trans h2, h5.trans h3⟩

namespace SlavesDropped

variable {a a' : Apt} {ids : List Byte} (h : SlavesDropped a ids a')

include h

theorem used_iff {sj : ℕ} (hj : sj < maxMemRegions) : a'.slaveUsedMask sj = true ↔
    a.slaveUsedMask sj = true ∧ ids.count (a.slaveMemory sj).regionId ≤ slaveRank a sj := by
  rw [h.used]
  exact (foldl_removeFirst ids _ hj).1

/-- The next entry that is found. -/
theorem find_eq_some_iff {id : Byte} {sj : ℕ} : aptFindSlaveByRegionId a' id = some sj ↔
    sj < maxMemRegions ∧ a.slaveUsedMask sj = true ∧ (a.slaveMemory sj).regionId = id ∧
      slaveRank a sj = ids.count id := by
  rw [h.find, h.used]
  exact first_foldl ids

end SlavesDropped

/-- The number of shares of the same realm before a share of a region. -/
def shareRank (m : MasterMem) (sk : ℕ) : ℕ :=
  rank (fun k => (m.shares k).slaveRdPa) (fun k => (m.shares k).inUse) sk

/-- How many regions of a list are the master region with an index. -/
def regionCount (a : Apt) (ids : List Byte) (mi : ℕ) : ℕ :=
  ids.countP fun id => aptFindMasterByRegionId a id == some mi

/-- A region with a number of the first shares of a realm freed. -/
structure SharesFreed (rdAddr : Word) (m : MasterMem) (count : ℕ) (m' : MasterMem) : Prop where
  regionId : m'.regionId = m.regionId
  ipaStart : m'.ipaStart = m.ipaStart
  mapSize : m'.mapSize = m.mapSize
  slot : ∀ k, m'.shares k = { m.shares k with inUse := (m'.shares k).inUse }
  inUse : (fun k => (m'.shares k).inUse) = (List.replicate count rdAddr).foldl
    (removeFirst csmMaxMasterShares fun k => (m.shares k).slaveRdPa) fun k => (m.shares k).inUse

/-- Shares of a realm are freed in the regions of a list, and nothing else changed. -/
structure SharesDropped (rdAddr : Word) (a : Apt) (ids : List Byte) (a' : Apt) : Prop where
  region : ∀ mi, SharesFreed rdAddr (a.masterMemory mi) (regionCount a ids mi)
    (a'.masterMemory mi)
  masterUsed : a'.masterUsedMask = a.masterUsedMask
  masterEnabled : a'.masterEnabledMask = a.masterEnabledMask
  slaveUsed : a'.slaveUsedMask = a.slaveUsedMask
  slaveMemory : a'.slaveMemory = a.slaveMemory
  slaveEnabled : a'.slaveEnabledMask = a.slaveEnabledMask

theorem SharesFreed.refl (rdAddr : Word) (m : MasterMem) : SharesFreed rdAddr m 0 m :=
  ⟨rfl, rfl, rfl, fun _ => rfl, rfl⟩

/-- The search for a share of a realm. -/
theorem SharesFreed.find {rdAddr : Word} {m m' : MasterMem} {count : ℕ}
    (h : SharesFreed rdAddr m count m') :
    (findFirst csmMaxMasterShares fun k => (m'.shares k).inUse &&
    (m'.shares k).slaveRdPa == rdAddr) =
      first csmMaxMasterShares (fun k => (m.shares k).slaveRdPa) (fun k => (m'.shares k).inUse)
        rdAddr := by
  have hkey : ∀ k, (m'.shares k).slaveRdPa = (m.shares k).slaveRdPa := fun k => by rw [h.slot k]
  simp only [hkey]
  rfl

/-- One more share is freed. -/
theorem SharesFreed.step {rdAddr : Word} {m m' : MasterMem} {count sk : ℕ}
    (h : SharesFreed rdAddr m count m')
    (hf : (findFirst csmMaxMasterShares fun k =>
      (m'.shares k).inUse && (m'.shares k).slaveRdPa == rdAddr) = some sk) :
    SharesFreed rdAddr m (count + 1)
      { m' with
        shares := Function.update m'.shares sk { m'.shares sk with inUse := false }
        shareCount := m'.shareCount - 1#8 } := by
  rw [h.find] at hf
  refine ⟨h.regionId, h.ipaStart, h.mapSize, fun k => ?_, ?_⟩
  · by_cases hk : k = sk
    · subst hk
      simp only [Function.update_self]
      rw [h.slot k]
    · simp only [Function.update_of_ne hk]
      exact h.slot k
  · rw [List.replicate_succ', List.foldl_append, ← h.inUse, List.foldl_cons, List.foldl_nil,
      removeFirst, hf]
    funext k
    by_cases hk : k = sk
    · simp [hk]
    · simp [hk]

/-- Nothing is left to free. -/
theorem SharesFreed.none {rdAddr : Word} {m m' : MasterMem} {count : ℕ}
    (h : SharesFreed rdAddr m count m')
    (hf : (findFirst csmMaxMasterShares fun k =>
      (m'.shares k).inUse && (m'.shares k).slaveRdPa == rdAddr) = none) :
    SharesFreed rdAddr m (count + 1) m' := by
  rw [h.find] at hf
  refine ⟨h.regionId, h.ipaStart, h.mapSize, h.slot, ?_⟩
  rw [List.replicate_succ', List.foldl_append, ← h.inUse, List.foldl_cons, List.foldl_nil,
    removeFirst, hf]

theorem regionCount_append (a : Apt) (ids : List Byte) (id : Byte) (mi : ℕ) :
    regionCount a (ids ++ [id]) mi =
      regionCount a ids mi + if aptFindMasterByRegionId a id = some mi then 1 else 0 := by
  simp [regionCount, List.countP_append, List.countP_singleton]

theorem SharesDropped.findMaster {rdAddr : Word} {a a' : Apt} {ids : List Byte}
    (h : SharesDropped rdAddr a ids a') (id : Byte) :
    aptFindMasterByRegionId a' id = aptFindMasterByRegionId a id := by
  unfold aptFindMasterByRegionId
  simp only [h.masterUsed, (h.region _).regionId]

theorem sharesDropped (rdAddr : Word) (a : Apt) (ids : List Byte) :
    SharesDropped rdAddr a ids (ids.foldl (dropShareOf rdAddr) a) := by
  induction ids using List.reverseRecOn with
  | nil => exact ⟨fun mi => .refl rdAddr _, rfl, rfl, rfl, rfl, rfl⟩
  | append_singleton ids id ih =>
    rw [List.foldl_append, List.foldl_cons, List.foldl_nil]
    set b := ids.foldl (dropShareOf rdAddr) a
    unfold dropShareOf
    rw [ih.findMaster id]
    cases hm : aptFindMasterByRegionId a id with
    | none =>
      refine ⟨fun mi => ?_, ih.masterUsed, ih.masterEnabled, ih.slaveUsed, ih.slaveMemory,
        ih.slaveEnabled⟩
      rw [regionCount_append, hm]
      exact ih.region mi
    | some midx =>
      simp only
      have hother : ∀ mi, mi ≠ midx →
          regionCount a (ids ++ [id]) mi = regionCount a ids mi := by
        intro mi hne
        rw [regionCount_append, hm, if_neg (by simpa using Ne.symm hne)]
        rfl
      have hself : regionCount a (ids ++ [id]) midx = regionCount a ids midx + 1 := by
        rw [regionCount_append, hm, if_pos rfl]
      cases hf : findFirst csmMaxMasterShares (fun sk => ((b.masterMemory midx).shares sk).inUse &&
          ((b.masterMemory midx).shares sk).slaveRdPa == rdAddr) with
      | none =>
        refine ⟨fun mi => ?_, ih.masterUsed, ih.masterEnabled, ih.slaveUsed, ih.slaveMemory,
          ih.slaveEnabled⟩
        by_cases hmi : mi = midx
        · rw [hmi, hself]
          exact (ih.region midx).none hf
        · rw [hother mi hmi]
          exact ih.region mi
      | some sk =>
        refine ⟨fun mi => ?_, ih.masterUsed, ih.masterEnabled, ih.slaveUsed, ih.slaveMemory,
          ih.slaveEnabled⟩
        unfold aptMasterDropShare
        by_cases hmi : mi = midx
        · simp only [hmi, hself, Function.update_self]
          exact (ih.region midx).step hf
        · simp only [hother mi hmi, Function.update_of_ne hmi]
          exact ih.region mi

/-- A share of the realm is still in use if enough shares come before it. -/
theorem SharesFreed.inUse_iff {rdAddr : Word} {m m' : MasterMem} {count : ℕ}
    (h : SharesFreed rdAddr m count m') {sk : ℕ} (hk : sk < csmMaxMasterShares)
    (hrd : (m.shares sk).slaveRdPa = rdAddr) :
    (m'.shares sk).inUse = true ↔ (m.shares sk).inUse = true ∧ count ≤ shareRank m sk := by
  have hiff := (@foldl_removeFirst Word _ csmMaxMasterShares (fun k => (m.shares k).slaveRdPa) sk
    (List.replicate count rdAddr) (fun k => (m.shares k).inUse) hk).1
  rw [← h.inUse, hrd, List.count_replicate_self] at hiff
  exact hiff

/-- The shares of other realms are as before. -/
theorem SharesFreed.other {rdAddr : Word} {m m' : MasterMem} {count : ℕ}
    (h : SharesFreed rdAddr m count m') {sk : ℕ} (hk : sk < csmMaxMasterShares)
    (hrd : (m.shares sk).slaveRdPa ≠ rdAddr) : m'.shares sk = m.shares sk := by
  have hiff := (@foldl_removeFirst Word _ csmMaxMasterShares (fun k => (m.shares k).slaveRdPa) sk
    (List.replicate count rdAddr) (fun k => (m.shares k).inUse) hk).1
  rw [← h.inUse, List.count_eq_zero_of_not_mem (by
    rw [List.mem_replicate]
    exact fun hc => hrd hc.2), and_iff_left (Nat.zero_le _), ← Bool.eq_iff_iff] at hiff
  rw [h.slot sk]
  simp only at hiff
  rw [hiff]

/-- The identifiers in a list of partners that lead to a table. -/
def partnerIds (table : Word → Option Word) (l : List (Word × Byte)) (g : Word) : List Byte :=
  (l.filter fun x => table x.1 == some g).map Prod.snd

theorem foldl_atPartner (table : Word → Option Word) (drop : Apt → Byte → Apt)
    (l : List (Word × Byte)) (apts : Word → Apt) (g : Word) :
    l.foldl (atPartner table drop) apts g = (partnerIds table l g).foldl drop (apts g) := by
  have hstep : ∀ m x g, atPartner table drop m x g =
      if table x.1 == some g then drop (m g) x.2 else m g := by
    intro m x g
    unfold atPartner
    cases table x.1 with
    | none => rfl
    | some g' =>
      by_cases hg : g = g'
      · simp [hg]
      · simp [hg, Ne.symm hg]
  rw [foldl_apply _ (fun g a x => if table x.1 == some g then drop a x.2 else a) hstep, partnerIds,
    List.foldl_map, List.foldl_filter]

section
variable (plat : Platform) (s : State) (aptAddr : Word)

/-- The shares of the regions in a table, in their order. -/
def lentShares : List (Word × Byte) :=
  (usedMasters (s.apt aptAddr) (List.range maxMemRegions)).flatMap sharePartners

/-- The masters and identifiers of the regions that a table borrows. -/
def borrowedRegions : List (Word × Byte) :=
  (usedSlaves (s.apt aptAddr) (List.range maxMemRegions)).map fun m => (m.masterRdPa, m.regionId)

/-- The table of a partner when the own table is gone. -/
def partnerAfter : Word → Option Word := partnerTable plat (s.setState aptAddr .DELEGATED)

theorem partnerAfter_eq_some {rd g : Word} (h : partnerAfter plat s aptAddr rd = some g) :
    g = (s.rd rd).aptPa ∧ g ≠ aptAddr ∧ (s.granule g).state = .APT := by
  unfold partnerAfter partnerTable at h
  split at h
  case isFalse => cases h
  case isTrue hc =>
    rw [Bool.and_eq_true] at hc
    obtain rfl : (s.rd rd).aptPa = g := Option.some.inj h
    have hst := lockable_state hc.2
    have hne : (s.rd rd).aptPa ≠ aptAddr := by
      intro hg
      change ((s.setState aptAddr .DELEGATED).granule (s.rd rd).aptPa).state = .APT at hst
      rw [hg, State.setState_self] at hst
      cases hst
    refine ⟨rfl, hne, ?_⟩
    change ((s.setState aptAddr .DELEGATED).granule (s.rd rd).aptPa).state = .APT at hst
    rw [State.setState_of_ne _ hne] at hst
    exact hst

/-- The regions whose shares lead to a table. -/
def shareIds (g : Word) : List Byte :=
  partnerIds (partnerAfter plat s aptAddr) (lentShares s aptAddr) g

/-- The borrowed regions whose masters have a table. -/
def entryIds (g : Word) : List Byte :=
  partnerIds (partnerAfter plat s aptAddr) (borrowedRegions s aptAddr) g

/-- What a destruction does to the table of another realm. -/
structure PartnerCleaned (rdAddr g : Word) (a' : Apt) : Prop where
  region : ∀ mi, SharesFreed rdAddr ((s.apt g).masterMemory mi)
    (regionCount (s.apt g) (entryIds plat s aptAddr g) mi) (a'.masterMemory mi)
  masterUsed : a'.masterUsedMask = (s.apt g).masterUsedMask
  masterEnabled : a'.masterEnabledMask = (s.apt g).masterEnabledMask
  slaves : ∀ sj < maxMemRegions, a'.slaveUsedMask sj = true ↔
    (s.apt g).slaveUsedMask sj = true ∧
    (shareIds plat s aptAddr g).count ((s.apt g).slaveMemory sj).regionId ≤ slaveRank (s.apt g) sj
  entry : ∀ sj, a'.slaveUsedMask sj = true → a'.slaveMemory sj = (s.apt g).slaveMemory sj ∧
    a'.slaveEnabledMask sj = (s.apt g).slaveEnabledMask sj

variable {plat s aptAddr}

theorem cleanedApts_partner {rdAddr g : Word} (hg : g ≠ aptAddr) :
    PartnerCleaned plat s aptAddr rdAddr g (cleanedApts plat s rdAddr aptAddr g) := by
  have hshares := sharesDropped rdAddr (s.apt g) (entryIds plat s aptAddr g)
  have hslaves := slavesDropped ((entryIds plat s aptAddr g).foldl (dropShareOf rdAddr) (s.apt g))
    (shareIds plat s aptAddr g)
  have heq : cleanedApts plat s rdAddr aptAddr g = (shareIds plat s aptAddr g).foldl dropSlaveOf
      ((entryIds plat s aptAddr g).foldl (dropShareOf rdAddr) (s.apt g)) := by
    unfold cleanedApts
    rw [foldl_atPartner, foldl_atPartner, Function.update_of_ne hg]
    rfl
  rw [heq]
  have hrank : ∀ sj, slaveRank ((entryIds plat s aptAddr g).foldl (dropShareOf rdAddr)
      (s.apt g)) sj =
      slaveRank (s.apt g) sj := by
    intro sj
    unfold slaveRank
    rw [hshares.slaveUsed, hshares.slaveMemory]
  refine ⟨fun mi => ?_, hslaves.masters.1.trans hshares.masterUsed,
    hslaves.enabled.trans hshares.masterEnabled, fun sj hj => ?_, fun sj hu => ?_⟩
  · rw [hslaves.masters.2]
    exact hshares.region mi
  · rw [hslaves.used_iff hj, hrank, hshares.slaveUsed, hshares.slaveMemory]
  · obtain ⟨-, h1, h2⟩ := hslaves.entry sj hu
    exact ⟨by rw [h1, hshares.slaveMemory], by rw [h2, hshares.slaveEnabled]⟩

theorem mem_revokedPlaces (s : State) (slave : Word) (id : Byte) (p : Word × Word) :
    p ∈ revokedPlaces plat s slave id ↔ ∃ g sj, partnerTable plat s slave = some g ∧
      aptFindSlaveByRegionId (s.apt g) id = some sj ∧
      p ∈ slavePlaces slave ((s.apt g).slaveMemory sj) := by
  unfold revokedPlaces revokedIndex partnerTable
  by_cases hc : (lockable plat s slave .RD && lockable plat s (s.rd slave).aptPa .APT) = true
  · simp only [if_pos hc, Option.some.injEq, exists_and_left, exists_eq_left']
    cases aptFindSlaveByRegionId (s.apt (s.rd slave).aptPa) id with
    | none => simp
    | some sj => simp
  · rw [Bool.not_eq_true] at hc
    simp [hc]

theorem mem_revokeAllPlaces (l : List (Word × Byte)) (s : State) (p : Word × Word) :
    p ∈ revokeAllPlaces plat l s ↔ ∃ j x, l[j]? = some x ∧ p ∈ revokedPlaces plat
      { s with apt := (l.take j).foldl (atPartner (partnerTable plat s) dropSlaveOf) s.apt }
      x.1 x.2 := by
  induction l generalizing s with
  | nil => simp [revokeAllPlaces]
  | cons x rest ih =>
    rw [revokeAllPlaces, List.mem_append, ih, revokedApts_eq]
    constructor
    · rintro (hp | ⟨j, y, hj, hp⟩)
      · exact ⟨0, x, rfl, hp⟩
      · exact ⟨j + 1, y, hj, hp⟩
    · rintro ⟨j, y, hj, hp⟩
      cases j with
      | zero =>
        obtain rfl : x = y := Option.some.inj hj
        exact .inl hp
      | succ j => exact .inr ⟨j, y, hj, hp⟩

variable (plat s aptAddr) in
/-- Some share of a region leads to a slave entry: as many shares of the region that lead
to the table stand before the share as entries of the region stand before the entry. -/
def FindsEntry (slave : Word) (sj : ℕ) : Prop :=
  ∃ j id g, (lentShares s aptAddr)[j]? = some (slave, id) ∧
    partnerAfter plat s aptAddr slave = some g ∧ sj < maxMemRegions ∧
    (s.apt g).slaveUsedMask sj = true ∧ ((s.apt g).slaveMemory sj).regionId = id ∧
    slaveRank (s.apt g) sj =
      (partnerIds (partnerAfter plat s aptAddr) ((lentShares s aptAddr).take j) g).count id

theorem slavePlaces_fst {rd : Word} {m : SlaveMem} {p : Word × Word} (h : p ∈ slavePlaces rd m) :
    p.1 = rd := by
  obtain ⟨ipa, -, rfl⟩ := List.mem_map.mp h
  rfl

/-- The tables after the first of the shares were taken back. -/
theorem slavesDropped_take (j : ℕ) (g : Word) : SlavesDropped (s.apt g)
    (partnerIds (partnerAfter plat s aptAddr) ((lentShares s aptAddr).take j) g)
    (((lentShares s aptAddr).take j).foldl (atPartner (partnerAfter plat s aptAddr) dropSlaveOf)
      s.apt g) := by
  rw [foldl_atPartner]
  exact slavesDropped _ _

theorem SlavesDropped.found_memory {a a' : Apt} {ids : List Byte} (h : SlavesDropped a ids a')
    {id : Byte} {sj : ℕ} (hf : aptFindSlaveByRegionId a' id = some sj) :
    a'.slaveMemory sj = a.slaveMemory sj := by
  obtain ⟨-, hu⟩ := findFirst_some hf
  rw [Bool.and_eq_true] at hu
  exact (h.entry sj hu.1).2.1

/-- The pages that are unmapped in the slaves are those of the entries that are found. -/
theorem mem_lentPlaces {p : Word × Word} :
    p ∈ revokeAllPlaces plat (lentShares s aptAddr) (s.setState aptAddr .DELEGATED) ↔
      ∃ sj, FindsEntry plat s aptAddr p.1 sj ∧
        p ∈ slavePlaces p.1 ((s.apt (s.rd p.1).aptPa).slaveMemory sj) := by
  rw [mem_revokeAllPlaces]
  constructor
  · rintro ⟨j, ⟨slave, id⟩, hj, hp⟩
    obtain ⟨g, sj, hg, hf, hp⟩ := (mem_revokedPlaces _ _ _ _).mp hp
    obtain rfl := slavePlaces_fst hp
    have hd := @slavesDropped_take plat s aptAddr j g
    obtain ⟨hlt, hu, hid, hr⟩ := hd.find_eq_some_iff.mp hf
    refine ⟨sj, ⟨j, id, g, hj, hg, hlt, hu, hid, hr⟩, ?_⟩
    have hmem := hd.found_memory hf
    obtain ⟨rfl, -, -⟩ := partnerAfter_eq_some _ _ _ hg
    rw [← hmem]
    exact hp
  · rintro ⟨sj, ⟨j, id, g, hj, hg, hlt, hu, hid, hr⟩, hp⟩
    have hd := @slavesDropped_take plat s aptAddr j g
    have hf := hd.find_eq_some_iff.mpr ⟨hlt, hu, hid, hr⟩
    refine ⟨j, _, hj, (mem_revokedPlaces _ _ _ _).mpr ⟨g, sj, hg, hf, ?_⟩⟩
    have hmem := hd.found_memory hf
    obtain ⟨rfl, -, -⟩ := partnerAfter_eq_some _ _ _ hg
    rw [← hmem] at hp
    exact hp

end

section
variable (s : State) (rdAddr aptAddr : Word)

/-- A page address of a realm. -/
def InSpace (rd ipa : Word) : Prop :=
  granuleAligned ipa = true ∧ ipa.toNat < 2 ^ (s.rd rd).s2Ctx.ipaBits

/-- A page of a region that the realm had reserved. -/
def ReservedPage (ipa : Word) : Prop :=
  InSpace s rdAddr ipa ∧ ∃ e ∈ usedSlaves (s.apt aptAddr) (List.range maxMemRegions),
    ∃ offset < e.mapSize, granuleAligned offset = true ∧ ipa = e.ipaStart + offset

/-- A page that a realm maps which lent a region to the realm. -/
def MasterPage (pa : Word) : Prop :=
  ∃ e ∈ usedSlaves (s.apt aptAddr) (List.range maxMemRegions), e.masterRdPa ≠ rdAddr ∧
    (s.granule e.masterRdPa).state = .RD ∧ ∃ ipa r, InSpace s e.masterRdPa ipa ∧
      translate s e.masterRdPa ipa = some (.assigned r pa)

/-- A page of a region that the realm owns. -/
def LentPage (pa : Word) : Prop :=
  ∃ m ∈ usedMasters (s.apt aptAddr) (List.range maxMemRegions), ∃ offset < m.mapSize,
    granuleAligned offset = true ∧ InSpace s rdAddr (m.ipaStart + offset) ∧
      ∃ r, translate s rdAddr (m.ipaStart + offset) = some (.assigned r pa)

/-- Another realm that holds a share of the realm or an entry for one of its regions. -/
def FormerSlave (slave : Word) : Prop :=
  slave ≠ rdAddr ∧ (s.granule slave).state = .RD ∧
    ((∃ id, (slave, id) ∈ lentShares s aptAddr) ∨
      (s.granule (s.rd slave).aptPa).state = .APT ∧ ∃ sj < maxMemRegions,
        (s.apt (s.rd slave).aptPa).slaveUsedMask sj = true ∧
        ((s.apt (s.rd slave).aptPa).slaveMemory sj).masterRdPa = rdAddr)

/-- The property of a destruction: no table names the realm as a partner, its identifiers
are free, neither side still maps a page of the other, and the regions and shares between
other realms are as before. -/
structure AptDestroyClean (s' : State) : Prop where
  shares : ∀ g, (s'.granule g).state = .APT →
    ∀ mi < maxMemRegions, ∀ sk < csmMaxMasterShares,
    (((s'.apt g).masterMemory mi).shares sk).inUse = true →
      (((s'.apt g).masterMemory mi).shares sk).slaveRdPa ≠ rdAddr
  entries : ∀ g, (s'.granule g).state = .APT → ∀ sj < maxMemRegions,
    (s'.apt g).slaveUsedMask sj = true → ((s'.apt g).slaveMemory sj).masterRdPa ≠ rdAddr
  ids : s'.csmIds.ids = s.csmIds.ids \
    {id | ∃ m ∈ usedMasters (s.apt aptAddr) (List.range maxMemRegions), m.regionId = id}
  borrowed : ∀ ipa r pa, ReservedPage s rdAddr aptAddr ipa → MasterPage s rdAddr aptAddr pa →
    translate s' rdAddr ipa ≠ some (.assigned r pa)
  lent : ∀ slave ipa r pa, FormerSlave s rdAddr aptAddr slave → InSpace s slave ipa →
    LentPage s rdAddr aptAddr pa → translate s' slave ipa ≠ some (.assigned r pa)
  otherRegions : ∀ g, g ≠ aptAddr → (s.granule g).state = .APT → ∀ mi < maxMemRegions,
    (s'.apt g).masterUsedMask mi = (s.apt g).masterUsedMask mi ∧
    (s'.apt g).masterEnabledMask mi = (s.apt g).masterEnabledMask mi ∧
    ((s'.apt g).masterMemory mi).regionId = ((s.apt g).masterMemory mi).regionId ∧
    ((s'.apt g).masterMemory mi).ipaStart = ((s.apt g).masterMemory mi).ipaStart ∧
    ((s'.apt g).masterMemory mi).mapSize = ((s.apt g).masterMemory mi).mapSize ∧
    ∀ sk < csmMaxMasterShares, (((s.apt g).masterMemory mi).shares sk).slaveRdPa ≠ rdAddr →
      ((s'.apt g).masterMemory mi).shares sk = ((s.apt g).masterMemory mi).shares sk
  otherEntries : ∀ g, g ≠ aptAddr → (s.granule g).state = .APT → ∀ sj < maxMemRegions,
    (s.apt g).slaveUsedMask sj = true → ((s.apt g).slaveMemory sj).masterRdPa ≠ rdAddr →
      (s'.apt g).slaveUsedMask sj = true ∧
      (s'.apt g).slaveMemory sj = (s.apt g).slaveMemory sj ∧
      (s'.apt g).slaveEnabledMask sj = (s.apt g).slaveEnabledMask sj

/-- When the destruction reaches everything: a share for the realm has fewer shares for it
before it than the realm has entries for the region, an entry is among the first entries
of its region, as many as shares of the region lead to the table, exactly if it names the
realm as its master, and the pages of the other side are page entries in regions that are
found. -/
structure AptDestroyCovers (plat : Platform) : Prop where
  shares : ∀ g, g ≠ aptAddr → (s.granule g).state = .APT → ∀ mi < maxMemRegions,
    ∀ sk < csmMaxMasterShares, (((s.apt g).masterMemory mi).shares sk).inUse = true →
      (((s.apt g).masterMemory mi).shares sk).slaveRdPa = rdAddr →
      shareRank ((s.apt g).masterMemory mi) sk <
        regionCount (s.apt g) (entryIds plat s aptAddr g) mi
  entries : ∀ g, g ≠ aptAddr → (s.granule g).state = .APT → ∀ sj < maxMemRegions,
    (s.apt g).slaveUsedMask sj = true →
      (slaveRank (s.apt g) sj <
        (shareIds plat s aptAddr g).count ((s.apt g).slaveMemory sj).regionId ↔
          ((s.apt g).slaveMemory sj).masterRdPa = rdAddr)
  borrowed : ∀ ipa r pa, ReservedPage s rdAddr aptAddr ipa → MasterPage s rdAddr aptAddr pa →
    translate s rdAddr ipa = some (.assigned r pa) → PageLevel s (rdAddr, ipa) ∧
      ∃ e ∈ usedSlaves (s.apt aptAddr) (List.range maxMemRegions),
        OnPage (slavePlaces rdAddr e) rdAddr ipa.toNat
  lent : ∀ slave ipa r pa, FormerSlave s rdAddr aptAddr slave → InSpace s slave ipa →
    LentPage s rdAddr aptAddr pa → translate s slave ipa = some (.assigned r pa) →
      PageLevel s (slave, ipa) ∧ ∃ sj, FindsEntry plat s aptAddr slave sj ∧
        OnPage (slavePlaces slave ((s.apt (s.rd slave).aptPa).slaveMemory sj)) slave ipa.toNat

end

section
variable {plat : Platform} {s s' : State} {F F' : Tables} {rdAddr aptAddr : Word}

/-- The pages that are unmapped in the realm itself. -/
theorem onPage_own (hlink : (s.rd rdAddr).aptPa = aptAddr) (a : ℕ) :
    OnPage (aptDestroyPlaces plat s rdAddr aptAddr) rdAddr a ↔
      ∃ e ∈ usedSlaves (s.apt aptAddr) (List.range maxMemRegions),
        OnPage (slavePlaces rdAddr e) rdAddr a := by
  constructor
  · rintro ⟨p, hp, hp1, hpage⟩
    rcases List.mem_append.mp hp with hp | hp
    · obtain ⟨e, he, hpe⟩ := List.mem_flatMap.mp hp
      exact ⟨e, he, p, hpe, hp1, hpage⟩
    · -- the realm has no table any more when its regions are taken back
      obtain ⟨sj, ⟨j, id, g, -, hg, -⟩, -⟩ := mem_lentPlaces.mp hp
      obtain ⟨hgeq, hne, -⟩ := partnerAfter_eq_some _ _ _ hg
      rw [hp1, hlink] at hgeq
      exact absurd hgeq hne
  · rintro ⟨e, he, p, hpe, hp1, hpage⟩
    exact ⟨p, List.mem_append_left _ (List.mem_flatMap.mpr ⟨e, he, hpe⟩), hp1, hpage⟩

/-- The pages that are unmapped in another realm. -/
theorem onPage_partner {slave : Word} (hne : slave ≠ rdAddr) (a : ℕ) :
    OnPage (aptDestroyPlaces plat s rdAddr aptAddr) slave a ↔
      ∃ sj, FindsEntry plat s aptAddr slave sj ∧
        OnPage (slavePlaces slave ((s.apt (s.rd slave).aptPa).slaveMemory sj)) slave a := by
  constructor
  · rintro ⟨p, hp, rfl, hpage⟩
    rcases List.mem_append.mp hp with hp | hp
    · obtain ⟨e, -, hpe⟩ := List.mem_flatMap.mp hp
      exact absurd (slavePlaces_fst hpe) hne
    · obtain ⟨sj, hf, hps⟩ := mem_lentPlaces.mp hp
      exact ⟨sj, hf, p, hps, rfl, hpage⟩
  · rintro ⟨sj, hf, p, hps, hp1, hpage⟩
    subst hp1
    exact ⟨p, List.mem_append_right _ (mem_lentPlaces.mpr ⟨sj, hf, hps⟩), rfl, hpage⟩

/-- A page of a realm is assigned after the destruction if it was before and the
destruction does not unmap it. -/
theorem AptCleaned.assigned_iff (h : Holds s F) (hc : AptCleaned plat s F rdAddr aptAddr s' F')
    {rd ipa : Word} (hrd : (s.granule rd).state = .RD) (ha : InSpace s rd ipa) (r : Ripas)
    (pa : Word) : translate s' rd ipa = some (.assigned r pa) ↔
      translate s rd ipa = some (.assigned r pa) ∧ ¬ (PageLevel s (rd, ipa) ∧
        OnPage (aptDestroyPlaces plat s rdAddr aptAddr) rd ipa.toNat) := by
  have hne : rd ≠ aptAddr := by
    rintro rfl
    rw [hc.isApt] at hrd
    cases hrd
  have hrd' : (s'.granule rd).state = .RD := by rw [hc.state rd hne, hrd]
  have hctx : (s'.rd rd).s2Ctx = (s.rd rd).s2Ctx := by rw [hc.rd rd hne]
  by_cases hin : PageLevel s (rd, ipa) ∧
      OnPage (aptDestroyPlaces plat s rdAddr aptAddr) rd ipa.toNat
  · exact iff_of_false
      (hc.pages.not_assigned h hc.wf.holds hrd' hctx hin.1 hin.2 r pa) fun hh => hh.2 hin
  · rw [and_iff_left hin, hc.pages.editedOn.translate_kept h hc.wf.holds hrd hrd' hctx ha.2
      fun hp hon => hin ⟨hp, hon⟩]

end

/-- What is always kept and freed. -/
theorem PartnerCleaned.otherRegion {plat : Platform} {s : State}
    {aptAddr rdAddr g : Word} {a' : Apt}
    (h : PartnerCleaned plat s aptAddr rdAddr g a') (mi : ℕ) :
    a'.masterUsedMask mi = (s.apt g).masterUsedMask mi ∧
    a'.masterEnabledMask mi = (s.apt g).masterEnabledMask mi ∧
    (a'.masterMemory mi).regionId = ((s.apt g).masterMemory mi).regionId ∧
    (a'.masterMemory mi).ipaStart = ((s.apt g).masterMemory mi).ipaStart ∧
    (a'.masterMemory mi).mapSize = ((s.apt g).masterMemory mi).mapSize ∧
    ∀ sk < csmMaxMasterShares, (((s.apt g).masterMemory mi).shares sk).slaveRdPa ≠ rdAddr →
      (a'.masterMemory mi).shares sk = ((s.apt g).masterMemory mi).shares sk := by
  have hr := h.region mi
  exact ⟨by rw [h.masterUsed], by rw [h.masterEnabled], hr.regionId, hr.ipaStart, hr.mapSize,
    fun sk hk hrd => hr.other hk hrd⟩

theorem aptDestroyClean_iff {plat : Platform} {s : State} (hs : Reachable plat s)
    {rdAddr aptAddr : Word} {s' : State} {res : SmcResult}
    (hcall : smcAptDestroy plat s rdAddr aptAddr = .ok (s', res)) (hok : res.ret = rmiSuccess) :
    AptDestroyClean s rdAddr aptAddr s' ↔ AptDestroyCovers s rdAddr aptAddr plat := by
  obtain ⟨F, hF⟩ := hs.wf
  rcases (smcAptDestroy_cleaned hF rdAddr aptAddr).of_ok hcall with ⟨-, hne⟩ | ⟨-, F', hc⟩
  · exact absurd hok hne
  simp only at hc
  have hapt : ∀ g, (s'.granule g).state = .APT ↔
      g ≠ aptAddr ∧ (s.granule g).state = .APT := by
    intro g
    by_cases hg : g = aptAddr
    · simp [hg, hc.freed]
    · rw [hc.state g hg, and_iff_right hg]
  have hpartner : ∀ g, g ≠ aptAddr → PartnerCleaned plat s aptAddr rdAddr g (s'.apt g) := by
    intro g hg
    rw [hc.apts]
    exact cleanedApts_partner hg
  constructor
  · intro hclean
    refine ⟨fun g hg hst mi hmi sk hsk hu hrd => ?_, fun g hg hst sj hsj hu => ?_,
      fun ipa r pa hres hm htr => ?_, fun slave ipa r pa hsl hin hl htr => ?_⟩
    · have hr := (hpartner g hg).region mi
      by_contra hlt
      refine hclean.shares g ((hapt g).mpr ⟨hg, hst⟩) mi hmi sk hsk
        ((hr.inUse_iff hsk hrd).mpr ⟨hu, not_lt.mp hlt⟩) ?_
      rw [hr.slot sk]
      exact hrd
    · have hp := hpartner g hg
      constructor
      · intro hlt
        by_contra hrd
        have hkept := (hclean.otherEntries g hg hst sj hsj hu hrd).1
        have := ((hp.slaves sj hsj).mp hkept).2
        omega
      · intro hrd
        by_contra hlt
        have hkept := (hp.slaves sj hsj).mpr ⟨hu, not_lt.mp hlt⟩
        refine hclean.entries g ((hapt g).mpr ⟨hg, hst⟩) sj hsj hkept ?_
        rw [(hp.entry sj hkept).1, hrd]
    · by_contra hnot
      refine hclean.borrowed ipa r pa hres hm ((hc.assigned_iff hF.holds hc.isRd hres.1 r pa).mpr
        ⟨htr, fun hon => hnot ⟨hon.1, (onPage_own hc.linked _).mp hon.2⟩⟩)
    · by_contra hnot
      refine hclean.lent slave ipa r pa hsl hin hl ((hc.assigned_iff hF.holds hsl.2.1 hin r pa).mpr
        ⟨htr, fun hon => hnot ⟨hon.1, (onPage_partner hsl.1 _).mp hon.2⟩⟩)
  · intro hcov
    refine ⟨fun g hg mi hmi sk hsk hu hrd => ?_, fun g hg sj hsj hu hrd => ?_, ?_,
      fun ipa r pa hres hm htr => ?_, fun slave ipa r pa hsl hin hl htr => ?_,
      fun g hg hst mi _ => (hpartner g hg).otherRegion mi, fun g hg hst sj hsj hu hrd => ?_⟩
    · obtain ⟨hne, hst⟩ := (hapt g).mp hg
      have hr := (hpartner g hne).region mi
      rw [hr.slot sk] at hrd
      obtain ⟨hold, hle⟩ := (hr.inUse_iff hsk hrd).mp hu
      have := hcov.shares g hne hst mi hmi sk hsk hold hrd
      omega
    · obtain ⟨hne, hst⟩ := (hapt g).mp hg
      have hp := hpartner g hne
      obtain ⟨hold, hle⟩ := (hp.slaves sj hsj).mp hu
      rw [(hp.entry sj hu).1] at hrd
      have := (hcov.entries g hne hst sj hsj hold).mpr hrd
      omega
    · rw [hc.csmIds]
      exact (removeRegions_spec _ (Reached.regionIds hs).registry).2
    · obtain ⟨hold, hnot⟩ := (hc.assigned_iff hF.holds hc.isRd hres.1 r pa).mp htr
      obtain ⟨hp, he⟩ := hcov.borrowed ipa r pa hres hm hold
      exact hnot ⟨hp, (onPage_own hc.linked _).mpr he⟩
    · obtain ⟨hold, hnot⟩ := (hc.assigned_iff hF.holds hsl.2.1 hin r pa).mp htr
      obtain ⟨hp, hf⟩ := hcov.lent slave ipa r pa hsl hin hl hold
      exact hnot ⟨hp, (onPage_partner hsl.1 _).mpr hf⟩
    · have hp := hpartner g hg
      have hkept : (s'.apt g).slaveUsedMask sj = true := by
        refine (hp.slaves sj hsj).mpr ⟨hu, not_lt.mp fun hlt => hrd ?_⟩
        exact (hcov.entries g hg hst sj hsj hu).mp hlt
      exact ⟨hkept, hp.entry sj hkept⟩

/-- The calls of a running realm make no table. -/
theorem RsiDone.apt_old {plat : Platform} {s s1 : State} {F : Tables} {recAddr : Word}
    {res : RsiResult} {call : RsiCall} (hd : RsiDone plat s F recAddr s1 res call)
    (hc : (Act.rsi recAddr call).sharing = true) {g : Word} (hg : (s1.granule g).state = .APT) :
    (s.granule g).state = .APT := by
  cases call with
  | csmDetachAndFree x1 =>
    rcases hd with ⟨rfl, -⟩ | ⟨-, _, _, -, -, hcl⟩
    · exact hg
    · exact (hcl.state g) ▸ hg
  | csmRevoke x1 =>
    rcases hd with ⟨rfl, -⟩ | ⟨-, _, _, _, -, -, hcl⟩
    · exact hg
    · exact (hcl.state g) ▸ hg
  | csmCreate x2 x3 =>
    rcases hd with ⟨rfl, -⟩ | ⟨ids, -, rfl, -⟩ | ⟨ids, id, -, rfl, -⟩ |
      ⟨-, -, -, -, ids, id, apt', idx, -, -, rfl⟩ <;> exact hg
  | csmShare x1 x2 x3 =>
    rcases hd with ⟨rfl, -⟩ | ⟨-, -, _, _, _, _, -, -, -, -, rfl⟩ <;> exact hg
  | csmReserve x1 x2 x3 =>
    rcases hd with rfl | ⟨-, -, -, _, _, _, _, -, -, -, -, -, -, -, -, -, rfl⟩ <;> exact hg
  | csmDestroy x1 =>
    rcases hd with ⟨rfl, -⟩ | ⟨-, -, _, -, -, rfl⟩ <;> exact hg
  | csmAttach x1 => cases hc
  | ipaStateSet x1 x2 x3 x4 => cases hc
  | systemOff => cases hc

/-- A table that was not there before is made by the call that names it. -/
theorem StepDone.apt_old {plat : Platform} {s s' : State} {F : Tables} {reply : Reply} {act : Act}
    (h : Wf s F) (hd : StepDone plat s F s' reply act) {g : Word}
    (hg : (s'.granule g).state = .APT) :
    (s.granule g).state = .APT ∨ ∃ rdAddr, act = .aptCreate rdAddr g := by
  cases hact : act.sharing with
  | false => exact .inl (((hd.calm h hact).isApt g).mp hg)
  | true =>
    rcases Act.sharing_cases hact with ⟨rdAddr, aptAddr, rfl⟩ | ⟨rdAddr, aptAddr, rfl⟩ |
      ⟨recAddr, call, rfl⟩
    · obtain ⟨res, -, ⟨rfl, -⟩ | ⟨-, -, -, hs⟩⟩ := hd
      · exact .inl hg
      by_cases hgd : g = aptAddr
      · exact .inr ⟨rdAddr, by rw [hgd]⟩
      · refine .inl ?_
        rcases hs with ⟨-, -, rfl⟩ | ⟨-, -, rfl⟩
        · rwa [State.setState_of_ne s hgd] at hg
        · rwa [State.setState_of_ne _ hgd] at hg
    · obtain ⟨res, -, ⟨rfl, -⟩ | ⟨-, F', hf⟩⟩ := hd
      · exact .inl hg
      have hne : g ≠ aptAddr := by
        rintro rfl
        rw [hf.freed] at hg
        cases hg
      exact .inl (by rw [← hf.state g hne, hg])
    · rcases RealmRsiDone.cases hd with rfl | ⟨s1, res, hrun, hdone, -, hsame⟩
      · exact .inl hg
      · rw [hsame.state] at hg
        exact .inl (hdone.apt_old hact hg)

/-- All tables are among those that a run makes. -/
theorem Reached.apt_of_created {plat : Platform} {s : State} {apts : List Word}
    (h : Reached plat (fun _ act => ∀ rdAddr aptAddr, act = .aptCreate rdAddr aptAddr →
      aptAddr ∈ apts) s) {g : Word} (hg : (s.granule g).state = .APT) : g ∈ apts := by
  have hall : ∀ g, (s.granule g).state = .APT → g ∈ apts := by
    refine Reached.records (I := fun s => ∀ g, (s.granule g).state = .APT → g ∈ apts) ?_ ?_ h
    · intro g hg
      simp [initState] at hg
    · rintro s F act s' reply - hF hI hguard hd g hg
      obtain hold | ⟨rdAddr, hact⟩ := hd.apt_old hF hg
      · exact hI g hold
      · exact hguard rdAddr g hact
  exact hall g hg

set_option maxRecDepth 100000 in
/-- A region of one page that a slave has reserved and attached: the destruction of the
slave's table leaves nothing behind. -/
theorem aptDestroyClean_page : ∃ s, Reachable demoPlat s ∧ ∃ s' res,
    smcAptDestroy demoPlat s (gr 64) (gr 69) = .ok (s', res) ∧ res.ret = rmiSuccess ∧
      translate s (gr 64) 0x5000#64 = some (.assigned .RAM (gr 128)) ∧
      AptDestroyClean s (gr 64) (gr 69) s' := by
  have hrun : replayEnds (demoKeys [16, 64] [128] [0, 1, 5]) demoPlat
      (fun _ act => match act with
        | .aptCreate _ aptAddr => decide (aptAddr ∈ [gr 21, gr 69])
        | _ => true)
      (demoMapped 0x5000 ++ [.rsi (gr 70) (.csmAttach 0)])
      (fun s => (match smcAptDestroy demoPlat s (gr 64) (gr 69) with
          | .ok (_, res) => res.ret == rmiSuccess
          | .error _ => false) &&
        translate s (gr 64) 0x5000#64 == some (.assigned .RAM (gr 128)) &&
        decide (∀ mi < maxMemRegions, ∀ sk < csmMaxMasterShares,
          (((s.apt (gr 21)).masterMemory mi).shares sk).inUse = true →
          shareRank ((s.apt (gr 21)).masterMemory mi) sk <
            regionCount (s.apt (gr 21)) (entryIds demoPlat s (gr 69) (gr 21)) mi) &&
        decide (∀ sj < maxMemRegions, (s.apt (gr 21)).slaveUsedMask sj = false) &&
        decide (∀ e ∈ usedSlaves (s.apt (gr 69)) (List.range maxMemRegions),
          e.ipaStart = 0x5000#64 ∧ e.mapSize = 0x1000#64 ∧
            OnPage (slavePlaces (gr 64) e) (gr 64) 0x5000) &&
        decide (usedMasters (s.apt (gr 69)) (List.range maxMemRegions) = []) &&
        decide (PageLevel s (gr 64, 0x5000#64))) = true := by
    decide +kernel
  obtain ⟨s, hs, ht⟩ := @replayEnds_reached _ _ _ (fun _ act => ∀ rdAddr aptAddr,
    act = .aptCreate rdAddr aptAddr → aptAddr ∈ [gr 21, gr 69]) (by
      rintro s act hok rdAddr aptAddr rfl
      exact of_decide_eq_true hok) _ _ hrun
  revert ht
  cases hcall : smcAptDestroy demoPlat s (gr 64) (gr 69) with
  | error f => exact fun hc => by cases hc
  | ok p =>
    obtain ⟨s', res⟩ := p
    intro ht
    simp only [Bool.and_eq_true, beq_iff_eq, decide_eq_true_eq] at ht
    obtain ⟨⟨⟨⟨⟨⟨hok, hmap⟩, hshares⟩, hslaves⟩, hown⟩, hlent⟩, hlevel⟩ :=
      ht
    have hother : ∀ g, g ≠ gr 69 → (s.granule g).state = .APT → g = gr 21 := by
      intro g hne hg
      have hmem := hs.apt_of_created hg
      simpa [hne] using hmem
    refine ⟨s, hs.reachable, s', res, hcall, hok, hmap,
      (aptDestroyClean_iff hs.reachable hcall hok).mpr
        ⟨fun g hne hg mi hmi sk hsk hu _ => ?_, fun g hne hg sj hsj hu => ?_,
          fun ipa r pa hres _ _ => ?_, fun slave ipa r pa _ _ hl _ => ?_⟩⟩
    · rw [hother g hne hg] at hu ⊢
      exact hshares mi hmi sk hsk hu
    · rw [hother g hne hg, hslaves sj hsj] at hu
      cases hu
    · -- the one region that the realm has reserved is the page at 0x5000
      obtain ⟨-, e, he, offset, hoff, hal, rfl⟩ := hres
      obtain ⟨hstart, hsize, hon⟩ := hown e he
      rw [hsize] at hoff
      rw [offset_eq_zero hoff hal, BitVec.add_zero, hstart]
      exact ⟨hlevel, e, he, hon⟩
    · obtain ⟨m, hm, -⟩ := hl
      rw [hlent] at hm
      cases hm

set_option maxRecDepth 100000 in
/-- A share that was granted and never reserved: the destruction of the slave's table
succeeds and the share still names the realm. -/
theorem apt_destroy_keeps_share : ∃ s, Reachable demoPlat s ∧ ∃ s' res,
    smcAptDestroy demoPlat s (gr 64) (gr 69) = .ok (s', res) ∧ res.ret = rmiSuccess ∧
      (s'.granule (gr 21)).state = .APT ∧
      (((s'.apt (gr 21)).masterMemory 0).shares 0).inUse = true ∧
      (((s'.apt (gr 21)).masterMemory 0).shares 0).slaveRdPa = gr 64 ∧
      ¬ AptDestroyClean s (gr 64) (gr 69) s' := by
  have hrun : replayEnds (demoKeys [16, 64] [] [0]) demoPlat (fun _ _ => true)
      (demoRealm 16 1 ++ demoRealm 64 2 ++ (demoShare 0x1000 0x1000 0 0x5000).take 3)
      (fun s => match smcAptDestroy demoPlat s (gr 64) (gr 69) with
        | .ok (s', res) => res.ret == rmiSuccess && (s'.granule (gr 21)).state == .APT &&
            (((s'.apt (gr 21)).masterMemory 0).shares 0).inUse &&
            (((s'.apt (gr 21)).masterMemory 0).shares 0).slaveRdPa == gr 64
        | .error _ => false) = true := by
    decide +kernel
  obtain ⟨s, hs, ht⟩ := replayEnds_reachable hrun
  revert ht
  cases hcall : smcAptDestroy demoPlat s (gr 64) (gr 69) with
  | error f => exact fun hc => by cases hc
  | ok p =>
    obtain ⟨s', res⟩ := p
    intro ht
    simp only [Bool.and_eq_true, beq_iff_eq] at ht
    obtain ⟨⟨⟨hok, hapt⟩, hu⟩, hrd⟩ := ht
    exact ⟨s, hs, s', res, hcall, hok, hapt, hu, hrd, fun hclean =>
      hclean.shares (gr 21) hapt 0 (by decide) 0 (by decide) hu hrd⟩

end RmmCaec
