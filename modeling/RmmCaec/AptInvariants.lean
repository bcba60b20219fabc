import RmmCaec.Replay

/-!
# The attachment tables of reachable states

Every attachment table that a run produces arises from a reset table by the
operations on tables, so the representation invariant of those operations holds
in every reachable state.
-/
namespace RmmCaec

open RadixForest Outcome Runs PackedSet

/-- Two states agree on granule states, realms and sharing records. -/
structure SameSharing (s s' : State) : Prop where
  state : ∀ g, (s'.granule g).state = (s.granule g).state
  rd : s'.rd = s.rd
  apt : s'.apt = s.apt
  tags : s'.tags = s.tags
  csmIds : s'.csmIds = s.csmIds

/-- The exit of the REC after a call touches nothing but its reference. -/
theorem RealmRsiDone.cases {plat : Platform} {s s' : State} {F : Tables} {recAddr : Word}
    {call : RsiCall} {reply : Reply} (h : RealmRsiDone plat s F recAddr call s' reply) :
    s' = s ∨ ∃ s1 res, recRunning s recAddr = true ∧ RsiDone plat s F recAddr s1 res call ∧
      reply = .rsi res ∧ SameSharing s1 s' := by
  rcases h with ⟨-, rfl, -⟩ | ⟨hrun, s1, res, hdone, hreply, rfl⟩
  · exact .inl rfl
  refine .inr ⟨s1, res, hrun, hdone, hreply, ?_⟩
  split
  · exact ⟨State.setRefcount_state s1 recAddr 0, rfl, rfl, rfl, rfl⟩
  · exact ⟨fun _ => rfl, rfl, rfl, rfl, rfl⟩

/-- What a call does to one table: the table is new and reset, it is trimmed, or the
call of a running realm changes the realm's own table. -/
inductive AptChange (plat : Platform) (s : State) (act : Act) (g : Word) : Apt → Prop
  | reset : AptChange plat s act g default
  | trim {a : Apt} (was : (s.granule g).state = .APT) (trim : Trim (s.apt g) a) :
      AptChange plat s act g a
  | create {recAddr x2 x3 : Word} {ids : CsmIdRegistry} {id : Byte} {a : Apt} {idx : ℕ}
      (call : act = .rsi recAddr (.csmCreate x2 x3)) (running : recRunning s recAddr = true)
      (own : (s.rd (s.recs recAddr).gRd).aptPa = g) (lock : lockable plat s g .APT = true)
      (legal : illegalRegion x2 x3 = false)
      (conflict : aptFindEnabledConflict (s.apt g) x2 x3 true = false)
      (drawn : csmRegionIdAssign s.csmIds (s.recs recAddr).gRd = (ids, some id))
      (add : aptAddMaster (s.apt g) id x2 x3 true = some (a, idx)) : AptChange plat s act g a
  | share {recAddr x1 x2 x3 slaveRdPa : Word} {masterId : Byte} {a : Apt} {midx : ℕ}
      (call : act = .rsi recAddr (.csmShare x1 x2 x3)) (running : recRunning s recAddr = true)
      (own : (s.rd (s.recs recAddr).gRd).aptPa = g) (lock : lockable plat s g .APT = true)
      (master : realmTagGetByRd s.tags (s.recs recAddr).gRd = some masterId)
      (slave : realmTagRdByTag s.tags (x2.setWidth 8) = some slaveRdPa)
      (find : aptFindMasterByRegionId (s.apt g) (x1.setWidth 8) = some midx)
      (add : aptMasterAddShare (s.apt g) midx (x2.setWidth 8) slaveRdPa (x3.setWidth 8) = some a) :
      AptChange plat s act g a
  | reserve {recAddr x1 x2 x3 masterRdPa : Word} {a : Apt} {midx idx : ℕ}
      (call : act = .rsi recAddr (.csmReserve x1 x2 x3)) (running : recRunning s recAddr = true)
      (own : (s.rd (s.recs recAddr).gRd).aptPa = g) (lock : lockable plat s g .APT = true)
      (legal : illegalRegion x2 x3 = false)
      (tag : realmTagGetByRd s.tags (s.recs recAddr).gRd =
        some (aptSharingSlaveId (x1.setWidth 32)))
      (master : realmTagRdByTag s.tags (aptSharingMasterId (x1.setWidth 32)) = some masterRdPa)
      (other : masterRdPa ≠ (s.recs recAddr).gRd)
      (masterLock : lockable plat s masterRdPa .RD = true)
      (masterApt : lockable plat s (s.rd masterRdPa).aptPa .APT = true)
      (find : aptFindMasterByRegionId (s.apt (s.rd masterRdPa).aptPa)
        (aptSharingRegionId (x1.setWidth 32)) = some midx)
      (slot : (aptFindMasterShareSlot ((s.apt (s.rd masterRdPa).aptPa).masterMemory midx)
        (aptSharingSlaveId (x1.setWidth 32))).isSome)
      (size : ((s.apt (s.rd masterRdPa).aptPa).masterMemory midx).mapSize = x3)
      (conflict : aptFindEnabledConflict (s.apt g) x2 x3 false = false)
      (add : aptAddSlave (s.apt g) (aptSharingMasterId (x1.setWidth 32))
        (aptSharingRegionId (x1.setWidth 32)) masterRdPa x2 x3 true = some (a, idx)) :
      AptChange plat s act g a
  | destroy {recAddr x1 : Word} {midx : ℕ}
      (call : act = .rsi recAddr (.csmDestroy x1)) (running : recRunning s recAddr = true)
      (own : (s.rd (s.recs recAddr).gRd).aptPa = g) (lock : lockable plat s g .APT = true)
      (find : aptFindMasterByRegionId (s.apt g) (x1.setWidth 8) = some midx)
      (unshared : ((s.apt g).masterMemory midx).shareCount = 0#8) :
      AptChange plat s act g (aptEraseMaster (s.apt g) midx)

/-- A table that is not touched. -/
theorem AptChange.same {plat : Platform} {s : State} {act : Act} {g : Word}
    (h : (s.granule g).state = .APT) : AptChange plat s act g (s.apt g) := .trim h (.refl _)

/-- One table changes, the others are not touched. -/
theorem AptChange.of_update {plat : Platform} {s : State} {act : Act} {aptPa : Word} {a : Apt}
    (h : AptChange plat s act aptPa a) {g : Word} (hg : (s.granule g).state = .APT) :
    AptChange plat s act g (Function.update s.apt aptPa a g) := by
  by_cases hga : g = aptPa
  · subst hga
    rw [Function.update_self]
    exact h
  · rw [Function.update_of_ne hga]
    exact .same hg

theorem RsiDone.aptChange {plat : Platform} {s s1 : State} {F : Tables} {recAddr : Word}
    {res : RsiResult} {call : RsiCall} (hd : RsiDone plat s F recAddr s1 res call)
    (hrun : recRunning s recAddr = true) (hc : (Act.rsi recAddr call).sharing = true) {g : Word}
    (hg : (s1.granule g).state = .APT) : AptChange plat s (.rsi recAddr call) g (s1.apt g) := by
  cases call with
  | csmCreate x2 x3 =>
    rcases hd with ⟨rfl, -⟩ | ⟨ids, -, rfl, -⟩ | ⟨ids, id, -, rfl, -⟩ |
      ⟨-, hlegal, hapt, hconf, ids, id, apt', idx, hid, hadd, rfl⟩
    · exact .same hg
    · exact .same hg
    · exact .same hg
    · exact AptChange.of_update (.create rfl hrun rfl hapt hlegal hconf hid hadd) hg
  | csmShare x1 x2 x3 =>
    rcases hd with ⟨rfl, -⟩ | ⟨-, hapt, _, _, _, _, hm, hs, hf, hadd, rfl⟩
    · exact .same hg
    · exact AptChange.of_update (.share rfl hrun rfl hapt hm hs hf hadd) hg
  | csmReserve x1 x2 x3 =>
    rcases hd with rfl | ⟨hlegal, hapt, htag, _, _, _, _, hmaster, hne, hmrd, hmapt,
      hf, hslot, hsize,
      hconf, hadd, rfl⟩
    · exact .same hg
    · exact AptChange.of_update (.reserve rfl hrun rfl hapt hlegal htag hmaster hne hmrd hmapt hf
        hslot hsize hconf hadd) hg
  | csmDetachAndFree x1 =>
    rcases hd with ⟨rfl, -⟩ | ⟨-, _, _, -, -, hcl⟩
    · exact .same hg
    · exact .trim (by rw [← hcl.state, hg]) (hcl.apt g)
  | csmRevoke x1 =>
    rcases hd with ⟨rfl, -⟩ | ⟨-, _, _, _, -, -, hcl⟩
    · exact .same hg
    · exact .trim (by rw [← hcl.state, hg]) (hcl.apt g)
  | csmDestroy x1 =>
    rcases hd with ⟨rfl, -⟩ | ⟨-, hapt, midx, hf, hun, rfl⟩
    · exact .same hg
    · exact AptChange.of_update (.destroy rfl hrun rfl hapt hf hun) hg
  | csmAttach x1 => cases hc
  | ipaStateSet x1 x2 x3 x4 => cases hc
  | systemOff => cases hc

/-- Every table after a step, in terms of the tables before it. -/
theorem StepDone.aptChange {plat : Platform} {s s' : State} {F : Tables} {reply : Reply} {act : Act}
    (h : Wf s F) (hd : StepDone plat s F s' reply act) {g : Word}
    (hg : (s'.granule g).state = .APT) : AptChange plat s act g (s'.apt g) := by
  cases hact : act.sharing with
  | false =>
    have hc := hd.calm h hact
    have hg' := (hc.isApt g).mp hg
    rw [hc.apt g hg']
    exact .same hg'
  | true =>
    rcases Act.sharing_cases hact with ⟨rdAddr, aptAddr, rfl⟩ | ⟨rdAddr, aptAddr, rfl⟩ |
      ⟨recAddr, call, rfl⟩
    · obtain ⟨res, -, ⟨rfl, -⟩ | ⟨hne, hdel, -, hs⟩⟩ := hd
      · exact .same hg
      have hdel := lockable_state hdel
      have hapt : s'.apt = s.apt ∧ ∀ g, g ≠ aptAddr →
          (s'.granule g).state = (s.granule g).state := by
        rcases hs with ⟨-, -, rfl⟩ | ⟨-, -, rfl⟩
        · exact ⟨rfl, fun g hg => by rw [State.setState_of_ne s hg]⟩
        · exact ⟨rfl, fun g hg => by rw [State.setState_of_ne _ hg]; rfl⟩
      rw [hapt.1]
      by_cases hgd : g = aptAddr
      · subst hgd
        rw [(h.zero g (by rw [hdel]; rfl)).2.2]
        exact .reset
      · exact .same (by rw [← hapt.2 g hgd, hg])
    · obtain ⟨res, -, ⟨rfl, -⟩ | ⟨-, F', hf⟩⟩ := hd
      · exact .same hg
      have hne : g ≠ aptAddr := by
        rintro rfl
        rw [hf.freed] at hg
        cases hg
      exact .trim (by rw [← hf.state g hne, hg]) (hf.apt g hne)
    · rcases RealmRsiDone.cases hd with rfl | ⟨s1, res, hrun, hdone, -, hsame⟩
      · exact .same hg
      · rw [hsame.apt]
        rw [hsame.state] at hg
        exact hdone.aptChange hrun hact hg

/-- The operations behind a change. -/
theorem AptChange.ops {plat : Platform} {s : State} {act : Act} {g : Word} {a : Apt}
    (h : AptChange plat s act g a) : a = default ∨ ((s.granule g).state = .APT ∧
      Relation.ReflTransGen AptOp (s.apt g) a) := by
  cases h with
  | reset => exact .inl rfl
  | trim was ht => exact .inr ⟨was, Relation.ReflTransGen.mono (fun _ _ => AptOp.trim) _ _ ht⟩
  | create call running own lock legal conflict drawn add =>
    exact .inr ⟨lockable_state lock, .single (.addMaster add)⟩
  | share call running own lock master slave find add =>
    exact .inr ⟨lockable_state lock, .single (.addShare add)⟩
  | reserve call running own lock legal tag master other masterLock masterApt find
      slot size conflict
      add =>
    exact .inr ⟨lockable_state lock, .single (.addSlave add)⟩
  | destroy call running own lock find unshared =>
    exact .inr ⟨lockable_state lock, .single (.eraseMaster _ _)⟩

/-- Every attachment table of a reached state was built by the table operations. -/
theorem Reached.aptBuilt {plat : Platform} {guard : State → Act → Prop} {s : State}
    (h : Reached plat guard s) : ∀ g, (s.granule g).state = .APT → AptBuilt (s.apt g) := by
  refine Reached.records (I := fun s => ∀ g, (s.granule g).state = .APT → AptBuilt (s.apt g))
    ?_ ?_ h
  · intro g hg
    simp [initState] at hg
  · rintro s F act s' reply - hF hI - hd g hg
    rcases (hd.aptChange hF hg).ops with hz | ⟨hg', hops⟩
    · rw [hz]
      exact Relation.ReflTransGen.refl
    · exact (hI g hg').trans hops

/-- A packed list of enabled regions, its position map and the two masks. -/
structure EnabledRep (e : EnabledRegions) (enabled used : ℕ → Bool) : Prop where
  len_le : e.len ≤ 20
  distinct : ∀ p < e.len, ∀ q < e.len, e.index p = e.index q → p = q
  mask : ∀ i, enabled i = true ↔ ∃ p < e.len, e.index p = i
  inverse : ∀ p < e.len, e.posByIndex (e.index p) = p
  used : ∀ i, enabled i = true → used i = true

structure AptRep (a : Apt) : Prop where
  masters : EnabledRep a.enabledMr a.masterEnabledMask a.masterUsedMask
  slaves : EnabledRep a.enabledSr a.slaveEnabledMask a.slaveUsedMask
  shareCount : ∀ i, a.masterUsedMask i = true → (a.masterMemory i).shareCount.toNat =
    (List.range csmMaxMasterShares).countP fun k => ((a.masterMemory i).shares k).inUse
  slaveIds : ∀ i, a.masterUsedMask i = true →
    ∀ j < csmMaxMasterShares, ∀ k < csmMaxMasterShares,
    ((a.masterMemory i).shares j).inUse = true → ((a.masterMemory i).shares k).inUse = true →
    ((a.masterMemory i).shares j).slaveId = ((a.masterMemory i).shares k).slaveId → j = k

theorem EnabledOk.rep {e : EnabledRegions} {enabled used : ℕ → Bool}
    (h : EnabledOk e enabled used) : EnabledRep e enabled used where
  len_le := h.len_le
  distinct _ hp _ hq := h.packed.distinct hp hq
  mask := h.packed.mem
  inverse := h.packed.inverse
  used := h.used

theorem AptOk.rep {a : Apt} (h : AptOk a) : AptRep a where
  masters := h.masters.rep
  slaves := h.slaves.rep
  shareCount i hi := (h.shares i hi).count
  slaveIds i hi := (h.shares i hi).distinct

/-- The invariant holds after every sequence of operations from a reset table, and
the tables of every reachable state are of this form. -/
theorem aptRep_of_built :
    (∀ a, AptBuilt a → AptRep a) ∧
    ∀ plat s, Reachable plat s → ∀ g, (s.granule g).state = .APT →
      AptBuilt (s.apt g) ∧ AptRep (s.apt g) := by
  have hrep : ∀ a, AptBuilt a → AptRep a := fun a ha => ha.ok.rep
  refine ⟨hrep, fun plat s hs g hg => ?_⟩
  have hb := Reached.aptBuilt hs g hg
  exact ⟨hb, hrep _ hb⟩

set_option maxRecDepth 100000 in
/-- The table of a master with two regions left of three, and that of its slave. -/
theorem aptRep_of_built_demo : ∃ s, Reachable demoPlat s ∧
    (s.apt (gr 21)).enabledMr.len = 2 ∧ (s.apt (gr 21)).enabledMr.index 0 = 2 ∧
    ((s.apt (gr 21)).masterMemory 2).shareCount = 1#8 ∧ AptRep (s.apt (gr 21)) ∧
    (s.apt (gr 69)).enabledSr.len = 1 ∧ (s.apt (gr 69)).enabledSr.index 0 = 1 ∧
    AptRep (s.apt (gr 69)) := by
  have hrun : replayEnds demoRegionsKeys demoPlat (fun _ _ => true) demoRegions (fun s =>
      (s.granule (gr 21)).state == .APT && (s.apt (gr 21)).enabledMr.len == 2 &&
        (s.apt (gr 21)).enabledMr.index 0 == 2 &&
        ((s.apt (gr 21)).masterMemory 2).shareCount == 1#8 &&
        (s.granule (gr 69)).state == .APT && (s.apt (gr 69)).enabledSr.len == 1 &&
        (s.apt (gr 69)).enabledSr.index 0 == 1) = true := by
    decide +kernel
  obtain ⟨s, hs, ht⟩ := replayEnds_reachable hrun
  simp only [Bool.and_eq_true, beq_iff_eq] at ht
  obtain ⟨⟨⟨⟨⟨⟨hmaster, hlen⟩, hfirst⟩, hcount⟩, hslave⟩, hlen'⟩,
      hfirst'⟩ := ht
  exact ⟨s, hs, hlen, hfirst, hcount, (aptRep_of_built.2 demoPlat s hs (gr 21) hmaster).2, hlen',
    hfirst', (aptRep_of_built.2 demoPlat s hs (gr 69) hslave).2⟩

end RmmCaec
