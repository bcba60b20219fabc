import RmmCaec.DataMapped

/-!
# Mirroring of created pages

A page that is created inside a shared region should appear in the master and in
every slave of the region. The propagation visits the slaves of a master that
creates a page, and only the master when a slave creates one; the pages that it
visits are the only ones that change.
-/
namespace RmmCaec

open RadixForest Outcome Runs

/-- The place is covered by a page entry. -/
def PageLevel (s : State) (p : Word × Word) : Prop :=
  (s.granule p.1).state = .RD ∧ p.2.toNat < 2 ^ (s.rd p.1).s2Ctx.ipaBits ∧
    (leafOf s.rtt (s.rd p.1).s2Ctx p.2).2 = s2ttPageLevel

instance (s : State) (p : Word × Word) : Decidable (PageLevel s p) :=
  inferInstanceAs (Decidable ((s.granule p.1).state = .RD ∧
    p.2.toNat < 2 ^ (s.rd p.1).s2Ctx.ipaBits ∧
    (leafOf s.rtt (s.rd p.1).s2Ctx p.2).2 = s2ttPageLevel))

/-- The page at the place maps the granule. -/
def PageMaps (s : State) (p : Word × Word) (g : Word) : Prop :=
  ∃ r, translate s p.1 p.2 = some (.assigned r (g + BitVec.ofNat 64 (p.2.toNat % 4096)))

section

variable {s s' : State} {F F' : Tables}

theorem PageLevel.heightAt (h : Holds s F) {p : Word × Word} (hp : PageLevel s p) :
    HeightAt F p.1 p.2.toNat 0 := by
  obtain ⟨hrd, ha, hlevel⟩ := hp
  obtain ⟨v, -, t, n, i, hl, -⟩ := translate_spec h hrd ha
  refine ⟨t, n, i, hl, levelOf_eq_page ?_⟩
  rw [h.leafOf_of_isLeaf hl ha] at hlevel
  exact hlevel

theorem pageMaps_iff (h : Holds s F) {p : Word × Word} (hrd : (s.granule p.1).state = .RD)
    (ha : p.2.toNat < 2 ^ (s.rd p.1).s2Ctx.ipaBits) (g : Word) :
    PageMaps s p g ↔ ∃ r, Maps F p.1 p.2.toNat r (g + BitVec.ofNat 64 (p.2.toNat % 4096)) :=
  exists_congr fun r => translate_maps_iff h hrd ha r _

/-- A page maps a granule if its entry names it. -/
theorem maps_page_iff (h : Holds s F) {rd : Word} {a : ℕ} {t : Word} {n : Table} {i : ℕ}
    (hl : IsLeaf F rd a t n i) (h0 : n.height = 0) (r : Ripas) (g : Word) :
    Maps F rd a r (g + BitVec.ofNat 64 (a % 4096)) ↔ n.slot i = .assigned r g := by
  have hoff : a - n.slotBase rttShape i = a % 4096 := by
    rw [← h.slot_offset hl.table hl.covers, h0]
    rfl
  constructor
  · rintro ⟨t', n', i', pa, hl', he, hg⟩
    obtain ⟨rfl, rfl, rfl⟩ := h.leaf_unique hl' hl
    rw [hoff] at hg
    rw [he, (BitVec.add_left_inj _).mp hg]
  · intro he
    exact ⟨t, n, i, g, hl, he, by rw [hoff]⟩

/-- An address on the page of a slot is covered by it. -/
theorem slotCovers_of_page (h : Holds s F) {t : Word} {n : Table} {i a b : ℕ} (ht : F t = some n)
    (h0 : n.height = 0) (hc : n.SlotCovers rttShape i a) (hab : a / 4096 = b / 4096) :
    n.SlotCovers rttShape i b := by
  obtain ⟨_, _, _, _, ⟨q, hq⟩, _⟩ := h.node ht
  obtain ⟨h1, h2⟩ := hc
  have hspan : rttShape.span 1 = 4096 * 512 := by decide
  unfold Node.SlotCovers Node.slotBase
  unfold Node.slotBase at h1 h2
  rw [h0, rttShape_span_zero] at h1 h2 ⊢
  rw [h0, hspan] at hq
  omega

theorem Mirrored.heightAt {R : Word × Word → Word → Prop} {places : List (Word × Word)}
    (hm : Mirrored s F R places s' F') {rd : Word} {a height : ℕ} (h : HeightAt F rd a height) :
    HeightAt F' rd a height := by
  obtain ⟨ls, hls, hC⟩ := hm.micros
  refine Micros.invariant (fun _ F => HeightAt F rd a height)
    (fun l => ∃ rd a old pa, l = .edit rd a 0 old (.mirror pa)) ?_ hls ?_ h
  · rintro s1 F1 l s2 F2 - ⟨rd1, a1, old, pa, hl⟩ hmic h1
    cases hmic with
    | edit st hsrc => exact st.heightAt h1
    | _ => cases hl
  · intro l hl
    obtain ⟨p, -, old, pa, rfl, -⟩ := hC l hl
    exact ⟨_, _, old, pa, rfl⟩

/-- A page off the places maps what it mapped before. -/
theorem Mirrored.entry_kept {R : Word × Word → Word → Prop} {places : List (Word × Word)}
    (h : Holds s F) (hm : Mirrored s F R places s' F') {rd : Word} {a : ℕ}
    (h0 : HeightAt F rd a 0) (hout : ¬ OnPage places rd a) (r : Ripas) (g : Word) :
    Maps F' rd a r (g + BitVec.ofNat 64 (a % 4096)) ↔
      Maps F rd a r (g + BitVec.ofNat 64 (a % 4096)) := by
  obtain ⟨t', n', i', hl', hh'⟩ := hm.heightAt h0
  obtain ⟨n, hl, hh, hs⟩ := hm.untouched rd a t' n' i' hl' fun q hq hc => hout ⟨q, hq, hc⟩
  rw [maps_page_iff hm.wf.holds hl' hh', maps_page_iff h hl (hh.trans hh'), hs]

/-- Every page at the places maps the granule afterwards. -/
theorem Mirrored.entry_mapped {places : List (Word × Word)} {g : Word}
    (hm : Mirrored s F (fun _ pa => pa = g) places s' F') {rd : Word} {a : ℕ}
    (h0 : HeightAt F rd a 0) (hon : OnPage places rd a) :
    Maps F' rd a .RAM (g + BitVec.ofNat 64 (a % 4096)) := by
  obtain ⟨t', n', i', hl', hh'⟩ := hm.heightAt h0
  obtain ⟨p, hp, rfl, hpage⟩ := hon
  -- the page of the place has the same entry
  have hcov := slotCovers_of_page hm.wf.holds hl'.table hh' hl'.covers hpage.symm
  obtain ⟨q, -, -, pa, rfl, he⟩ := hm.mapped p hp t' n' i'
    ⟨hl'.table, hl'.owner, hl'.index, hcov,
    hl'.leaf⟩ hh'
  exact (maps_page_iff hm.wf.holds hl' hh' .RAM pa).mpr he

end

/-- After a creation a page maps the granule if it is the created page, if the
propagation visits it, or if it mapped the granule before. -/
theorem DataCreated.pageMaps_iff {plat : Platform} {s s' : State} {F : Tables}
    {rdAddr dataAddr mapAddr : Word} {measured : Bool} (h : Wf s F)
    (hd : DataCreated plat s F rdAddr dataAddr mapAddr measured s' rmiSuccess)
    {p : Word × Word} (hp : PageLevel s p) :
    PageMaps s' p dataAddr ↔ SamePage (rdAddr, mapAddr) p ∨
      OnPage (csmTargets plat s rdAddr mapAddr) p.1 p.2.toNat ∨ PageMaps s p dataAddr := by
  obtain ⟨rfl, hne⟩ | ⟨-, s1, F1, r, old, F', has, hw1, hmir⟩ := hd
  · exact absurd rfl hne
  obtain ⟨t, n, i, st, ho, h0, -⟩ := has.edit
  have hclaim := has.claimWf.holds
  have hheight := hp.heightAt h.holds
  have hheight1 := st.heightAt hheight
  obtain ⟨hrd, ha, -⟩ := hp
  have hrd' : (s'.granule p.1).state = .RD := by
    rw [hmir.same.state, (st.sameAll hclaim).state, (has.claim.rd p.1).mpr hrd]
  have ha' : p.2.toNat < 2 ^ (s'.rd p.1).s2Ctx.ipaBits := by
    rw [hmir.same.rd, has.sameCtx]
    exact ha
  rw [RmmCaec.pageMaps_iff hmir.wf.holds hrd' ha', RmmCaec.pageMaps_iff h.holds hrd ha]
  by_cases hon : OnPage (csmTargets plat s rdAddr mapAddr) p.1 p.2.toNat
  · exact iff_of_true ⟨.RAM, hmir.entry_mapped hheight1 hon⟩ (.inr (.inl hon))
  by_cases hown : SamePage (rdAddr, mapAddr) p
  · refine iff_of_true ⟨r, ?_⟩ (.inl hown)
    rw [hmir.entry_kept hw1.holds hheight1 hon, st.maps_iff hclaim]
    have hcov := slotCovers_of_page hclaim st.leaf.table h0 st.leaf.covers hown.2
    refine .inl ⟨⟨hown.1.symm.trans ho.symm, hcov⟩, dataAddr, rfl, ?_⟩
    rw [← hclaim.slot_offset st.leaf.table hcov, h0]
    rfl
  · rw [or_iff_right hown, or_iff_right hon]
    refine exists_congr fun r' => ?_
    rw [hmir.entry_kept hw1.holds hheight1 hon, st.maps_iff hclaim]
    have hc : ¬ EditCovers n i p.1 p.2.toNat := by
      rintro ⟨hp1, hcov⟩
      exact hown ⟨ho.symm.trans hp1.symm,
        slotCovers_page hclaim st.leaf.table h0 st.leaf.covers hcov⟩
    simp only [hc, false_and, false_or, not_false_eq_true, true_and]

/-- The page at an offset of a region: in the master, and in every slave with a share
of the region and an entry for it. -/
def regionPlaces (plat : Platform) (s : State) (master : Word) (m : MasterMem) (offset : Word) :
    List (Word × Word) :=
  (master, m.ipaStart + offset) :: (List.range csmMaxMasterShares).flatMap fun si =>
    let slave := (m.shares si).slaveRdPa
    let apt := s.apt (s.rd slave).aptPa
    if (m.shares si).inUse && lockable plat s slave .RD &&
        lockable plat s (s.rd slave).aptPa .APT then
      ((List.range maxMemRegions).filter fun sj =>
        apt.slaveUsedMask sj && (apt.slaveMemory sj).regionId == m.regionId).map fun sj =>
          (slave, (apt.slaveMemory sj).ipaStart + offset)
    else []

/-- The pages of all sharers of the enabled regions that contain the address, whichever
role the realm has in them. -/
def sharerPlaces (plat : Platform) (s : State) (rdAddr mapAddr : Word) : List (Word × Word) :=
  let aptPa := (s.rd rdAddr).aptPa
  let apt := s.apt aptPa
  if lockable plat s aptPa .APT then
    ((List.range maxMemRegions).filter fun i => apt.masterEnabledMask i &&
      inRegion (apt.masterMemory i).ipaStart (apt.masterMemory i).mapSize mapAddr).flatMap (fun i =>
        regionPlaces plat s rdAddr (apt.masterMemory i)
          (mapAddr - (apt.masterMemory i).ipaStart)) ++
    ((List.range maxMemRegions).filter fun i => apt.slaveEnabledMask i &&
      inRegion (apt.slaveMemory i).ipaStart (apt.slaveMemory i).mapSize mapAddr).flatMap (fun i =>
        let slave := apt.slaveMemory i
        let masterApt := s.apt (s.rd slave.masterRdPa).aptPa
        if lockable plat s slave.masterRdPa .RD &&
            lockable plat s (s.rd slave.masterRdPa).aptPa .APT then
          match aptFindMasterByRegionId masterApt slave.regionId with
          | some mi => regionPlaces plat s slave.masterRdPa (masterApt.masterMemory mi)
              (mapAddr - slave.ipaStart)
          | none => []
        else [])
  else []

/-- A host call that creates a page with success. -/
inductive CreatesPage (plat : Platform) (s : State) (rdAddr dataAddr mapAddr : Word) (s' : State) :
    Prop
  | measured {srcAddr flags nsCopy res}
      (run : smcDataCreate plat s rdAddr dataAddr mapAddr srcAddr flags nsCopy = .ok (s', res))
      (ok : res.ret = rmiSuccess) : CreatesPage plat s rdAddr dataAddr mapAddr s'
  | unknown {res} (run : smcDataCreateUnknown plat s rdAddr dataAddr mapAddr = .ok (s', res))
      (ok : res.ret = rmiSuccess) : CreatesPage plat s rdAddr dataAddr mapAddr s'

theorem CreatesPage.done {plat : Platform} {s s' : State} {F : Tables}
    {rdAddr dataAddr mapAddr : Word} (h : Wf s F)
    (hc : CreatesPage plat s rdAddr dataAddr mapAddr s') :
    ∃ measured, DataCreated plat s F rdAddr dataAddr mapAddr measured s' rmiSuccess := by
  cases hc with
  | @measured srcAddr flags nsCopy res run ok =>
    have hd := (smcDataCreate_sat h rdAddr dataAddr mapAddr srcAddr flags nsCopy).of_ok run
    rw [ok] at hd
    exact ⟨true, hd⟩
  | @unknown res run ok =>
    have hd := (smcDataCreateUnknown_sat h rdAddr dataAddr mapAddr).of_ok run
    rw [ok] at hd
    exact ⟨false, hd⟩

/-- A created page is mirrored to all sharers if and only if the pages of the sharers
other than the created one are all visited by the propagation or map the granule
already. -/
theorem created_mirrored_iff {plat : Platform} {s s' : State} (h : Reachable plat s)
    {rdAddr dataAddr mapAddr : Word} (hc : CreatesPage plat s rdAddr dataAddr mapAddr s') :
    (∀ p ∈ sharerPlaces plat s rdAddr mapAddr, PageLevel s p → PageMaps s' p dataAddr) ↔
      ∀ p ∈ sharerPlaces plat s rdAddr mapAddr, PageLevel s p →
        SamePage (rdAddr, mapAddr) p ∨ OnPage (csmTargets plat s rdAddr mapAddr) p.1 p.2.toNat ∨
          PageMaps s p dataAddr := by
  obtain ⟨F, hF⟩ := h.wf
  obtain ⟨measured, hd⟩ := hc.done hF
  exact forall_congr' fun p => forall_congr' fun _ => forall_congr' fun hp => hd.pageMaps_iff hF hp

set_option maxRecDepth 100000 in
/-- A master creates a page of a region that it shares with one slave. -/
theorem created_mirrored_iff_demo : ∃ s s', Reachable demoPlat s ∧
    CreatesPage demoPlat s (gr 16) (gr 128) 0x1000#64 s' ∧
    (gr 64, 0x5000#64) ∈ sharerPlaces demoPlat s (gr 16) 0x1000#64 ∧
    ∀ p ∈ sharerPlaces demoPlat s (gr 16) 0x1000#64, PageLevel s p →
      PageMaps s' p (gr 128) := by
  have hrun : replayEnds (demoKeys [16, 64] [128] [0, 1, 5]) demoPlat (fun _ _ => true)
      (demoRealm 16 1 ++ demoRealm 64 2 ++ demoShare 0x1000 0x1000 0 0x5000 ++
        [.granuleDelegate (gr 128) true]) (fun s =>
        (match smcDataCreateUnknown demoPlat s (gr 16) (gr 128) 0x1000#64 with
          | .ok (_, res) => res.ret == rmiSuccess
          | .error _ => false) &&
        decide ((gr 64, 0x5000#64) ∈ sharerPlaces demoPlat s (gr 16) 0x1000#64) &&
        (sharerPlaces demoPlat s (gr 16) 0x1000#64).all fun p =>
          decide (SamePage (gr 16, 0x1000#64) p) ||
            decide (OnPage (csmTargets demoPlat s (gr 16) 0x1000#64) p.1 p.2.toNat)) = true := by
    decide +kernel
  obtain ⟨s, hs, ht⟩ := replayEnds_reachable hrun
  simp only [Bool.and_eq_true, List.all_eq_true, Bool.or_eq_true, decide_eq_true_eq] at ht
  obtain ⟨⟨hok, hmem⟩, hall⟩ := ht
  cases hc : smcDataCreateUnknown demoPlat s (gr 16) (gr 128) 0x1000#64 with
  | error f => simp [hc] at hok
  | ok out =>
    simp only [hc, beq_iff_eq] at hok
    have hcr : CreatesPage demoPlat s (gr 16) (gr 128) 0x1000#64 out.1 := .unknown hc hok
    refine ⟨s, out.1, hs, hcr, hmem, (created_mirrored_iff hs hcr).mpr fun p hp _ => ?_⟩
    exact (hall p hp).imp id .inl

/-- A third realm, at granule 112, reserves the region as well. -/
def demoThird : List Act :=
  demoRealm 112 3 ++
  [.rsi (gr 22) (.csmShare 1 0x33 0),
   .rsi (gr 118) (.csmReserve 0x011133 0x7000 0x1000),
   .recEnter (gr 118) (gr 0) .run false,
   .granuleDelegate (gr 200) true]

set_option maxRecDepth 100000 in
/-- A page that one slave creates reaches the master and not the other slave. -/
theorem created_not_mirrored : ∃ s s', Reachable demoPlat s ∧
    CreatesPage demoPlat s (gr 64) (gr 200) 0x5000#64 s' ∧
    ¬ ∀ p ∈ sharerPlaces demoPlat s (gr 64) 0x5000#64, PageLevel s p →
      PageMaps s' p (gr 200) := by
  have hrun : replayEnds (demoKeys [16, 64, 112] [200] [0, 1, 5, 7]) demoPlat (fun _ _ => true)
      (demoRealm 16 1 ++ demoRealm 64 2 ++ demoShare 0x1000 0x1000 0 0x5000 ++ demoThird) (fun s =>
        (match smcDataCreateUnknown demoPlat s (gr 64) (gr 200) 0x5000#64 with
          | .ok (s', res) => res.ret == rmiSuccess &&
            translate s' (gr 112) 0x7000#64 == some (.unassigned .EMPTY)
          | .error _ => false) &&
        decide ((gr 112, 0x7000#64) ∈ sharerPlaces demoPlat s (gr 64) 0x5000#64) &&
        (s.granule (gr 112)).state == .RD && (s.rd (gr 112)).s2Ctx.ipaBits == 32 &&
        (leafOf s.rtt (s.rd (gr 112)).s2Ctx 0x7000#64).2 == s2ttPageLevel) = true := by
    decide +kernel
  obtain ⟨s, hs, ht⟩ := replayEnds_reachable hrun
  simp only [Bool.and_eq_true, beq_iff_eq, decide_eq_true_eq] at ht
  obtain ⟨⟨⟨⟨hok, hmem⟩, hrd⟩, hbits⟩, hlevel⟩ := ht
  cases hc : smcDataCreateUnknown demoPlat s (gr 64) (gr 200) 0x5000#64 with
  | error f => simp [hc] at hok
  | ok out =>
    simp only [hc, Bool.and_eq_true, beq_iff_eq] at hok
    refine ⟨s, out.1, hs, .unknown hc hok.1, fun hall => ?_⟩
    obtain ⟨r, hr⟩ := hall _ hmem ⟨hrd, by rw [hbits]; decide, hlevel⟩
    rw [hok.2] at hr
    cases hr

end RmmCaec
