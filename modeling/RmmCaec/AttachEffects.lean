import RmmCaec.CsmEffects
import RmmCaec.Translations

/-!
# Effect of attaching a region

A slave attaches a region by copying the master's mappings page by page. The
master is another realm, so its tables do not change in the loop, and every page
that is written is the page that the master had before the call.
-/
namespace RmmCaec

open RadixForest Outcome

/-- The physical page behind a page of a realm that is mapped as RAM. -/
def ramPage (s : State) (rd ipa : Word) : Option Word :=
  if granuleAligned ipa && decide (ipa.toNat < 2 ^ (s.rd rd).s2Ctx.ipaBits) then
    match translate s rd ipa with
    | some (.assigned .RAM pa) => some pa
    | _ => none
  else none

theorem ramPage_eq_some {s : State} {F : Tables} (h : Holds s F) {rd ipa pa : Word}
    (hrd : (s.granule rd).state = .RD) :
    ramPage s rd ipa = some pa ↔ granuleAligned ipa = true ∧
      ipa.toNat < 2 ^ (s.rd rd).s2Ctx.ipaBits ∧ Maps F rd ipa.toNat .RAM pa := by
  unfold ramPage
  split
  case isTrue hc =>
    rw [Bool.and_eq_true, decide_eq_true_eq] at hc
    rw [← translate_maps_iff h hrd hc.2]
    constructor
    · intro he
      split at he
      · rename_i htr
        cases he
        exact ⟨hc.1, hc.2, htr⟩
      · cases he
    · rintro ⟨-, -, he⟩
      rw [he]
  case isFalse hc =>
    rw [Bool.and_eq_true, decide_eq_true_eq] at hc
    refine ⟨by rintro ⟨⟩, ?_⟩
    rintro ⟨h1, h2, -⟩
    exact absurd ⟨h1, h2⟩ hc

theorem realmIpaToPaWithRd_sat {s : State} {F : Tables} (h : Holds s F) {rd : Word}
    (hrd : (s.granule rd).state = .RD) (ipa : Word) :
    Sat (realmIpaToPaWithRd s (s.rd rd).s2Ctx ipa) (fun res => res = ramPage s rd ipa) Benign := by
  have none_of : (∀ pa, ramPage s rd ipa ≠ some pa) → none = ramPage s rd ipa := by
    intro hn
    cases hr : ramPage s rd ipa with
    | none => rfl
    | some pa => exact absurd hr (hn pa)
  unfold realmIpaToPaWithRd
  refine Sat.ite (fun hna => ?_) fun hal => ?_
  · refine Sat.pure (none_of fun pa hc => ?_)
    rw [ramPage_eq_some h hrd] at hc
    rw [Bool.not_eq_true'] at hna
    rw [hna] at hc
    cases hc.1
  have hal' : granuleAligned ipa = true := by simpa using hal
  refine Sat.bind (h.walk_sat hrd s2ttPageLevel (by decide)) ?_
  rintro wi ⟨n, hw, ha, -, -, hstop⟩
  have hleaf := h.walked_isLeaf hw hstop
  obtain ⟨hv, hword⟩ := h.word _ n hleaf.table _ hleaf.index
  rw [hw.owner] at hv hword
  simp only [hword, hw.level]
  refine Sat.ite (fun hram => Sat.pure ?_) fun hram => Sat.pure (none_of fun pa hc => ?_)
  · obtain ⟨pa, he⟩ := (Entry.isAssignedRam_word hv).mp hram
    have hpa := h.slot_offset hleaf.table hleaf.covers
    symm
    rw [ramPage_eq_some h hrd]
    refine ⟨hal', ha, wi.gLlt, n, wi.index, pa, hleaf, he, ?_⟩
    rw [he] at hv
    rw [he, Entry.s2ttePa_assigned hv, hpa]
  · obtain ⟨-, -, t', n', i', q, hl, he, -⟩ := (ramPage_eq_some h hrd).mp hc
    obtain ⟨rfl, rfl, rfl⟩ := h.leaf_unique hl hleaf
    exact hram ((Entry.isAssignedRam_word hv).mpr ⟨q, he⟩)

/-- The slave entry that an attach reads and the master's region it finds for it. -/
def attachEntry (plat : Platform) (s : State) (rdAddr x1 : Word) : Option (SlaveMem × MasterMem) :=
  let regionIndex := (x1.setWidth 32).toInt
  let aptPa := (s.rd rdAddr).aptPa
  let slave := (s.apt aptPa).slaveMemory regionIndex.toNat
  let maptPa := (s.rd slave.masterRdPa).aptPa
  if lockable plat s aptPa .APT && decide (0 ≤ regionIndex) &&
    decide (regionIndex < maxMemRegions) &&
      lockable plat s slave.masterRdPa .RD && lockable plat s maptPa .APT then
    (aptFindMasterByRegionId (s.apt maptPa) slave.regionId).map fun midx =>
      (slave, (s.apt maptPa).masterMemory midx)
  else none

/-- The number of pages that the loop of an attach visits. -/
def regionPages (m : MasterMem) : ℕ := (rangePages m.ipaStart m.mapSize).length

/-- Page `k` of a range. -/
def pageAddr (start : Word) (k : ℕ) : Word := start + BitVec.ofNat 64 (k * granuleSize)

/-- The pages of the slave that an attach writes. -/
def attachPlaces (rdAddr : Word) (slave : SlaveMem) (pages : ℕ) : List (Word × Word) :=
  (List.range pages).map fun k => (rdAddr, pageAddr slave.ipaStart k)

/-- A place of the slave with the master's page at the same offset. -/
def AttachPage (s : State) (rdAddr : Word) (slave : SlaveMem) (m : MasterMem) (p : Word × Word)
    (pa : Word) : Prop :=
  ∃ k < regionPages m, p = (rdAddr, pageAddr slave.ipaStart k) ∧
    ramPage s slave.masterRdPa (pageAddr m.ipaStart k) = some pa

/-- Other realms keep their translations while pages are mirrored into one. -/
theorem Mirrored.ramPage_other {s s1 : State} {F F1 : Tables} {R : Word × Word → Word → Prop}
    {places : List (Word × Word)} (h : Holds s F) (hm : Mirrored s F R places s1 F1)
    {rd ipa : Word}
    (hrd : (s.granule rd).state = .RD) (hne : ∀ q ∈ places, q.1 ≠ rd) :
    ramPage s1 rd ipa = ramPage s rd ipa := by
  have hrd1 : (s1.granule rd).state = .RD := by rw [hm.same.state, hrd]
  refine Option.ext fun pa => ?_
  rw [ramPage_eq_some hm.wf.holds hrd1, ramPage_eq_some h hrd, hm.same.rd]
  refine and_congr_right fun _ => and_congr_right fun ha => ?_
  rw [← translate_maps_iff h hrd ha]
  constructor
  · rintro ⟨t, n', i, q, hl, he, hg⟩
    obtain ⟨n, hl0, hh, hs⟩ := hm.untouched rd _ t n' i hl fun q hq hc => hne q hq hc.1
    obtain ⟨n0, hn0, -, hh0, hb0, -⟩ := hm.nodes t n' hl.table
    rw [hl0.table] at hn0
    cases hn0
    rw [slotBase_congr hh0 hb0] at hg
    rw [translate_maps_iff h hrd ha]
    exact ⟨t, n, i, q, hl0, hs.trans he, hg⟩
  · intro he
    obtain ⟨v, hv, ht⟩ := translate_spec hm.wf.holds hrd1 (by rwa [hm.same.rd])
    rw [hm.same.rd] at ht
    -- the leaf after the writes is the leaf before them
    obtain ⟨t, n', i, hl, hview⟩ := ht
    obtain ⟨n, hl0, hh, hs⟩ := hm.untouched rd _ t n' i hl fun q hq hc => hne q hq hc.1
    obtain ⟨n0, hn0, -, hh0, hb0, -⟩ := hm.nodes t n' hl.table
    rw [hl0.table] at hn0
    cases hn0
    obtain ⟨t2, n2, i2, q, hl2, he2, hg2⟩ := (translate_maps_iff h hrd ha _ _).mp he
    obtain ⟨rfl, rfl, rfl⟩ := h.leaf_unique hl2 hl0
    exact ⟨t2, n', i2, q, hl, hs ▸ he2, by rw [slotBase_congr hh0 hb0, hg2]⟩

/-- The page behind a RAM mapping is named by the leaf that maps it. -/
theorem Maps.names {s : State} {F : Tables} (h : Holds s F) {rd : Word} {a : ℕ} {r : Ripas}
    {g : Word} (hm : Maps F rd a r g) :
    ∃ t n i, F t = some n ∧ i < 512 ∧ n.owner = rd ∧ n.SlotCovers rttShape i a ∧
      (n.slot i).Names n.height g := by
  obtain ⟨t, n, i, pa, hl, he, rfl⟩ := hm
  obtain ⟨hv, -⟩ := h.word t n hl.table i hl.index
  rw [he] at hv
  obtain ⟨h1, h3, hal⟩ := hv
  rw [addrLvlAligned_iff] at hal
  obtain ⟨hmod, hlt⟩ := hal
  obtain ⟨hc1, hc2⟩ := hl.covers
  have h52 : 2 ^ s2tteOaBits (s.rd n.owner).s2Ctx.enableLpa2 ≤ 2 ^ 52 := by
    apply Nat.pow_le_pow_right (by omega)
    unfold s2tteOaBits
    split <;> omega
  have hspan : rttShape.span n.height ≤ 2 ^ 30 := by
    rw [rttShape_span_pow]
    apply Nat.pow_le_pow_right (by omega)
    unfold levelOf at h1
    omega
  have hoff : a - n.slotBase rttShape i < 2 ^ 64 := by omega
  refine ⟨t, n, i, hl.table, hl.index, hl.owner, hl.covers, r, pa, he, ?_, ?_⟩
  · rw [BitVec.toNat_add, BitVec.toNat_ofNat, Nat.mod_eq_of_lt hoff, Nat.mod_eq_of_lt (by omega)]
    omega
  · rw [BitVec.toNat_add, BitVec.toNat_ofNat, Nat.mod_eq_of_lt hoff, Nat.mod_eq_of_lt (by omega)]
    omega

section

variable {s : State} {F : Tables} {rdAddr : Word} {slave : SlaveMem} {m : MasterMem}

theorem attachPlaces_succ (rdAddr : Word) (slave : SlaveMem) (k : ℕ) :
    attachPlaces rdAddr slave (k + 1) =
      attachPlaces rdAddr slave k ++ [(rdAddr, pageAddr slave.ipaStart k)] := by
  rw [attachPlaces, List.range_succ, List.map_append]
  rfl

/-- The loop from page `k` on: either it stops at the first page with nothing done,
or every page is mapped. -/
theorem attachLoop_sat (h : Wf s F) (hrd : (s.granule rdAddr).state = .RD)
    (hmrd : (s.granule slave.masterRdPa).state = .RD)
    (hne : slave.masterRdPa ≠ rdAddr) (len : ℕ) :
    ∀ k cur F1, k + len = regionPages m →
      Mirrored s F (AttachPage s rdAddr slave m) (attachPlaces rdAddr slave k) cur F1 →
      (∀ j < k, (ramPage s slave.masterRdPa (pageAddr m.ipaStart j)).isSome = true) →
      Sat (attachLoop (s.rd slave.masterRdPa).s2Ctx (s.rd rdAddr).s2Ctx m.ipaStart slave.ipaStart
          ((List.range' k len)) cur)
        (fun res => (res.2 = false ∧ res.1 = cur ∧ k = 0 ∧
            ramPage s slave.masterRdPa (pageAddr m.ipaStart 0) = none) ∨
          (res.2 = true ∧ (∀ j < regionPages m,
              (ramPage s slave.masterRdPa (pageAddr m.ipaStart j)).isSome = true) ∧
            ∃ F', Mirrored s F (AttachPage s rdAddr slave m)
              (attachPlaces rdAddr slave (regionPages m)) res.1 F')) Benign := by
  induction len with
  | zero =>
    intro k cur F1 hk hm hall
    obtain rfl : k = regionPages m := hk
    exact Sat.ok (.inr ⟨rfl, hall, F1, hm⟩)
  | succ len ih =>
    intro k cur F1 hk hm hall
    have hplace : ∀ q ∈ attachPlaces rdAddr slave k, q.1 ≠ slave.masterRdPa := by
      intro q hq
      obtain ⟨j, -, rfl⟩ := List.mem_map.mp hq
      exact hne.symm
    have hpage : ramPage cur slave.masterRdPa (pageAddr m.ipaStart k) =
        ramPage s slave.masterRdPa (pageAddr m.ipaStart k) := hm.ramPage_other h.holds hmrd hplace
    have hmrd1 : (cur.granule slave.masterRdPa).state = .RD := by rw [hm.same.state, hmrd]
    have hsat := realmIpaToPaWithRd_sat hm.wf.holds hmrd1 (pageAddr m.ipaStart k)
    rw [hm.same.rd, hpage] at hsat
    rw [List.range'_succ, attachLoop]
    refine Sat.bind hsat ?_
    rintro pa rfl
    cases hp : ramPage s slave.masterRdPa (pageAddr m.ipaStart k) with
    | none =>
      refine assertThat_sat (fun _ => by decide) fun h0 => Sat.pure (.inl ?_)
      obtain rfl : k = 0 := by simpa using h0
      exact ⟨rfl, rfl, rfl, hp⟩
    | some pa =>
      simp only
      have hrd1 : (cur.granule rdAddr).state = .RD := by rw [hm.same.state, hrd]
      have hmap := mapIpaToPa_sat hm.wf hrd1 pa (pageAddr slave.ipaStart k)
      rw [hm.same.rd] at hmap
      refine Sat.bind hmap ?_
      intro s' hs'
      have hp1 : ramPage cur slave.masterRdPa (pageAddr m.ipaStart k) = some pa := hpage.trans hp
      have hmaps := ((ramPage_eq_some hm.wf.holds hmrd1).mp hp1).2.2
      obtain ⟨t, c, i, ht, hi, -, -, hnames⟩ := hmaps.names hm.wf.holds
      rw [← hm.same.rd] at hs'
      obtain ⟨F2, hm2⟩ := hm.snoc ⟨k, by omega, rfl, hp⟩
        (.inr ⟨t, c, i, ht, hi, hnames⟩) hs'
      rw [← attachPlaces_succ] at hm2
      refine (ih (k + 1) s' F2 (by omega) hm2 fun j hj => ?_).imp ?_
      · rcases Nat.lt_succ_iff_lt_or_eq.mp hj with hj | rfl
        · exact hall j hj
        · rw [hp]
          rfl
      · rintro res (⟨-, -, hc, -⟩ | hres)
        · cases hc
        · exact .inr hres

end

/-- What CSM attach does: nothing, or every page of the master's region is mapped in
the caller at the offset it has in the region. -/
def CsmAttached (plat : Platform) (s : State) (F : Tables) (rdAddr x1 : Word) (s' : State)
    (status : RsiStatus) : Prop :=
  (s' = s ∧ status ≠ .SUCCESS) ∨
  (status = .SUCCESS ∧ ∃ slave m F', attachEntry plat s rdAddr x1 = some (slave, m) ∧
    slave.masterRdPa ≠ rdAddr ∧ (s.granule slave.masterRdPa).state = .RD ∧
    (∀ j < regionPages m, (ramPage s slave.masterRdPa (pageAddr m.ipaStart j)).isSome = true) ∧
    Mirrored s F (AttachPage s rdAddr slave m) (attachPlaces rdAddr slave (regionPages m)) s' F')

theorem handleRsiCsmAttach_sat {plat : Platform} {s : State} {F : Tables} (h : Wf s F)
    {rdAddr : Word} (hrd : (s.granule rdAddr).state = .RD) (x1 : Word) :
    Sat (handleRsiCsmAttach plat s rdAddr x1)
      (fun res => CsmAttached plat s F rdAddr x1 res.1 res.2.status) Benign := by
  have idle : ∀ st : RsiStatus, st ≠ .SUCCESS →
      CsmAttached plat s F rdAddr x1 s st := fun st h => .inl ⟨rfl, h⟩
  unfold handleRsiCsmAttach
  simp only
  rw [granuleLock_ok hrd]
  refine Sat.ok_bind (lockApt_sat (by decide) (by decide) fun hapt => ?_)
  refine assertThat_sat (fun _ => by decide) fun hidx => ?_
  set slave := (s.apt (s.rd rdAddr).aptPa).slaveMemory (x1.setWidth 32).toInt.toNat with hslave
  refine findLockGranule_apart (by decide) fun hapart => ?_
  cases hmrd : lockable plat s slave.masterRdPa .RD with
  | false => exact Sat.pure (idle _ (by simp [rsiRet]))
  | true =>
    simp only [Bool.not_true, Bool.false_eq_true, if_false]
    have hne : slave.masterRdPa ≠ rdAddr := fun hc => hapart hmrd (by simp [hc])
    refine lockApt_sat (by decide) (by decide) fun hmapt => ?_
    cases hfind : aptFindMasterByRegionId (s.apt (s.rd slave.masterRdPa).aptPa) slave.regionId with
    | none => exact Sat.pure (idle _ (by simp [rsiRet]))
    | some midx =>
      simp only
      set m := (s.apt (s.rd slave.masterRdPa).aptPa).masterMemory midx with hm
      have hentry : attachEntry plat s rdAddr x1 = some (slave, m) := by
        rw [Bool.and_eq_true] at hidx
        simp only [attachEntry, hapt, hidx, ← hslave, hmrd, hmapt, hfind, Bool.and_self, if_true,
          Option.map_some, hm]
      have hloop := attachLoop_sat (m := m) h hrd (lockable_state hmrd) hne (regionPages m) 0 s F
        (Nat.zero_add _) (.refl h) (by simp)
      rw [← List.range_eq_range'] at hloop
      refine Sat.bind hloop ?_
      rintro ⟨s1, ok⟩ (⟨hok, hs1, -, -⟩ | ⟨hok, hall, F', hF'⟩)
      · simp only at hok hs1
        subst hok hs1
        exact Sat.pure (idle _ (by simp [rsiRet]))
      · simp only at hok hF'
        subst hok
        exact Sat.pure (.inr ⟨rfl, slave, m, F', hentry, hne, lockable_state hmrd, hall, hF'⟩)

end RmmCaec
