import RmmCaec.Touched

/-!
# Every DATA granule is mapped

A DATA granule that no realm maps cannot be given back: only `smc_data_destroy`
frees one, and it finds the granule through a page. A call that removes pages or
writes over them loses no granule as long as each granule it takes from a page has
another leaf.
-/
namespace RmmCaec

open RadixForest Outcome Runs

/-- A leaf of a realm names the granule at the address. -/
def NamedAt (s : State) (rd ipa g : Word) : Prop :=
  (s.granule rd).state = .RD ∧ ipa.toNat < 2 ^ (s.rd rd).s2Ctx.ipaBits ∧
    ∃ r, translate s rd ipa = some (.assigned r g)

/-- The address lies on a level 3 page that the call removes or writes over. -/
def TouchedAt (plat : Platform) (s : State) (act : Act) (rd ipa : Word) : Prop :=
  (leafOf s.rtt (s.rd rd).s2Ctx ipa).2 = s2ttPageLevel ∧
    OnPage (touchedPlaces plat s act) rd ipa.toNat

/-- The granule that a call frees. -/
def freedGranule (plat : Platform) (s : State) : Act → Option Word
  | .dataDestroy rdAddr mapAddr =>
    if destroyAccepts plat s rdAddr mapAddr then some (pageGranule s rdAddr mapAddr) else none
  | _ => none

/-- Each granule that the call takes from a page without freeing it has a leaf that the
call leaves alone. -/
def KeepsDataNamed (plat : Platform) (s : State) (act : Act) : Prop :=
  ∀ g, (s.granule g).state = .DATA → freedGranule plat s act ≠ some g →
    (∃ rd ipa, NamedAt s rd ipa g ∧ TouchedAt plat s act rd ipa) →
    ∃ rd ipa, NamedAt s rd ipa g ∧ ¬ TouchedAt plat s act rd ipa

section

variable {plat : Platform} {s s' : State} {F F' : Tables} {act : Act}

theorem NamedAt.maps (h : Holds s F) {rd ipa g : Word} (hn : NamedAt s rd ipa g) :
    ∃ r, Maps F rd ipa.toNat r g := by
  obtain ⟨hrd, ha, r, ht⟩ := hn
  exact ⟨r, (translate_maps_iff h hrd ha r g).mp ht⟩

theorem NamedAt.of_maps (h : Holds s F) {rd ipa g : Word} {r : Ripas}
    (ha : ipa.toNat < 2 ^ (s.rd rd).s2Ctx.ipaBits) (hm : Maps F rd ipa.toNat r g) :
    NamedAt s rd ipa g := by
  have hrd : (s.granule rd).state = .RD := by
    obtain ⟨t, n, i, pa, hl, -⟩ := hm
    exact hl.owner ▸ (h.node hl.table).2.1
  exact ⟨hrd, ha, r, (translate_maps_iff h hrd ha r g).mpr hm⟩

/-- A leaf that the call does not touch still names its granule afterwards. -/
theorem NamedAt.kept (h : Wf s F) (he : Effects plat s F act s' F') {rd ipa g : Word}
    (hn : NamedAt s rd ipa g) (hout : ¬ TouchedAt plat s act rd ipa) : NamedAt s' rd ipa g := by
  obtain ⟨r, hm⟩ := hn.maps h.holds
  obtain ⟨t, n, i, pa, hl, hrest⟩ := hm
  have hlevel := h.holds.leafOf_of_isLeaf hl hn.2.1
  obtain ⟨⟨r', hm'⟩, hctx⟩ := he.page_kept ⟨t, n, i, pa, hl, hrest⟩
    ⟨t, n, i, hl, rfl⟩ (by
    intro h0 hon
    refine hout ⟨?_, hon⟩
    rw [hlevel, h0]
    rfl)
  exact .of_maps he.1.holds (by rw [hctx]; exact hn.2.1) hm'

theorem Micro.data_old {l : Effect} (h : Holds s F) (hm : Micro s F l s' F') {g : Word}
    (hg : (s'.granule g).state = .DATA) :
    (s.granule g).state = .DATA ∨ ∃ freed, l = .quiet freed (some g) := by
  cases hm with
  | edit st hsrc => exact .inl (by rwa [(st.sameAll h).state g] at hg)
  | quiet q =>
    rcases q.newData g hg with hold | hc
    · exact .inl hold
    · exact .inr ⟨_, by rw [hc]⟩
  | graft st => exact .inl ((st.state_iff h g (by decide) (by decide)).mp hg)
  | fold st _ _ _ => exact .inl ((st.state_iff h g (by decide) (by decide)).mp hg)
  | destroy st _ _ _ => exact .inl ((st.state_iff h g (by decide) (by decide)).mp hg)
  | plant st => exact .inl ((st.data g).mp hg)
  | fell st => exact .inl ((st.data g).mp hg)

theorem Effects.data_old (he : Effects plat s F act s' F') {g : Word}
    (hg : (s'.granule g).state = .DATA) :
    (s.granule g).state = .DATA ∨ Creates plat s g act := by
  obtain ⟨-, ls, hls, hC⟩ := he
  by_contra hnot
  rw [not_or] at hnot
  refine Micros.invariant (fun s1 _ => (s1.granule g).state ≠ .DATA)
    (StepEffect plat s act) ?_ hls
    hC hnot.1 hg
  intro s1 F1 l s2 F2 hw hl hmic h1 h2
  obtain hold | ⟨freed, rfl⟩ := hmic.data_old hw.holds h2
  · exact h1 hold
  · cases hl.kind with
    | claim hc => exact hnot.2 hc

/-- An aligned address on a page is its first one. -/
theorem slotBase_of_aligned (h : Holds s F) {t : Word} {n : Table} {i a : ℕ} (ht : F t = some n)
    (h0 : n.height = 0) (hc : n.SlotCovers rttShape i a) (ha : a % 4096 = 0) :
    a - n.slotBase rttShape i = 0 := by
  have heq := h.eq_slotBase ht hc (by
    rw [h0, rttShape_span_zero]
    exact Nat.dvd_of_mod_eq_zero ha)
  omega

/-- Mirroring a granule keeps it mapped where it was. -/
theorem Mirrored.page_kept {places : List (Word × Word)} {rd g : Word} {b : ℕ} {r : Ripas}
    (hmir : Mirrored s F (fun _ pa => pa = g) places s' F') (hb : b % 4096 = 0)
    (hm : Maps F rd b r g) : ∃ r', Maps F' rd b r' g := by
  obtain ⟨ls, hls, hC⟩ := hmir.micros
  refine Micros.invariant (fun _ F => ∃ r, Maps F rd b r g)
    (fun l => ∃ rd a old, l = .edit rd a 0 old (.mirror g)) ?_ hls ?_ ⟨r, hm⟩
  · rintro s1 F1 l s2 F2 hw ⟨rd1, a1, old, hl⟩ hmic ⟨r1, hm1⟩
    cases hmic with
    | @edit t n i a e _ _ st hsrc =>
      obtain ⟨-, -, h0, -, rfl⟩ := Effect.edit.inj hl
      obtain hk | ⟨hc, -⟩ := st.maps_kept hw.holds hm1
      · exact hk
      refine ⟨.RAM, (st.maps_iff hw.holds rd b .RAM g).mpr (.inl ⟨hc, g, rfl, ?_⟩)⟩
      rw [slotBase_of_aligned hw.holds st.leaf.table h0 hc.2 hb]
      simp
    | _ => cases hl
  · intro l hl
    obtain ⟨p, -, old, pa, rfl, rfl, -⟩ := hC l hl
    exact ⟨_, _, old, rfl⟩

/-- A created page names its granule afterwards. -/
theorem DataCreated.named {rdAddr dataAddr mapAddr : Word} {measured : Bool} {ret : ReturnCode}
    (hd : DataCreated plat s F rdAddr dataAddr mapAddr measured s' ret)
    (ha : ret = rmiSuccess → mapAddr.toNat % 4096 = 0 ∧
      mapAddr.toNat < 2 ^ (s.rd rdAddr).s2Ctx.ipaBits) :
    s' = s ∨ NamedAt s' rdAddr mapAddr dataAddr := by
  obtain ⟨rfl, -⟩ | ⟨hret, s1, F1, r, old, F', has, hw1, hmir⟩ := hd
  · exact .inl rfl
  right
  obtain ⟨hal, hlt⟩ := ha hret
  obtain ⟨t, n, i, st, ho, h0, -⟩ := has.edit
  have hm1 : Maps F1 rdAddr mapAddr.toNat r dataAddr := by
    refine (st.maps_iff has.claimWf.holds _ _ _ _).mpr
      (.inl ⟨⟨ho.symm, st.leaf.covers⟩, dataAddr, rfl, ?_⟩)
    rw [slotBase_of_aligned has.claimWf.holds st.leaf.table h0 st.leaf.covers hal]
    simp
  obtain ⟨r', hm'⟩ := hmir.page_kept hal hm1
  refine .of_maps hmir.wf.holds ?_ hm'
  rw [hmir.same.rd, has.sameCtx]
  exact hlt

/-- A freed granule is no DATA granule afterwards. -/
theorem StepDone.freed {reply : Reply} (h : Wf s F) (hd : StepDone plat s F s' reply act) {g : Word}
    (hf : freedGranule plat s act = some g) :
    s' = s ∨ (s'.granule g).state = .DELEGATED := by
  cases act with
  | dataDestroy rdAddr mapAddr =>
    obtain ⟨res, -, hd, hacc⟩ := hd
    obtain ⟨rfl, -⟩ | ⟨hret, t, n, i, r, d, s1, F1, F', rfl, h0, he, st, -, -, hrem⟩ := hd
    · exact .inl rfl
    right
    rw [freedGranule, if_pos (hacc hret)] at hf
    rw [h.holds.pageGranule_eq st.leaf h0 he (destroyAccepts_lt (hacc hret))] at hf
    cases hf
    rw [hrem.same.state]
    simp [State.release]
  | _ => cases hf

end

/-- Every DATA granule is named by a leaf of a realm. -/
def DataNamed (s : State) : Prop :=
  ∀ g, (s.granule g).state = .DATA → ∃ rd ipa, NamedAt s rd ipa g

theorem DataNamed.step {plat : Platform} {s s' : State} {F : Tables} {act : Act} {reply : Reply}
    (h : Wf s F) (hI : DataNamed s) (hg : KeepsDataNamed plat s act)
    (hd : StepDone plat s F s' reply act) : DataNamed s' := by
  intro g hdata
  obtain ⟨F', he⟩ := hd.effects h
  by_cases hsame : s' = s
  · subst hsame
    exact hI g hdata
  obtain hold | hcr := he.data_old hdata
  · -- an old granule keeps a leaf that is not touched
    have hfree : freedGranule plat s act ≠ some g := by
      intro hf
      obtain rfl | hdel := hd.freed h hf
      · exact hsame rfl
      · rw [hdel] at hdata
        cases hdata
    obtain ⟨rd, ipa, hn⟩ := hI g hold
    by_cases ht : TouchedAt plat s act rd ipa
    · obtain ⟨rd', ipa', hn', hout⟩ := hg g hold hfree ⟨rd, ipa, hn, ht⟩
      exact ⟨rd', ipa', hn'.kept h he hout⟩
    · exact ⟨rd, ipa, hn.kept h he ht⟩
  · -- a new one is mapped where it was created
    cases act with
    | dataCreate rdAddr dataAddr mapAddr srcAddr flags nsCopy =>
      obtain ⟨rfl, hacc⟩ := hcr
      obtain ⟨res, -, hd, -⟩ := hd
      obtain hs | hn := hd.named fun _ => measuredAccepts_addr hacc
      · exact absurd hs hsame
      · exact ⟨rdAddr, mapAddr, hn⟩
    | dataCreateUnknown rdAddr dataAddr mapAddr =>
      obtain ⟨rfl, hacc⟩ := hcr
      obtain ⟨res, -, hd, -⟩ := hd
      obtain hs | hn := hd.named fun _ => createAccepts_addr hacc
      · exact absurd hs hsame
      · exact ⟨rdAddr, mapAddr, hn⟩
    | _ => exact hcr.elim

/-- In a run whose calls all keep a leaf for the granules that they take from pages, every
DATA granule can be recovered. -/
theorem dataNamed_of_kept {plat : Platform} {s : State} (h : Reached plat (KeepsDataNamed plat) s) :
    DataNamed s := by
  refine h.records ?_ fun s F act s' reply _ hF hI hg hd => hI.step hF hg hd
  intro g hg
  cases hg

/-- A live slot makes a reference. -/
theorem Wf.refs_le {s : State} {F : Tables} (h : Wf s F) {t : Word} {n : Table} (ht : F t = some n)
    {i : ℕ} (hi : i < 512) : (n.slot i).refs ≤ (s.granule t).refcount :=
  (Finset.single_le_sum (f := fun i => (n.slot i).refs) (fun _ _ => Nat.zero_le _)
    (Finset.mem_range.mpr hi)).trans (h.counts t n ht)

/-- With one reference at most one slot is live. -/
theorem Wf.live_unique {s : State} {F : Tables} (h : Wf s F) {t : Word} {n : Table}
    (ht : F t = some n) (h1 : (s.granule t).refcount ≤ 1) {i j : ℕ} (hi : i < 512)
    (hj : j < 512)
    (hri : (n.slot i).refs = 1) (hrj : (n.slot j).refs = 1) : i = j := by
  by_contra hne
  have hsum : ∑ k ∈ ({i, j} : Finset ℕ), (n.slot k).refs ≤ liveCount n :=
    Finset.sum_le_sum_of_subset (by
      intro k hk
      rcases Finset.mem_insert.mp hk with rfl | hk
      · exact Finset.mem_range.mpr hi
      · rw [Finset.mem_singleton.mp hk]
        exact Finset.mem_range.mpr hj)
  rw [Finset.sum_pair hne, hri, hrj] at hsum
  have := h.counts t n ht
  omega

/-- By its reference counts a realm with four concatenated tables at level 2 maps
nothing: only the first entry of the first table is live, and the table behind it
is empty. -/
def realmUnmapped (s : State) (rd : Word) : Bool :=
  let ctx := (s.rd rd).s2Ctx
  ctx.s2StartingLevel == 2 && ctx.ipaBits == 32 &&
    [1, 2, 3].all (fun k => (s.granule (rootTable ctx k)).refcount == 0) &&
    decide ((s.granule (rootTable ctx 0)).refcount ≤ 1) &&
    s2tteIsTable (s.rtt (rootTable ctx 0) 0) 2 &&
    (s.granule (s2ttePa ctx (s.rtt (rootTable ctx 0) 0) 2)).refcount == 0

/-- The starting level table of an address is one of four. -/
theorem walkRoot_eq {ctx : S2ttContext} (hstart : ctx.s2StartingLevel = 2)
    (hbits : ctx.ipaBits = 32)
    (ipa : Word) : ∃ k < 4, walkRoot ctx ipa = rootTable ctx k := by
  have hlt : s2SlAddrToIdx ipa ctx.s2StartingLevel ctx.ipaBits < 2048 := by
    rw [s2SlAddrToIdx, hstart, hbits]
    have h2 : levelLsb 2 = 21 := by decide
    rw [h2, Nat.div_lt_iff_lt_mul (by positivity)]
    exact Nat.mod_lt _ (by positivity)
  unfold walkRoot
  simp only
  split
  · exact ⟨_, by rw [Nat.div_lt_iff_lt_mul (by decide)]; exact hlt, rfl⟩
  · exact ⟨0, by decide, by simp [rootTable]⟩

theorem realmUnmapped_spec {s : State} {F : Tables} (h : Wf s F) {rd : Word}
    (hrd : (s.granule rd).state = .RD) (he : realmUnmapped s rd = true) (ipa g : Word) :
    ¬ NamedAt s rd ipa g := by
  intro hn
  simp only [realmUnmapped, Bool.and_eq_true, beq_iff_eq, List.all_cons, List.all_nil, and_true,
    decide_eq_true_eq] at he
  obtain ⟨⟨⟨⟨⟨hstart, hbits⟩, h1, h2, h3⟩, h0⟩, htab⟩, hchild⟩ := he
  obtain ⟨r, t, n, i, pa, hl, hslot, -⟩ := hn.maps h.holds
  obtain ⟨nr, hnr, hor, hlr, hcr⟩ := h.holds.walkRoot_spec hrd hn.2.1
  have hrefs : (n.slot i).refs = 1 := by rw [hslot]; rfl
  have hnrh : nr.height = 1 := by
    rw [hstart] at hlr
    unfold levelOf at hlr
    omega
  -- the leaf lies in the root table or in a table below it
  have hroot : ∃ j < 512, (nr.slot j).refs = 1 ∧
      ((t = walkRoot (s.rd rd).s2Ctx ipa ∧ n = nr ∧ j = i) ∨
      ∃ k, nr.slot j = .table k ∧ t = k) := by
    have hcn := hl.covers.covers hl.index
    obtain ⟨-, -, -, hle, -, -⟩ := h.holds.node hl.table
    rw [hl.owner, hstart] at hle
    have hh : n.height = 1 ∨ n.height = 0 := by
      unfold levelOf at hle
      omega
    rcases hh with hh | hh
    · have ht := h.holds.ok.eq_of_covers hl.table hnr (hl.owner.trans hor.symm)
        (hh.trans hnrh.symm)
        hcn hcr
      have hnn : n = nr := by
        have := hl.table
        rw [ht, hnr] at this
        exact (Option.some.inj this).symm
      exact ⟨i, hl.index, hnn ▸ hrefs, .inl ⟨ht, hnn, rfl⟩⟩
    · obtain ⟨p, hp, htop, -⟩ := h.holds.ok.node hnr
      rw [hor, ← hl.owner] at hp
      obtain ⟨t', n', ht', ho', hh', hc', k, hk⟩ := h.holds.ok.ancestor hl.table hp hcn
        (by omega : n.height < 1) (hnrh ▸ htop)
      have htr := h.holds.ok.eq_of_covers ht' hnr (ho'.trans (hl.owner.trans hor.symm))
        (hh'.trans hnrh.symm) hc' hcr
      have hnn : n' = nr := by
        rw [htr, hnr] at ht'
        exact (Option.some.inj ht').symm
      subst hnn
      have hlink := Entry.link_eq_some.mp hk
      obtain ⟨m, hm, hom, hhm, hbm⟩ := h.holds.ok.child hnr hc'.slotOf_lt hk
      have hcm : m.Covers rttShape ipa.toNat := by
        have hsc := hc'.slotCovers
        unfold Node.SlotCovers at hsc
        unfold Node.Covers
        rw [hbm, hhm]
        exact hsc
      refine ⟨_, hc'.slotOf_lt, by rw [hlink]; rfl, .inr ⟨k, hlink, ?_⟩⟩
      exact h.holds.ok.eq_of_covers hl.table hm
        (hl.owner.trans (hor.symm.trans hom.symm)) (by omega)
        hcn hcm
  obtain ⟨j, hj, hjr, hcase⟩ := hroot
  have hpos := h.refs_le hnr hj
  obtain ⟨k, hk, hw⟩ := walkRoot_eq hstart hbits ipa
  have hk0 : k = 0 := by
    rw [hw] at hpos
    interval_cases k
    · rfl
    · omega
    · omega
    · omega
  rw [hw, hk0] at hnr
  have hlevel : levelOf nr.height = (3 : ℤ) - 1 := by rw [hnrh]; rfl
  obtain ⟨m, hlink, hm, -, -, -⟩ := table_child h.holds hnr (i := 0) (by decide) hlevel htab
  have hj0 : j = 0 := h.live_unique hnr h0 hj (by decide) hjr (by rw [hlink]; rfl)
  rcases hcase with ⟨-, rfl, rfl⟩ | ⟨k', hk', rfl⟩
  · rw [hj0, hlink] at hslot
    cases hslot
  · rw [hj0, hlink] at hk'
    cases hk'
    have := h.refs_le hl.table hl.index
    rw [hor] at this
    have hc : (3 : ℤ) - 1 = 2 := rfl
    rw [hc, hchild] at this
    omega

set_option maxRecDepth 100000 in
/-- A realm frees a reserved region over a page of its own: the page is gone and its
granule is a DATA granule that nobody maps. -/
theorem dataNamed_detach_loses : ∃ s, Reachable demoPlat s ∧
    (s.granule (gr 128)).state = .DATA ∧
    ∀ rd ipa, ¬ NamedAt s rd ipa (gr 128) := by
  have hrun : replayEnds (demoKeys [16, 64] [128] [0, 5]) demoPlat
      (fun _ act => match act with
        | .realmCreate rd _ _ => decide (rd ∈ [gr 16, gr 64])
        | _ => true)
      (demoRealm 16 1 ++ demoRealm 64 2 ++ demoPage 64 128 0x5000 ++
        demoShare 0x1000 0x1000 0 0x5000 ++ [.rsi (gr 70) (.csmDetachAndFree 0x011122)])
      (fun s => (s.granule (gr 128)).state == .DATA && realmUnmapped s (gr 16) &&
        realmUnmapped s (gr 64)) = true := by
    decide +kernel
  obtain ⟨s, hs, ht⟩ := @replayEnds_reached _ _ _ (fun _ act => ∀ rd paramsAddr nsRead,
    act = .realmCreate rd paramsAddr nsRead → rd ∈ [gr 16, gr 64]) (by
      rintro s act hok rd paramsAddr nsRead rfl
      exact of_decide_eq_true hok) _ _ hrun
  simp only [Bool.and_eq_true, beq_iff_eq] at ht
  obtain ⟨⟨hdata, h16⟩, h64⟩ := ht
  obtain ⟨F, hF⟩ := hs.wf
  refine ⟨s, hs.reachable, hdata, fun rd ipa hn => ?_⟩
  have hmem := hs.realm_of_created hn.1
  simp only [List.mem_cons, List.not_mem_nil, or_false] at hmem
  rcases hmem with rfl | rfl
  · exact realmUnmapped_spec hF hn.1 h16 ipa _ hn
  · exact realmUnmapped_spec hF hn.1 h64 ipa _ hn

/-- All DATA granules are among those that the calls of a run may create. -/
theorem Reached.data_of_created {plat : Platform} {guard : State → Act → Prop} {s : State}
    {gs : List Word} (hguard : ∀ s act g, guard s act → Creates plat s g act → g ∈ gs)
    (h : Reached plat guard s) {g : Word} (hg : (s.granule g).state = .DATA) : g ∈ gs := by
  obtain ⟨F, -, hJ⟩ := h.tables (J :=
    fun s _ => ∀ g, (s.granule g).state = .DATA → g ∈ gs)
    (fun g hg => by cases hg) (by
      intro s F act s' F' _ _ hJ hg he g hdata
      obtain hold | hcr := he.data_old hdata
      · exact hJ g hold
      · exact hguard s act g hg hcr)
  exact hJ g hg

/-- The granule that a call would create. -/
def createdGranule : Act → Option Word
  | .dataCreate _ dataAddr _ _ _ _ => some dataAddr
  | .dataCreateUnknown _ dataAddr _ => some dataAddr
  | _ => none

theorem Creates.granule {plat : Platform} {s : State} {act : Act} {g : Word}
    (h : Creates plat s g act) : createdGranule act = some g := by
  cases act with
  | dataCreate => exact congrArg some h.1
  | dataCreateUnknown => exact congrArg some h.1
  | _ => exact h.elim

/-- The place holds a page of the granule that the call does not touch. -/
def namedUntouched (plat : Platform) (s : State) (act : Act) (g : Word) (p : Word × Word) : Bool :=
  (s.granule p.1).state == .RD && decide (p.2.toNat < 2 ^ (s.rd p.1).s2Ctx.ipaBits) &&
    translate s p.1 p.2 == some (.assigned .RAM g) &&
    !decide (OnPage (touchedPlaces plat s act) p.1 p.2.toNat)

/-- A test of the condition, for granules with the places at which they may be found. -/
def keepsDataNamedTest (plat : Platform) (names : List (Word × List (Word × Word))) (s : State)
    (act : Act) : Bool :=
  (createdGranule act).all (fun g => (names.map Prod.fst).contains g) &&
    ((touchedPlaces plat s act).isEmpty || names.all fun n =>
      (s.granule n.1).state != .DATA || freedGranule plat s act == some n.1 ||
        n.2.any (namedUntouched plat s act n.1))

/-- The condition, and a bound on what the call creates. -/
def KeepsNames (plat : Platform) (gs : List Word) (s : State) (act : Act) : Prop :=
  KeepsDataNamed plat s act ∧ ∀ g, Creates plat s g act → g ∈ gs

theorem keepsNames_of_test {plat : Platform} {names : List (Word × List (Word × Word))}
    {s : State} {act : Act} (hs : Reached plat (KeepsNames plat (names.map Prod.fst)) s)
    (h : keepsDataNamedTest plat names s act = true) :
    KeepsNames plat (names.map Prod.fst) s act := by
  rw [keepsDataNamedTest, Bool.and_eq_true, Option.all_eq_true, Bool.or_eq_true] at h
  obtain ⟨hcreated, hnames⟩ := h
  refine ⟨fun g hdata hfree htouched => ?_, fun g hcr => ?_⟩
  · rcases hnames with hnone | hall
    · obtain ⟨rd, ipa, -, -, p, hp, -⟩ := htouched
      rw [List.isEmpty_iff.mp hnone] at hp
      cases hp
    · have hmem := hs.data_of_created (fun _ _ _ hg hcr => hg.2 _ hcr) hdata
      obtain ⟨n, hn, rfl⟩ := List.mem_map.mp hmem
      have htest := List.all_eq_true.mp hall n hn
      simp only [Bool.or_eq_true, bne_iff_ne, beq_iff_eq, List.any_eq_true, namedUntouched,
        Bool.and_eq_true, decide_eq_true_eq, Bool.not_eq_true', decide_eq_false_iff_not] at htest
      rcases htest with (hstate | hf) | ⟨p, -, ⟨⟨hrd, hlt⟩, htr⟩, hout⟩
      · exact absurd hdata hstate
      · exact absurd hf hfree
      · exact ⟨p.1, p.2, ⟨hrd, hlt, .RAM, htr⟩, fun ht => hout ht.2⟩
  · exact List.contains_iff_mem.mp (hcreated g hcr.granule)

set_option maxRecDepth 100000 in
/-- A page of the master is mirrored into the slave of its region, which attaches the region and
gives it up again; then the master destroys another page. The first page keeps its name in the
master, although the calls write over its name in the slave and remove it there. -/
theorem dataNamed_of_kept_demo : ∃ s, Reached demoPlat (KeepsDataNamed demoPlat) s ∧
    (s.granule (gr 128)).state = .DATA ∧ ∃ rd ipa, NamedAt s rd ipa (gr 128) := by
  have hrun : replayEnds (demoKeys [16, 64] [128, 129] [0, 1, 2, 5]) demoPlat
      (keepsDataNamedTest demoPlat [(gr 128, [(gr 16, 0x1000)]), (gr 129, [(gr 16, 0x2000)])])
      (demoRealm 16 1 ++ demoRealm 64 2 ++ demoShare 0x1000 0x1000 0 0x5000 ++
        demoPage 16 128 0x1000 ++ demoPage 16 129 0x2000 ++
        [.rsi (gr 70) (.csmAttach 0), .rsi (gr 70) (.csmDetachAndFree 0x011122),
          .dataDestroy (gr 16) 0x2000])
      (fun s => (s.granule (gr 128)).state == .DATA) = true := by
    decide +kernel
  obtain ⟨s, hs, ht⟩ := replayEnds_reached_of (fun _ _ hs hok => keepsNames_of_test hs hok) hrun
  rw [beq_iff_eq] at ht
  have hkept : Reached demoPlat (KeepsDataNamed demoPlat) s := hs.mono fun _ _ hg => hg.1
  exact ⟨s, hkept, ht, dataNamed_of_kept hkept (gr 128) ht⟩

end RmmCaec
