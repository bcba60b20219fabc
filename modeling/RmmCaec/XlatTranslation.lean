import RmmCaec.XlatRegions

/-!
# Translations of a context

What a walk of the finished tables finds. Inside a region it ends in a descriptor of the
region, and everywhere else in an invalid one. This is what the tables are built for; it
fails for addresses that the descriptors of the build cannot hold, and for regions behind
the entries that the build gives to the base table.
-/
namespace RmmCaec

open RadixForest Outcome

/-- The virtual addresses of a context. -/
def XlatCtxCfg.Spans (cfg : XlatCtxCfg) (va : Word) : Prop :=
  cfg.baseVa.toNat ≤ va.toNat ∧ va.toNat < cfg.baseVa.toNat + cfg.maxVaSize.toNat

/-- The output address that a region has for an address, rounded to an entry of a level. -/
def XlatMmapRegion.outputAddr (r : XlatMmapRegion) (va : Word) (level : ℤ) : Word :=
  (r.basePa + (va - r.baseVa)) &&& ~~~xlatBlockMask level

/-- A descriptor has the output address and the attributes of a region for an address. -/
def XlatDescribes (arch : XlatArch) (r : XlatMmapRegion) (va : Word) (level : ℤ)
    (desc : Word) : Prop :=
  if mtType r.attr = mtTransient then desc = transientDesc
  else xlatGetOaFromTte arch desc = r.outputAddr va level ∧
    desc = setOaToTte arch (r.outputAddr va level) ||| xlatAttrs arch r.attr level

/-- The tables map the regions and nothing else, and each region as soon as it was mapped. -/
structure MapsExactly (arch : XlatArch) (cfg : XlatCtxCfg) (pool : XlatPool)
    (mem : Word → ℕ → Word) (mm : List XlatMmapRegion) (tbls : XlatCtxTbls) : Prop where
  inside : ∀ r ∈ mm, ∀ va : Word, r.Contains va.toNat →
    ∃ level desc, xlatWalk arch cfg tbls va = some (level, desc) ∧
      XlatDescribes arch r va level desc
  outside : ∀ va, cfg.Spans va → (∀ r ∈ mm, ¬ r.Contains va.toNat) →
    ∃ level, xlatWalk arch cfg tbls va = some (level, invalidDesc)
  stable : ∀ i, ∃ before,
    xlatMapRegions arch cfg (cfg.mmap.take i) (xlatStart pool mem) = .ok (none, before) ∧
    ∀ r ∈ mm.take i, ∀ va : Word, r.Contains va.toNat →
      xlatWalk arch cfg before va = xlatWalk arch cfg tbls va

/-- What the tables of a build can represent of a list of regions. -/
structure Representable (arch : XlatArch) (vaSize ctxBaseVa : Word) (mm : List XlatMmapRegion) :
    Prop where
  known : ∀ r ∈ mm, MtSupported r.attr
  address : arch.lpa2 = false → ∀ r ∈ mm, mtType r.attr ≠ mtTransient →
    r.basePa.toNat + r.size.toNat ≤ 2 ^ 48
  base_table : arch.opencca = true → 2 ^ 39 < vaSize.toNat → ∀ r ∈ mm,
    r.baseVa.toNat + r.size.toNat ≤ ctxBaseVa.toNat + 2 ^ 43

section
variable {arch : XlatArch} {cfg : XlatCtxCfg} {pool : XlatPool} {places : Finset XlatPlace}
  {tbls : XlatCtxTbls} {F : XlatForest} {t off base : Word} {n : XlatNode} {h k : ℕ} {d : Word}

/-- The index of an address is the entry that covers it. -/
theorem xlatTableIdx_slotOf (hd : rttShape.span (n.height + 1) ∣ n.base)
    (hc : n.Covers rttShape off.toNat) :
    xlatTableIdx off (levelOf n.height) = n.slotOf rttShape off.toNat := by
  have hpos := rttShape.span_pos n.height
  obtain ⟨q, hq⟩ := hd
  obtain ⟨h1, h2⟩ := hc
  rw [rttShape.span_succ, rttShape_fan] at hq h2
  have hmask : (0x1ff#64).toNat = 2 ^ 9 - 1 := rfl
  rw [xlatTableIdx, BitVec.toNat_and, hmask, Nat.and_two_pow_sub_one_eq_mod,
    BitVec.toNat_ushiftRight, xlatAddrShift_levelOf, Nat.shiftRight_eq_div_pow,
    ← rttShape_span_pow, Node.slotOf]
  -- the entries before the table are a multiple of those of one table
  obtain ⟨e, he⟩ := Nat.exists_eq_add_of_le h1
  have hbase : n.base = 512 * q * rttShape.span n.height := by
    rw [hq]
    ring
  have hlt : e / rttShape.span n.height < 512 := Nat.div_lt_of_lt_mul (by rw [Nat.mul_comm]; omega)
  rw [he, Nat.add_sub_cancel_left, hbase, Nat.add_comm, Nat.add_mul_div_right _ _ hpos,
    Nat.add_mul_mod_self_left, Nat.mod_eq_of_lt hlt]

/-- The walk from a table that covers an address ends at the leaf of the address. -/
theorem findXlatLastTableFrom_leaf (arch : XlatArch) (base : Word)
    (hF : XlatHolds cfg pool places tbls F) (ht : F t = some n)
    (hn : n.height = h) (hc : n.Covers rttShape off.toNat) (hl : XlatLeaf F off.toNat k d) :
    (findXlatLastTableFrom arch tbls off h t base).level = levelOf k ∧
      tbls.mem (findXlatLastTableFrom arch tbls off h t base).table
        (xlatTableIdx off (levelOf k)) = d := by
  induction h generalizing t n base with
  | zero =>
    obtain ⟨-, hd, -⟩ := hF.node ht
    have hidx := xlatTableIdx_slotOf hd hc
    have hword := hF.word ht hc.slotOf_lt
    cases hs : n.slot (n.slotOf rttShape off.toNat) with
    | table addr =>
      obtain ⟨m, -, hm, -⟩ := hF.subtable ht hc.slotOf_lt hs
      omega
    | leaf d' =>
      obtain ⟨rfl, rfl⟩ := hF.leaf_unique hl (.of_slot ht hc.slotOf_lt hs hc.slotCovers)
      rw [hs, ← hidx] at hword
      rw [hn] at hword ⊢
      exact ⟨rfl, hword⟩
  | succ h ih =>
    obtain ⟨-, hd, -⟩ := hF.node ht
    have hidx := xlatTableIdx_slotOf hd hc
    have hword := hF.word ht hc.slotOf_lt
    rw [← hidx] at hword
    unfold findXlatLastTableFrom
    dsimp only
    cases hs : n.slot (n.slotOf rttShape off.toNat) with
    | table addr =>
      obtain ⟨m, hm, hheight, hbase⟩ := hF.subtable ht hc.slotOf_lt hs
      obtain ⟨hoa, htype⟩ := hF.pointer arch hm
      rw [hidx, hs] at hword
      rw [← hn, hidx, hword]
      rw [XlatEntry.word, htype, if_neg (not_not.mpr rfl), hoa]
      refine ih _ hm (by omega) ?_
      obtain ⟨h1, h2⟩ := hc.slotCovers
      refine ⟨hbase ▸ h1, ?_⟩
      rw [hbase, hheight]
      exact h2
    | leaf d' =>
      obtain ⟨rfl, rfl⟩ := hF.leaf_unique hl (.of_slot ht hc.slotOf_lt hs hc.slotCovers)
      have htype := hF.leaf ht hc.slotOf_lt hs (by omega)
      rw [hidx, hs] at hword
      rw [← hn, hidx, hword]
      rw [XlatEntry.word, if_pos htype]
      exact ⟨rfl, hword⟩

/-- The page of an address of the context. -/
theorem xlatVaOffset_toNat {va : Word} (hle : cfg.baseVa.toNat ≤ va.toNat) :
    (xlatVaOffset cfg va).toNat = (va.toNat - cfg.baseVa.toNat) / 4096 * 4096 := by
  have hmask : pageSizeMask = xlatBlockMask (levelOf 0) := by decide
  have hva := va.isLt
  have hsub : (va - cfg.baseVa).toNat = va.toNat - cfg.baseVa.toNat := by
    rw [BitVec.toNat_sub]
    omega
  rw [xlatVaOffset, hmask, and_not_xlatBlockMask_toNat (Nat.zero_le 4), hsub, rttShape_span_zero]

/-- The walk of an address of the context ends at the leaf of its page. -/
theorem xlatWalk_leaf {va : Word} (hF : XlatHolds cfg pool places tbls F) (hva : cfg.Spans va)
    (hl : XlatLeaf F (xlatVaOffset cfg va).toNat k d)
    (hmax : cfg.maxVaSize.toNat ≤ rttShape.span (cfg.top + 1)) :
    xlatWalk arch cfg tbls va = some (levelOf k, d) := by
  obtain ⟨hlo, hhi⟩ := hva
  have hoff := xlatVaOffset_toNat hlo
  have hlt : ¬ va < cfg.baseVa := not_lt.mpr hlo
  have hin : ¬ xlatVaOffset cfg va ≥ cfg.maxVaSize := by
    rw [ge_iff_le, BitVec.le_def]
    omega
  obtain ⟨n, hn, hheight, hbase⟩ := hF.root
  have hc : n.Covers rttShape (xlatVaOffset cfg va).toNat := by
    rw [Node.Covers, hheight, hbase]
    omega
  obtain ⟨hlevel, hmem⟩ :=
    findXlatLastTableFrom_leaf arch cfg.baseVa hF hn hheight hc hl
  rw [xlatWalk, findXlatLastTable, if_neg hlt, if_neg hin, Option.map_some,
    hF.pool_eq, hlevel, hmem]

end

section
variable {arch : XlatArch} {region : XlatAddrRegionId} {mm : List XlatMmapRegion} {vaSize : Word}
  {cfg : XlatCtxCfg} {r : XlatMmapRegion} {va : Word}

/-- A region that was passed in, and what the context has of it. -/
theorem CfgOk.relative (hcfg : CfgOk arch region mm vaSize cfg) (hr : r ∈ mm) :
    relativeTo cfg.baseVa r ∈ cfg.mmap ∧ RegionOk arch vaSize (relativeTo cfg.baseVa r) ∧
      (relativeTo cfg.baseVa r).baseVa.toNat + cfg.baseVa.toNat = r.baseVa.toNat := by
  have hin : relativeTo cfg.baseVa r ∈ cfg.mmap := by
    rw [hcfg.mmap]
    exact List.mem_map_of_mem hr
  refine ⟨hin, hcfg.regions.ok _ hin, ?_⟩
  have hle := BitVec.le_def.mp (hcfg.half r hr)
  have hlt := r.baseVa.isLt
  rw [relativeTo, BitVec.toNat_sub]
  omega

/-- An address of a region is an address of the context, and its page is in the region. -/
theorem CfgOk.contains (hcfg : CfgOk arch region mm vaSize cfg) (hr : r ∈ mm)
    (hva : r.Contains va.toNat) : cfg.Spans va ∧
      (relativeTo cfg.baseVa r).Contains (va.toNat - cfg.baseVa.toNat) ∧
      (relativeTo cfg.baseVa r).Contains (xlatVaOffset cfg va).toNat := by
  obtain ⟨-, hok, hbase⟩ := hcfg.relative hr
  have hend := hok.va_end
  have h1 := hok.va_aligned
  have h2 := hok.size_aligned
  have hsize : (relativeTo cfg.baseVa r).size = r.size := rfl
  rw [hsize] at hend h2
  obtain ⟨hlo, hhi⟩ := hva
  have hspans : cfg.baseVa.toNat ≤ va.toNat := by omega
  have hoff := xlatVaOffset_toNat hspans
  refine ⟨⟨by omega, by rw [hcfg.maxVaSize]; omega⟩,
    ⟨by omega, by rw [hsize]; omega⟩, ?_, ?_⟩
  · omega
  · rw [hsize]
    omega

/-- The address that the leaf of a page holds is the output address. -/
theorem RegionLeaf.outputAddr (hcfg : CfgOk arch region mm vaSize cfg) (hr : r ∈ mm)
    (hva : r.Contains va.toNat) {k : ℕ} {d : Word} (hk : k ≤ 4)
    (hleaf : RegionLeaf arch (relativeTo cfg.baseVa r) (xlatVaOffset cfg va).toNat k d) :
    XlatDescOf arch r.attr (r.outputAddr va (levelOf k)) (levelOf k) d ∧
      (r.outputAddr va (levelOf k)).toNat = (r.basePa.toNat + (va.toNat - r.baseVa.toNat)) /
        rttShape.span k * rttShape.span k := by
  obtain ⟨-, hok, hbase⟩ := hcfg.relative hr
  obtain ⟨⟨hlo, -⟩, -, -⟩ := hcfg.contains hr hva
  have hpa := hok.pa_end
  have hw : 2 ^ arch.paWidth ≤ 2 ^ 52 := Nat.pow_le_pow_right (by omega) arch.paWidth_le
  have hpos := rttShape.span_pos k
  have hsize : (relativeTo cfg.baseVa r).size = r.size := rfl
  have hpaBase : (relativeTo cfg.baseVa r).basePa = r.basePa := rfl
  rw [hsize, hpaBase] at hpa
  obtain ⟨hvlo, hvhi⟩ := hva
  have hoff := xlatVaOffset_toNat hlo
  have hround : (xlatVaOffset cfg va).toNat / rttShape.span k =
      (va.toNat - cfg.baseVa.toNat) / rttShape.span k := by
    obtain ⟨q, hq⟩ := page_dvd_span k
    rw [hoff, hq, ← Nat.div_div_eq_div_mul, ← Nat.div_div_eq_div_mul,
      Nat.mul_div_cancel _ (by omega)]
  obtain ⟨hin, ⟨m, hm⟩, -⟩ := hleaf.fits
  have hdesc := hleaf.desc
  have hmod := Nat.div_add_mod (va.toNat - cfg.baseVa.toNat) (rttShape.span k)
  have hrem := Nat.mod_lt (va.toNat - cfg.baseVa.toNat) hpos
  have hinlo := hin.1
  rw [hround, XlatMmapRegion.paOf, hpaBase] at hm hdesc
  rw [hround] at hinlo
  rw [Nat.mul_comm] at hmod
  -- the address is that of the entry and less than an entry more
  have hsum : r.basePa.toNat + (va.toNat - r.baseVa.toNat) =
      rttShape.span k * m + (va.toNat - cfg.baseVa.toNat) % rttShape.span k := by
    omega
  have hadd : (r.basePa + (va - r.baseVa)).toNat = r.basePa.toNat +
      (va.toNat - r.baseVa.toNat) := by
    have hlt := va.isLt
    rw [BitVec.toNat_add, BitVec.toNat_sub]
    omega
  have houtput : (r.outputAddr va (levelOf k)).toNat = (r.basePa.toNat +
      (va.toNat - r.baseVa.toNat)) / rttShape.span k * rttShape.span k := by
    rw [XlatMmapRegion.outputAddr, and_not_xlatBlockMask_toNat hk, hadd]
  refine ⟨?_, houtput⟩
  rw [hsum, Nat.mul_add_div hpos, Nat.div_eq_of_lt hrem, Nat.add_zero, Nat.mul_comm,
    ← hm] at houtput
  rw [← houtput, BitVec.ofNat_toNat, BitVec.setWidth_eq] at hdesc
  exact hdesc

/-- The entries of the base table reach over the address space, unless the build gives the
base level the entries of a level above it. -/
theorem CfgOk.reach (hcfg : CfgOk arch region mm vaSize cfg) :
    (arch.opencca = true → 2 ^ 39 < vaSize.toNat → cfg.reach arch = 2 ^ 43) ∧
      (¬ (arch.opencca = true ∧ 2 ^ 39 < vaSize.toNat) → vaSize.toNat ≤ cfg.reach arch) := by
  obtain ⟨hbase, -, -, hsize⟩ := hcfg.base
  have hlevel := hcfg.baseLevel
  have hmax := hcfg.va_max
  have e30 : (1#64 <<< 30).toNat = 2 ^ 30 := by decide
  have e39 : (1#64 <<< 39).toNat = 2 ^ 39 := by decide
  have e48 : (1#64 <<< 48).toNat = 2 ^ 48 := by decide
  have s3 : rttShape.span 3 = 2 ^ 39 := by rw [rttShape_span_pow]
  have s4 : rttShape.span 4 = 2 ^ 48 := by rw [rttShape_span_pow]
  have hspan : rttShape.span (cfg.top + 1) = 512 * rttShape.span cfg.top :=
    rttShape.span_succ cfg.top
  -- where the base level has a full table, that table reaches over the address space
  have hfull : cfg.baseLevel ≠ xlatTableLevelMin arch → vaSize.toNat ≤ cfg.reach arch := by
    intro hne
    rw [XlatCtxCfg.reach, xlatGetTableEntries, if_neg hne, xlatTableEntries, ← hspan]
    exact hsize
  unfold getXlatTableLevelBase at hlevel
  simp only [gt_iff_lt, BitVec.lt_def, e30, e39, e48] at hlevel
  constructor
  · intro ho hlt
    rw [if_pos ho, if_pos hlt] at hlevel
    have htop : cfg.top = 3 := by
      rw [XlatCtxCfg.top, hlevel]
      rfl
    rw [XlatCtxCfg.reach, htop, s3, hlevel, xlatGetTableEntries, xlatTableLevelMin,
      if_pos ho, if_pos rfl]
    rfl
  · intro hnot
    by_cases hne : cfg.baseLevel = xlatTableLevelMin arch
    · unfold xlatTableLevelMin at hne
      cases ho : arch.opencca with
      | true =>
        rw [hlevel, ho, if_pos rfl, if_pos rfl] at hne
        have hlt : ¬ 2 ^ 39 < vaSize.toNat := fun hlt => hnot ⟨ho, hlt⟩
        rw [if_neg hlt] at hne
        split_ifs at hne <;> omega
      | false =>
        have htop : cfg.top = 4 := by
          rw [XlatCtxCfg.top, hne, ho]
          rfl
        rw [XlatCtxCfg.reach, htop, s4, hne, xlatGetTableEntries, xlatTableLevelMin, if_pos rfl,
          xlatLm1TableEntries]
        split_ifs at hmax <;> omega
    · exact hfull hne

end

section
variable {arch : XlatArch} {region : XlatAddrRegionId} {mm : List XlatMmapRegion} {vaSize : Word}
  {cfg : XlatCtxCfg} {pool : XlatPool} {mem : Word → ℕ → Word} {tbls : XlatCtxTbls}
  {F : XlatForest} {r : XlatMmapRegion} {va : Word}

/-- Known regions that the base table reaches, with a table for each place. -/
theorem xlatMapRegions_done (hcfg : CfgOk arch region mm vaSize cfg)
    {done rest : List XlatMmapRegion}
    (hlist : ∀ q ∈ rest, q ∈ cfg.mmap) (hasc : (done ++ rest).Pairwise RegionBelow)
    (hF : XlatHolds cfg pool (neededPlaces arch cfg) tbls F)
    (hdone : RegionsMapped arch cfg done F) (hroom : tablesNeeded arch cfg ≤ pool.tablesNum)
    (hknown : ∀ q ∈ rest, MtSupported q.attr) (hreach : RegionsReached arch cfg rest) :
    ∃ tbls', xlatMapRegions arch cfg rest tbls = .ok (none, tbls') ∧
      RegionsDone arch cfg pool done rest F tbls' := by
  have hrun := xlatMapRegions_sat (fun q hq => hcfg.regionIn (hlist q hq)) hasc hF hdone
  cases hres : xlatMapRegions arch cfg rest tbls with
  | error f =>
    obtain ⟨q, hq, ⟨-, hmt⟩ | ⟨-, hfew⟩⟩ := hrun.of_error hres
    · exact absurd (hknown q hq) hmt
    · omega
  | ok out =>
    obtain ⟨hiff, hmapped⟩ := hrun.of_ok hres
    obtain ⟨ret, tbls'⟩ := out
    obtain rfl : ret = none := hiff.mpr hreach
    exact ⟨tbls', rfl, hmapped rfl⟩

theorem xlatBaseTree_mapped : RegionsMapped arch cfg [] (xlatBaseTree cfg pool) where
  inside := by simp
  outside := fun ha _ => ⟨cfg.top, xlatBaseTree_free ha⟩

/-- What the walks find in tables that hold a tree in which regions are mapped. -/
theorem RegionsMapped.walk (hcfg : CfgOk arch region mm vaSize cfg) {places : Finset XlatPlace}
    {regions : List XlatMmapRegion} (hF : XlatHolds cfg pool places tbls F)
    (hmapped : RegionsMapped arch cfg regions F) (hr : r ∈ mm)
    (hin : relativeTo cfg.baseVa r ∈ regions) (hva : r.Contains va.toNat) :
    ∃ k d, k ≤ 4 ∧ XlatLeaf F (xlatVaOffset cfg va).toNat k d ∧ d ≠ invalidDesc ∧
      xlatWalk arch cfg tbls va = some (levelOf k, d) ∧
      XlatDescOf arch r.attr (r.outputAddr va (levelOf k)) (levelOf k) d ∧
      (r.outputAddr va (levelOf k)).toNat = (r.basePa.toNat + (va.toNat - r.baseVa.toNat)) /
        rttShape.span k * rttShape.span k := by
  obtain ⟨-, -, htop, hmax⟩ := hcfg.base
  obtain ⟨hspans, -, hpage⟩ := hcfg.contains hr hva
  obtain ⟨k, d, hl, hleaf⟩ := hmapped.inside hin hpage
  have hk : k ≤ 4 := by
    obtain ⟨t, n, ht, rfl, -⟩ := hl
    exact (hF.node ht).1.trans htop
  obtain ⟨hdesc, houtput⟩ := hleaf.outputAddr hcfg hr hva hk
  exact ⟨k, d, hk, hl, hleaf.ne_invalid,
    xlatWalk_leaf hF hspans hl (hcfg.maxVaSize ▸ hmax), hdesc,
    houtput⟩

/-- A descriptor that can hold the address of a region. -/
theorem xlatDescribes_of_desc (hcfg : CfgOk arch region mm vaSize cfg) (hr : r ∈ mm)
    (hva : r.Contains va.toNat) {k : ℕ} {d : Word}
    (hdesc : XlatDescOf arch r.attr (r.outputAddr va (levelOf k)) (levelOf k) d)
    (houtput : (r.outputAddr va (levelOf k)).toNat = (r.basePa.toNat +
      (va.toNat - r.baseVa.toNat)) / rttShape.span k * rttShape.span k)
    (haddr : arch.lpa2 = false → mtType r.attr ≠ mtTransient →
      r.basePa.toNat + r.size.toNat ≤ 2 ^ 48) : XlatDescribes arch r va (levelOf k) d := by
  obtain ⟨-, hok, -⟩ := hcfg.relative hr
  have hpa : r.basePa.toNat + r.size.toNat ≤ 2 ^ arch.paWidth := hok.pa_end
  have hw : 2 ^ arch.paWidth ≤ 2 ^ 52 := Nat.pow_le_pow_right (by omega) arch.paWidth_le
  have hround := Nat.div_mul_le_self (r.basePa.toNat + (va.toNat - r.baseVa.toNat))
    (rttShape.span k)
  obtain ⟨hvlo, hvhi⟩ := hva
  unfold XlatDescribes
  split_ifs with htr
  · rwa [XlatDescOf, if_pos htr] at hdesc
  · refine ⟨?_, by rwa [XlatDescOf, if_neg htr] at hdesc⟩
    rw [hdesc.oa htr]
    refine and_xlatOaMask ?_ ?_
    · rw [houtput]
      exact (page_dvd_span k).trans (Nat.dvd_mul_left _ _)
    · rw [houtput]
      cases hl : arch.lpa2
      · have hlow := haddr hl htr
        change _ < 2 ^ 48
        omega
      · change _ < 2 ^ 52
        omega

/-- Tables that hold a tree in which all regions are mapped map them exactly. -/
theorem RegionsMapped.exact (hcfg : CfgOk arch region mm vaSize cfg) {places : Finset XlatPlace}
    (hF : XlatHolds cfg pool places tbls F) (hmapped : RegionsMapped arch cfg cfg.mmap F)
    (haddr : arch.lpa2 = false → ∀ r ∈ mm, mtType r.attr ≠ mtTransient →
      r.basePa.toNat + r.size.toNat ≤ 2 ^ 48)
    (hstable : ∀ i, ∃ before F0 F',
      xlatMapRegions arch cfg (cfg.mmap.take i) (xlatStart pool mem) =
        .ok (none, before) ∧ XlatHolds cfg pool places before F0 ∧
      RegionsMapped arch cfg (cfg.mmap.take i) F0 ∧ XlatHolds cfg pool places tbls F' ∧
      XlatKept F0 F') :
    MapsExactly arch cfg pool mem mm tbls where
  inside := by
    intro r hr va hva
    obtain ⟨k, d, -, -, -, hwalk, hdesc, houtput⟩ :=
      hmapped.walk hcfg hF hr (hcfg.relative hr).1 hva
    exact ⟨levelOf k, d, hwalk, xlatDescribes_of_desc hcfg hr hva hdesc houtput fun hl =>
      haddr hl r hr⟩
  outside := by
    intro va hspans hout
    obtain ⟨-, -, htop, hmax⟩ := hcfg.base
    have hoff := xlatVaOffset_toNat hspans.1
    obtain ⟨hlo, hhi⟩ := hspans
    rw [hcfg.maxVaSize] at hhi
    obtain ⟨k, hl⟩ := hmapped.outside (a := (xlatVaOffset cfg va).toNat) (by omega) <| by
      intro q hq ha
      rw [hcfg.mmap] at hq
      obtain ⟨r, hr, rfl⟩ := List.mem_map.mp hq
      obtain ⟨-, hok, hbase⟩ := hcfg.relative hr
      have h1 := hok.va_aligned
      have h2 := hok.size_aligned
      have hsize : (relativeTo cfg.baseVa r).size = r.size := rfl
      obtain ⟨ha1, ha2⟩ := ha
      rw [hsize] at h2 ha2
      exact hout r hr ⟨by omega, by omega⟩
    exact ⟨levelOf k, xlatWalk_leaf hF ⟨hlo, hcfg.maxVaSize ▸ hhi⟩ hl
      (hcfg.maxVaSize ▸ hmax)⟩
  stable := by
    intro i
    obtain ⟨before, F0, F', hrun, hF0, hmapped0, hF', hkept⟩ := hstable i
    refine ⟨before, hrun, fun r hr va hva => ?_⟩
    have hmem : r ∈ mm := List.mem_of_mem_take hr
    have hin : relativeTo cfg.baseVa r ∈ cfg.mmap.take i := by
      rw [hcfg.mmap, ← List.map_take]
      exact List.mem_map_of_mem hr
    obtain ⟨-, -, -, hmax⟩ := hcfg.base
    obtain ⟨k, d, -, hl, hne, hwalk, -⟩ := hmapped0.walk hcfg hF0 hmem hin hva
    obtain ⟨hspans, -⟩ := hcfg.contains hmem hva
    rw [hwalk, xlatWalk_leaf hF' hspans (hkept hne hl) (hcfg.maxVaSize ▸ hmax)]

/-- The mark that the tables are set up is in none of them. -/
theorem XlatHolds.initialized {places : Finset XlatPlace} (h : XlatHolds cfg pool places tbls F) :
    XlatHolds cfg pool places { tbls with initialized := true } F :=
  ⟨h.pool_eq, h.ok, h.word, h.leaf, h.owned, h.taken, h.base_taken, h.room, h.fresh, h.placed⟩

theorem xlatInitTablesCtx_ok :
    xlatInitTablesCtx arch cfg (xlatInitCtxTbls pool mem) = .ok (none, tbls) ↔
      ∃ tbls', xlatMapRegions arch cfg cfg.mmap (xlatStart pool mem) = .ok (none, tbls') ∧
        tbls = { tbls' with initialized := true } := by
  change (xlatMapRegions arch cfg cfg.mmap (xlatStart pool mem) >>= _) = _ ↔ _
  constructor
  · intro h
    cases hrun : xlatMapRegions arch cfg cfg.mmap (xlatStart pool mem) with
    | error f =>
      rw [hrun] at h
      cases h
    | ok out =>
      obtain ⟨_ | e, tbls'⟩ := out
      · rw [hrun] at h
        cases h
        exact ⟨tbls', rfl, rfl⟩
      · rw [hrun] at h
        cases h
  · rintro ⟨tbls', hrun, rfl⟩
    rw [hrun]
    rfl

/-- The regions that a context was given, where the base table reaches them. -/
theorem CfgOk.reached_iff (hcfg : CfgOk arch region mm vaSize cfg) :
    RegionsReached arch cfg cfg.mmap ↔
      (arch.opencca = true → 2 ^ 39 < vaSize.toNat → ∀ r ∈ mm,
        r.baseVa.toNat + r.size.toNat ≤ cfg.baseVa.toNat + 2 ^ 43) := by
  obtain ⟨hshort, hfull⟩ := hcfg.reach
  constructor
  · intro h ho hlt r hr
    obtain ⟨hin, -, hbase⟩ := hcfg.relative hr
    have hend := h _ hin
    rw [hshort ho hlt] at hend
    change (relativeTo cfg.baseVa r).baseVa.toNat + r.size.toNat ≤ _ at hend
    omega
  · intro h q hq
    rw [hcfg.mmap] at hq
    obtain ⟨r, hr, rfl⟩ := List.mem_map.mp hq
    obtain ⟨-, hok, hbase⟩ := hcfg.relative hr
    by_cases hcond : arch.opencca = true ∧ 2 ^ 39 < vaSize.toNat
    · have hend := h hcond.1 hcond.2 r hr
      rw [hshort hcond.1 hcond.2]
      change (relativeTo cfg.baseVa r).baseVa.toNat + r.size.toNat ≤ _
      omega
    · exact hok.va_end.trans (hfull hcond)

/-- The regions before some region, and the regions after it. -/
theorem xlatMapRegions_split (mem : Word → ℕ → Word)
    (hcfg : CfgOk arch region mm vaSize cfg)
    (hroom : tablesNeeded arch cfg ≤ pool.tablesNum)
    (hknown : ∀ q ∈ cfg.mmap, MtSupported q.attr)
    (hreach : RegionsReached arch cfg cfg.mmap) (i : ℕ) :
    ∃ before F0 tbls F,
      xlatMapRegions arch cfg (cfg.mmap.take i) (xlatStart pool mem) = .ok (none, before) ∧
      XlatHolds cfg pool (neededPlaces arch cfg) before F0 ∧
      RegionsMapped arch cfg (cfg.mmap.take i) F0 ∧
      xlatMapRegions arch cfg cfg.mmap (xlatStart pool mem) = .ok (none, tbls) ∧
      XlatHolds cfg pool (neededPlaces arch cfg) tbls F ∧ RegionsMapped arch cfg cfg.mmap F ∧
      XlatKept F0 F := by
  have hsplit := List.take_append_drop i cfg.mmap
  have htake : ∀ q ∈ cfg.mmap.take i, q ∈ cfg.mmap := fun q hq => List.mem_of_mem_take hq
  have hdrop : ∀ q ∈ cfg.mmap.drop i, q ∈ cfg.mmap := fun q hq => List.mem_of_mem_drop hq
  have hasc : (cfg.mmap.take i ++ cfg.mmap.drop i).Pairwise RegionBelow := by
    rw [hsplit]
    exact hcfg.regions.ascending
  have hasc0 : ([] ++ cfg.mmap.take i).Pairwise RegionBelow := (List.pairwise_append.mp hasc).1
  have hstart : XlatHolds cfg pool (neededPlaces arch cfg) (xlatStart pool mem)
      (xlatBaseTree cfg pool) := xlatStart_holds
  obtain ⟨before, hrun0, -, F0, hF0, hmapped0, -⟩ :=
    xlatMapRegions_done hcfg htake hasc0 hstart xlatBaseTree_mapped hroom
      (fun q hq => hknown q (htake q hq)) fun q hq => hreach q (htake q hq)
  rw [List.nil_append] at hmapped0
  obtain ⟨tbls, hrun, -, F, hF, hmapped, hkept⟩ :=
    xlatMapRegions_done hcfg hdrop hasc hF0 hmapped0 hroom
      (fun q hq => hknown q (hdrop q hq)) fun q hq => hreach q (hdrop q hq)
  have hall := xlatMapRegions_append (cfg.mmap.take i) (cfg.mmap.drop i) hrun0
  rw [hsplit] at hall hmapped
  exact ⟨before, F0, tbls, F, hrun0, hF0, hmapped0, hall.trans hrun, hF, hmapped, hkept⟩

/-- What a run that succeeds says about the regions, and what it leaves. -/
theorem xlatInitTablesCtx_mapped (hcfg : CfgOk arch region mm vaSize cfg)
    (hrun : xlatInitTablesCtx arch cfg (xlatInitCtxTbls pool mem) = .ok (none, tbls)) :
    (∀ q ∈ cfg.mmap, MtSupported q.attr) ∧ RegionsReached arch cfg cfg.mmap ∧
      ∃ F, XlatHolds cfg pool (neededPlaces arch cfg) tbls F ∧
        RegionsMapped arch cfg cfg.mmap F := by
  obtain ⟨tbls', hrun', rfl⟩ := xlatInitTablesCtx_ok.mp hrun
  have hasc : ([] ++ cfg.mmap).Pairwise RegionBelow := hcfg.regions.ascending
  have hstart : XlatHolds cfg pool (neededPlaces arch cfg) (xlatStart pool mem)
      (xlatBaseTree cfg pool) := xlatStart_holds
  have hsat := xlatMapRegions_sat (fun q hq => hcfg.regionIn hq) hasc hstart xlatBaseTree_mapped
  obtain ⟨hiff, hdone⟩ := hsat.of_ok hrun'
  obtain ⟨hknown, F, hF, hmapped, -⟩ := hdone rfl
  exact ⟨hknown, hiff.mp rfl, F, hF.initialized, hmapped⟩

/-- A descriptor without the two top bits of an address holds no address from 2^48 on. -/
theorem RegionsMapped.address (hcfg : CfgOk arch region mm vaSize cfg) {places : Finset XlatPlace}
    (hF : XlatHolds cfg pool places tbls F) (hmapped : RegionsMapped arch cfg cfg.mmap F)
    (hlpa : arch.lpa2 = false) (hr : r ∈ mm) (htr : mtType r.attr ≠ mtTransient)
    (hexact : MapsExactly arch cfg pool mem mm tbls) :
    r.basePa.toNat + r.size.toNat ≤ 2 ^ 48 := by
  by_contra hgt
  obtain ⟨hin, hok, hbase⟩ := hcfg.relative hr
  have hend := hok.va_end
  have hsome := hok.some_page
  obtain ⟨-, hspace⟩ := xlatCtxBaseVa_bounds region hcfg.va_aligned
  rw [← hcfg.baseVa] at hspace
  have hsize : (relativeTo cfg.baseVa r).size = r.size := rfl
  rw [hsize] at hend hsome
  -- the last address of the region
  obtain ⟨va, hva⟩ : ∃ va : Word, va.toNat + 1 = r.baseVa.toNat + r.size.toNat := by
    refine ⟨BitVec.ofNat 64 (r.baseVa.toNat + r.size.toNat - 1), ?_⟩
    rw [BitVec.toNat_ofNat]
    omega
  have hcontains : r.Contains va.toNat := ⟨by omega, by omega⟩
  obtain ⟨level, desc, hwalk, hdesc⟩ := hexact.inside r hr va hcontains
  obtain ⟨k, d, hk, -, -, hwalk', -, houtput⟩ := hmapped.walk hcfg hF hr hin hcontains
  rw [hwalk] at hwalk'
  cases hwalk'
  rw [XlatDescribes, if_neg htr] at hdesc
  have hheld : (xlatGetOaFromTte arch desc).toNat < 2 ^ 48 := by
    have hmask : (bitMaskUll 47 12).toNat ≤ 2 ^ 48 - 1 := by decide
    have hle : desc.toNat &&& (bitMaskUll 47 12).toNat ≤ (bitMaskUll 47 12).toNat :=
      Nat.and_le_right
    rw [xlatGetOaFromTte, hlpa, if_neg Bool.false_ne_true, BitVec.toNat_and]
    omega
  rw [hdesc.1, houtput] at hheld
  -- rounding to an entry keeps an address above 2^48
  have hfour : rttShape.span k ∣ 2 ^ 48 := by
    have hd := rttShape.span_dvd hk
    rwa [rttShape_span_pow 4] at hd
  obtain ⟨q, hq⟩ := hfour
  have hpos := rttShape.span_pos k
  have hquot : q ≤ (r.basePa.toNat + (va.toNat - r.baseVa.toNat)) / rttShape.span k := by
    rw [Nat.le_div_iff_mul_le hpos, Nat.mul_comm, ← hq]
    omega
  have hmul := Nat.mul_le_mul_right (rttShape.span k) hquot
  rw [Nat.mul_comm, ← hq] at hmul
  omega

/-- Where a descriptor fits, one fits in each entry below it. -/
theorem BlockFits.below {h k b b' : ℕ} (hle : h ≤ k) (hb : rttShape.span h ∣ b)
    (hb' : rttShape.span k ∣ b') (hlo : b' ≤ b) (hhi : b < b' + rttShape.span k)
    (hfits : BlockFits arch r k b') : BlockFits arch r h b := by
  obtain ⟨⟨hwlo, hwhi⟩, hpa, hlevel⟩ := hfits
  have hspan := rttShape.span_dvd hle
  have hend : b + rttShape.span h ≤ b' + rttShape.span k := by
    obtain ⟨q, rfl⟩ := hb
    obtain ⟨m, hm⟩ := Nat.dvd_add (hspan.trans hb') hspan
    rw [hm] at hhi ⊢
    have hqm : q + 1 ≤ m := Nat.lt_of_mul_lt_mul_left hhi
    calc rttShape.span h * q + rttShape.span h = rttShape.span h * (q + 1) := by ring
      _ ≤ rttShape.span h * m := Nat.mul_le_mul_left _ hqm
  refine ⟨⟨hwlo.trans hlo, hend.trans hwhi⟩, ?_, ?_⟩
  · have hsplit : r.paOf b = r.paOf b' + (b - b') := by
      unfold XlatMmapRegion.paOf
      omega
    rw [hsplit]
    exact Nat.dvd_add (hspan.trans hpa) (Nat.dvd_sub hb (hspan.trans hb'))
  · have hsize := span_le hle
    by_cases hzero : h = 0
    · exact .inl hzero
    · obtain rfl | ⟨hmin, hgran⟩ := hlevel
      · omega
      · refine .inr ⟨hmin.trans ?_, hsize.trans hgran⟩
        unfold levelOf
        omega

/-- An address below an entry determines where the entry starts. -/
theorem eq_of_dvd_of_mem {s b b' a : ℕ} (hb : s ∣ b) (hb' : s ∣ b') (h1 : b ≤ a)
    (h2 : a < b + s)
    (h1' : b' ≤ a) (h2' : a < b' + s) : b = b' := by
  obtain ⟨q, rfl⟩ := hb
  obtain ⟨m, rfl⟩ := hb'
  have hqm : q < m + 1 := Nat.lt_of_mul_lt_mul_left (a := s) (by rw [Nat.mul_add_one]; omega)
  have hmq : m < q + 1 := Nat.lt_of_mul_lt_mul_left (a := s) (by rw [Nat.mul_add_one]; omega)
  rw [Nat.le_antisymm (Nat.le_of_lt_succ hqm) (Nat.le_of_lt_succ hmq)]

/-- A place at which a region needs a table has one when the region is mapped. -/
theorem RegionsMapped.place (hcfg : CfgOk arch region mm vaSize cfg) {places : Finset XlatPlace}
    (hF : XlatHolds cfg pool places tbls F) (hmapped : RegionsMapped arch cfg cfg.mmap F)
    {p : XlatPlace} (hp : p ∈ neededPlaces arch cfg) :
    ∃ k n, 0 < k ∧ k < tbls.nextTable ∧ F (pool.table k) = some n ∧
      p = (n.height + 1, n.base) := by
  obtain ⟨h, b⟩ := p
  obtain ⟨hprod, ⟨q, hq⟩, r, hr, ⟨hm1, hm2⟩, hfits⟩ := Finset.mem_filter.mp hp
  obtain ⟨hh1, hhtop⟩ := Finset.mem_Icc.mp (Finset.mem_product.mp hprod).1
  dsimp only at hq hm1 hm2 hfits hh1 hhtop
  have hok := hcfg.regions.ok r hr
  have hsome := hok.some_page
  have hpos := rttShape.span_pos h
  have hcontains : r.Contains (max r.baseVa.toNat b) := ⟨le_max_left _ _, by omega⟩
  obtain ⟨k, d, ⟨t, n, ht, rfl, hc, -⟩, hleaf⟩ := hmapped.inside hr hcontains
  generalize ha : max r.baseVa.toNat b = a at hc hleaf
  have hlo : b ≤ a := by omega
  have hhi : a < b + rttShape.span h := by omega
  -- a leaf at the entry or above it would be a descriptor that fits
  have hlt : n.height < h := by
    by_contra hge
    have hdiv := Nat.div_mul_le_self a (rttShape.span n.height)
    have hnext := Nat.lt_div_mul_add (a := a) (rttShape.span_pos n.height)
    have hbelow : a / rttShape.span n.height * rttShape.span n.height ≤ b := by
      obtain ⟨m, hm⟩ := (rttShape.span_dvd (not_lt.mp hge)).trans
        (Nat.dvd_mul_left (rttShape.span n.height) (a / rttShape.span n.height))
      rw [hm] at hdiv ⊢
      have hmq : m < q + 1 := by
        refine Nat.lt_of_mul_lt_mul_left (a := rttShape.span h) ?_
        rw [Nat.mul_add_one, ← hq]
        omega
      rw [hq]
      exact Nat.mul_le_mul_left _ (Nat.le_of_lt_succ hmq)
    exact hfits (hleaf.fits.below (not_lt.mp hge) ⟨q, hq⟩ (Nat.dvd_mul_left _ _) hbelow
      (by omega))
  obtain ⟨t', n', ht', hheight, hc'⟩ :
      ∃ t' n', F t' = some n' ∧ n'.height + 1 = h ∧ n'.Covers rttShape a := by
    by_cases hlast : n.height + 1 = h
    · exact ⟨t, n, ht, hlast, hc⟩
    · obtain ⟨t', n', ht', -, hheight, hc', -⟩ :=
        hF.ok.ancestor (H := h - 1) ht rfl hc (by omega) (show h - 1 ≤ cfg.top by omega)
      exact ⟨t', n', ht', by omega, hc'⟩
  obtain ⟨-, hdvd, -⟩ := hF.node ht'
  obtain ⟨hclo, hchi⟩ := hc'
  rw [hheight] at hdvd hchi
  obtain ⟨j, hj, rfl⟩ := hF.owned ht'
  have hbase := eq_of_dvd_of_mem ⟨q, hq⟩ hdvd hlo hhi hclo hchi
  refine ⟨j, n', Nat.pos_of_ne_zero ?_, hj, ht', by rw [hheight, ← hbase]⟩
  rintro rfl
  obtain ⟨n0, hn0, htop, -⟩ := hF.root
  rw [pool.table_zero, hn0] at ht'
  cases ht'
  omega

/-- No run succeeds with fewer tables. -/
theorem tablesNeeded_le (hcfg : CfgOk arch region mm vaSize cfg)
    (hrun : xlatInitTablesCtx arch cfg (xlatInitCtxTbls pool mem) = .ok (none, tbls)) :
    tablesNeeded arch cfg ≤ pool.tablesNum := by
  obtain ⟨-, -, F, hF, hmapped⟩ := xlatInitTablesCtx_mapped hcfg hrun
  choose! k n hk using fun p hp => RegionsMapped.place (p := p) hcfg hF hmapped hp
  have hcard : (neededPlaces arch cfg).card ≤ (Finset.Ioo 0 tbls.nextTable).card := by
    refine Finset.card_le_card_of_injOn k ?_ ?_
    · intro p hp
      obtain ⟨hpos, hlt, -⟩ := hk p hp
      exact Finset.mem_coe.mpr (Finset.mem_Ioo.mpr ⟨hpos, hlt⟩)
    · intro p hp p' hp' heq
      obtain ⟨-, -, hn, hplace⟩ := hk p hp
      obtain ⟨-, -, hn', hplace'⟩ := hk p' hp'
      rw [heq, hn'] at hn
      rw [hplace, hplace', Option.some.inj hn]
  have hbase := hF.base_taken
  have hroom := hF.room
  rw [Nat.card_Ioo] at hcard
  unfold tablesNeeded
  omega

/-- What is built and mapped exactly can be represented. -/
theorem representable_of_exact (hcfg : CfgOk arch region mm vaSize cfg)
    (hrun : xlatInitTablesCtx arch cfg (xlatInitCtxTbls pool mem) = .ok (none, tbls))
    (hexact : MapsExactly arch cfg pool mem mm tbls) : Representable arch vaSize cfg.baseVa mm := by
  obtain ⟨hknown, hreach, F, hF, hmapped⟩ := xlatInitTablesCtx_mapped hcfg hrun
  have hmt : ∀ r ∈ mm, MtSupported r.attr := fun r hr =>
    hknown (relativeTo cfg.baseVa r) (hcfg.relative hr).1
  refine ⟨hmt, ?_, hcfg.reached_iff.mp hreach⟩
  intro hlpa r hr htr
  exact hmapped.address hcfg hF hlpa hr htr hexact

/-- With a table for each place, what can be represented is built and mapped exactly. -/
theorem exact_of_representable (hcfg : CfgOk arch region mm vaSize cfg)
    (hroom : tablesNeeded arch cfg ≤ pool.tablesNum)
    (hrep : Representable arch vaSize cfg.baseVa mm) :
    ∃ tbls, xlatInitTablesCtx arch cfg (xlatInitCtxTbls pool mem) = .ok (none, tbls) ∧
      MapsExactly arch cfg pool mem mm tbls := by
  obtain ⟨hknown, haddr, htable⟩ := hrep
  have hreach := hcfg.reached_iff.mpr htable
  have hknown' : ∀ q ∈ cfg.mmap, MtSupported q.attr := by
    intro q hq
    rw [hcfg.mmap] at hq
    obtain ⟨r, hr, rfl⟩ := List.mem_map.mp hq
    exact hknown r hr
  have hsplit := xlatMapRegions_split mem hcfg hroom hknown' hreach
  obtain ⟨-, -, tbls, F, -, -, -, hrun, hF, hmapped, -⟩ := hsplit 0
  refine ⟨_, xlatInitTablesCtx_ok.mpr ⟨tbls, hrun, rfl⟩, ?_⟩
  refine hmapped.exact hcfg hF.initialized haddr fun i => ?_
  obtain ⟨before, F0, tbls', F', hrun0, hF0, hmapped0, hrun', hF', -, hkept⟩ := hsplit i
  rw [hrun] at hrun'
  cases hrun'
  exact ⟨before, F0, F', hrun0, hF0, hmapped0, hF'.initialized, hkept⟩

/-- With a table for each place, the tables of a context that was set up are built and map its
regions exactly where the build can represent the regions. -/
theorem xlatInitTablesCtx_exact_iff {cfg0 : XlatCtxCfg}
    (h : xlatCtxCfgInit arch cfg0 region mm vaSize = (none, cfg))
    (hroom : tablesNeeded arch cfg ≤ pool.tablesNum) :
    (∃ tbls, xlatInitTablesCtx arch cfg (xlatInitCtxTbls pool mem) = .ok (none, tbls) ∧
      MapsExactly arch cfg pool mem mm tbls) ↔ Representable arch vaSize cfg.baseVa mm := by
  have hcfg := xlatCtxCfgInit_ok h
  constructor
  · rintro ⟨tbls, hrun, hexact⟩
    exact representable_of_exact hcfg hrun hexact
  · exact exact_of_representable hcfg hroom

end

/-- A context that was not set up yet. -/
def emptyCtxCfg : XlatCtxCfg := ⟨0#64, [], 0#64, 0#64, 0#64, 0, .VA_LOW_REGION, false⟩

/-- A pool of tables at some page. -/
def demoPool (tablesNum : ℕ) (hpos : 0 < tablesNum) (hle : tablesNum ≤ 2 ^ 16) : XlatPool where
  tables := 0x100000#64
  tablesNum := tablesNum
  aligned := by decide
  some_table := hpos
  pool_end := by
    have htables : (0x100000#64).toNat = 2 ^ 20 := by decide
    omega
  pool_entries := by omega

/-- A block of two megabytes, and two pages of another one, of which one is transient. -/
def blockAndPages : List XlatMmapRegion :=
  [⟨0x40000000#64, 0x200000#64, 0x200000#64, mtMemory, 0x200000#64⟩,
    ⟨0x9000#64, 0x400000#64, 0x1000#64, mtMemory, 0x1000#64⟩,
    ⟨0x8000#64, 0x403000#64, 0x1000#64, mtTransient, 0x1000#64⟩]

/-- A context of one gigabyte, whose base table is at level 2. -/
def blockCfg : XlatCtxCfg :=
  (xlatCtxCfgInit .plain emptyCtxCfg .VA_LOW_REGION blockAndPages 0x40000000#64).2

/-- The block is an entry of the base table; the pages share the one further table. -/
theorem tablesNeeded_blockAndPages {cfg : XlatCtxCfg} (htop : cfg.top = 1)
    (hmmap : cfg.mmap = blockAndPages) : tablesNeeded .plain cfg ≤ 2 := by
  have hspan : rttShape.span 1 = 0x200000 := by
    rw [rttShape_span_pow]
    norm_num
  have hva1 : (0x200000#64).toNat = 0x200000 := by decide
  have hva2 : (0x400000#64).toNat = 0x400000 := by decide
  have hva3 : (0x403000#64).toNat = 0x403000 := by decide
  have hpage : (0x1000#64).toNat = 0x1000 := by decide
  have hsub : neededPlaces .plain cfg ⊆ {(1, 0x400000)} := by
    rintro ⟨h, b⟩ hp
    obtain ⟨hprod, ⟨q, hq⟩, r, hr, ⟨hm1, hm2⟩, hfits⟩ := Finset.mem_filter.mp hp
    obtain ⟨hh1, hh2⟩ := Finset.mem_Icc.mp (Finset.mem_product.mp hprod).1
    dsimp only at hq hm1 hm2 hfits hh1 hh2
    obtain rfl : h = 1 := by omega
    rw [hspan] at hq hm2
    rw [hmmap, blockAndPages] at hr
    simp only [List.mem_cons, List.not_mem_nil, or_false] at hr
    rcases hr with rfl | rfl | rfl
    · dsimp only at hm1 hm2
      obtain rfl : q = 1 := by omega
      refine absurd ⟨⟨?_, ?_⟩, ?_, .inr ⟨by decide, ?_⟩⟩ hfits
      · simp [hq]
      · simp [hq, hspan]
      · simp [hspan, hq, XlatMmapRegion.paOf]
      · simp [hspan]
    · dsimp only at hm1 hm2
      obtain rfl : q = 2 := by omega
      simp [hq]
    · dsimp only at hm1 hm2
      obtain rfl : q = 2 := by omega
      simp [hq]
  have hcard := Finset.card_le_card hsub
  rw [Finset.card_singleton] at hcard
  unfold tablesNeeded
  omega

/-- The block and the pages are mapped with two tables: the base table and one for the pages. -/
theorem xlatInitTablesCtx_exact_iff_block : ∃ tbls,
    xlatInitTablesCtx .plain blockCfg
        (xlatInitCtxTbls (demoPool 2 (by decide) (by decide)) fun _ _ => 0#64) =
          .ok (none, tbls) ∧
      MapsExactly .plain blockCfg (demoPool 2 (by decide) (by decide)) (fun _ _ => 0#64)
        blockAndPages tbls := by
  have hinit : xlatCtxCfgInit .plain emptyCtxCfg .VA_LOW_REGION blockAndPages 0x40000000#64 =
      (none, blockCfg) := Prod.ext (by decide) rfl
  exact (xlatInitTablesCtx_exact_iff hinit
    (tablesNeeded_blockAndPages (by decide) (by decide))).mpr ⟨by decide, by decide, by decide⟩

/-- A build with `ENABLE_OPENCCA`. -/
def XlatArch.openccaBuild : XlatArch := ⟨true, false, 48, by simp, pa48_le_52⟩

/-- A page behind the sixteen entries that the base table of a large address space gets. -/
def farPage : List XlatMmapRegion := [⟨0x8000#64, 1#64 <<< 43, 0x1000#64, mtMemory, 0x1000#64⟩]

def farCfg : XlatCtxCfg :=
  (xlatCtxCfgInit .openccaBuild emptyCtxCfg .VA_LOW_REGION farPage (1#64 <<< 48)).2

theorem farCfg_init : xlatCtxCfgInit .openccaBuild emptyCtxCfg .VA_LOW_REGION farPage
    (1#64 <<< 48) = (none, farCfg) := Prod.ext (by decide +kernel) rfl

/-- A single page needs at most one table for each level. -/
theorem tablesNeeded_page {arch : XlatArch} {cfg : XlatCtxCfg} {r : XlatMmapRegion}
    (hmmap : cfg.mmap = [r]) (hsize : r.size.toNat = 4096)
    (hva : rttShape.span cfg.top ∣ r.baseVa.toNat) : tablesNeeded arch cfg ≤ 1 + cfg.top := by
  have hsub : neededPlaces arch cfg ⊆ Finset.Icc 1 cfg.top ×ˢ {r.baseVa.toNat} := by
    rintro ⟨h, b⟩ hp
    obtain ⟨hprod, hdvd, q, hq, ⟨hm1, hm2⟩, -⟩ := Finset.mem_filter.mp hp
    have hh := (Finset.mem_product.mp hprod).1
    rw [hmmap, List.mem_singleton] at hq
    subst hq
    refine Finset.mem_product.mpr ⟨hh, Finset.mem_singleton.mpr ?_⟩
    obtain ⟨hh1, htop⟩ := Finset.mem_Icc.mp hh
    dsimp only at hdvd hm1 hm2 hh1 htop ⊢
    have hspan := (rttShape.span_dvd htop).trans hva
    have hpage := Nat.le_of_dvd (rttShape.span_pos h) (page_dvd_span h)
    by_cases hle : b ≤ q.baseVa.toNat
    · exact eq_of_dvd_of_mem hdvd hspan hle hm2 le_rfl (by omega)
    · have hlt := not_le.mp hle
      exact (eq_of_dvd_of_mem hspan hdvd hlt.le (by omega) le_rfl (by omega)).symm
  have hcard := Finset.card_le_card hsub
  rw [Finset.card_product, Finset.card_singleton, Nat.card_Icc] at hcard
  unfold tablesNeeded
  omega

theorem farCfg_tables : tablesNeeded .openccaBuild farCfg ≤ 8 := by
  have htop : farCfg.top = 3 := by decide +kernel
  have hmmap : farCfg.mmap = farPage := by decide +kernel
  have hthree : rttShape.span 3 = 2 ^ 39 := by rw [rttShape_span_pow]
  have hva : (1#64 <<< 43).toNat = 2 ^ 43 := by decide
  refine (tablesNeeded_page hmmap (by decide) ?_).trans (by omega)
  rw [htop, hthree, hva]
  exact pow_dvd_pow 2 (by decide)

/-- The tables of an accepted list of regions are not built, although a table is left. -/
theorem xlatInitTablesCtx_far_page :
    xlatCtxCfgInit .openccaBuild emptyCtxCfg .VA_LOW_REGION farPage (1#64 <<< 48) =
        (none, farCfg) ∧
      tablesNeeded .openccaBuild farCfg ≤ (demoPool 8 (by decide) (by decide)).tablesNum ∧
      ¬ ∃ tbls, xlatInitTablesCtx .openccaBuild farCfg
          (xlatInitCtxTbls (demoPool 8 (by decide) (by decide)) fun _ _ => 0#64) =
            .ok (none, tbls) ∧
        MapsExactly .openccaBuild farCfg (demoPool 8 (by decide) (by decide)) (fun _ _ => 0#64)
          farPage tbls := by
  refine ⟨farCfg_init, farCfg_tables, ?_⟩
  rintro ⟨tbls, hrun, hexact⟩
  have hrep := representable_of_exact (xlatCtxCfgInit_ok farCfg_init) hrun hexact
  have hend := hrep.base_table rfl (by decide +kernel) _ (List.mem_singleton_self _)
  revert hend
  decide +kernel

end RmmCaec
