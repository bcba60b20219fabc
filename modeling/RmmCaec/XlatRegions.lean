import RmmCaec.XlatMapping

/-!
# Mapping the regions of a context

The regions of a context are mapped one after another into tables that start empty. Regions
do not overlap, so what one region maps was free before, and what the regions before it map
stays as it is. The tables that are taken in the end are exactly those that the regions need.
-/
namespace RmmCaec

open RadixForest Outcome

section
variable {arch : XlatArch} {region : XlatAddrRegionId} {mm : List XlatMmapRegion} {vaSize : Word}
  {cfg : XlatCtxCfg}

/-- The base level is the level of a table whose entries reach over the address space. -/
theorem getXlatTableLevelBase_levelOf (hmax : vaSize.toNat ≤ if arch.lpa2 then
    2 ^ 52 else 2 ^ 48) :
    ∃ k ≤ 4, getXlatTableLevelBase arch vaSize = levelOf k ∧
      xlatTableLevelMin arch ≤ levelOf k ∧
      vaSize.toNat ≤ rttShape.span (k + 1) := by
  have e21 : (1#64 <<< 21).toNat = 2 ^ 21 := by decide
  have e30 : (1#64 <<< 30).toNat = 2 ^ 30 := by decide
  have e39 : (1#64 <<< 39).toNat = 2 ^ 39 := by decide
  have e48 : (1#64 <<< 48).toNat = 2 ^ 48 := by decide
  have s1 : rttShape.span (0 + 1) = 2 ^ 21 := by rw [rttShape_span_pow]
  have s2 : rttShape.span (1 + 1) = 2 ^ 30 := by rw [rttShape_span_pow]
  have s3 : rttShape.span (2 + 1) = 2 ^ 39 := by rw [rttShape_span_pow]
  have s4 : rttShape.span (3 + 1) = 2 ^ 48 := by rw [rttShape_span_pow]
  have hle : vaSize.toNat ≤ 2 ^ 52 := by
    split at hmax <;> omega
  unfold getXlatTableLevelBase xlatTableLevelMin
  simp only [gt_iff_lt, BitVec.lt_def, e21, e30, e39, e48]
  cases ho : arch.opencca
  · simp only [Bool.false_eq_true, if_false]
    split_ifs
    · exact ⟨4, by omega, rfl, by decide, by rw [span_five]; omega⟩
    · exact ⟨3, by omega, rfl, by decide, by omega⟩
    · exact ⟨2, by omega, rfl, by decide, by omega⟩
    · exact ⟨1, by omega, rfl, by decide, by omega⟩
    · exact ⟨0, by omega, rfl, by decide, by omega⟩
  · rw [arch.opencca_lpa2 ho] at hmax
    simp only [Bool.false_eq_true, if_false] at hmax
    simp only [if_true]
    split_ifs
    · exact ⟨3, by omega, rfl, by decide, by omega⟩
    · exact ⟨2, by omega, rfl, by decide, by omega⟩
    · exact ⟨1, by omega, rfl, by decide, by omega⟩

/-- The base level of a context that was set up. -/
theorem CfgOk.base (hcfg : CfgOk arch region mm vaSize cfg) :
    levelOf cfg.top = cfg.baseLevel ∧
      xlatTableLevelMin arch ≤ cfg.baseLevel ∧ cfg.top ≤ 4 ∧
      vaSize.toNat ≤ rttShape.span (cfg.top + 1) := by
  obtain ⟨k, hk, hlevel, hmin, hsize⟩ := getXlatTableLevelBase_levelOf hcfg.va_max
  have hbase : cfg.baseLevel = levelOf k := hcfg.baseLevel.trans hlevel
  have htop : cfg.top = k := by
    rw [XlatCtxCfg.top, hbase, xlatTableLevelMax, levelOf]
    omega
  rw [htop, hbase]
  exact ⟨rfl, hmin, hk, hsize⟩

/-- A region of a context that was set up. -/
theorem CfgOk.regionIn (hcfg : CfgOk arch region mm vaSize cfg) {r : XlatMmapRegion}
    (hr : r ∈ cfg.mmap) : RegionIn arch cfg r := by
  obtain ⟨hbase, hmin, htop, hsize⟩ := hcfg.base
  have hok := hcfg.regions.ok r hr
  refine ⟨hcfg.maxVaSize ▸ hok, hr, hok.va_end.trans hsize, hbase, htop,
    fun h hlt => if_neg ?_⟩
  rw [← hbase] at hmin
  unfold levelOf at hmin ⊢
  omega

end

/-- The tables before the first region: all of them are invalid, and the base table is taken. -/
def xlatStart (pool : XlatPool) (mem : Word → ℕ → Word) : XlatCtxTbls :=
  xlatTakeBase (xlatClearTables (xlatInitCtxTbls pool mem))

/-- What clearing leaves: the same pool, and entries that are invalid stay invalid. -/
structure XlatCleared (tbls tbls' : XlatCtxTbls) : Prop where
  pool : tbls'.pool = tbls.pool
  nextTable : tbls'.nextTable = tbls.nextTable
  invalid : ∀ {t i}, tbls.mem t i = invalidDesc → tbls'.mem t i = invalidDesc

theorem XlatCleared.trans {a b c : XlatCtxTbls} (h1 : XlatCleared a b) (h2 : XlatCleared b c) :
    XlatCleared a c :=
  ⟨h2.pool.trans h1.pool, h2.nextTable.trans h1.nextTable, fun h => h2.invalid (h1.invalid h)⟩

theorem XlatCleared.write (tbls : XlatCtxTbls) (t : Word) (i : ℕ) :
    XlatCleared tbls (tbls.write t i invalidDesc) where
  pool := rfl
  nextTable := rfl
  invalid := by
    intro t' i' h
    simp only [XlatCtxTbls.write]
    split_ifs
    · rfl
    · exact h

/-- The inner loop clears one table. -/
theorem xlatClearTable_cleared (tbls : XlatCtxTbls) (j m : ℕ) :
    XlatCleared tbls ((List.range m).foldl (fun tbls i =>
        tbls.write (tbls.pool.table j) i invalidDesc) tbls) ∧
      ∀ i < m, ((List.range m).foldl (fun tbls i =>
        tbls.write (tbls.pool.table j) i invalidDesc) tbls).mem (tbls.pool.table j) i =
          invalidDesc := by
  induction m with
  | zero => exact ⟨⟨rfl, rfl, id⟩, fun i hi => absurd hi (Nat.not_lt_zero i)⟩
  | succ m ih =>
    obtain ⟨hc, hdone⟩ := ih
    rw [List.range_succ, List.foldl_append, List.foldl_cons, List.foldl_nil]
    have hw := XlatCleared.write ((List.range m).foldl (fun tbls i =>
      tbls.write (tbls.pool.table j) i invalidDesc) tbls)
    refine ⟨hc.trans (hw _ m), fun i hi => ?_⟩
    by_cases hlast : i = m
    · rw [hlast, XlatCtxTbls.write, hc.pool]
      exact if_pos ⟨rfl, rfl⟩
    · exact (hw _ m).invalid (hdone i (by omega))

/-- The outer loop clears the tables of the pool. -/
theorem xlatClearTables_cleared (tbls : XlatCtxTbls) :
    XlatCleared tbls (xlatClearTables tbls) ∧ ∀ k < tbls.pool.tablesNum, ∀ i < 512,
      (xlatClearTables tbls).mem (tbls.pool.table k) i = invalidDesc := by
  unfold xlatClearTables
  induction tbls.pool.tablesNum with
  | zero => exact ⟨⟨rfl, rfl, id⟩, fun k hk => absurd hk (Nat.not_lt_zero k)⟩
  | succ m ih =>
    obtain ⟨hc, hdone⟩ := ih
    rw [List.range_succ, List.foldl_append, List.foldl_cons, List.foldl_nil]
    obtain ⟨hrow, hall⟩ := xlatClearTable_cleared ((List.range m).foldl (fun tbls j =>
      (List.range xlatTableEntries).foldl (fun tbls i =>
        tbls.write (tbls.pool.table j) i invalidDesc) tbls) tbls) m xlatTableEntries
    refine ⟨hc.trans hrow, fun k hk i hi => ?_⟩
    by_cases hlast : k = m
    · rw [hc.pool] at hall
      rw [hlast]
      exact hall i hi
    · exact hrow.invalid (hdone k (by omega) i hi)

section
variable {arch : XlatArch} {cfg : XlatCtxCfg} {pool : XlatPool} {mem : Word → ℕ → Word}
  {places : Finset XlatPlace}

/-- The tree of a base table without any mapping. -/
def xlatBaseTree (cfg : XlatCtxCfg) (pool : XlatPool) : XlatForest :=
  Function.update (fun _ => none) pool.tables (some (emptyNode cfg.top 0))

theorem xlatBaseTree_eq {t : Word} {n : XlatNode} (h : xlatBaseTree cfg pool t = some n) :
    t = pool.tables ∧ n = emptyNode cfg.top 0 := by
  unfold xlatBaseTree at h
  by_cases ht : t = pool.tables
  · rw [ht, Function.update_self] at h
    exact ⟨ht, (Option.some.inj h).symm⟩
  · rw [Function.update_of_ne ht] at h
    cases h

/-- The tree of the base table is well formed. -/
theorem xlatBaseTree_ok : Ok rttShape XlatEntry.link (xlatBaseTree cfg pool)
    (xlatPlot cfg pool) := by
  have hpos := rttShape.span_pos (cfg.top + 1)
  have hone : ∀ j, j * rttShape.span (cfg.top + 1) < rttShape.span (cfg.top + 1) → j = 0 := by
    intro j hj
    by_contra hne
    have hmul := Nat.mul_le_mul_right (rttShape.span (cfg.top + 1)) (Nat.pos_of_ne_zero hne)
    omega
  have hempty : Ok rttShape XlatEntry.link (fun _ => none : XlatForest) (fun _ => none) :=
    ⟨by simp, by simp, by simp, by simp, by simp⟩
  have hplant : Ok rttShape XlatEntry.link (xlatBaseTree cfg pool) (Function.update (fun _ => none)
      () (some ⟨cfg.top, rttShape.span (cfg.top + 1), fun _ => pool.tables⟩)) := hempty.plant
    (fun _ _ => .leaf invalidDesc) rfl
    (fun j hj => ⟨rfl, by simp [xlatBaseTree, emptyNode, hone j hj]⟩)
    (fun k hk => Function.update_of_ne (hk 0 (by simpa using hpos)) _ _) fun _ _ _ _ => rfl
  have hplot : Function.update (fun _ => none) ()
      (some ⟨cfg.top, rttShape.span (cfg.top + 1), fun _ => pool.tables⟩) = xlatPlot cfg pool :=
    funext fun _ => Function.update_self ..
  rwa [hplot] at hplant

/-- The tables at the start hold the base table. -/
theorem xlatStart_holds : XlatHolds cfg pool places (xlatStart pool mem)
    (xlatBaseTree cfg pool) := by
  obtain ⟨⟨hpool, hnext, -⟩, hall⟩ := xlatClearTables_cleared (xlatInitCtxTbls pool mem)
  have hone : (xlatStart pool mem).nextTable = 1 := congrArg (· + 1) hnext
  refine ⟨hpool, xlatBaseTree_ok, ?_, ?_, ?_, ?_, ?_, ?_, ?_, ?_⟩
  · intro t n i hF hi
    obtain ⟨rfl, rfl⟩ := xlatBaseTree_eq hF
    have hmem := hall 0 pool.some_table i hi
    rwa [show (xlatInitCtxTbls pool mem).pool = pool from rfl, pool.table_zero] at hmem
  · intro t n i d hF hi hd _
    obtain ⟨rfl, rfl⟩ := xlatBaseTree_eq hF
    cases hd
    decide
  · intro t n hF
    obtain ⟨rfl, rfl⟩ := xlatBaseTree_eq hF
    exact ⟨0, by omega, pool.table_zero.symm⟩
  · intro k hk
    obtain rfl : k = 0 := by omega
    exact ⟨_, by rw [pool.table_zero, xlatBaseTree, Function.update_self]⟩
  · omega
  · have hsome := pool.some_table
    omega
  · intro k i _ hk hi
    exact hall k hk i hi
  · intro t n hF hlt
    obtain ⟨rfl, rfl⟩ := xlatBaseTree_eq hF
    exact absurd hlt (lt_irrefl _)

/-- At the start nothing is mapped. -/
theorem xlatBaseTree_free {a : ℕ} (ha : a < rttShape.span (cfg.top + 1)) :
    XlatLeaf (xlatBaseTree cfg pool) a cfg.top invalidDesc :=
  ⟨pool.tables, _, Function.update_self .., rfl,
    ⟨Nat.zero_le a, by simpa [emptyNode] using ha⟩, rfl⟩

end

/-- The addresses of a region. -/
def XlatMmapRegion.Contains (r : XlatMmapRegion) (a : ℕ) : Prop :=
  r.baseVa.toNat ≤ a ∧ a < r.baseVa.toNat + r.size.toNat

/-- The end of the address space that the entries of the base table reach over. -/
def XlatCtxCfg.reach (arch : XlatArch) (cfg : XlatCtxCfg) : ℕ :=
  xlatGetTableEntries arch cfg.baseLevel * rttShape.span cfg.top

/-- Each region is mapped, and what is in no region is free. -/
structure RegionsMapped (arch : XlatArch) (cfg : XlatCtxCfg) (regions : List XlatMmapRegion)
    (F : XlatForest) : Prop where
  inside : ∀ {r}, r ∈ regions → ∀ {a}, r.Contains a →
    ∃ h d, XlatLeaf F a h d ∧ RegionLeaf arch r a h d
  outside : ∀ {a}, a < rttShape.span (cfg.top + 1) → (∀ r ∈ regions, ¬ r.Contains a) →
    ∃ h, XlatLeaf F a h invalidDesc

/-- What is mapped stays as it is. -/
def XlatKept (F F' : XlatForest) : Prop :=
  ∀ {a h d}, d ≠ invalidDesc → XlatLeaf F a h d → XlatLeaf F' a h d

section
variable {arch : XlatArch} {cfg : XlatCtxCfg} {pool : XlatPool} {tbls : XlatCtxTbls}
  {F F' : XlatForest} {r : XlatMmapRegion} {done rest : List XlatMmapRegion}

/-- One more region, in a range that is free. -/
theorem RegionsMapped.step (h : RegionsMapped arch cfg done F)
    (hmap : XlatMapped arch r F F' r.baseVa.toNat (r.baseVa.toNat + r.size.toNat))
    (hapart : ∀ q ∈ done, RegionBelow q r) : RegionsMapped arch cfg (done ++ [r]) F' where
  inside := by
    intro q hq a ha
    obtain hq | hq := List.mem_append.mp hq
    · obtain ⟨k, d, hl, hleaf⟩ := h.inside hq ha
      have hout : ¬ (r.baseVa.toNat ≤ a ∧ a < r.baseVa.toNat + r.size.toNat) := by
        have hbelow := hapart q hq
        unfold RegionBelow at hbelow
        unfold XlatMmapRegion.Contains at ha
        omega
      obtain ⟨k', hl', hk⟩ := hmap.outside hout hl
      rw [hk hleaf.ne_invalid] at hl'
      exact ⟨k, d, hl', hleaf⟩
    · rw [List.mem_singleton.mp hq] at ha ⊢
      exact hmap.inside ha.1 ha.2
  outside := by
    intro a ha hout
    obtain ⟨k, hl⟩ := h.outside ha fun q hq => hout q (by simp [hq])
    obtain ⟨k', hl', -⟩ := hmap.outside (hout r (by simp)) hl
    exact ⟨k', hl'⟩

/-- What the regions before have not mapped is free for the next one. -/
theorem RegionsMapped.free (h : RegionsMapped arch cfg done F) (hr : RegionIn arch cfg r)
    (hapart : ∀ q ∈ done, RegionBelow q r) :
    XlatFree F r.baseVa.toNat (r.baseVa.toNat + r.size.toNat) := by
  intro a h1 h2
  have hend := hr.va_end
  refine h.outside (by omega) fun q hq ha => ?_
  have hbelow := hapart q hq
  unfold RegionBelow at hbelow
  unfold XlatMmapRegion.Contains at ha
  omega

/-- Mapping a free range keeps what is mapped. -/
theorem XlatMapped.kept {places : Finset XlatPlace} (hF : XlatHolds cfg pool places tbls F)
    {lo hi : ℕ} (hmap : XlatMapped arch r F F' lo hi) (hfree : XlatFree F lo hi) :
      XlatKept F F' := by
  intro a h d hd hl
  have hout : ¬ (lo ≤ a ∧ a < hi) := by
    rintro ⟨h1, h2⟩
    obtain ⟨k, hk⟩ := hfree a h1 h2
    exact hd (hF.leaf_unique hl hk).2
  obtain ⟨h', hl', heq⟩ := hmap.outside hout hl
  rwa [heq hd] at hl'

/-- A region that starts behind the entries of the base table: the loop over them does not run. -/
theorem xlatTablesMapRegion_beyond (hr : RegionIn arch cfg r) {places : Finset XlatPlace}
    (hF : XlatHolds cfg pool places tbls F) (hge : cfg.reach arch ≤ r.baseVa.toNat) :
    ∃ endVa, xlatTablesMapRegion arch cfg r cfg.top 0#64 pool.tables
        (xlatGetTableEntries arch cfg.baseLevel) tbls = .ok (endVa, tbls) ∧
      endVa.toNat + 1 ≤ r.baseVa.toNat := by
  obtain ⟨n, ht, hn, hb⟩ := hF.root
  have hspan : rttShape.span (cfg.top + 1) = 512 * rttShape.span cfg.top :=
    rttShape.span_succ cfg.top
  have hend := hr.va_end
  have hsome := hr.ok.some_page
  obtain ⟨i, -, hidx, hstart, -, hbelow, hlast⟩ :=
    xlatTablesStart hr hF ht (show (0#64).toNat = n.base by rw [hb]; rfl) (by rw [hb, hn]; omega)
  have hslot : n.slotBase rttShape i = i * rttShape.span cfg.top := by
    rw [Node.slotBase, hb, hn, Nat.zero_add]
  rw [hb, hslot, Nat.max_zero] at hbelow
  rw [hslot, hn] at hlast
  rw [hslot, hn, hr.base] at hstart
  rw [hn, hr.base] at hidx
  have hpos := rttShape.span_pos cfg.top
  have hentries : 0 < xlatGetTableEntries arch cfg.baseLevel := by
    unfold xlatGetTableEntries
    split_ifs <;> decide
  have hle : xlatGetTableEntries arch cfg.baseLevel ≤ i := by
    by_contra hlt
    have hmul := Nat.mul_le_mul_right (rttShape.span cfg.top) (Nat.succ_le_of_lt (not_le.mp hlt))
    unfold XlatCtxCfg.reach at hge
    rw [Nat.succ_mul] at hmul
    omega
  have hfirst : 0 < i * rttShape.span cfg.top := Nat.mul_pos (hentries.trans_le hle) hpos
  have hmax : cfg.baseLevel ≤ xlatTableLevelMax := by
    rw [← hr.base]
    unfold levelOf xlatTableLevelMax
    omega
  have htable (sub : XlatSubtable) : xlatMapTable arch cfg r cfg.baseLevel sub 0#64 pool.tables
      (xlatGetTableEntries arch cfg.baseLevel) tbls =
        .ok (xlatTablesFindStartVa r 0#64 cfg.baseLevel - 1#64, tbls) := by
    unfold xlatMapTable xlatAssert
    simp [hmax, ok_bind_eq, hidx, Nat.sub_eq_zero_of_le hle, xlatMapEntries]
  refine ⟨xlatTablesFindStartVa r 0#64 cfg.baseLevel - 1#64, ?_, ?_⟩
  · have hbase := hr.base
    cases htop : cfg.top with
    | zero =>
      rw [htop] at hbase
      rw [xlatTablesMapRegion, hbase]
      exact htable _
    | succ h =>
      rw [htop] at hbase
      rw [xlatTablesMapRegion, hbase]
      exact htable _
  · rw [BitVec.toNat_sub, hstart, BitVec.toNat_ofNat]
    omega

/-- One region: it is mapped whole, or the entries of the base table end before it does. -/
theorem xlatMapRegion_sat (hr : RegionIn arch cfg r)
    (hF : XlatHolds cfg pool (neededPlaces arch cfg) tbls F)
    (hfree : XlatFree F r.baseVa.toNat (r.baseVa.toNat + r.size.toNat)) :
    Sat (xlatTablesMapRegion arch cfg r cfg.top 0#64 pool.tables
        (xlatGetTableEntries arch cfg.baseLevel) tbls)
      (fun out => (out.1 = r.endVa ↔ r.baseVa.toNat + r.size.toNat ≤ cfg.reach arch) ∧
        (out.1 = r.endVa → MtSupported r.attr ∧
          ∃ F', XlatHolds cfg pool (neededPlaces arch cfg) out.2 F' ∧
          XlatMapped arch r F F' r.baseVa.toNat (r.baseVa.toNat + r.size.toNat)))
      (XlatShort arch cfg pool r) := by
  have hend := hr.endVa_toNat
  have hsome := hr.ok.some_page
  by_cases hlo : r.baseVa.toNat < cfg.reach arch
  · refine (xlatTablesMapRegion_sat hr hF hfree hlo).imp ?_
    rintro ⟨endVa, tbls'⟩ ⟨hmin, F', hF', hmap⟩
    change endVa.toNat + 1 = min (r.baseVa.toNat + r.size.toNat) (cfg.reach arch) at hmin
    change XlatMapped arch r F F' (max r.baseVa.toNat 0)
      (min (r.baseVa.toNat + r.size.toNat) (cfg.reach arch)) at hmap
    have hiff : endVa = r.endVa ↔ r.baseVa.toNat + r.size.toNat ≤ cfg.reach arch := by
      rw [← BitVec.toNat_inj]
      omega
    refine ⟨hiff, fun heq => ?_⟩
    have hreach := hiff.mp heq
    rw [min_eq_left hreach, Nat.max_zero] at hmap
    obtain ⟨k, d, -, hleaf⟩ := hmap.inside le_rfl (by omega)
    exact ⟨hleaf.supported, F', hF', hmap⟩
  · obtain ⟨endVa, hrun, hbefore⟩ := xlatTablesMapRegion_beyond hr hF (not_lt.mp hlo)
    have hne : endVa ≠ r.endVa := by
      rintro rfl
      omega
    rw [hrun]
    exact Sat.ok ⟨⟨fun heq => absurd heq hne, fun hle => by omega⟩,
      fun heq => absurd heq hne⟩

/-- The entries of the base table reach to the end of each region. -/
def RegionsReached (arch : XlatArch) (cfg : XlatCtxCfg) (regions : List XlatMmapRegion) : Prop :=
  ∀ r ∈ regions, r.baseVa.toNat + r.size.toNat ≤ cfg.reach arch

/-- What the loop over the regions leaves where it succeeds. -/
def RegionsDone (arch : XlatArch) (cfg : XlatCtxCfg) (pool : XlatPool)
    (done rest : List XlatMmapRegion) (F : XlatForest) (tbls : XlatCtxTbls) : Prop :=
  (∀ r ∈ rest, MtSupported r.attr) ∧
    ∃ F', XlatHolds cfg pool (neededPlaces arch cfg) tbls F' ∧
    RegionsMapped arch cfg (done ++ rest) F' ∧ XlatKept F F'

/-- The loop over the regions, behind the regions that are mapped. -/
theorem xlatMapRegions_sat (hr : ∀ r ∈ rest, RegionIn arch cfg r)
    (hasc : (done ++ rest).Pairwise RegionBelow)
    (hF : XlatHolds cfg pool (neededPlaces arch cfg) tbls F)
    (hdone : RegionsMapped arch cfg done F) :
    Sat (xlatMapRegions arch cfg rest tbls)
      (fun out => (out.1 = none ↔ RegionsReached arch cfg rest) ∧
        (out.1 = none → RegionsDone arch cfg pool done rest F out.2))
      (fun f => ∃ r ∈ rest, XlatShort arch cfg pool r f) := by
  induction rest generalizing done tbls F with
  | nil =>
    refine Sat.pure
      ⟨by simp [RegionsReached], fun _ => ⟨by simp, F, hF, ?_, fun _ hl => hl⟩⟩
    rwa [List.append_nil]
  | cons r rest ih =>
    have hin := hr r (by simp)
    have hapart : ∀ q ∈ done, RegionBelow q r := fun q hq =>
      (List.pairwise_append.mp hasc).2.2 q hq r (by simp)
    have hfree := hdone.free hin hapart
    unfold xlatMapRegions
    rw [hF.pool_eq]
    refine Sat.bind ((xlatMapRegion_sat hin hF hfree).mono (fun _ h => h)
      fun f hf => ⟨r, by simp, hf⟩) ?_
    rintro ⟨endVa, tbls'⟩ ⟨hiff, hmap⟩
    refine Sat.ite (fun hne => ?_) fun heq => ?_
    · have hnot : ¬ RegionsReached arch cfg (r :: rest) := fun h =>
        hne (hiff.mpr (h r (by simp)))
      exact Sat.pure ⟨by simp [hnot], by simp⟩
    · rw [not_not] at heq
      obtain ⟨hmt, F', hF', hstep⟩ := hmap heq
      have hkept : XlatKept F F' := hstep.kept hF hfree
      have hrun := ih (fun q hq => hr q (by simp [hq]))
        (by rwa [List.append_assoc, List.singleton_append]) hF' (hdone.step hstep hapart)
      refine hrun.mono ?_ fun f ⟨q, hq, hf⟩ => ⟨q, by simp [hq], hf⟩
      rintro ⟨ret, tbls''⟩ ⟨hreach, hok⟩
      refine ⟨hreach.trans ⟨?_, fun h q hq => h q (by simp [hq])⟩, fun hret => ?_⟩
      · intro h q hq
        obtain rfl | hq := List.mem_cons.mp hq
        · exact hiff.mp heq
        · exact h q hq
      · obtain ⟨hmts, F'', hF'', hmapped, hkept'⟩ := hok hret
        rw [List.append_assoc, List.singleton_append] at hmapped
        refine ⟨?_, F'', hF'', hmapped, fun hd hl => hkept' hd (hkept hd hl)⟩
        intro q hq
        obtain rfl | hq := List.mem_cons.mp hq
        · exact hmt
        · exact hmts q hq

/-- The loop over two lists of regions, one after the other. -/
theorem xlatMapRegions_append (pre post : List XlatMmapRegion) {before : XlatCtxTbls}
    (h : xlatMapRegions arch cfg pre tbls = .ok (none, before)) :
    xlatMapRegions arch cfg (pre ++ post) tbls = xlatMapRegions arch cfg post before := by
  induction pre generalizing tbls with
  | nil =>
    cases h
    rfl
  | cons r pre ih =>
    unfold xlatMapRegions at h
    rw [List.cons_append, xlatMapRegions]
    cases hrun : xlatTablesMapRegion arch cfg r cfg.top 0#64 tbls.pool.tables
        (xlatGetTableEntries arch cfg.baseLevel) tbls with
    | error f =>
      rw [hrun] at h
      cases h
    | ok out =>
      rw [hrun, ok_bind_eq] at h
      rw [ok_bind_eq]
      dsimp only at h ⊢
      by_cases hne : out.1 ≠ r.endVa
      · rw [if_pos hne] at h
        cases h
      · rw [if_neg hne] at h ⊢
        exact ih h

end

end RmmCaec
