import RmmCaec.XlatForest

/-!
# Mapping a region into the tables

What the recursion over the tables does to the leaves: below the region every leaf becomes a
descriptor of the region, and outside it every address keeps its descriptor. The number of
tables that this takes is bounded by the places at which no single descriptor can map what a
region has there.
-/
namespace RmmCaec

open RadixForest Outcome

/-- The physical address that a region has for an address. -/
def XlatMmapRegion.paOf (r : XlatMmapRegion) (a : ℕ) : ℕ :=
    r.basePa.toNat + (a - r.baseVa.toNat)

/-- A region has addresses below an entry. -/
def Meets (r : XlatMmapRegion) (h b : ℕ) : Prop :=
  b < r.baseVa.toNat + r.size.toNat ∧ r.baseVa.toNat < b + rttShape.span h

/-- All addresses below an entry are addresses of a region. -/
def Within (r : XlatMmapRegion) (h b : ℕ) : Prop :=
  r.baseVa.toNat ≤ b ∧ b + rttShape.span h ≤ r.baseVa.toNat + r.size.toNat

/-- One descriptor can map all that is below an entry. -/
def BlockFits (arch : XlatArch) (r : XlatMmapRegion) (h b : ℕ) : Prop :=
  Within r h b ∧ rttShape.span h ∣ r.paOf b ∧
    (h = 0 ∨ xlatMinBlockLvl arch ≤ levelOf h ∧ rttShape.span h ≤ r.granularity.toNat)

instance (r : XlatMmapRegion) (h b : ℕ) : Decidable (Meets r h b) := by
  unfold Meets
  infer_instance

instance (arch : XlatArch) (r : XlatMmapRegion) (h b : ℕ) : Decidable (BlockFits arch r h b) := by
  unfold BlockFits Within
  infer_instance

/-- The places of tables: the entries at which some region needs more than one descriptor. -/
def neededPlaces (arch : XlatArch) (cfg : XlatCtxCfg) : Finset XlatPlace :=
  (Finset.Icc 1 cfg.top ×ˢ Finset.range (rttShape.span (cfg.top + 1))).filter fun p =>
    rttShape.span p.1 ∣ p.2 ∧ ∃ r ∈ cfg.mmap, Meets r p.1 p.2 ∧
      ¬ BlockFits arch r p.1 p.2

/-- The base table and a table for each place. -/
def tablesNeeded (arch : XlatArch) (cfg : XlatCtxCfg) : ℕ := 1 + (neededPlaces arch cfg).card

/-- A region of a context, as far as mapping it relies on the checks. -/
structure RegionIn (arch : XlatArch) (cfg : XlatCtxCfg) (r : XlatMmapRegion) : Prop where
  ok : RegionOk arch cfg.maxVaSize r
  listed : r ∈ cfg.mmap
  va_end : r.baseVa.toNat + r.size.toNat ≤ rttShape.span (cfg.top + 1)
  base : levelOf cfg.top = cfg.baseLevel
  top_le : cfg.top ≤ 4
  entries : ∀ h < cfg.top, xlatGetTableEntries arch (levelOf h) = 512

/-- The two ways in which mapping a region can fail. -/
def XlatShort (arch : XlatArch) (cfg : XlatCtxCfg) (pool : XlatPool) (r : XlatMmapRegion)
    (f : XlatFault) : Prop :=
  f = .memoryType ∧ ¬ MtSupported r.attr ∨
    f = .noFreeTable ∧ pool.tablesNum < tablesNeeded arch cfg

section
variable {arch : XlatArch} {cfg : XlatCtxCfg} {r : XlatMmapRegion} {va : Word} {h : ℕ}

theorem RegionIn.endVa_toNat (hr : RegionIn arch cfg r) :
    r.endVa.toNat + 1 = r.baseVa.toNat + r.size.toNat := by
  have hsome := hr.ok.some_page
  have hend := hr.va_end
  have hle : rttShape.span (cfg.top + 1) ≤ rttShape.span 5 := span_le (Nat.succ_le_succ hr.top_le)
  have hfive := span_five
  rw [XlatMmapRegion.endVa, BitVec.toNat_sub, BitVec.toNat_add, BitVec.toNat_ofNat]
  omega

theorem xlatEntryEndVa_toNat (hh : h ≤ 4) (hva : va.toNat + rttShape.span h ≤ 2 ^ 57) :
    (xlatEntryEndVa va (levelOf h)).toNat + 1 = va.toNat + rttShape.span h := by
  have hpos := rttShape.span_pos h
  have hsize := xlatBlockSize_toNat hh
  rw [xlatEntryEndVa, BitVec.toNat_sub, BitVec.toNat_add, hsize, BitVec.toNat_ofNat]
  omega

/-- The physical address of an entry that lies within a region. -/
theorem RegionIn.paOf_toNat (hr : RegionIn arch cfg r) (hva : r.baseVa.toNat ≤ va.toNat)
    (hlt : va.toNat < r.baseVa.toNat + r.size.toNat) :
    (r.basePa + va - r.baseVa).toNat = r.paOf va.toNat := by
  have hpa := hr.ok.pa_end
  have hw : 2 ^ arch.paWidth ≤ 2 ^ 52 := Nat.pow_le_pow_right (by omega) arch.paWidth_le
  have hbase := r.baseVa.isLt
  rw [XlatMmapRegion.paOf, BitVec.toNat_sub, BitVec.toNat_add]
  omega

/-- A page that a region meets lies within it. -/
theorem RegionIn.within_page (hr : RegionIn arch cfg r) (hd : 4096 ∣ va.toNat)
    (hm : Meets r 0 va.toNat) : Within r 0 va.toNat := by
  have h1 := hr.ok.va_aligned
  have h2 := hr.ok.size_aligned
  unfold Meets at hm
  unfold Within
  rw [rttShape_span_zero] at hm ⊢
  omega

theorem levelOf_lt {h : ℕ} (hne : h ≠ 0) : levelOf h < 3 := by
  unfold levelOf
  omega

/-- An entry that links to a table. -/
theorem xlatTablesMapRegionAction_table (hh : h ≤ 4) (hne : h ≠ 0)
    (hva : va.toNat + rttShape.span h ≤ 2 ^ 57) (hm : Meets r h va.toNat) (pa : Word) :
    xlatTablesMapRegionAction arch r tableDesc pa va (levelOf h) =
      .ok .ACTION_RECURSE_INTO_TABLE := by
  have hend := xlatEntryEndVa_toNat hh hva
  have hlevel := levelOf_lt hne
  have hle : r.baseVa ≤ xlatEntryEndVa va (levelOf h) := by
    rw [BitVec.le_def]
    have hm2 := hm.2
    omega
  have htype : tableDesc ≠ invalidDesc := by decide
  unfold xlatTablesMapRegionAction
  simp [hle, htype, hlevel.ne, not_le.mpr hlevel]

/-- An entry without a descriptor: a block where one fits, and a table elsewhere. -/
theorem xlatTablesMapRegionAction_invalid (hr : RegionIn arch cfg r) (hh : h ≤ 4)
    (hva : va.toNat + rttShape.span h ≤ 2 ^ 57) (hd : rttShape.span h ∣ va.toNat)
    (hm : Meets r h va.toNat) :
    xlatTablesMapRegionAction arch r invalidDesc (r.basePa + va - r.baseVa) va (levelOf h) =
      .ok (if BlockFits arch r h va.toNat then .ACTION_WRITE_BLOCK_ENTRY
        else .ACTION_CREATE_NEW_TABLE) := by
  have hend := xlatEntryEndVa_toNat hh hva
  have hrend := hr.endVa_toNat
  have hpos := rttShape.span_pos h
  have hcov : (r.baseVa ≤ va ∧ r.endVa ≥ xlatEntryEndVa va (levelOf h)) ↔
      Within r h va.toNat := by
    rw [ge_iff_le, BitVec.le_def, BitVec.le_def, Within]
    omega
  have hle : r.baseVa ≤ xlatEntryEndVa va (levelOf h) := by
    rw [BitVec.le_def]
    have hm2 := hm.2
    omega
  have hpage : invalidDesc ≠ pageDesc := by decide
  have htable : invalidDesc ≠ tableDesc := by decide
  unfold xlatTablesMapRegionAction
  by_cases hzero : h = 0
  · subst hzero
    have hw := hr.within_page ((page_dvd_span 0).trans hd) hm
    have hfits : BlockFits arch r 0 va.toNat := by
      refine ⟨hw, ?_, .inl rfl⟩
      have h1 := hr.ok.pa_aligned
      have h2 := hr.ok.va_aligned
      have hd4 := (page_dvd_span 0).trans hd
      have hw1 := hw.1
      rw [rttShape_span_zero, XlatMmapRegion.paOf]
      omega
    have hthree : levelOf 0 = 3 := rfl
    rw [if_pos (hcov.mpr hw), if_pos hthree, if_neg hpage, if_neg (not_not.mpr rfl), if_pos hfits]
  · have hlevel := levelOf_lt hzero
    by_cases hw : Within r h va.toNat
    · have hpa := hr.paOf_toNat hw.1 (by have hw2 := hw.2; omega)
      have hal : r.basePa + va - r.baseVa &&& xlatBlockMask (levelOf h) = 0#64 ↔
          rttShape.span h ∣ r.paOf va.toNat := by
        rw [and_xlatBlockMask_eq_zero hh, hpa]
      have hgran : r.granularity < xlatBlockSize (levelOf h) ↔
          ¬ rttShape.span h ≤ r.granularity.toNat := by
        rw [BitVec.lt_def, xlatBlockSize_toNat hh, not_le]
      have hfits : (r.basePa + va - r.baseVa &&& xlatBlockMask (levelOf h) ≠ 0#64 ∨
          levelOf h < xlatMinBlockLvl arch ∨ r.granularity < xlatBlockSize (levelOf h)) ↔
          ¬ BlockFits arch r h va.toNat := by
        rw [ne_eq, hal, hgran, BlockFits, ← not_le]
        tauto
      rw [if_pos (hcov.mpr hw), if_neg hlevel.ne, if_neg htable, if_pos rfl]
      by_cases hb : BlockFits arch r h va.toNat
      · rw [if_neg (not_not.mpr hb ∘ hfits.mp), if_pos hb]
      · rw [if_pos (hfits.mpr hb), if_neg hb]
    · have hfits : ¬ BlockFits arch r h va.toNat := fun hb => hw hb.1
      rw [if_neg (hw ∘ hcov.mp), if_pos (.inl hle), if_neg (not_le.mpr hlevel),
        if_pos rfl, if_neg hfits]

end

/-- The descriptor of a region at an address that is mapped at some height. -/
structure RegionLeaf (arch : XlatArch) (r : XlatMmapRegion) (a h : ℕ) (d : Word) : Prop where
  supported : MtSupported r.attr
  fits : BlockFits arch r h (a / rttShape.span h * rttShape.span h)
  desc : XlatDescOf arch r.attr
    (BitVec.ofNat 64 (r.paOf (a / rttShape.span h * rttShape.span h))) (levelOf h) d

/-- All addresses of a range have an invalid descriptor. -/
def XlatFree (F : XlatForest) (lo hi : ℕ) : Prop :=
  ∀ a, lo ≤ a → a < hi → ∃ h, XlatLeaf F a h invalidDesc

/-- A range is mapped as a region asks for, and nothing else changes: an invalid descriptor may
move into a new table. -/
structure XlatMapped (arch : XlatArch) (r : XlatMmapRegion) (F F' : XlatForest) (lo hi : ℕ) :
    Prop where
  nodes : ∀ {t n}, F t = some n → ∃ m, F' t = some m ∧ m.height = n.height ∧
    m.base = n.base
  inside : ∀ {a}, lo ≤ a → a < hi → ∃ h d, XlatLeaf F' a h d ∧ RegionLeaf arch r a h d
  outside : ∀ {a h d}, ¬ (lo ≤ a ∧ a < hi) → XlatLeaf F a h d →
    ∃ h', XlatLeaf F' a h' d ∧ (d ≠ invalidDesc → h' = h)

section
variable {arch : XlatArch} {cfg : XlatCtxCfg} {pool : XlatPool} {places : Finset XlatPlace}
  {r : XlatMmapRegion} {tbls : XlatCtxTbls} {F F' F'' : XlatForest} {t : Word} {n : XlatNode}
  {i lo mid hi : ℕ}

theorem RegionLeaf.ne_invalid {a h : ℕ} {d : Word} (hl : RegionLeaf arch r a h d) :
    d ≠ invalidDesc := hl.desc.ne_invalid

theorem XlatMapped.refl (hle : hi ≤ lo) : XlatMapped arch r F F lo hi where
  nodes := fun hn => ⟨_, hn, rfl, rfl⟩
  inside := by
    intro a h1 h2
    omega
  outside := fun _ hl => ⟨_, hl, fun _ => rfl⟩

theorem XlatMapped.trans (h1 : XlatMapped arch r F F' lo mid) (h2 : XlatMapped arch r F' F'' mid hi)
    (hlo : lo ≤ mid) (hhi : mid ≤ hi) : XlatMapped arch r F F'' lo hi where
  nodes := by
    intro t n hn
    obtain ⟨m, hm, hh, hb⟩ := h1.nodes hn
    obtain ⟨m', hm', hh', hb'⟩ := h2.nodes hm
    exact ⟨m', hm', hh'.trans hh, hb'.trans hb⟩
  inside := by
    intro a ha1 ha2
    by_cases hmid : a < mid
    · obtain ⟨h, d, hl, hr⟩ := h1.inside ha1 hmid
      obtain ⟨h', hl', hh⟩ := h2.outside (by omega) hl
      rw [hh hr.ne_invalid] at hl'
      exact ⟨h, d, hl', hr⟩
    · exact h2.inside (not_lt.mp hmid) ha2
  outside := by
    intro a h d hout hl
    obtain ⟨h', hl', hh'⟩ := h1.outside (by omega) hl
    obtain ⟨h'', hl'', hh''⟩ := h2.outside (by omega) hl'
    exact ⟨h'', hl'', fun hd => (hh'' hd).trans (hh' hd)⟩

/-- A range that is not mapped stays free. -/
theorem XlatMapped.free (h : XlatMapped arch r F F' lo mid) {lo' hi' : ℕ}
    (hfree : XlatFree F lo' hi')
    (hle : mid ≤ lo' ∨ mid ≤ lo) : XlatFree F' lo' hi' := by
  intro a h1 h2
  obtain ⟨k, hl⟩ := hfree a h1 h2
  obtain ⟨k', hl', -⟩ := h.outside (by omega) hl
  exact ⟨k', hl'⟩

/-- A leaf is kept by a change of an entry that is not the entry of its address. -/
theorem XlatLeaf.setSlot {a h : ℕ} {d : Word} {e : XlatEntry} (hl : XlatLeaf F a h d)
    (ht : F t = some n) (hout : ¬ n.SlotCovers rttShape i a) :
      XlatLeaf (F.setSlot t i e) a h d := by
  obtain ⟨t', n', ht', rfl, hc, hs⟩ := hl
  obtain ⟨m, hm, -, hh, hb, hslot⟩ := Forest.setSlot_some t i e ht'
  have hidx : m.slotOf rttShape a = n'.slotOf rttShape a := by
    rw [Node.slotOf, Node.slotOf, hh, hb]
  refine ⟨t', m, hm, hh, ?_, ?_⟩
  · rw [Node.Covers, hh, hb]
    exact hc
  · rw [hslot, hidx, if_neg, hs]
    rintro ⟨rfl, rfl⟩
    rw [ht] at ht'
    cases ht'
    exact hout hc.slotCovers

/-- Writing a descriptor of a region. -/
theorem XlatMapped.write (ht : F t = some n) (hi : i < 512) {new : Word}
    (hnew : ∀ a, n.SlotCovers rttShape i a → RegionLeaf arch r a n.height new) :
    XlatMapped arch r F (F.setSlot t i (.leaf new)) (n.slotBase rttShape i)
      (n.slotBase rttShape i + rttShape.span n.height) where
  nodes := by
    intro t' n' hn
    obtain ⟨m, hm, -, hh, hb, -⟩ := Forest.setSlot_some t i (.leaf new) hn
    exact ⟨m, hm, hh, hb⟩
  inside := by
    intro a h1 h2
    have hc : n.SlotCovers rttShape i a := ⟨h1, h2⟩
    have hl := XlatLeaf.of_slot (Forest.setSlot_same (i := i) (e := .leaf new) ht) hi
      (Function.update_self ..) (d := new) hc
    exact ⟨n.height, new, hl, hnew a hc⟩
  outside := fun hout hl => ⟨_, hl.setSlot ht hout, fun _ => rfl⟩

/-- Putting an empty table into an entry that is invalid. -/
theorem XlatMapped.graft (h : XlatHolds cfg pool places tbls F) (ht : F t = some n) (hlt : i < 512)
    (hs : n.slot i = .leaf invalidDesc) (hne : n.height ≠ 0) {k : Word} (hk : F k = none)
    (hle : hi ≤ lo) : XlatMapped arch r F (graftNode F t n i k) lo hi where
  nodes := by
    intro t' n' hn
    obtain ⟨m, hm, -, hh, hb, -⟩ := Forest.setSlot_some t i (.table k) hn
    have hkt : t' ≠ k := by
      rintro rfl
      rw [hk] at hn
      cases hn
    exact ⟨m, by rw [graftNode, Function.update_of_ne hkt, hm], hh, hb⟩
  inside := by
    intro a h1 h2
    omega
  outside := by
    intro a k' d _ hl
    by_cases hc : n.SlotCovers rttShape i a
    · obtain ⟨rfl, rfl⟩ := h.leaf_unique hl (.of_slot ht hlt hs hc)
      refine ⟨n.height - 1, ⟨k, _, Function.update_self .., rfl, ?_, rfl⟩,
        fun hd => absurd rfl hd⟩
      have hh : n.height - 1 + 1 = n.height := Nat.sub_add_cancel (Nat.pos_of_ne_zero hne)
      unfold Node.Covers emptyNode
      simp only [hh]
      exact hc
    · refine ⟨k', ?_, fun _ => rfl⟩
      obtain ⟨t', n', ht', hh, hcov, hs'⟩ := hl.setSlot (e := .table k) ht hc
      have hkt : t' ≠ k := by
        rintro rfl
        obtain ⟨m, hm, -⟩ := Forest.setSlot_inv ht'
        rw [hk] at hm
        cases hm
      exact ⟨t', n', by rw [graftNode, Function.update_of_ne hkt, ht'], hh, hcov, hs'⟩

end

/-- The tables hold a tree in which a range is mapped. -/
def XlatMaps (arch : XlatArch) (cfg : XlatCtxCfg) (pool : XlatPool) (r : XlatMmapRegion)
    (F : XlatForest) (lo hi : ℕ) (tbls : XlatCtxTbls) : Prop :=
  ∃ F', XlatHolds cfg pool (neededPlaces arch cfg) tbls F' ∧ XlatMapped arch r F F' lo hi

/-- The loop ends early where the region ends below the entry. -/
def EntryEnds (r : XlatMmapRegion) (h b : ℕ) : Option Word → Prop
  | none => b + rttShape.span h ≤ r.baseVa.toNat + r.size.toNat
  | some endVa => endVa.toNat + 1 = r.baseVa.toNat + r.size.toNat ∧
    r.baseVa.toNat + r.size.toNat < b + rttShape.span h

/-- What one turn of the loop leaves of a tree. -/
def EntryMapped (arch : XlatArch) (cfg : XlatCtxCfg) (pool : XlatPool) (r : XlatMmapRegion)
    (F : XlatForest) (h b : ℕ) (out : Option Word × XlatCtxTbls) : Prop :=
  EntryEnds r h b out.1 ∧ XlatMaps arch cfg pool r F (max r.baseVa.toNat b)
    (min (r.baseVa.toNat + r.size.toNat) (b + rttShape.span h)) out.2

/-- What the recursion leaves of a tree; `e` is where the entries of the table end. -/
def TableMapped (arch : XlatArch) (cfg : XlatCtxCfg) (pool : XlatPool) (r : XlatMmapRegion)
    (F : XlatForest) (b e : ℕ) (out : Word × XlatCtxTbls) : Prop :=
  out.1.toNat + 1 = min (r.baseVa.toNat + r.size.toNat) e ∧
    XlatMaps arch cfg pool r F (max r.baseVa.toNat b)
      (min (r.baseVa.toNat + r.size.toNat) e) out.2

/-- What the recursion does to a table that the region meets. -/
def MapsTable (arch : XlatArch) (cfg : XlatCtxCfg) (pool : XlatPool) (r : XlatMmapRegion)
    (sub : XlatSubtable) (h : ℕ) : Prop :=
  ∀ {tbls F t n va}, XlatHolds cfg pool (neededPlaces arch cfg) tbls F → F t = some n →
    n.height = h → va.toNat = n.base → Meets r (h + 1) n.base →
    XlatFree F (max r.baseVa.toNat n.base)
      (min (r.baseVa.toNat + r.size.toNat) (n.base + rttShape.span (h + 1))) →
    Sat (sub va t tbls) (TableMapped arch cfg pool r F n.base (n.base + rttShape.span (h + 1)))
      (XlatShort arch cfg pool r)

section
variable {arch : XlatArch} {cfg : XlatCtxCfg} {pool : XlatPool} {r : XlatMmapRegion}
  {tbls : XlatCtxTbls} {F : XlatForest} {t va : Word} {n : XlatNode} {i h : ℕ}
  {sub : XlatSubtable}

theorem xlatTableGetEmpty_ok (hroom : tbls.nextTable < tbls.pool.tablesNum) :
    xlatTableGetEmpty tbls = .ok (tbls.pool.table tbls.nextTable,
      { tbls with nextTable := tbls.nextTable + 1 }) := by
  simp [xlatTableGetEmpty, xlatAssert, hroom, bind, Except.bind, pure, Except.pure]

theorem xlatTableGetEmpty_error (hroom : ¬ tbls.nextTable < tbls.pool.tablesNum) :
    xlatTableGetEmpty tbls = .error .noFreeTable := by
  simp [xlatTableGetEmpty, xlatAssert, hroom, bind, Except.bind]

theorem EntryEnds.of_min {endVa : Word} (hh : h ≤ 4) (hva : va.toNat + rttShape.span h ≤ 2 ^ 57)
    (hend : endVa.toNat + 1 =
      min (r.baseVa.toNat + r.size.toNat) (va.toNat + rttShape.span h)) :
    EntryEnds r h va.toNat
      (if endVa ≠ xlatEntryEndVa va (levelOf h) then some endVa else none) := by
  have hlast := xlatEntryEndVa_toNat hh hva
  by_cases heq : endVa = xlatEntryEndVa va (levelOf h)
  · rw [heq, hlast] at hend
    rw [if_neg (not_not.mpr heq)]
    unfold EntryEnds
    omega
  · have hne : endVa.toNat ≠ (xlatEntryEndVa va (levelOf h)).toNat := fun hw =>
      heq (BitVec.eq_of_toNat_eq hw)
    rw [if_pos heq]
    unfold EntryEnds
    omega

/-- The bounds of an entry of a tree. -/
theorem RegionIn.entry (hr : RegionIn arch cfg r) {places : Finset XlatPlace}
    (h : XlatHolds cfg pool places tbls F) (ht : F t = some n) (hi : i < 512) :
    n.height ≤ 4 ∧ n.slotBase rttShape i + rttShape.span n.height ≤ 2 ^ 57 ∧
      n.slotBase rttShape i < rttShape.span (cfg.top + 1) := by
  obtain ⟨hle, -, hend⟩ := h.node ht
  obtain ⟨-, hslot⟩ := h.slot ht hi
  have htop : rttShape.span (cfg.top + 1) ≤ rttShape.span 5 :=
    span_le (Nat.succ_le_succ hr.top_le)
  have hfive := span_five
  have hpos := rttShape.span_pos n.height
  exact ⟨hle.trans hr.top_le, by omega, by omega⟩

/-- A place that needs a table. -/
theorem RegionIn.needed (hr : RegionIn arch cfg r) {places : Finset XlatPlace}
    (h : XlatHolds cfg pool places tbls F) (ht : F t = some n) (hi : i < 512) (hne : n.height ≠ 0)
    (hm : Meets r n.height (n.slotBase rttShape i))
    (hfits : ¬ BlockFits arch r n.height (n.slotBase rttShape i)) :
    (n.height, n.slotBase rttShape i) ∈ neededPlaces arch cfg := by
  obtain ⟨hle, -⟩ := h.node ht
  obtain ⟨hdvd, -⟩ := h.slot ht hi
  obtain ⟨-, -, hlt⟩ := hr.entry h ht hi
  refine Finset.mem_filter.mpr ⟨Finset.mem_product.mpr
    ⟨?_, Finset.mem_range.mpr hlt⟩, hdvd, r,
    hr.listed, hm, hfits⟩
  exact Finset.mem_Icc.mpr ⟨Nat.one_le_iff_ne_zero.mpr hne, hle⟩

/-- An entry of which a block or a page maps the whole. -/
theorem xlatMapEntry_write (hr : RegionIn arch cfg r)
    (h : XlatHolds cfg pool (neededPlaces arch cfg) tbls F) (ht : F t = some n) (hi : i < 512)
    (hva : va.toNat = n.slotBase rttShape i) (hs : n.slot i = .leaf invalidDesc)
    (hm : Meets r n.height va.toNat) (hfits : BlockFits arch r n.height va.toNat) :
    Sat (xlatMapEntry arch r (levelOf n.height) sub t i va tbls)
      (EntryMapped arch cfg pool r F n.height va.toNat) (XlatShort arch cfg pool r) := by
  obtain ⟨hh, hlast, -⟩ := hr.entry h ht hi
  obtain ⟨hdvd, -⟩ := h.slot ht hi
  rw [← hva] at hlast hdvd
  have hact := xlatTablesMapRegionAction_invalid hr hh hlast hdvd hm
  rw [if_pos hfits] at hact
  have hw := hfits.1
  have hpos := rttShape.span_pos n.height
  have hpa := hr.paOf_toNat hw.1 (by have hw2 := hw.2; omega)
  have hword : tbls.mem t i &&& descMask = invalidDesc := by
    rw [h.word ht hi, hs]
    rfl
  unfold xlatMapEntry
  simp only [hword, hact, ok_bind_eq]
  refine Sat.bind ((xlatDesc_sat ?_).mono (fun _ hd => hd) fun _ hf => .inl hf) fun d hd =>
    Sat.pure ⟨hw.2, F.setSlot t i (.leaf d), ?_, ?_⟩
  · rw [and_xlatBlockMask_eq_zero hh, hpa]
    exact hfits.2.1
  · exact h.write ht hs fun hne => hd.2.not_table (levelOf_lt hne).ne
  · rw [max_eq_right hw.1, min_eq_right hw.2, hva]
    refine XlatMapped.write ht hi fun a ha => ?_
    have hbase : a / rttShape.span n.height * rttShape.span n.height = va.toNat := by
      obtain ⟨q, hq⟩ := hdvd
      obtain ⟨h1, h2⟩ := ha
      rw [← hva, hq] at h1 h2
      rw [hq, Nat.mul_comm, Nat.div_eq_of_lt_le (by rwa [Nat.mul_comm]) (by
        rw [Nat.add_mul, Nat.one_mul, Nat.mul_comm q]
        exact h2)]
    have hofNat : BitVec.ofNat 64 (r.paOf va.toNat) = r.basePa + va - r.baseVa := by
      rw [← hpa, BitVec.ofNat_toNat, BitVec.setWidth_eq]
    refine ⟨hd.1, ?_, ?_⟩
    · rwa [hbase]
    · rw [hbase, hofNat]
      exact hd.2

/-- The recursion into the table of an entry; `F` is the tree before a table was put there. -/
theorem xlatSubtable_sat (hr : RegionIn arch cfg r) {F' : XlatForest} {addr : Word} {m : XlatNode}
    (hsub : MapsTable arch cfg pool r sub m.height)
    (h : XlatHolds cfg pool (neededPlaces arch cfg) tbls F') (hm : F' addr = some m)
    (hh : m.height + 1 ≤ 4) (hva : va.toNat = m.base) (hmeets : Meets r (m.height + 1) va.toNat)
    (hfree : XlatFree F (max r.baseVa.toNat va.toNat)
      (min (r.baseVa.toNat + r.size.toNat) (va.toNat + rttShape.span (m.height + 1))))
    (hmap : ∀ lo, XlatMapped arch r F F' lo lo) :
    Sat (do
        let (endVa, tbls) ← sub va addr tbls
        return (if endVa ≠ xlatEntryEndVa va (levelOf (m.height + 1)) then some endVa else none,
          tbls))
      (EntryMapped arch cfg pool r F (m.height + 1) va.toNat) (XlatShort arch cfg pool r) := by
  have hfree' := (hmap (max r.baseVa.toNat va.toNat)).free hfree (.inr le_rfl)
  rw [hva] at hmeets hfree'
  refine Sat.bind (hsub h hm rfl hva hmeets hfree') ?_
  rintro ⟨endVa, tbls'⟩ ⟨hend, F'', hF'', hmap'⟩
  rw [← hva] at hend hmeets hmap'
  obtain ⟨-, -, hlast⟩ := h.node hm
  have htop : rttShape.span (cfg.top + 1) ≤ rttShape.span 5 :=
    span_le (Nat.succ_le_succ hr.top_le)
  have hfive := span_five
  obtain ⟨h1, h2⟩ := hmeets
  exact Sat.pure ⟨.of_min hh (by omega) hend, F'', hF'', (hmap _).trans hmap' le_rfl (by omega)⟩

/-- An invalid entry that no block can map: the next table is put there, if one is left. -/
theorem xlatMapEntry_create (hr : RegionIn arch cfg r) (hne : n.height ≠ 0)
    (hsub : MapsTable arch cfg pool r sub (n.height - 1))
    (h : XlatHolds cfg pool (neededPlaces arch cfg) tbls F) (ht : F t = some n) (hi : i < 512)
    (hva : va.toNat = n.slotBase rttShape i) (hs : n.slot i = .leaf invalidDesc)
    (hm : Meets r n.height va.toNat) (hfits : ¬ BlockFits arch r n.height va.toNat)
    (hfree : XlatFree F (max r.baseVa.toNat va.toNat)
      (min (r.baseVa.toNat + r.size.toNat) (va.toNat + rttShape.span n.height))) :
    Sat (xlatMapEntry arch r (levelOf n.height) sub t i va tbls)
      (EntryMapped arch cfg pool r F n.height va.toNat) (XlatShort arch cfg pool r) := by
  have hpool := h.pool_eq
  subst hpool
  obtain ⟨hh, hlast, -⟩ := hr.entry h ht hi
  obtain ⟨hdvd, -⟩ := h.slot ht hi
  have hplace := hr.needed h ht hi hne (hva ▸ hm) (hva ▸ hfits)
  have hlt := h.nextTable_lt ht hi hs hplace
  rw [← hva] at hlast hdvd
  have hact := xlatTablesMapRegionAction_invalid hr hh hlast hdvd hm
  rw [if_neg hfits] at hact
  have hclear : tbls.mem t i &&& descMask = invalidDesc := by
    rw [h.word ht hi, hs]
    rfl
  unfold xlatMapEntry
  simp only [hclear, hact, ok_bind_eq]
  by_cases hroom : tbls.nextTable < tbls.pool.tablesNum
  · rw [xlatTableGetEmpty_ok hroom, ok_bind_eq]
    obtain ⟨hgraft, hself⟩ := h.graft ht hi hs hne hroom hplace
    have hheight : (emptyNode (n.height - 1) (n.slotBase rttShape i)).height + 1 = n.height :=
      Nat.sub_add_cancel (Nat.pos_of_ne_zero hne)
    have hfree' : XlatFree F (max r.baseVa.toNat va.toNat) (min (r.baseVa.toNat + r.size.toNat)
        (va.toNat + rttShape.span
          ((emptyNode (n.height - 1) (n.slotBase rttShape i)).height + 1))) := by
      rwa [hheight]
    have hrun := xlatSubtable_sat hr hsub hgraft hself (by rwa [hheight]) hva (by rwa [hheight])
      hfree' fun lo => XlatMapped.graft h ht hi hs hne (h.next_free hroom) le_rfl
    rw [hheight] at hrun
    exact hrun
  · rw [xlatTableGetEmpty_error hroom]
    refine Sat.error_bind (.inr ⟨rfl, ?_⟩)
    unfold tablesNeeded
    omega

/-- One turn of the loop, in an entry that the region meets. -/
theorem xlatMapEntry_sat (hr : RegionIn arch cfg r)
    (hsub : ∀ k, n.height = k + 1 → MapsTable arch cfg pool r sub k)
    (h : XlatHolds cfg pool (neededPlaces arch cfg) tbls F) (ht : F t = some n) (hi : i < 512)
    (hva : va.toNat = n.slotBase rttShape i) (hm : Meets r n.height va.toNat)
    (hfree : XlatFree F (max r.baseVa.toNat va.toNat)
      (min (r.baseVa.toNat + r.size.toNat) (va.toNat + rttShape.span n.height))) :
    Sat (xlatMapEntry arch r (levelOf n.height) sub t i va tbls)
      (EntryMapped arch cfg pool r F n.height va.toNat) (XlatShort arch cfg pool r) := by
  obtain ⟨hh, hlast, -⟩ := hr.entry h ht hi
  obtain ⟨hdvd, -⟩ := h.slot ht hi
  have hword := h.word ht hi
  cases hs : n.slot i with
  | table addr =>
    obtain ⟨m, hm', hheight, hbase⟩ := h.subtable ht hi hs
    obtain ⟨hoa, htype⟩ := h.pointer arch hm'
    rw [hs, XlatEntry.word] at hword
    rw [← hva] at hlast hbase
    have hact (pa : Word) : xlatTablesMapRegionAction arch r tableDesc pa va (levelOf n.height) =
        .ok .ACTION_RECURSE_INTO_TABLE :=
      xlatTablesMapRegionAction_table hh (by omega) hlast hm pa
    unfold xlatMapEntry
    simp only [hword, htype, hoa, hact, ok_bind_eq]
    rw [← hheight] at hm hfree hh ⊢
    exact xlatSubtable_sat hr (hsub _ hheight.symm) h hm' hh hbase.symm hm hfree
      fun lo => XlatMapped.refl le_rfl
  | leaf d =>
    -- what the region has below the entry is free, so nothing else is mapped there
    have hinv : d = invalidDesc := by
      have hsome := hr.ok.some_page
      have hpos := rttShape.span_pos n.height
      obtain ⟨h1, h2⟩ := hm
      obtain ⟨k, hl⟩ := hfree (max r.baseVa.toNat va.toNat) le_rfl (by omega)
      have hc : n.SlotCovers rttShape i (max r.baseVa.toNat va.toNat) := by
        constructor <;> omega
      exact (h.leaf_unique (.of_slot ht hi hs hc) hl).2
    subst hinv
    by_cases hfits : BlockFits arch r n.height va.toNat
    · exact xlatMapEntry_write hr h ht hi hva hs hm hfits
    · rw [← hva] at hlast hdvd
      have hact := xlatTablesMapRegionAction_invalid hr hh hlast hdvd hm
      rw [if_neg hfits] at hact
      have hne : n.height ≠ 0 := by
        intro hzero
        rw [hzero] at hm hfits hdvd
        have hw := hr.within_page ((page_dvd_span 0).trans hdvd) hm
        refine hfits ⟨hw, ?_, .inl rfl⟩
        have h1 := hr.ok.pa_aligned
        have h2 := hr.ok.va_aligned
        have hd4 := (page_dvd_span 0).trans hdvd
        have hw1 := hw.1
        rw [rttShape_span_zero, XlatMmapRegion.paOf]
        omega
      exact xlatMapEntry_create hr hne (hsub _ (Nat.sub_add_cancel (Nat.pos_of_ne_zero hne)).symm) h
        ht hi hva hs hm hfits hfree

/-- The loop over the entries that are left of a table. -/
theorem xlatMapEntries_sat (hr : RegionIn arch cfg r)
    (hsub : ∀ k, h = k + 1 → MapsTable arch cfg pool r sub k) {left : ℕ}
    (hF : XlatHolds cfg pool (neededPlaces arch cfg) tbls F) (ht : F t = some n) (hn : n.height = h)
    (hidx : i + left ≤ 512) (hva : va.toNat = n.slotBase rttShape i)
    (hlt : va.toNat < r.baseVa.toNat + r.size.toNat)
    (hlo : left ≠ 0 → r.baseVa.toNat < va.toNat + rttShape.span h)
    (hpos : left ≠ 0 ∨ 0 < va.toNat)
    (hfree : XlatFree F (max r.baseVa.toNat va.toNat)
      (min (r.baseVa.toNat + r.size.toNat) (va.toNat + left * rttShape.span h))) :
    Sat (xlatMapEntries arch r (levelOf h) sub t left i va tbls)
      (TableMapped arch cfg pool r F va.toNat (va.toNat + left * rttShape.span h))
      (XlatShort arch cfg pool r) := by
  induction left generalizing i va tbls F n with
  | zero =>
    have hone : (va - 1#64).toNat + 1 = va.toNat := by
      rw [BitVec.toNat_sub, BitVec.toNat_ofNat]
      omega
    refine Sat.pure ⟨?_, F, hF, XlatMapped.refl ?_⟩
    · change (va - 1#64).toNat + 1 = _
      omega
    · omega
  | succ left ih =>
    subst hn
    have hi : i < 512 := by omega
    obtain ⟨hh, hlast, -⟩ := hr.entry hF ht hi
    obtain ⟨hdvd, -⟩ := hF.slot ht hi
    rw [← hva] at hlast hdvd
    have hspan := rttShape.span_pos n.height
    have hsplit : (left + 1) * rttShape.span n.height =
        rttShape.span n.height + left * rttShape.span n.height := by ring
    rw [hsplit, ← Nat.add_assoc] at hfree ⊢
    have hm : Meets r n.height va.toNat := ⟨hlt, hlo (Nat.succ_ne_zero left)⟩
    have hentry := xlatMapEntry_sat hr hsub hF ht hi hva hm fun a h1 h2 => hfree a h1 (by omega)
    unfold xlatMapEntries
    refine Sat.bind hentry ?_
    rintro ⟨early, tbls'⟩ ⟨hends, F', hF', hmap⟩
    obtain ⟨m, hm', hheight, hbase⟩ := hmap.nodes ht
    cases early with
    | some endVa =>
      obtain ⟨hend, hcut⟩ := hends
      have hmin : ∀ e, va.toNat + rttShape.span n.height ≤ e →
          min (r.baseVa.toNat + r.size.toNat) e = r.baseVa.toNat + r.size.toNat := by
        intro e he
        omega
      have hle := Nat.le_add_right (va.toNat + rttShape.span n.height)
        (left * rttShape.span n.height)
      rw [hmin _ le_rfl] at hmap
      refine Sat.pure ⟨?_, F', hF', ?_⟩
      · rw [hmin _ hle]
        exact hend
      · rw [hmin _ hle]
        exact hmap
    | none =>
      have hnext : (va + xlatBlockSize (levelOf n.height)).toNat =
          va.toNat + rttShape.span n.height := by
        rw [BitVec.toNat_add, xlatBlockSize_toNat hh]
        omega
      have hcov : va.toNat + rttShape.span n.height ≤ r.baseVa.toNat + r.size.toNat := hends
      rw [min_eq_right hcov] at hmap
      refine Sat.ite (fun hle => ?_) fun hgt => ?_
      · -- both ends are aligned to pages, so the region ends with the entry
        have hrend := hr.endVa_toNat
        have h1 := hr.ok.va_aligned
        have h2 := hr.ok.size_aligned
        have h3 := (page_dvd_span n.height).trans hdvd
        have h4 := page_dvd_span n.height
        rw [BitVec.le_def, hnext] at hle
        have heq : r.baseVa.toNat + r.size.toNat = va.toNat + rttShape.span n.height := by omega
        have hone : (va + xlatBlockSize (levelOf n.height) - 1#64).toNat + 1 =
            va.toNat + rttShape.span n.height := by
          rw [BitVec.toNat_sub, hnext, BitVec.toNat_ofNat]
          omega
        have hmin : min (r.baseVa.toNat + r.size.toNat)
            (va.toNat + rttShape.span n.height + left * rttShape.span n.height) =
            va.toNat + rttShape.span n.height := by omega
        refine Sat.pure ⟨hone.trans hmin.symm, F', hF', ?_⟩
        rwa [hmin]
      · have hrend := hr.endVa_toNat
        rw [BitVec.le_def, hnext] at hgt
        have hslot : (va + xlatBlockSize (levelOf n.height)).toNat =
            m.slotBase rttShape (i + 1) := by
          rw [hnext, hva, Node.slotBase, Node.slotBase, hheight, hbase]
          ring
        have hfree' : XlatFree F' (max r.baseVa.toNat (va.toNat + rttShape.span n.height))
            (min (r.baseVa.toNat + r.size.toNat)
              (va.toNat + rttShape.span n.height + left * rttShape.span n.height)) := by
          intro a h1 h2
          obtain ⟨k, hl⟩ := hfree a (by omega) h2
          obtain ⟨k', hl', -⟩ := hmap.outside (by omega) hl
          exact ⟨k', hl'⟩
        have hrun := ih hF' hm' hheight (by omega) hslot (by omega) (by omega) (by omega)
          (by rwa [hnext])
        rw [hnext] at hrun
        refine hrun.imp fun out hout => ⟨hout.1, ?_⟩
        obtain ⟨F'', hF'', hmap'⟩ := hout.2
        have hmax : max r.baseVa.toNat (va.toNat + rttShape.span n.height) =
            va.toNat + rttShape.span n.height := by omega
        rw [hmax] at hmap'
        exact ⟨F'', hF'', hmap.trans hmap' (by omega) (by omega)⟩

/-- The first entry of a table that the loop looks at. -/
theorem xlatTablesStart (hr : RegionIn arch cfg r) {places : Finset XlatPlace}
    (hF : XlatHolds cfg pool places tbls F) (ht : F t = some n) (hva : va.toNat = n.base)
    (hmax : r.baseVa.toNat < n.base + 512 * rttShape.span n.height) :
    ∃ i < 512, xlatTablesVaToIndex va (xlatTablesFindStartVa r va (levelOf n.height))
        (levelOf n.height) = i ∧
      (xlatTablesFindStartVa r va (levelOf n.height)).toNat = n.slotBase rttShape i ∧
      max r.baseVa.toNat (n.slotBase rttShape i) = max r.baseVa.toNat n.base ∧
      n.slotBase rttShape i ≤ max r.baseVa.toNat n.base ∧
      r.baseVa.toNat < n.slotBase rttShape i + rttShape.span n.height := by
  obtain ⟨hle, hdvd, hend⟩ := hF.node ht
  have hh : n.height ≤ 4 := hle.trans hr.top_le
  have htop : rttShape.span (cfg.top + 1) ≤ rttShape.span 5 :=
    span_le (Nat.succ_le_succ hr.top_le)
  have hfive := span_five
  have hpos := rttShape.span_pos n.height
  obtain ⟨q, hq⟩ := (rttShape.span_dvd (Nat.le_succ n.height)).trans hdvd
  by_cases hgt : r.baseVa > va
  · have hlt : va.toNat < r.baseVa.toNat := hgt
    -- the index counts the entries between the base of the table and the region
    have hmod := Nat.div_add_mod r.baseVa.toNat (rttShape.span n.height)
    have hrem := Nat.mod_lt r.baseVa.toNat hpos
    have hqle : q ≤ r.baseVa.toNat / rttShape.span n.height := by
      rw [Nat.le_div_iff_mul_le hpos, Nat.mul_comm]
      omega
    obtain ⟨i, hi⟩ := Nat.exists_eq_add_of_le hqle
    have hstart : r.baseVa.toNat / rttShape.span n.height * rttShape.span n.height =
        n.slotBase rttShape i := by
      rw [hi, Node.slotBase, hq]
      ring
    have hfind : (xlatTablesFindStartVa r va (levelOf n.height)).toNat = n.slotBase rttShape i := by
      rw [xlatTablesFindStartVa, if_pos hgt, and_not_xlatBlockMask_toNat hh, hstart]
    have hbelow : n.slotBase rttShape i ≤ r.baseVa.toNat := by
      rw [← hstart]
      exact Nat.div_mul_le_self _ _
    have hi512 : i < 512 := by
      unfold Node.slotBase at hbelow
      by_contra hge
      have hmul := Nat.mul_le_mul_right (rttShape.span n.height) (not_lt.mp hge)
      omega
    refine ⟨i, hi512, ?_, hfind, by omega, by omega, ?_⟩
    · have hdiff : (xlatTablesFindStartVa r va (levelOf n.height) - va).toNat =
          i * rttShape.span n.height := by
        unfold Node.slotBase at hfind hbelow
        rw [BitVec.toNat_sub, hfind]
        omega
      rw [xlatTablesVaToIndex, BitVec.toNat_ushiftRight, hdiff, xlatAddrShift_levelOf,
        Nat.shiftRight_eq_div_pow, ← rttShape_span_pow, Nat.mul_div_cancel _ hpos]
      omega
    · rw [Nat.mul_comm, hstart] at hmod
      omega
  · have hle' : r.baseVa.toNat ≤ va.toNat := not_lt.mp hgt
    have hzero : n.slotBase rttShape 0 = n.base := by simp [Node.slotBase]
    have hfind : xlatTablesFindStartVa r va (levelOf n.height) = va := if_neg hgt
    refine ⟨0, by omega, ?_, ?_, by rw [hzero], by rw [hzero]; exact le_max_right _ _, by omega⟩
    · simp [hfind, xlatTablesVaToIndex]
    · rw [hfind, hzero, hva]

/-- One table of which the region meets the first entries. -/
theorem xlatMapTable_sat (hr : RegionIn arch cfg r)
    (hsub : ∀ k, n.height = k + 1 → MapsTable arch cfg pool r sub k) {entries : ℕ}
    (hF : XlatHolds cfg pool (neededPlaces arch cfg) tbls F) (ht : F t = some n)
    (hentries : entries ≤ xlatGetTableEntries arch (levelOf n.height)) (hsome : 0 < entries)
    (hle : entries ≤ 512)
    (hva : va.toNat = n.base) (hlt : n.base < r.baseVa.toNat + r.size.toNat)
    (hlo : r.baseVa.toNat < n.base + entries * rttShape.span n.height)
    (hfree : XlatFree F (max r.baseVa.toNat n.base)
      (min (r.baseVa.toNat + r.size.toNat) (n.base + entries * rttShape.span n.height))) :
    Sat (xlatMapTable arch cfg r (levelOf n.height) sub va t entries tbls)
      (TableMapped arch cfg pool r F n.base (n.base + entries * rttShape.span n.height))
      (XlatShort arch cfg pool r) := by
  obtain ⟨htop, -, -⟩ := hF.node ht
  have hbase := hr.base
  have hlevel : levelOf n.height ≥ cfg.baseLevel ∧ levelOf n.height ≤ xlatTableLevelMax := by
    rw [← hbase]
    unfold levelOf xlatTableLevelMax
    omega
  have hpos := rttShape.span_pos n.height
  have hmul := Nat.mul_le_mul_right (rttShape.span n.height) hle
  obtain ⟨i, hi, hidx, hstart, hmax, hbelow, hlast⟩ := xlatTablesStart hr hF ht hva (by omega)
  have hin : i < entries := by
    by_contra hge
    have hmul := Nat.mul_le_mul_right (rttShape.span n.height) (not_lt.mp hge)
    have hfirst := Nat.mul_le_mul_right (rttShape.span n.height) hsome
    unfold Node.slotBase at hbelow
    omega
  have hrest : n.slotBase rttShape i + (entries - i) * rttShape.span n.height =
      n.base + entries * rttShape.span n.height := by
    rw [Node.slotBase, Nat.add_assoc, ← Nat.add_mul, Nat.add_sub_cancel' hin.le]
  have hleft : i + (entries - i) ≤ 512 := by omega
  have hrun := xlatMapEntries_sat hr hsub hF ht rfl hleft hstart
    (by rw [hstart]; have hsome := hr.ok.some_page; omega) (fun _ => by rwa [hstart])
    (.inl (by omega)) (by rwa [hstart, hmax, hrest])
  rw [hstart, hrest] at hrun
  unfold xlatMapTable xlatAssert
  simp only [hlevel.1, hlevel.2, decide_true, Bool.and_self, if_true, ok_bind_eq, hentries, hidx]
  refine hrun.imp fun out hout => ⟨hout.1, ?_⟩
  rw [← hmax]
  exact hout.2

/-- A table below the base table: all its entries are in use. -/
theorem xlatMapTable_maps (hr : RegionIn arch cfg r) (hlt : h < cfg.top)
    (hsub : ∀ k, h = k + 1 → MapsTable arch cfg pool r sub k) :
    MapsTable arch cfg pool r (fun va t tbls =>
      xlatMapTable arch cfg r (levelOf h) sub va t xlatTableEntries tbls) h := by
  intro tbls F t n va hF ht hn hva hm hfree
  subst hn
  have hspan : rttShape.span (n.height + 1) = xlatTableEntries * rttShape.span n.height :=
    rttShape.span_succ n.height
  obtain ⟨hlt', hlo⟩ := hm
  rw [hspan] at hlo hfree ⊢
  exact xlatMapTable_sat hr hsub hF ht (hr.entries _ hlt).ge (by decide) le_rfl hva hlt' hlo hfree

/-- The recursion, by the number of levels that are below a table. -/
theorem xlatTablesMapRegion_maps (hr : RegionIn arch cfg r) (hlt : h < cfg.top) :
    MapsTable arch cfg pool r (fun va t tbls =>
      xlatTablesMapRegion arch cfg r h va t xlatTableEntries tbls) h := by
  induction h with
  | zero => exact xlatMapTable_maps hr hlt fun k hk => absurd hk.symm (Nat.succ_ne_zero k)
  | succ h ih =>
    refine xlatMapTable_maps hr hlt fun k hk => ?_
    cases hk
    exact ih (Nat.lt_of_succ_lt hlt)

/-- The base table: its entries are the entries that the build gives to the base level. -/
theorem xlatTablesMapRegion_sat (hr : RegionIn arch cfg r)
    (hF : XlatHolds cfg pool (neededPlaces arch cfg) tbls F)
    (hfree : XlatFree F r.baseVa.toNat (r.baseVa.toNat + r.size.toNat))
    (hlo : r.baseVa.toNat < xlatGetTableEntries arch cfg.baseLevel * rttShape.span cfg.top) :
    Sat (xlatTablesMapRegion arch cfg r cfg.top 0#64 pool.tables
        (xlatGetTableEntries arch cfg.baseLevel) tbls)
      (TableMapped arch cfg pool r F 0
        (xlatGetTableEntries arch cfg.baseLevel * rttShape.span cfg.top))
      (XlatShort arch cfg pool r) := by
  obtain ⟨n, ht, hn, hb⟩ := hF.root
  have hsome := hr.ok.some_page
  have hentries : 0 < xlatGetTableEntries arch cfg.baseLevel ∧
      xlatGetTableEntries arch cfg.baseLevel ≤ 512 := by
    unfold xlatGetTableEntries
    split_ifs <;> decide
  have hsub : ∀ k, n.height = k + 1 → MapsTable arch cfg pool r (fun va t tbls =>
      xlatTablesMapRegion arch cfg r k va t xlatTableEntries tbls) k :=
    fun k hk => xlatTablesMapRegion_maps hr (by omega)
  have hfree' : XlatFree F (max r.baseVa.toNat n.base) (min (r.baseVa.toNat + r.size.toNat)
      (n.base + xlatGetTableEntries arch cfg.baseLevel * rttShape.span n.height)) := by
    intro a h1 h2
    exact hfree a (by omega) (by omega)
  have hbase : levelOf n.height = cfg.baseLevel := by rw [hn, hr.base]
  have hzero : (0#64).toNat = n.base := by rw [hb]; rfl
  have hle : xlatGetTableEntries arch cfg.baseLevel ≤
      xlatGetTableEntries arch (levelOf n.height) := by
    rw [hbase]
  have hrun {sub : XlatSubtable} (hsub : ∀ k, n.height = k + 1 →
      MapsTable arch cfg pool r sub k) :=
    xlatMapTable_sat hr hsub hF ht hle hentries.1 hentries.2 hzero (by omega)
      (by rw [hn, hb, Nat.zero_add]; exact hlo) hfree'
  rw [hb, hn, Nat.zero_add] at hrun
  rw [hn] at hsub
  cases htop : cfg.top with
  | zero =>
    rw [htop] at hrun
    exact hrun fun k hk => absurd hk.symm (Nat.succ_ne_zero k)
  | succ h =>
    rw [htop] at hrun hsub
    refine hrun fun k hk => ?_
    cases hk
    exact hsub h rfl

end

end RmmCaec
