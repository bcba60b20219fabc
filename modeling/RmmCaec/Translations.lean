import RmmCaec.PageEdits

/-!
# What the tables mean

The translation of an address: the kind of the leaf that covers it, its RIPAS,
the output address with the offset inside the leaf, and for unprotected leaves
the attributes that the host chose. Growing a table and folding one do not change
it; the pages that realms share change only by leaf edits.
-/
namespace RmmCaec

open RadixForest Outcome

inductive PageView
  | unassigned (r : Ripas)
  | unassignedNs
  | assigned (r : Ripas) (pa : Word)
  | assignedNs (pa attrs : Word)
  deriving DecidableEq

/-- The translation of the address at offset `off` in a leaf. -/
def Entry.view (ctx : S2ttContext) (level : ℤ) (off : ℕ) : Entry → Option PageView
  | .unassigned r => some (.unassigned r)
  | .unassignedNs => some .unassignedNs
  | .assigned r pa => some (.assigned r (pa + BitVec.ofNat 64 off))
  | .assignedNs desc =>
    some (.assignedNs (Entry.nsPa ctx level desc + BitVec.ofNat 64 off) (desc &&& s2tteNsAttrMask))
  | .table _ => none

/-- The translation of an address, read from the words of the tables. -/
def translate (s : State) (rd ipa : Word) : Option PageView :=
  let ctx := (s.rd rd).s2Ctx
  let (w, level) := leafOf s.rtt ctx ipa
  let pa := s2ttePa ctx w level + BitVec.ofNat 64 (ipa.toNat % s2tteMapSize level)
  if s2tteIsTable w level then none
  else if s2tteIsAssignedNs w level then some (.assignedNs pa (w &&& s2tteNsAttrMask))
  else if s2tteIsAssignedRam w level then some (.assigned .RAM pa)
  else if s2tteIsAssignedEmpty w then some (.assigned .EMPTY pa)
  else if s2tteIsAssignedDestroyed w then some (.assigned .DESTROYED pa)
  else if s2tteIsUnassignedNs w then some .unassignedNs
  else if s2tteIsUnassignedRam w then some (.unassigned .RAM)
  else if s2tteIsUnassignedDestroyed w then some (.unassigned .DESTROYED)
  else some (.unassigned .EMPTY)

/-- The translation of an address in the forest. -/
def Translates (F : Tables) (ctx : S2ttContext) (rd : Word) (a : ℕ) (v : PageView) : Prop :=
  ∃ t n i, IsLeaf F rd a t n i ∧
    (n.slot i).view ctx (levelOf n.height) (a - n.slotBase rttShape i) = some v

/-- A leaf of the realm maps granule `g` at address `a` with the given RIPAS. -/
def Maps (F : Tables) (rd : Word) (a : ℕ) (r : Ripas) (g : Word) : Prop :=
  ∃ t n i pa, IsLeaf F rd a t n i ∧ n.slot i = .assigned r pa ∧
    g = pa + BitVec.ofNat 64 (a - n.slotBase rttShape i)

theorem Entry.view_assigned_iff {ctx : S2ttContext} {level : ℤ} {off : ℕ}
    {e : Entry} {r : Ripas}
    {g : Word} : e.view ctx level off = some (.assigned r g) ↔
      ∃ pa, e = .assigned r pa ∧ g = pa + BitVec.ofNat 64 off := by
  cases e with
  | assigned r' pa =>
    simp only [Entry.view, Option.some.injEq, PageView.assigned.injEq, Entry.assigned.injEq]
    constructor
    · rintro ⟨rfl, rfl⟩
      exact ⟨pa, ⟨rfl, rfl⟩, rfl⟩
    · rintro ⟨pa', ⟨rfl, rfl⟩, rfl⟩
      exact ⟨rfl, rfl⟩
  | _ => simp [Entry.view]

theorem maps_iff_translates (F : Tables) (ctx : S2ttContext) (rd : Word) (a : ℕ) (r : Ripas)
    (g : Word) : Maps F rd a r g ↔ Translates F ctx rd a (.assigned r g) := by
  constructor
  · rintro ⟨t, n, i, pa, hl, he, hg⟩
    exact ⟨t, n, i, hl, Entry.view_assigned_iff.mpr ⟨pa, he, hg⟩⟩
  · rintro ⟨t, n, i, hl, he⟩
    obtain ⟨pa, he, hg⟩ := Entry.view_assigned_iff.mp he
    exact ⟨t, n, i, pa, hl, he, hg⟩

/-- The offset of an address in its slot. -/
theorem Holds.slot_offset {s : State} {F : Tables} (h : Holds s F) {t : Word}
    {n : Table} {i a : ℕ}
    (ht : F t = some n) (hc : n.SlotCovers rttShape i a) :
    a % s2tteMapSize (levelOf n.height) = a - n.slotBase rttShape i := by
  obtain ⟨q, hq⟩ := h.span_dvd_slotBase ht i
  obtain ⟨h1, h2⟩ := hc
  rw [← rttShape_span]
  conv_lhs => rw [← Nat.sub_add_cancel h1, hq, Nat.add_mul_mod_self_left]
  rw [hq] at h1 h2 ⊢
  exact Nat.mod_eq_of_lt (by omega)

theorem translate_spec {s : State} {F : Tables} (h : Holds s F) {rd ipa : Word}
    (hrd : (s.granule rd).state = .RD) (ha : ipa.toNat < 2 ^ (s.rd rd).s2Ctx.ipaBits) :
    ∃ v, translate s rd ipa = some v ∧ Translates F (s.rd rd).s2Ctx rd ipa.toNat v := by
  obtain ⟨t, n, i, hl, hleaf⟩ := h.leafOf_spec hrd ha
  obtain ⟨hv, -⟩ := h.word t n hl.table i hl.index
  rw [hl.owner] at hv
  have hoff := h.slot_offset hl.table hl.covers
  have hlink := hl.leaf
  unfold translate
  simp only [hleaf, hoff]
  refine ⟨((n.slot i).view (s.rd rd).s2Ctx (levelOf n.height)
    (ipa.toNat - n.slotBase rttShape i)).getD .unassignedNs, ?_, t, n, i, hl, ?_⟩
  · simp only [Entry.isTable_word hv, Entry.isAssignedNs_word hv, Entry.isAssignedRam_word hv,
      Entry.isAssignedEmpty_word hv, Entry.isAssignedDestroyed_word hv,
        Entry.isUnassignedNs_word hv,
      Entry.isUnassignedRam_word hv, Entry.isUnassignedDestroyed_word hv]
    rcases he : n.slot i with r | _ | ⟨r, pa⟩ | desc | pa
    · cases r <;> simp [Entry.view]
    · simp [Entry.view]
    · rw [he] at hv
      cases r <;> simp [Entry.view, Entry.s2ttePa_assigned hv]
    · rw [he] at hv
      simp [Entry.view, Entry.s2ttePa_assignedNs hv, Entry.word_assignedNs_and_attrs hv]
    · rw [he] at hlink
      cases hlink
  · rcases he : n.slot i with r | _ | ⟨r, pa⟩ | desc | pa
    · rfl
    · rfl
    · rfl
    · rfl
    · rw [he] at hlink
      cases hlink

theorem Translates.unique {s : State} {F : Tables} (h : Holds s F) {ctx : S2ttContext} {rd : Word}
    {a : ℕ} {v v' : PageView} (hv : Translates F ctx rd a v) (hv' : Translates F ctx rd a v') :
    v = v' := by
  obtain ⟨t, n, i, hl, he⟩ := hv
  obtain ⟨t', n', i', hl', he'⟩ := hv'
  obtain ⟨rfl, rfl, rfl⟩ := h.leaf_unique hl hl'
  rw [he] at he'
  exact Option.some.inj he'

theorem translate_iff {s : State} {F : Tables} (h : Holds s F) {rd ipa : Word}
    (hrd : (s.granule rd).state = .RD) (ha : ipa.toNat < 2 ^ (s.rd rd).s2Ctx.ipaBits)
    (v : PageView) :
    translate s rd ipa = some v ↔ Translates F (s.rd rd).s2Ctx rd ipa.toNat v := by
  obtain ⟨v', hv', ht⟩ := translate_spec h hrd ha
  rw [hv']
  constructor
  · rintro ⟨⟩
    exact ht
  · intro hv
    rw [hv.unique h ht]

theorem Maps.unique {s : State} {F : Tables} (h : Holds s F) {rd : Word} {a : ℕ} {r r' : Ripas}
    {g g' : Word} (hm : Maps F rd a r g) (hm' : Maps F rd a r' g') : r = r' ∧ g = g' := by
  rw [maps_iff_translates F default] at hm hm'
  have := hm.unique h hm'
  cases this
  exact ⟨rfl, rfl⟩

theorem translate_maps_iff {s : State} {F : Tables} (h : Holds s F) {rd ipa : Word}
    (hrd : (s.granule rd).state = .RD) (ha : ipa.toNat < 2 ^ (s.rd rd).s2Ctx.ipaBits)
    (r : Ripas) (g : Word) :
    translate s rd ipa = some (.assigned r g) ↔ Maps F rd ipa.toNat r g := by
  rw [translate_iff h hrd ha, maps_iff_translates F (s.rd rd).s2Ctx]

theorem Splits.view {ctx : S2ttContext} {level : ℤ} {e : Entry} {slot : ℕ → Entry}
    (h : Splits ctx level e slot) {j : ℕ} (hj : j < 512) (off : ℕ) :
    (slot j).view ctx level off = e.view ctx (level - 1) (j * s2tteMapSize level + off) := by
  cases e with
  | unassigned r => rw [h j hj]; rfl
  | unassignedNs => rw [h j hj]; rfl
  | assigned r pa =>
    rw [h j hj]
    simp only [Entry.view, blockPa, BitVec.ofNat_add, BitVec.add_assoc]
  | assignedNs desc =>
    obtain ⟨d, hd, hpa, hat⟩ := h j hj
    rw [hd]
    simp only [Entry.view, hpa, hat, blockPa, BitVec.ofNat_add, BitVec.add_assoc]
  | table pa => exact h.elim

/-- The translation through a slot of a table and through the leaf that stands for
the table. -/
theorem Splits.view_at {ctx : S2ttContext} {n m : Table} {i j a : ℕ} {e : Entry}
    (h : Splits ctx (levelOf m.height) e m.slot) (hh : m.height + 1 = n.height)
    (hb : m.base = n.slotBase rttShape i) (hj : j < 512) (hc : m.SlotCovers rttShape j a) :
    (m.slot j).view ctx (levelOf m.height) (a - m.slotBase rttShape j) =
      e.view ctx (levelOf n.height) (a - n.slotBase rttShape i) := by
  have hl : levelOf m.height - 1 = levelOf n.height := by
    unfold levelOf
    omega
  have hoff : j * s2tteMapSize (levelOf m.height) + (a - m.slotBase rttShape j) =
      a - n.slotBase rttShape i := by
    have h1 := hc.1
    rw [← hb, ← rttShape_span]
    unfold Node.slotBase at h1 ⊢
    omega
  rw [h.view hj, hl, hoff]

/-- A leaf outside the changed slot stands in both forests. -/
theorem setSlot_leaf_keep {F : Tables} {t : Word} {i : ℕ} {e : Entry} {rd : Word}
    {a : ℕ} {t' : Word}
    {n : Table} {i' : ℕ} (hl : IsLeaf F rd a t' n i') (hne : ¬ (t' = t ∧ i' = i)) :
    ∃ n', IsLeaf (F.setSlot t i e) rd a t' n' i' ∧ n'.height = n.height ∧ n'.base = n.base ∧
      n'.slot i' = n.slot i' := by
  obtain ⟨n', hn', ho, hh, hb, hs⟩ := Forest.setSlot_some t i e hl.table
  refine ⟨n', ⟨hn', ho.trans hl.owner, hl.index, ?_, ?_⟩, hh, hb, by rw [hs, if_neg hne]⟩
  · have := hl.covers
    unfold Node.SlotCovers Node.slotBase at this ⊢
    rwa [hb, hh]
  · rw [hs, if_neg hne]
    exact hl.leaf

theorem slotBase_congr {n n' : Table} (hh : n'.height = n.height)
    (hb : n'.base = n.base) (i : ℕ) :
    n'.slotBase rttShape i = n.slotBase rttShape i := by
  rw [Node.slotBase, Node.slotBase, hh, hb]

theorem GraftStep.translates {s s' : State} {F F' : Tables} {t k : Word} {n m : Table} {i : ℕ}
    (h : Holds s F) (st : GraftStep s F t n i k m s' F') (rd : Word) (a : ℕ) (v : PageView)
    {ctx : S2ttContext} (hctx : rd = n.owner → ctx = (s.rd n.owner).s2Ctx) :
    Translates F' ctx rd a v ↔ Translates F ctx rd a v := by
  have hk : F k = none := by
    by_contra hc
    obtain ⟨c, hc⟩ := Option.ne_none_iff_exists'.mp hc
    have := (h.node hc).1
    rw [st.fresh] at this
    cases this
  have hkt : t ≠ k := by
    rintro rfl
    rw [st.leaf.table] at hk
    cases hk
  constructor
  · rintro ⟨t', n', i', hl, he⟩
    by_cases ht' : t' = k
    · subst ht'
      have hm := hl.table
      rw [st.forest, Function.update_self] at hm
      cases hm
      have ho : n.owner = rd := st.owner ▸ hl.owner
      rw [hctx ho.symm] at he ⊢
      rw [st.splits.view_at st.height st.base hl.index hl.covers] at he
      refine ⟨t, n, i, ⟨st.leaf.table, ho, st.leaf.index, ?_, st.leaf.leaf⟩, he⟩
      have hcov := hl.covers.covers hl.index
      obtain ⟨h1, h2⟩ := hcov
      rw [st.height, st.base] at h2
      rw [st.base] at h1
      exact ⟨h1, h2⟩
    · have hF : IsLeaf (F.setSlot t i (.table k)) rd a t' n' i' := by
        refine ⟨?_, hl.owner, hl.index, hl.covers, hl.leaf⟩
        rw [← hl.table, st.forest, Function.update_of_ne ht']
      obtain ⟨n0, hl0, hh, hb, hs⟩ := setSlot_isLeaf (fun c hc => by
        rw [st.leaf.table] at hc
        cases hc
        exact st.leaf.leaf) hF
      have hne : ¬ (t' = t ∧ i' = i) := by
        intro hc
        have := hF.leaf
        rw [hs, if_pos hc] at this
        cases this
      rw [hs, if_neg hne, hh, slotBase_congr hh hb] at he
      exact ⟨t', n0, i', hl0, he⟩
  · rintro ⟨t', n0, i', hl, he⟩
    by_cases hc : t' = t ∧ i' = i
    · obtain ⟨rfl, rfl⟩ := hc
      have hn0 := hl.table
      rw [st.leaf.table] at hn0
      cases hn0
      rw [hctx hl.owner.symm] at he ⊢
      have hcov : m.Covers rttShape a := by
        obtain ⟨h1, h2⟩ := hl.covers
        constructor
        · rw [st.base]
          exact h1
        · rw [st.base, st.height]
          exact h2
      have hj : m.slotOf rttShape a < 512 := hcov.slotOf_lt
      refine ⟨k, m, m.slotOf rttShape a, ⟨by rw [st.forest, Function.update_self],
        st.owner.trans hl.owner, hj, hcov.slotCovers, (st.splits.link hj).1⟩, ?_⟩
      rw [st.splits.view_at st.height st.base hj hcov.slotCovers]
      exact he
    · obtain ⟨n', hl', hh, hb, hs⟩ := setSlot_leaf_keep (e := .table k) hl hc
      refine ⟨t', n', i', ⟨?_, hl'.owner, hl'.index, hl'.covers, hl'.leaf⟩, ?_⟩
      · rw [st.forest, Function.update_of_ne, hl'.table]
        rintro rfl
        rw [hl.table] at hk
        cases hk
      · rw [hs, hh, slotBase_congr hh hb]
        exact he

/-- Cutting off a table changes the translation only below its slot, where the new
leaf decides it. -/
theorem PruneStep.leaf {s s' : State} {F F' : Tables} {t k : Word} {n m : Table} {i : ℕ}
    {new : Entry} {pages : ℕ} (st : PruneStep s F t n i k m new pages s' F') {rd : Word} {a : ℕ}
    {t' : Word} {n' : Table}
    {i' : ℕ} (hl : IsLeaf F' rd a t' n' i') :
    (t' = t ∧ i' = i ∧ rd = n.owner ∧ n'.height = n.height ∧ n'.base = n.base ∧
      n'.slot i' = new ∧ n.SlotCovers rttShape i a) ∨
    ∃ n0, IsLeaf F rd a t' n0 i' ∧ n'.height = n0.height ∧ n'.base = n0.base ∧
      n'.slot i' = n0.slot i' := by
  have ht' : t' ≠ k := by
    rintro rfl
    have := hl.table
    rw [st.forest, Function.update_self] at this
    cases this
  have hF : F.setSlot t i new t' = some n' := by
    rw [← hl.table, st.forest, Function.update_of_ne ht']
  obtain ⟨n0, hn0, ho, hh, hb, hs⟩ := Forest.setSlot_inv hF
  have hcov : n0.SlotCovers rttShape i' a := by
    have := hl.covers
    unfold Node.SlotCovers Node.slotBase at this ⊢
    rwa [hb, hh] at this
  by_cases hc : t' = t ∧ i' = i
  · obtain ⟨rfl, rfl⟩ := hc
    rw [st.table] at hn0
    cases hn0
    exact .inl ⟨rfl, rfl, hl.owner.symm.trans ho, hh,
      hb, by rw [hs, if_pos ⟨rfl, rfl⟩], hcov⟩
  · refine .inr ⟨n0, ⟨hn0, ho.symm.trans hl.owner, hl.index, hcov, ?_⟩, hh, hb,
      by rw [hs, if_neg hc]⟩
    have := hl.leaf
    rwa [hs, if_neg hc] at this

/-- A leaf of the pruned forest from a leaf of the old one. -/
theorem PruneStep.leaf_keep {s s' : State} {F F' : Tables} {t k : Word} {n m : Table} {i : ℕ}
    {new : Entry} {pages : ℕ} (h : Holds s F)
    (st : PruneStep s F t n i k m new pages s' F') {rd : Word} {a : ℕ} {t' : Word} {n0 : Table}
    {i' : ℕ} (hl : IsLeaf F rd a t' n0 i') :
    (t' = k ∧ n0 = m ∧ rd = n.owner ∧ n.SlotCovers rttShape i a) ∨
    ∃ n', IsLeaf F' rd a t' n' i' ∧ n'.height = n0.height ∧ n'.base = n0.base ∧
      n'.slot i' = n0.slot i' := by
  by_cases hk : t' = k
  · subst hk
    have hn0 := hl.table
    rw [st.child] at hn0
    cases hn0
    obtain ⟨hs, ho, -⟩ := h.ok.child_covers st.table st.index (Entry.link_eq_some.mpr st.link)
      st.child (hl.covers.covers hl.index)
    exact .inl ⟨rfl, rfl, hl.owner.symm.trans ho, hs⟩
  · have hne : ¬ (t' = t ∧ i' = i) := by
      rintro ⟨rfl, rfl⟩
      have hn0 := hl.table
      rw [st.table] at hn0
      cases hn0
      have := hl.leaf
      rw [st.link] at this
      cases this
    obtain ⟨n', hl', hh, hb, hs⟩ := setSlot_leaf_keep (e := new) hl hne
    refine .inr ⟨n', ⟨?_, hl'.owner, hl'.index, hl'.covers, hl'.leaf⟩, hh, hb, hs⟩
    rw [st.forest, Function.update_of_ne hk, hl'.table]

theorem PruneStep.translates {s s' : State} {F F' : Tables} {t k : Word} {n m : Table} {i : ℕ}
    {new : Entry} {pages : ℕ} (h : Holds s F)
    (st : PruneStep s F t n i k m new pages s' F')
    (splits : Splits (s.rd n.owner).s2Ctx (levelOf m.height) new m.slot) (rd : Word) (a : ℕ)
    (v : PageView) {ctx : S2ttContext} (hctx : rd = n.owner → ctx = (s.rd n.owner).s2Ctx) :
    Translates F' ctx rd a v ↔ Translates F ctx rd a v := by
  obtain ⟨m', hm', ho, hh, hb⟩ := h.ok.child st.table st.index (Entry.link_eq_some.mpr st.link)
  rw [st.child] at hm'
  cases hm'
  constructor
  · rintro ⟨t', n', i', hl, he⟩
    rcases st.leaf hl with ⟨rfl, rfl, hrd, hh', hb', hs, hcov⟩ | ⟨n0, hl0, hh', hb', hs⟩
    · rw [hs, hh', slotBase_congr hh' hb', hctx hrd] at he
      have hmc : m.Covers rttShape a := by
        obtain ⟨h1, h2⟩ := hcov
        constructor
        · rw [hb]
          exact h1
        · rw [hb, hh]
          exact h2
      have hj : m.slotOf rttShape a < 512 := hmc.slotOf_lt
      refine ⟨k, m, m.slotOf rttShape a, ⟨st.child, ho.trans hrd.symm, hj, hmc.slotCovers,
        st.leaves _ hj⟩, ?_⟩
      rw [hctx hrd, splits.view_at hh hb hj hmc.slotCovers]
      exact he
    · rw [hs, hh', slotBase_congr hh' hb'] at he
      exact ⟨t', n0, i', hl0, he⟩
  · rintro ⟨t', n0, i', hl, he⟩
    rcases st.leaf_keep h hl with ⟨rfl, rfl, hrd, hcov⟩ | ⟨n', hl', hh', hb', hs⟩
    · obtain ⟨n', hn', ho', hh', hb', hs'⟩ := Forest.setSlot_some t i new st.table
      have hnk : t ≠ t' := by
        rintro rfl
        have h1 := st.table
        rw [st.child] at h1
        cases h1
        omega
      rw [hctx hrd, splits.view_at hh hb hl.index hl.covers] at he
      refine ⟨t, n', i, ⟨?_, ho'.trans hrd.symm, st.index, ?_, ?_⟩, ?_⟩
      · rw [st.forest, Function.update_of_ne hnk, hn']
      · unfold Node.SlotCovers
        rw [slotBase_congr hh' hb', hh']
        exact hcov
      · rw [hs', if_pos ⟨rfl, rfl⟩]
        exact st.newLeaf
      · rw [hs', if_pos ⟨rfl, rfl⟩, hh', slotBase_congr hh' hb', hctx hrd]
        exact he
    · refine ⟨t', n', i', hl', ?_⟩
      rw [hs, hh', slotBase_congr hh' hb']
      exact he

/-- Cutting off a table without live entries removes no mapping. -/
theorem PruneStep.maps_dead {s s' : State} {F F' : Tables} {t k : Word} {n m : Table} {i : ℕ}
    {new : Entry} {pages : ℕ} (h : Holds s F)
    (st : PruneStep s F t n i k m new pages s' F') (dead : ∀ j < 512, (m.slot j).refs = 0)
    (hnew : new.refs = 0) (rd : Word) (a : ℕ) (r : Ripas) (g : Word) :
    Maps F' rd a r g ↔ Maps F rd a r g := by
  constructor
  · rintro ⟨t', n', i', pa, hl, he, hg⟩
    rcases st.leaf hl with ⟨-, -, -, -, -, hs, -⟩ | ⟨n0, hl0, hh, hb, hs⟩
    · rw [he] at hs
      rw [← hs] at hnew
      cases hnew
    · rw [slotBase_congr hh hb] at hg
      exact ⟨t', n0, i', pa, hl0, hs ▸ he, hg⟩
  · rintro ⟨t', n0, i', pa, hl, he, hg⟩
    rcases st.leaf_keep h hl with ⟨-, rfl, -, -⟩ | ⟨n', hl', hh, hb, hs⟩
    · have := dead i' hl.index
      rw [he] at this
      cases this
    · rw [← slotBase_congr hh hb] at hg
      exact ⟨t', n', i', pa, hl', hs ▸ he, hg⟩

theorem rootEntry_refs (ctx : S2ttContext) (m : Table) (i : ℕ) :
    (rootEntry ctx m i).refs = 0 := by
  unfold rootEntry
  split <;> rfl

theorem PlantStep.maps {s s' : State} {F F' : Tables} {rd0 : Word}
    (st : PlantStep s F rd0 s' F') (rd : Word) (a : ℕ) (r : Ripas) (g : Word) :
    Maps F' rd a r g ↔ Maps F rd a r g := by
  constructor
  · rintro ⟨t, n, i, pa, hl, he, hg⟩
    rcases st.nodes t n hl.table with hn | ⟨-, -, hroot⟩
    · exact ⟨t, n, i, pa, ⟨hn, hl.owner, hl.index, hl.covers, hl.leaf⟩, he, hg⟩
    · have h0 := rootEntry_refs (s'.rd rd0).s2Ctx n i
      rw [← hroot i hl.index, he] at h0
      cases h0
  · rintro ⟨t, n, i, pa, hl, he, hg⟩
    exact ⟨t, n, i, pa, ⟨(st.old t n hl.table).1, hl.owner, hl.index, hl.covers,
      hl.leaf⟩, he, hg⟩

theorem FellStep.maps {s s' : State} {F F' : Tables} {rd0 : Word}
    (st : FellStep s F rd0 s' F') (rd : Word) (a : ℕ) (r : Ripas) (g : Word) :
    Maps F' rd a r g ↔ Maps F rd a r g := by
  constructor
  · rintro ⟨t, n, i, pa, hl, he, hg⟩
    exact ⟨t, n, i, pa, ⟨((st.nodes t n).mp hl.table).1, hl.owner, hl.index,
      hl.covers, hl.leaf⟩,
      he, hg⟩
  · rintro ⟨t, n, i, pa, hl, he, hg⟩
    have hne : n.owner ≠ rd0 := by
      intro hc
      have := st.dead t n hl.table hc i hl.index
      rw [he] at this
      cases this
    exact ⟨t, n, i, pa, ⟨(st.nodes t n).mpr ⟨hl.table, hne⟩, hl.owner, hl.index, hl.covers,
      hl.leaf⟩, he, hg⟩

/-- The place of an edit: a realm and the range of the edited slot. -/
def EditCovers (n : Table) (i : ℕ) (rd : Word) (a : ℕ) : Prop :=
  rd = n.owner ∧ n.SlotCovers rttShape i a

/-- An edit changes the translation of the addresses in its slot. -/
theorem EditStep.translates_iff {s s' : State} {F F' : Tables} {t : Word} {n : Table} {i a : ℕ}
    {e : Edit} (h : Holds s F) (st : EditStep s F t n i a e s' F') (ctx : S2ttContext) (rd : Word)
    (b : ℕ) (v : PageView) :
    Translates F' ctx rd b v ↔ (EditCovers n i rd b ∧
      (e.apply (n.slot i)).view ctx (levelOf n.height) (b - n.slotBase rttShape i) = some v) ∨
      (¬ EditCovers n i rd b ∧ Translates F ctx rd b v) := by
  have hlink : ∀ m, F t = some m → (m.slot i).link = none := by
    intro m hm
    rw [st.leaf.table] at hm
    cases hm
    exact st.allowed.link
  -- a covered address has its leaf in the edited slot
  have hthe : ∀ {t' n0 i'}, IsLeaf F rd b t' n0 i' → EditCovers n i rd b →
      t' = t ∧ n0 = n ∧ i' = i := by
    rintro t' n0 i' hl0 ⟨rfl, hc⟩
    exact h.leaf_unique hl0 ⟨st.leaf.table, rfl, st.leaf.index, hc, st.leaf.leaf⟩
  constructor
  · rintro ⟨t', n', i', hl, hv⟩
    rw [st.forest] at hl
    obtain ⟨n0, hl0, hh, hb, hs⟩ := setSlot_isLeaf hlink hl
    rw [slotBase_congr hh hb, hh] at hv
    by_cases hc : EditCovers n i rd b
    · obtain ⟨rfl, rfl, rfl⟩ := hthe hl0 hc
      rw [if_pos ⟨rfl, rfl⟩] at hs
      exact .inl ⟨hc, hs ▸ hv⟩
    · refine .inr ⟨hc, t', n0, i', hl0, ?_⟩
      rw [if_neg] at hs
      · exact hs ▸ hv
      · rintro ⟨rfl, rfl⟩
        have hn0 := hl0.table
        rw [st.leaf.table] at hn0
        cases hn0
        exact hc ⟨hl0.owner.symm, hl0.covers⟩
  · rintro (⟨⟨rfl, hc⟩, hv⟩ | ⟨hc, t', n0, i', hl, hv⟩)
    · obtain ⟨n', hn', ho, hh, hb, hs⟩ :=
        Forest.setSlot_some t i (e.apply (n.slot i)) st.leaf.table
      refine ⟨t, n', i, ⟨by rw [st.forest, hn'], ho, st.leaf.index, ?_, ?_⟩, ?_⟩
      · unfold Node.SlotCovers
        rw [slotBase_congr hh hb, hh]
        exact hc
      · rw [hs, if_pos ⟨rfl, rfl⟩]
        exact st.allowed.link_apply
      · rw [hs, if_pos ⟨rfl, rfl⟩, slotBase_congr hh hb, hh]
        exact hv
    · have hne : ¬ (t' = t ∧ i' = i) := by
        rintro ⟨rfl, rfl⟩
        have hn0 := hl.table
        rw [st.leaf.table] at hn0
        cases hn0
        exact hc ⟨hl.owner.symm, hl.covers⟩
      obtain ⟨n', hl', hh, hb, hs⟩ := setSlot_leaf_keep hl hne
      refine ⟨t', n', i', st.forest ▸ hl', ?_⟩
      rw [hs, slotBase_congr hh hb, hh]
      exact hv

theorem EditStep.maps_iff {s s' : State} {F F' : Tables} {t : Word} {n : Table}
    {i a : ℕ} {e : Edit}
    (h : Holds s F) (st : EditStep s F t n i a e s' F') (rd : Word) (b : ℕ)
    (r : Ripas) (g : Word) :
    Maps F' rd b r g ↔ (EditCovers n i rd b ∧ ∃ pa, e.apply (n.slot i) = .assigned r pa ∧
      g = pa + BitVec.ofNat 64 (b - n.slotBase rttShape i)) ∨
      (¬ EditCovers n i rd b ∧ Maps F rd b r g) := by
  rw [maps_iff_translates F' default, maps_iff_translates F default, st.translates_iff h,
    Entry.view_assigned_iff]

/-- Effects other than leaf edits. -/
def Effect.structural : Effect → Bool
  | .edit .. => false
  | _ => true

/-- Only leaf edits change what is mapped. -/
theorem Micro.maps {s s' : State} {F F' : Tables} {l : Effect} (h : Holds s F)
    (hm : Micro s F l s' F') (hl : l.structural = true) (rd : Word) (a : ℕ)
    (r : Ripas) (g : Word) :
    Maps F' rd a r g ↔ Maps F rd a r g := by
  cases hm with
  | edit st source => cases hl
  | quiet q => exact Iff.rfl
  | graft st =>
    rename_i t n i k m
    rw [maps_iff_translates F' (s.rd n.owner).s2Ctx, maps_iff_translates F (s.rd n.owner).s2Ctx]
    exact st.translates h rd a _ fun _ => rfl
  | fold st splits purge pos =>
    rename_i t n i k m new pages
    rw [maps_iff_translates F' (s.rd n.owner).s2Ctx, maps_iff_translates F (s.rd n.owner).s2Ctx]
    exact st.translates h splits rd a _ fun _ => rfl
  | destroy st dead lower upper =>
    rename_i t n i k m new pages
    refine st.maps_dead h dead ?_ rd a r g
    by_cases hc : n.slotBase rttShape i < 2 ^ (s.rd n.owner).s2Ctx.ipaBits / 2
    · rw [(lower hc).1]
      rfl
    · rw [(upper hc).1]
      rfl
  | plant st => exact st.maps rd a r g
  | fell st => exact st.maps rd a r g

/-- An edit keeps a mapping unless it removes it or writes over it. -/
theorem EditStep.maps_kept {s s' : State} {F F' : Tables} {t : Word} {n : Table} {i a : ℕ}
    {e : Edit} (h : Holds s F) (st : EditStep s F t n i a e s' F') {rd : Word} {b : ℕ} {r : Ripas}
    {g : Word} (hm : Maps F rd b r g) :
    (∃ r', Maps F' rd b r' g) ∨ (EditCovers n i rd b ∧
    (e = .remove ∨ ∃ pa, e = .mirror pa)) := by
  by_cases hc : EditCovers n i rd b
  · obtain ⟨t', n0, i', pa, hl, he, hg⟩ := hm
    obtain ⟨rfl, rfl, rfl⟩ := h.leaf_unique hl
      ⟨st.leaf.table, hc.1.symm, st.leaf.index, hc.2, st.leaf.leaf⟩
    have hallowed := st.allowed
    have keep : ∀ r', e.apply (n0.slot i') = .assigned r' pa →
        ∃ r', Maps F' rd b r' g := fun r' hr' =>
      ⟨r', (st.maps_iff h rd b r' g).mpr (.inl ⟨hc, pa, hr', hg⟩)⟩
    cases e with
    | assign r0 p =>
      rcases hallowed with ⟨r', hs⟩ | hs
      · rw [hs] at he
        cases he
      · rw [hs] at he
        cases he
    | mirror p => exact .inr ⟨hc, .inr ⟨p, rfl⟩⟩
    | remove => exact .inr ⟨hc, .inl rfl⟩
    | ripas r0 => exact .inl (keep r0 (by rw [he]; rfl))
    | mapNs desc =>
      have : n0.slot i' = .unassignedNs := hallowed
      rw [this] at he
      cases he
    | unmapNs =>
      obtain ⟨desc, hs⟩ := hallowed
      rw [hs] at he
      cases he
    | keep => exact .inl (keep r he)
  · exact .inl ⟨r, (st.maps_iff h rd b r g).mpr (.inr ⟨hc, hm⟩)⟩

end RmmCaec
