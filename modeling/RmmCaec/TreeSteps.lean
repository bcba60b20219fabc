import RmmCaec.LeafHandlers

/-!
# Growing and cutting tables

From what a handler leaves in the granules, the tables and the TLB, the two
structural effects follow: a new table under a leaf, and a table replaced by a
leaf. Both write an empty entry first and invalidate before the new entry is
visible, so leaves that the hardware loads in between are leaves of the result.
-/
namespace RmmCaec

open RadixForest Outcome

/-- A leaf that stands in both forests, away from a slot that holds no output. -/
theorem CurrentLeaf.move {s s' : State} {F F' : Tables} {leaf : TlbLeaf} {t t' : Word}
    {n' : Table} {i i' : ℕ} (hc : CurrentLeaf s F leaf t' n' i')
    (hnone : ∀ m, F t = some m → ∀ ctx level, (m.slot i).output ctx level = none)
    (hF : ∀ m, F t' = some m → ∃ m', F' t' = some m' ∧ m'.owner = m.owner ∧
      m'.height = m.height ∧ m'.base = m.base ∧ ∀ j, ¬ (t' = t ∧ j = i) →
        m'.slot j = m.slot j)
    (hctx : (s'.rd n'.owner).s2Ctx = (s.rd n'.owner).s2Ctx) :
    ∃ m', CurrentLeaf s' F' leaf t' m' i' := by
  obtain ⟨m', hm', ho, hh, hb, hs⟩ := hF n' hc.table
  have hne : ¬ (t' = t ∧ i' = i) := by
    rintro ⟨rfl, rfl⟩
    have := hc.output
    rw [hnone n' hc.table] at this
    cases this
  have hbase : ∀ j, m'.slotBase rttShape j = n'.slotBase rttShape j := by
    intro j
    rw [Node.slotBase, Node.slotBase, hb, hh]
  refine ⟨m', hm', hc.index, ?_, ?_, ?_, ?_, ?_⟩
  · rw [hbase, ho, hctx]
    exact hc.inside
  · rw [ho, hctx]
    exact hc.vmid
  · rw [hh]
    exact hc.level
  · rw [hbase]
    exact hc.ipa
  · rw [hs i' hne, ho, hh, hctx]
    exact hc.output

theorem Holds.graft {s s' : State} {F : Tables} (h : Holds s F) {t k : Word} {n m : Table} {i : ℕ}
    (hl : IsLeaf F n.owner (n.slotBase rttShape i) t n i) (hk : F k = none)
    (hin : n.slotBase rttShape i < 2 ^ (s.rd n.owner).s2Ctx.ipaBits)
    (ho : m.owner = n.owner) (hh : m.height + 1 = n.height) (hb : m.base = n.slotBase rttShape i)
    (hrtt : ∀ g, (s'.granule g).state = .RTT ↔ (s.granule g).state = .RTT ∨ g = k)
    (hrd : ∀ g, (s'.granule g).state = .RD ↔ (s.granule g).state = .RD)
    (hctx : ∀ g, (s.granule g).state = .RD → (s'.rd g).s2Ctx = (s.rd g).s2Ctx)
    (hvk : (Entry.table k).Valid (s.rd n.owner).s2Ctx (levelOf n.height))
    (hnew : ∀ j < 512, (m.slot j).Valid (s.rd n.owner).s2Ctx (levelOf m.height) ∧
      (m.slot j).link = none ∧
      s'.rtt k j = (m.slot j).word (s.rd n.owner).s2Ctx (levelOf m.height))
    (htab : ∀ j, s'.rtt t j = if j = i then
      (Entry.table k).word (s.rd n.owner).s2Ctx (levelOf n.height) else s.rtt t j)
    (hother : ∀ g, g ≠ t → g ≠ k → s'.rtt g = s.rtt g) :
    Holds s' (Function.update (F.setSlot t i (.table k)) k (some m)) := by
  have ht := hl.table
  obtain ⟨-, hown, -⟩ := h.node ht
  have hkt : t ≠ k := by
    rintro rfl
    rw [hk] at ht
    cases ht
  have hplot : plotOf s' = plotOf s := by
    funext g
    unfold plotOf
    by_cases hg : (s.granule g).state = .RD
    · rw [if_pos hg, if_pos ((hrd g).mpr hg), hctx g hg]
    · rw [if_neg hg, if_neg (mt (hrd g).mp hg)]
  refine ⟨?_, ?_, ?_, ?_⟩
  · intro g
    rw [hrtt]
    by_cases hgk : g = k
    · subst hgk
      simp
    · rw [Function.update_of_ne hgk, h.rtt_iff]
      constructor
      · rintro (⟨c, hc⟩ | hc)
        · obtain ⟨c', hc', _⟩ := Forest.setSlot_some t i (Entry.table k) hc
          exact ⟨c', hc'⟩
        · exact absurd hc hgk
      · rintro ⟨c, hc⟩
        obtain ⟨c', hc', _⟩ := Forest.setSlot_inv hc
        exact .inl ⟨c', hc'⟩
  · rw [hplot]
    exact h.ok.graft ht hl.index hl.leaf rfl hk (plotOf_of_rd hown) ho hh hb (hb ▸ hin)
      fun j hj => (hnew j hj).2.1
  · intro g hg
    have hg' := (hrd g).mp hg
    rw [hctx g hg']
    exact h.ctx g hg'
  · intro g c hc j hj
    by_cases hgk : g = k
    · subst hgk
      rw [Function.update_self] at hc
      cases hc
      rw [ho, hctx _ hown]
      exact ⟨(hnew j hj).1, (hnew j hj).2.2⟩
    · rw [Function.update_of_ne hgk] at hc
      obtain ⟨c0, hc0, ho0, hh0, -, hs0⟩ := Forest.setSlot_inv hc
      rw [hs0, ho0, hh0, hctx _ (h.node hc0).2.1]
      by_cases hgt : g = t
      · subst hgt
        rw [ht] at hc0
        cases hc0
        rw [htab]
        by_cases hji : j = i
        · rw [if_pos ⟨rfl, hji⟩, if_pos hji]
          exact ⟨hvk, rfl⟩
        · rw [if_neg (fun hx => hji hx.2), if_neg hji]
          exact h.word g n ht j hj
      · rw [if_neg (fun hx => hgt hx.1), hother g hgt hgk]
        exact h.word g c0 hc0 j hj

/-- What unfolding leaves behind, in the terms of the state. -/
structure Grafted (s : State) (F : Tables) (t : Word) (n : Table) (i : ℕ) (k : Word) (m : Table)
    (s' : State) : Prop where
  leaf : IsLeaf F n.owner (n.slotBase rttShape i) t n i
  inside : n.slotBase rttShape i < 2 ^ (s.rd n.owner).s2Ctx.ipaBits
  fresh : (s.granule k).state = .DELEGATED
  owner : m.owner = n.owner
  height : m.height + 1 = n.height
  base : m.base = n.slotBase rttShape i
  splits : Splits (s.rd n.owner).s2Ctx (levelOf m.height) (n.slot i) m.slot
  validTable : (Entry.table k).Valid (s.rd n.owner).s2Ctx (levelOf n.height)
  entries : ∀ j < 512, (m.slot j).Valid (s.rd n.owner).s2Ctx (levelOf m.height) ∧
    s'.rtt k j = (m.slot j).word (s.rd n.owner).s2Ctx (levelOf m.height)
  table : ∀ j, s'.rtt t j = if j = i then
    (Entry.table k).word (s.rd n.owner).s2Ctx (levelOf n.height) else s.rtt t j
  other : ∀ g, g ≠ t → g ≠ k → s'.rtt g = s.rtt g
  tableGranule : ∃ c, s'.granule t = ⟨.RTT, c⟩ ∧
    c + (n.slot i).refs = (s.granule t).refcount + 1
  newGranule : s'.granule k = ⟨.RTT, 512 * (n.slot i).refs⟩
  granule : ∀ g, g ≠ t → g ≠ k → s'.granule g = s.granule g
  rd : s'.rd = s.rd
  recs : s'.recs = s.recs
  apt : s'.apt = s.apt
  tags : s'.tags = s.tags
  csmIds : s'.csmIds = s.csmIds
  vmids : s'.vmids = s.vmids
  tlb : ∀ leaf, s'.tlb leaf = true →
    (s.tlb leaf = true ∧ ((n.slot i).output (s.rd n.owner).s2Ctx (levelOf n.height) ≠ none →
      tlbiHits (s.rd n.owner).s2Ctx (n.slotBase rttShape i) leaf = false)) ∨
    validLeaf (Function.update s.rtt t (Function.update (s.rtt t) i 0#64))
      (s.rd n.owner).s2Ctx leaf = true ∨
    validLeaf s'.rtt (s.rd n.owner).s2Ctx leaf = true

section

variable {s s' : State} {F : Tables} {t k : Word} {n m : Table} {i : ℕ}

theorem Grafted.absent (h : Wf s F) (g : Grafted s F t n i k m s') : F k = none := by
  cases hF : F k with
  | none => rfl
  | some c =>
    have hst := (h.holds.node hF).1
    rw [g.fresh] at hst
    cases hst

theorem Grafted.child_ne (h : Wf s F) (g : Grafted s F t n i k m s') : k ≠ t := by
  rintro rfl
  have ht := g.leaf.table
  rw [g.absent h] at ht
  cases ht

theorem Grafted.granule_state (h : Wf s F) (g : Grafted s F t n i k m s') {x : Word} (hx : x ≠ k) :
    (s'.granule x).state = (s.granule x).state := by
  by_cases hxt : x = t
  · obtain ⟨c, hgt, -⟩ := g.tableGranule
    rw [hxt, hgt, (h.holds.node g.leaf.table).1]
  · rw [g.granule x hxt hx]

/-- The new table was a delegated granule; nothing else changes its state. -/
theorem Grafted.state_iff (h : Wf s F) (g : Grafted s F t n i k m s') {st : GranuleState} (x : Word)
    (h1 : st ≠ .RTT) (h2 : st ≠ .DELEGATED) :
    (s'.granule x).state = st ↔ (s.granule x).state = st := by
  by_cases hx : x = k
  · subst hx
    rw [g.newGranule, g.fresh]
    exact ⟨fun hc => absurd hc.symm h1, fun hc => absurd hc.symm h2⟩
  · rw [g.granule_state h hx]

theorem Grafted.holds (h : Wf s F) (g : Grafted s F t n i k m s') :
    Holds s' (Function.update (F.setSlot t i (.table k)) k (some m)) := by
  refine h.holds.graft g.leaf (g.absent h) g.inside g.owner g.height g.base ?_
    (fun x => g.state_iff h x (by decide) (by decide)) (fun x _ => by rw [g.rd]) g.validTable
    (fun j hj => ⟨(g.entries j hj).1, (g.splits.link hj).1, (g.entries j hj).2⟩) g.table g.other
  intro x
  by_cases hx : x = k
  · subst hx
    simp [g.newGranule]
  · rw [g.granule_state h hx]
    simp [hx]

theorem Grafted.sameMeta (h : Wf s F) (g : Grafted s F t n i k m s') : SameMeta s s' := by
  have htst := (h.holds.node g.leaf.table).1
  obtain ⟨c, hgt, -⟩ := g.tableGranule
  refine ⟨fun x => g.state_iff h x (by decide) (by decide),
    fun x => g.state_iff h x (by decide) (by decide), ?_, fun x _ => by rw [g.rd],
    fun x _ => by rw [g.recs], ?_, ?_, ?_, g.vmids⟩
  · intro x hx
    have h1 : x ≠ t := by rintro rfl; rw [htst] at hx; cases hx
    have h2 : x ≠ k := by rintro rfl; rw [g.fresh] at hx; cases hx
    rw [g.granule x h1 h2]
  · intro x hx
    have h2 : x ≠ k := by rintro rfl; rw [g.newGranule] at hx; cases hx
    have h1 : x ≠ t := by rintro rfl; rw [hgt] at hx; cases hx
    rw [g.granule x h1 h2] at hx ⊢
    exact h.plain x hx
  · intro x hx
    have h2 : x ≠ k := by rintro rfl; rw [g.newGranule] at hx; cases hx
    have h1 : x ≠ t := by rintro rfl; rw [hgt] at hx; cases hx
    rw [g.granule x h1 h2] at hx
    rw [g.rd, g.recs, g.apt]
    exact h.zero x hx
  · intro x hx
    have h2 : x ≠ k := by rintro rfl; rw [g.newGranule] at hx; cases hx
    have h1 : x ≠ t := by rintro rfl; rw [hgt] at hx; cases hx
    rw [g.granule x h1 h2] at hx
    rw [g.other x h1 h2]
    exact h.scrubbed x hx

/-- The parent gains a table, which counts an entry in each slot if the old entry counted. -/
theorem Grafted.counts (h : Wf s F) (g : Grafted s F t n i k m s') (x : Word) (c : Table)
    (hx : Function.update (F.setSlot t i (.table k)) k (some m) x = some c) :
    liveCount c ≤ (s'.granule x).refcount := by
  have ht := g.leaf.table
  obtain ⟨refs, hgt, hrefs⟩ := g.tableGranule
  by_cases hxk : x = k
  · subst hxk
    rw [Function.update_self] at hx
    cases hx
    rw [g.newGranule, liveCount_const fun j hj => g.splits.refs hj]
  · rw [Function.update_of_ne hxk] at hx
    by_cases hxt : x = t
    · subst hxt
      rw [Forest.setSlot_same ht] at hx
      cases hx
      have hlive := liveCount_update g.leaf.index (Entry.table k) (n := n)
      have hold := h.counts x n ht
      rw [hgt]
      have : (Entry.table k).refs = 1 := rfl
      simp only
      omega
    · rw [Forest.setSlot_of_ne hxt] at hx
      rw [g.granule x hxt hxk]
      exact h.counts x c hx

/-- A leaf loaded while the entry was empty lies elsewhere, and the result still has it. -/
theorem Grafted.leaf_kept (h : Wf s F) (g : Grafted s F t n i k m s') {leaf : TlbLeaf}
    (hl : validLeaf (Function.update s.rtt t (Function.update (s.rtt t) i 0#64))
      (s.rd n.owner).s2Ctx leaf = true) :
    ∃ t' m' i', CurrentLeaf s' (Function.update (F.setSlot t i (.table k)) k (some m)) leaf t' m'
      i' := by
  have ht := g.leaf.table
  set s0 : State := { s with rtt := Function.update s.rtt t (Function.update (s.rtt t) i 0#64) }
  have hh0 : Holds s0 (F.setSlot t i (.unassigned .EMPTY)) :=
    h.holds.setSlot ht g.leaf.leaf rfl trivial (fun _ => rfl) rfl rfl
  obtain ⟨t', n', i', hcur, -⟩ := hh0.currentLeaf (h.holds.node ht).2.1 hl
  have hnone : ∀ c', F.setSlot t i (.unassigned .EMPTY) t = some c' →
      ∀ ctx level, (c'.slot i).output ctx level = none := by
    intro c' hc' ctx level
    rw [Forest.setSlot_same ht] at hc'
    cases hc'
    simp [Entry.output]
  have hmove : ∀ c', F.setSlot t i (.unassigned .EMPTY) t' = some c' → ∃ c1,
      Function.update (F.setSlot t i (.table k)) k (some m) t' = some c1 ∧
      c1.owner = c'.owner ∧ c1.height = c'.height ∧ c1.base = c'.base ∧
      ∀ j, ¬ (t' = t ∧ j = i) → c1.slot j = c'.slot j := by
    intro c' hc'
    obtain ⟨c0, hc0, ho0, hh0, hb0, hs0⟩ := Forest.setSlot_inv hc'
    obtain ⟨c1, hc1, ho1, hh1, hb1, hs1⟩ := Forest.setSlot_some t i (Entry.table k) hc0
    have hne : t' ≠ k := by
      rintro rfl
      rw [g.absent h] at hc0
      cases hc0
    refine ⟨c1, by rw [Function.update_of_ne hne, hc1], ho1.trans ho0.symm, hh1.trans hh0.symm,
      hb1.trans hb0.symm, fun j hj => ?_⟩
    rw [hs1, hs0, if_neg hj, if_neg hj]
  obtain ⟨m', hm'⟩ := hcur.move hnone hmove (by rw [g.rd])
  exact ⟨t', m', i', hm'⟩

theorem Grafted.step (h : Wf s F) (g : Grafted s F t n i k m s') :
    GraftStep s F t n i k m s' (Function.update (F.setSlot t i (.table k)) k (some m)) ∧
      Wf s' (Function.update (F.setSlot t i (.table k)) k (some m)) := by
  obtain ⟨htst, hown, -⟩ := h.holds.node g.leaf.table
  obtain ⟨c, hgt, hc⟩ := g.tableGranule
  have hwords : ∀ x, (s.granule x).state ≠ .RTT → (s.granule x).state ≠ .DELEGATED →
      s'.rtt x = s.rtt x := by
    intro x h1 h2
    exact g.other x (by rintro rfl; exact h1 htst) (by rintro rfl; exact h2 g.fresh)
  refine ⟨⟨g.leaf, g.inside, g.fresh, g.owner, g.height, g.base, g.splits, rfl, by rw [hgt],
    by rw [g.newGranule], by rw [hgt]; exact hc, by rw [g.newGranule], g.granule,
    ⟨hwords, fun _ _ => by rw [g.rd], fun _ _ => by rw [g.recs], fun _ _ => by rw [g.apt], g.tags,
      g.csmIds, g.vmids⟩, ?_⟩, h.of_sameMeta (g.sameMeta h) (g.holds h) (g.counts h)⟩
  intro leaf hleaf
  rcases g.tlb leaf hleaf with h1 | h1 | h1
  · exact .inl h1
  · exact .inr (g.leaf_kept h h1)
  · right
    have hown' := (g.state_iff h n.owner (by decide) (by decide)).mpr hown
    obtain ⟨t', n', i', hcur, -⟩ := (g.holds h).currentLeaf hown' (by rw [g.rd]; exact h1)
    exact ⟨t', n', i', hcur⟩

end

theorem Holds.prune {s s' : State} {F : Tables} (h : Holds s F) {t k : Word} {n m : Table} {i : ℕ}
    {e : Entry} (ht : F t = some n) (hi : i < 512) (hlink : n.slot i = .table k) (hk : F k = some m)
    (hleaves : ∀ j < 512, (m.slot j).link = none) (he : e.link = none)
    (hv : e.Valid (s.rd n.owner).s2Ctx (levelOf n.height))
    (hrtt : ∀ g, (s'.granule g).state = .RTT ↔ (s.granule g).state = .RTT ∧ g ≠ k)
    (hrd : ∀ g, (s'.granule g).state = .RD ↔ (s.granule g).state = .RD)
    (hctx : ∀ g, (s.granule g).state = .RD → (s'.rd g).s2Ctx = (s.rd g).s2Ctx)
    (htab : ∀ j, s'.rtt t j = if j = i then e.word (s.rd n.owner).s2Ctx (levelOf n.height)
      else s.rtt t j)
    (hother : ∀ g, g ≠ t → g ≠ k → s'.rtt g = s.rtt g) :
    Holds s' (Function.update (F.setSlot t i e) k none) := by
  have hplot : plotOf s' = plotOf s := by
    funext g
    unfold plotOf
    by_cases hg : (s.granule g).state = .RD
    · rw [if_pos hg, if_pos ((hrd g).mpr hg), hctx g hg]
    · rw [if_neg hg, if_neg (mt (hrd g).mp hg)]
  refine ⟨?_, ?_, ?_, ?_⟩
  · intro g
    rw [hrtt]
    by_cases hgk : g = k
    · subst hgk
      simp
    · rw [Function.update_of_ne hgk, h.rtt_iff]
      constructor
      · rintro ⟨⟨c, hc⟩, -⟩
        obtain ⟨c', hc', _⟩ := Forest.setSlot_some t i e hc
        exact ⟨c', hc'⟩
      · rintro ⟨c, hc⟩
        obtain ⟨c', hc', _⟩ := Forest.setSlot_inv hc
        exact ⟨⟨c', hc'⟩, hgk⟩
  · rw [hplot]
    exact h.ok.prune ht hi (Entry.link_eq_some.mpr hlink) hk hleaves he
  · intro g hg
    have hg' := (hrd g).mp hg
    rw [hctx g hg']
    exact h.ctx g hg'
  · intro g c hc j hj
    have hgk : g ≠ k := by
      rintro rfl
      simp at hc
    rw [Function.update_of_ne hgk] at hc
    obtain ⟨c0, hc0, ho0, hh0, -, hs0⟩ := Forest.setSlot_inv hc
    rw [hs0, ho0, hh0, hctx _ (h.node hc0).2.1]
    by_cases hgt : g = t
    · subst hgt
      rw [ht] at hc0
      cases hc0
      rw [htab]
      by_cases hji : j = i
      · rw [if_pos ⟨rfl, hji⟩, if_pos hji]
        exact ⟨hv, rfl⟩
      · rw [if_neg (fun hx => hji hx.2), if_neg hji]
        exact h.word g n ht j hj
    · rw [if_neg (fun hx => hgt hx.1), hother g hgt hgk]
      exact h.word g c0 hc0 j hj

/-- What folding or destroying leaves behind, in the terms of the state. -/
structure Pruned (s : State) (F : Tables) (t : Word) (n : Table) (i : ℕ) (k : Word) (m : Table)
    (new : Entry) (pages : ℕ) (s' : State) : Prop where
  parent : F t = some n
  index : i < 512
  link : n.slot i = .table k
  child : F k = some m
  leaves : ∀ j < 512, (m.slot j).link = none
  newLeaf : new.link = none
  inside : n.slotBase rttShape i < 2 ^ (s.rd n.owner).s2Ctx.ipaBits
  valid : new.Valid (s.rd n.owner).s2Ctx (levelOf n.height)
  table : ∀ j, s'.rtt t j = if j = i then new.word (s.rd n.owner).s2Ctx (levelOf n.height)
    else s.rtt t j
  other : ∀ g, g ≠ t → g ≠ k → s'.rtt g = s.rtt g
  tableGranule : ∃ c, s'.granule t = ⟨.RTT, c⟩ ∧ c + 1 = (s.granule t).refcount + new.refs
  freed : s'.granule k = ⟨.DELEGATED, 0⟩
  zero : s'.rd k = default ∧ s'.recs k = default ∧ s'.rtt k = (fun _ => 0#64) ∧
    s'.apt k = default
  granule : ∀ g, g ≠ t → g ≠ k → s'.granule g = s.granule g
  rd : ∀ g, g ≠ k → s'.rd g = s.rd g
  recs : ∀ g, g ≠ k → s'.recs g = s.recs g
  apt : ∀ g, g ≠ k → s'.apt g = s.apt g
  tags : s'.tags = s.tags
  csmIds : s'.csmIds = s.csmIds
  vmids : s'.vmids = s.vmids
  tlb : ∀ leaf, s'.tlb leaf = true →
    (s.tlb leaf = true ∧ ∀ p < pages,
      tlbiHits (s.rd n.owner).s2Ctx (n.slotBase rttShape i + p * 4096) leaf = false) ∨
    validLeaf (Function.update s.rtt t (Function.update (s.rtt t) i 0#64))
      (s.rd n.owner).s2Ctx leaf = true ∨
    validLeaf (Function.update s.rtt t (Function.update (s.rtt t) i
      (new.word (s.rd n.owner).s2Ctx (levelOf n.height)))) (s.rd n.owner).s2Ctx leaf = true

section

variable {s s' : State} {F : Tables} {t k : Word} {n m : Table} {i pages : ℕ} {new : Entry}

theorem Pruned.child_ne (g : Pruned s F t n i k m new pages s') : k ≠ t := by
  obtain ⟨c, hgt, -⟩ := g.tableGranule
  rintro rfl
  rw [g.freed] at hgt
  cases hgt

theorem Pruned.granule_state (h : Wf s F) (g : Pruned s F t n i k m new pages s') {x : Word}
    (hx : x ≠ k) : (s'.granule x).state = (s.granule x).state := by
  by_cases hxt : x = t
  · obtain ⟨c, hgt, -⟩ := g.tableGranule
    rw [hxt, hgt, (h.holds.node g.parent).1]
  · rw [g.granule x hxt hx]

/-- The freed granule was a table and is delegated; nothing else changes its state. -/
theorem Pruned.state_iff (h : Wf s F) (g : Pruned s F t n i k m new pages s') {st : GranuleState}
    (x : Word) (h1 : st ≠ .RTT) (h2 : st ≠ .DELEGATED) :
    (s'.granule x).state = st ↔ (s.granule x).state = st := by
  by_cases hx : x = k
  · subst hx
    rw [g.freed, (h.holds.node g.child).1]
    exact ⟨fun hc => absurd hc.symm h2, fun hc => absurd hc.symm h1⟩
  · rw [g.granule_state h hx]

theorem Pruned.rtt_iff (h : Wf s F) (g : Pruned s F t n i k m new pages s') (x : Word) :
    (s'.granule x).state = .RTT ↔ (s.granule x).state = .RTT ∧ x ≠ k := by
  by_cases hx : x = k
  · subst hx
    simp [g.freed]
  · rw [g.granule_state h hx]
    simp [hx]

theorem Pruned.ne_of_state (h : Wf s F) (g : Pruned s F t n i k m new pages s') {x : Word}
    (hx : (s.granule x).state ≠ .RTT) : x ≠ k := by
  rintro rfl
  exact hx (h.holds.node g.child).1

theorem Pruned.rd_of_rd (h : Wf s F) (g : Pruned s F t n i k m new pages s') {x : Word}
    (hx : (s.granule x).state = .RD) : s'.rd x = s.rd x :=
  g.rd x (g.ne_of_state h (by rw [hx]; decide))

/-- The forest holds whatever entry stands in the slot, and whatever the freed table holds. -/
theorem Pruned.holds (h : Wf s F) (g : Pruned s F t n i k m new pages s') {e : Entry} {u : State}
    (he : e.link = none) (hv : e.Valid (s.rd n.owner).s2Ctx (levelOf n.height))
    (hug : u.granule = s'.granule) (hur : u.rd = s'.rd)
    (hut : ∀ j, u.rtt t j = if j = i then e.word (s.rd n.owner).s2Ctx (levelOf n.height)
      else s.rtt t j) (huo : ∀ x, x ≠ t → x ≠ k → u.rtt x = s.rtt x) :
    Holds u (Function.update (F.setSlot t i e) k none) :=
  h.holds.prune g.parent g.index g.link g.child g.leaves he hv
    (fun x => by rw [hug]; exact g.rtt_iff h x)
    (fun x => by rw [hug]; exact g.state_iff h x (by decide) (by decide))
    (fun x hx => by rw [hur, g.rd_of_rd h hx]) hut huo

theorem Pruned.sameMeta (h : Wf s F) (g : Pruned s F t n i k m new pages s') : SameMeta s s' := by
  have htst := (h.holds.node g.parent).1
  obtain ⟨c, hgt, -⟩ := g.tableGranule
  refine ⟨fun x => g.state_iff h x (by decide) (by decide),
    fun x => g.state_iff h x (by decide) (by decide), ?_, fun x hx => by rw [g.rd_of_rd h hx],
    fun x hx => by rw [g.recs x (g.ne_of_state h (by rw [hx]; decide))], ?_, ?_, ?_, g.vmids⟩
  · intro x hx
    have h1 : x ≠ t := by rintro rfl; rw [htst] at hx; cases hx
    rw [g.granule x h1 (g.ne_of_state h (by rw [hx]; decide))]
  · intro x hx
    by_cases h2 : x = k
    · rw [h2, g.freed]
    have h1 : x ≠ t := by rintro rfl; rw [hgt] at hx; cases hx
    rw [g.granule x h1 h2] at hx ⊢
    exact h.plain x hx
  · intro x hx
    by_cases h2 : x = k
    · rw [h2]
      exact ⟨g.zero.1, g.zero.2.1, g.zero.2.2.2⟩
    have h1 : x ≠ t := by rintro rfl; rw [hgt] at hx; cases hx
    rw [g.granule x h1 h2] at hx
    rw [g.rd x h2, g.recs x h2, g.apt x h2]
    exact h.zero x hx
  · intro x hx
    by_cases h2 : x = k
    · rw [h2]
      exact g.zero.2.2.1
    have h1 : x ≠ t := by rintro rfl; rw [hgt] at hx; cases hx
    rw [g.granule x h1 h2] at hx
    rw [g.other x h1 h2]
    exact h.scrubbed x hx

/-- The parent loses a table and gains what the new entry counts. -/
theorem Pruned.counts (h : Wf s F) (g : Pruned s F t n i k m new pages s') (x : Word) (c : Table)
    (hx : Function.update (F.setSlot t i new) k none x = some c) :
    liveCount c ≤ (s'.granule x).refcount := by
  have ht := g.parent
  obtain ⟨refs, hgt, hrefs⟩ := g.tableGranule
  have hxk : x ≠ k := by
    rintro rfl
    simp at hx
  rw [Function.update_of_ne hxk] at hx
  by_cases hxt : x = t
  · subst hxt
    rw [Forest.setSlot_same ht] at hx
    cases hx
    have hlive := liveCount_update g.index new (n := n)
    have hold := h.counts x n ht
    rw [g.link] at hlive
    have : (Entry.table k).refs = 1 := rfl
    rw [hgt]
    simp only
    omega
  · rw [Forest.setSlot_of_ne hxt] at hx
    rw [g.granule x hxt hxk]
    exact h.counts x c hx

/-- A leaf loaded from the tables with any entry in the slot. -/
theorem Pruned.loaded (h : Wf s F) (g : Pruned s F t n i k m new pages s') {e : Entry}
    (he : e.link = none) (hv : e.Valid (s.rd n.owner).s2Ctx (levelOf n.height)) {leaf : TlbLeaf}
    (hl : validLeaf (Function.update s.rtt t (Function.update (s.rtt t) i
      (e.word (s.rd n.owner).s2Ctx (levelOf n.height)))) (s.rd n.owner).s2Ctx leaf = true) :
    ∃ t' n' i', CurrentLeaf s' (Function.update (F.setSlot t i e) k none) leaf t' n' i' := by
  have hown := (h.holds.node g.parent).2.1
  have hown' := (g.state_iff h n.owner (by decide) (by decide)).mpr hown
  set u : State := { s' with rtt := Function.update s.rtt t (Function.update (s.rtt t) i
    (e.word (s.rd n.owner).s2Ctx (levelOf n.height))) } with hu
  have hH : Holds u (Function.update (F.setSlot t i e) k none) := by
    refine g.holds h he hv rfl rfl (fun j => ?_) fun x hxt _ => ?_
    · simp only [hu, Function.update_self, Function.update_apply]
    · simp only [hu, Function.update_of_ne hxt]
  have hctx : (u.rd n.owner).s2Ctx = (s.rd n.owner).s2Ctx :=
    congrArg Rd.s2Ctx (g.rd_of_rd h hown)
  obtain ⟨t', n', i', hcur, -⟩ := @Holds.currentLeaf u _ hH n.owner hown' leaf (hctx ▸ hl)
  exact ⟨t', n', i', hcur.table, hcur.index, hcur.inside, hcur.vmid, hcur.level, hcur.ipa,
    hcur.output⟩

/-- An empty entry outputs nothing, so that a leaf found next to it is found next to the new entry
as well. -/
theorem Pruned.leaf_kept (g : Pruned s F t n i k m new pages s') {leaf : TlbLeaf} {t' : Word}
    {n' : Table} {i' : ℕ}
    (hcur : CurrentLeaf s' (Function.update (F.setSlot t i (.unassigned .EMPTY)) k none) leaf t' n'
      i') :
    ∃ m', CurrentLeaf s' (Function.update (F.setSlot t i new) k none) leaf t' m' i' := by
  have hnone : ∀ c', Function.update (F.setSlot t i (.unassigned .EMPTY)) k none t = some c' →
      ∀ ctx level, (c'.slot i).output ctx level = none := by
    intro c' hc' ctx level
    rw [Function.update_of_ne g.child_ne.symm, Forest.setSlot_same g.parent] at hc'
    cases hc'
    simp [Entry.output]
  have hmove : ∀ c', Function.update (F.setSlot t i (.unassigned .EMPTY)) k none t' = some c' →
      ∃ c1, Function.update (F.setSlot t i new) k none t' = some c1 ∧ c1.owner = c'.owner ∧
      c1.height = c'.height ∧ c1.base = c'.base ∧
      ∀ j, ¬ (t' = t ∧ j = i) → c1.slot j = c'.slot j := by
    intro c' hc'
    have hne : t' ≠ k := by
      rintro rfl
      simp at hc'
    rw [Function.update_of_ne hne] at hc'
    obtain ⟨c0, hc0, ho0, hh0, hb0, hs0⟩ := Forest.setSlot_inv hc'
    obtain ⟨c1, hc1, ho1, hh1, hb1, hs1⟩ := Forest.setSlot_some t i new hc0
    refine ⟨c1, by rw [Function.update_of_ne hne, hc1], ho1.trans ho0.symm, hh1.trans hh0.symm,
      hb1.trans hb0.symm, fun j hj => ?_⟩
    rw [hs1, hs0, if_neg hj, if_neg hj]
  exact hcur.move hnone hmove rfl

theorem Pruned.step (h : Wf s F) (g : Pruned s F t n i k m new pages s') :
    PruneStep s F t n i k m new pages s' (Function.update (F.setSlot t i new) k none) ∧
      Wf s' (Function.update (F.setSlot t i new) k none) := by
  have ht := g.parent
  have htst := (h.holds.node ht).1
  obtain ⟨c, hgt, hc⟩ := g.tableGranule
  refine ⟨⟨ht, g.index, g.link, g.child, g.leaves, g.newLeaf, g.inside,
    rfl, by rw [hgt], g.freed,
    by rw [hgt]; exact hc, g.granule,
    ⟨fun x h1 _ => g.other x (by rintro rfl; exact h1 htst) (g.ne_of_state h h1),
      fun x hx => g.rd_of_rd h hx, fun x hx => g.recs x (g.ne_of_state h (by rw [hx]; decide)),
      fun x hx => g.apt x (g.ne_of_state h (by rw [hx]; decide)), g.tags, g.csmIds,
        g.vmids⟩, ?_⟩,
    h.of_sameMeta (g.sameMeta h) (g.holds h g.newLeaf g.valid rfl rfl g.table g.other)
      (g.counts h)⟩
  intro leaf hleaf
  rcases g.tlb leaf hleaf with h1 | h1 | h1
  · exact .inl h1
  · obtain ⟨t', n', i', hcur⟩ := g.loaded (e := .unassigned .EMPTY) h rfl trivial h1
    obtain ⟨m', hm'⟩ := g.leaf_kept hcur
    exact .inr ⟨t', m', i', hm'⟩
  · exact .inr (g.loaded h g.newLeaf g.valid h1)

end

end RmmCaec
