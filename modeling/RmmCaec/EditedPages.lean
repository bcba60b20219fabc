import RmmCaec.Mirroring

/-!
# Edits at given pages

Mapping pages and taking pages back change the tables only at page entries that cover
one of a list of places. Every address that is not on the page of a place, or that no
page entry covers, keeps its translation.
-/
namespace RmmCaec

open RadixForest Outcome

/-- The forests differ only in page entries that cover one of the places. -/
def EditedOn (F : Tables) (places : List (Word × Word)) (F' : Tables) : Prop :=
  ∀ t n', F' t = some n' → ∃ n, F t = some n ∧ n'.owner = n.owner ∧
    n'.height = n.height ∧
    n'.base = n.base ∧ ∀ i, n'.slot i = n.slot i ∨
      (n.height = 0 ∧ (n.slot i).link = none ∧
      ∃ p ∈ places, p.1 = n.owner ∧ n.SlotCovers rttShape i p.2.toNat)

section
variable {s s' : State} {F F' : Tables} {places : List (Word × Word)} {rd ipa : Word}

theorem Mirrored.editedOn {R : Word × Word → Word → Prop} (hm : Mirrored s F R places s' F') :
    EditedOn F places F' := by
  intro t n' hn'
  obtain ⟨n, hn, ho, hh, hb, hs⟩ := hm.nodes t n' hn'
  refine ⟨n, hn, ho, hh, hb, fun i => (hs i).imp id ?_⟩
  rintro ⟨h0, hlink, p, hp, hp1, hp2, -⟩
  exact ⟨h0, hlink, p, hp, hp1, hp2⟩

theorem PagesCleared.editedOn (hc : PagesCleared F places F') : EditedOn F places F' := by
  intro t n' hn'
  obtain ⟨n, hn, ho, hh, hb, hs⟩ := hc.nodes t n' hn'
  refine ⟨n, hn, ho, hh, hb, fun i => (hs i).imp id ?_⟩
  rintro ⟨h0, ⟨r, pa, he⟩, -, hp⟩
  exact ⟨h0, by rw [he]; rfl, hp⟩

theorem pageLevel_iff (h : Holds s F) (hrd : (s.granule rd).state = .RD)
    (ha : ipa.toNat < 2 ^ (s.rd rd).s2Ctx.ipaBits) :
    PageLevel s (rd, ipa) ↔ HeightAt F rd ipa.toNat 0 := by
  constructor
  · exact fun hp => hp.heightAt h
  · rintro ⟨t, n, i, hl, h0⟩
    refine ⟨hrd, ha, ?_⟩
    rw [h.leafOf_of_isLeaf hl ha, h0]
    rfl

/-- An address keeps its translation if it is not on the page of a place, or if no page
entry covers it. -/
theorem EditedOn.translate_kept (h : Holds s F) (h' : Holds s' F') (he : EditedOn F places F')
    (hrd : (s.granule rd).state = .RD) (hrd' : (s'.granule rd).state = .RD)
    (hctx : (s'.rd rd).s2Ctx = (s.rd rd).s2Ctx) (ha : ipa.toNat < 2 ^ (s.rd rd).s2Ctx.ipaBits)
    (hout : PageLevel s (rd, ipa) → ¬ OnPage places rd ipa.toNat) :
    translate s' rd ipa = translate s rd ipa := by
  obtain ⟨v, hv, t, n', i, hl', hview⟩ := translate_spec h' hrd' (by rwa [hctx])
  obtain ⟨n, hn, ho, hh, hb, hslot⟩ := he t n' hl'.table
  have hcov : n.SlotCovers rttShape i ipa.toNat := by
    have := hl'.covers
    unfold Node.SlotCovers at this ⊢
    rwa [slotBase_congr hh hb, hh] at this
  rw [hv, eq_comm, translate_iff h hrd ha]
  rcases hslot i with hs | ⟨h0, hlink, p, hp, hp1, hp2⟩
  · refine ⟨t, n, i, ⟨hn, ho.symm.trans hl'.owner, hl'.index, hcov, ?_⟩, ?_⟩
    · rw [← hs]
      exact hl'.leaf
    · rwa [hs, hh, slotBase_congr hh hb, hctx] at hview
  · -- an edited slot covers only addresses on the page of its place
    have howner : n.owner = rd := ho.symm.trans hl'.owner
    have hpage := slotCovers_page h hn h0 hp2 hcov
    refine absurd ⟨p, hp, hp1.trans howner, hpage⟩ (hout ?_)
    exact (pageLevel_iff h hrd ha).mpr ⟨t, n, i, ⟨hn, howner, hl'.index, hcov, hlink⟩, h0⟩

/-- A page entry on the page of a place is not assigned any more. -/
theorem PagesCleared.not_assigned (h : Holds s F) (h' : Holds s' F')
    (hc : PagesCleared F places F') (hrd' : (s'.granule rd).state = .RD)
    (hctx : (s'.rd rd).s2Ctx = (s.rd rd).s2Ctx) (hp : PageLevel s (rd, ipa))
    (hon : OnPage places rd ipa.toNat) (r : Ripas) (pa : Word) :
    translate s' rd ipa ≠ some (.assigned r pa) := by
  obtain ⟨hrd, ha, -⟩ := id hp
  rw [Ne, translate_maps_iff h' hrd' (by rwa [hctx])]
  rintro ⟨t, n', i, q, hl', hslot, -⟩
  obtain ⟨n, hl, hh, -, -⟩ := hc.leaf hl'
  obtain ⟨t0, n0, i0, hl0, h0⟩ := hp.heightAt h
  obtain ⟨rfl, rfl, rfl⟩ := h.leaf_unique hl0 hl
  obtain ⟨p, hpm, hp1, hpage⟩ := hon
  subst hp1
  have hcov := slotCovers_of_page h' hl'.table (hh.trans h0) hl'.covers hpage.symm
  exact hc.cleared p hpm t0 n' i0 ⟨hl'.table, hl'.owner, hl'.index, hcov, hl'.leaf⟩
    (hh.trans h0) r q hslot

end

end RmmCaec
