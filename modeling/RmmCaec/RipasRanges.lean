import RmmCaec.RipasQuery
import RmmCaec.Translations

/-!
# RIPAS changes of a range

One call of the host serves a part of a request: all addresses of the part get the RIPAS
that the realm asked for and keep the rest of their translation, and no other address
changes.
-/
namespace RmmCaec
open RadixForest Outcome Runs

/-- The same view with another RIPAS. -/
def PageView.withRipas (r : Ripas) : PageView → PageView
  | .unassigned _ => .unassigned r
  | .assigned _ pa => .assigned r pa
  | v => v

/-- The view has a RIPAS, and a request may change it. -/
def PageView.Changeable (cd : Bool) (v : PageView) : Prop :=
  ∃ q, v.ripas = some q ∧ (q = .DESTROYED → cd = true)

theorem PageView.withRipas_self {r : Ripas} {v : PageView} (h : v.ripas = some r) :
    v.withRipas r = v := by
  cases v with
  | unassigned q | assigned q pa => obtain rfl := Option.some.inj h; rfl
  | _ => rfl

/-- The addresses from `lo` up to `hi` of a realm have got their RIPAS, and all others are as
before. -/
structure RangeServed (F : Tables) (ctx : S2ttContext) (rd : Word) (lo hi : ℕ) (r : Ripas)
    (cd : Bool) (F' : Tables) : Prop where
  inside : ∀ a v, lo ≤ a → a < hi → Translates F ctx rd a v →
    v.Changeable cd ∧ Translates F' ctx rd a (v.withRipas r)
  outside : ∀ ctx' rd' a v, ¬ (rd' = rd ∧ lo ≤ a ∧ a < hi) →
    (Translates F' ctx' rd' a v ↔ Translates F ctx' rd' a v)

namespace RangeServed

variable {F F1 F' : Tables} {ctx : S2ttContext} {rd : Word} {lo mid hi : ℕ}
  {r : Ripas} {cd : Bool}

theorem refl (F : Tables) : RangeServed F ctx rd lo lo r cd F :=
  ⟨fun _ _ h1 h2 => by omega, fun _ _ _ _ _ => Iff.rfl⟩

theorem trans (h : RangeServed F ctx rd lo mid r cd F1) (h' : RangeServed F1 ctx rd mid hi r cd F')
    (hlo : lo ≤ mid) (hhi : mid ≤ hi) : RangeServed F ctx rd lo hi r cd F' where
  inside := by
    intro a v h1 h2 hv
    by_cases hmid : a < mid
    · obtain ⟨hc, hv'⟩ := h.inside a v h1 hmid hv
      exact ⟨hc, (h'.outside ctx rd a _ (by omega)).mpr hv'⟩
    · exact h'.inside a v (by omega) h2 ((h.outside ctx rd a v (by omega)).mpr hv)
  outside := by
    intro ctx' rd' a v hout
    rw [h'.outside ctx' rd' a v (fun hc => hout ⟨hc.1, by omega, hc.2.2⟩),
      h.outside ctx' rd' a v (fun hc => hout ⟨hc.1, hc.2.1, by omega⟩)]

end RangeServed

/-- An entry that needs no change has the RIPAS of the request. -/
theorem updateRipas_unchanged {ctx : S2ttContext} {level : ℤ} {e : Entry} {r : Ripas} {cd : Bool}
    (hv : e.Valid ctx level)
    (h : updateRipas ctx (e.word ctx level) level r cd = .unchanged) : e.ripas = some r := by
  unfold updateRipas at h
  simp only at h
  split at h
  · cases h
  · next hr =>
    rw [Bool.not_eq_true, Bool.not_eq_false', Entry.hasRipas_word hv] at hr
    cases r with
    | DESTROYED => cases h
    | RAM =>
      simp only [Entry.isUnassignedEmpty_word hv, Entry.isUnassignedDestroyed_word hv,
        Entry.isAssignedEmpty_word hv, Entry.isAssignedDestroyed_word hv] at h
      rcases hr with ⟨r', rfl⟩ | ⟨r', pa, rfl⟩ <;> cases r' <;> cases cd <;>
        simp at h <;> rfl
    | EMPTY =>
      simp only [Entry.isUnassignedRam_word hv, Entry.isUnassignedDestroyed_word hv,
        Entry.isAssignedRam_word hv, Entry.isAssignedDestroyed_word hv] at h
      rcases hr with ⟨r', rfl⟩ | ⟨r', pa, rfl⟩ <;> cases r' <;> cases cd <;>
        simp at h <;> rfl

/-- A change of the RIPAS of an entry changes the view of its addresses accordingly. -/
theorem Entry.view_ripas_apply {ctx : S2ttContext} {level : ℤ} {off : ℕ} {e : Entry} {r : Ripas}
    {v : PageView} (hallowed : (Edit.ripas r).Allowed e) (hv : e.view ctx level off = some v) :
    ((Edit.ripas r).apply e).view ctx level off = some (v.withRipas r) := by
  rcases hallowed with ⟨q, rfl⟩ | ⟨q, pa, rfl⟩ <;>
  · obtain rfl := Option.some.inj hv
    rfl

section
variable {s s' : State} {F F' : Tables} {t : Word} {n : Table} {index addr : ℕ} {r : Ripas}
  {cd : Bool} {ctx : S2ttContext}

/-- The translation of an address in the range of an entry is the view of the entry. -/
theorem Holds.translates_slot (h : Holds s F) (ht : F t = some n) (hi : index < 512)
    (hlink : (n.slot index).link = none) {a : ℕ} {v : PageView}
    (hc : n.SlotCovers rttShape index a) (hv : Translates F ctx n.owner a v) :
    (n.slot index).view ctx (levelOf n.height) (a - n.slotBase rttShape index) = some v := by
  obtain ⟨t', n', i', hl, hview⟩ := hv
  obtain ⟨-, rfl, rfl⟩ := h.leaf_unique hl ⟨ht, rfl, hi, hc, hlink⟩
  exact hview

/-- An edit serves the range of its entry. -/
theorem EditStep.rangeServed (h : Holds s F) (haddr : addr = n.slotBase rttShape index)
    (st : EditStep s F t n index addr (.ripas r) s' F')
    (hdest : (n.slot index).ripas = some .DESTROYED → cd = true) :
    RangeServed F ctx n.owner addr (addr + rttShape.span n.height) r cd F' where
  inside := by
    intro a v h1 h2 hv
    have hcov : n.SlotCovers rttShape index a := ⟨haddr ▸ h1, haddr ▸ h2⟩
    have hview := h.translates_slot st.leaf.table st.leaf.index st.allowed.link hcov hv
    have hrip := Entry.view_ripas ctx (levelOf n.height) (a - n.slotBase rttShape index)
      (n.slot index)
    rw [hview] at hrip
    refine ⟨?_, (st.translates_iff h ctx n.owner a _).mpr
      (.inl ⟨⟨rfl, hcov⟩, Entry.view_ripas_apply st.allowed hview⟩)⟩
    rcases st.allowed with ⟨q, he⟩ | ⟨q, pa, he⟩ <;>
    · rw [he] at hrip hdest
      exact ⟨q, hrip, fun hq => hdest (congrArg some hq)⟩
  outside := by
    intro ctx' rd' a v hout
    have hnot : ¬ EditCovers n index rd' a := by
      rintro ⟨rfl, h1, h2⟩
      exact hout ⟨rfl, haddr ▸ h1, haddr ▸ h2⟩
    rw [st.translates_iff h]
    simp [hnot]

/-- An entry with the right RIPAS needs no edit. -/
theorem rangeServed_of_ripas (h : Holds s F) (ht : F t = some n) (hi : index < 512)
    (haddr : addr = n.slotBase rttShape index) (hr : (n.slot index).ripas = some r)
    (hne : r ≠ .DESTROYED) :
    RangeServed F ctx n.owner addr (addr + rttShape.span n.height) r cd F where
  inside := by
    intro a v h1 h2 hv
    have hlink : (n.slot index).link = none := by
      cases he : n.slot index with
      | table pa =>
        rw [he] at hr
        cases hr
      | _ => rfl
    have hview := h.translates_slot ht hi hlink ⟨haddr ▸ h1, haddr ▸ h2⟩ hv
    have hrip := Entry.view_ripas ctx (levelOf n.height) (a - n.slotBase rttShape index)
      (n.slot index)
    rw [hview, hr] at hrip
    rw [PageView.withRipas_self hrip]
    exact ⟨⟨r, hrip, fun hc => absurd hc hne⟩, hv⟩
  outside := fun _ _ _ _ _ => Iff.rfl

/-- How far the loop over the entries has got. -/
structure LoopServed (s : State) (F : Tables) (rd : Word) (addr top : ℕ) (r : Ripas) (cd : Bool)
    (s' : State) (F' : Tables) (addr' : ℕ) : Prop where
  wf : Wf s' F'
  same : SameAll s s'
  served : RangeServed F (s.rd rd).s2Ctx rd addr addr' r cd F'
  le : addr ≤ addr'
  stay : addr' = addr → s' = s
  top : addr' = addr ∨ addr' ≤ top

/-- Each entry is served before the next one. -/
theorem setRipasLoop_served {top : ℕ} (hr : r ≠ .DESTROYED) (htop : top < 2 ^ 64) (fuel : ℕ)
    (h : Wf s F) (ht : F t = some n) (hidx : index + fuel ≤ 512)
    (haddr : addr = n.slotBase rttShape index) :
    ∃ F', LoopServed s F n.owner addr top r cd
      (setRipasLoop (s.rd n.owner).s2Ctx t (levelOf n.height) top r cd fuel s index addr).1 F'
      (setRipasLoop (s.rd n.owner).s2Ctx t (levelOf n.height) top r cd fuel s index addr).2 := by
  have stop : ∃ F', LoopServed s F n.owner addr top r cd s F' addr :=
    ⟨F, h, .refl s, .refl F, le_rfl, fun _ => rfl, .inl rfl⟩
  induction fuel generalizing s F n index addr with
  | zero => exact stop
  | succ fuel ih =>
    have hi : index < 512 := by omega
    obtain ⟨hv, hword⟩ := h.holds.word t n ht index hi
    have hspan := rttShape_span n.height
    have hpos := s2tteMapSize_pos (levelOf n.height)
    have hnext : addr + s2tteMapSize (levelOf n.height) = n.slotBase rttShape (index + 1) := by
      rw [haddr, ← hspan, Node.slotBase, Node.slotBase]
      ring
    unfold setRipasLoop
    by_cases hstop : top < addr + s2tteMapSize (levelOf n.height)
    · rw [if_pos hstop]
      exact stop
    rw [if_neg hstop]
    -- what is left to do once the entry has been served
    have go : ∀ {s1 F1 n1}, F1 t = some n1 → n1.owner = n.owner → n1.height = n.height →
        Wf s1 F1 → SameAll s s1 → n1.base = n.base →
        RangeServed F (s.rd n.owner).s2Ctx n.owner addr (addr + rttShape.span n.height) r cd F1 →
        ∃ F', LoopServed s F n.owner addr top r cd
          (setRipasLoop (s.rd n.owner).s2Ctx t (levelOf n.height) top r cd fuel s1 (index + 1)
            (addr + s2tteMapSize (levelOf n.height))).1 F'
          (setRipasLoop (s.rd n.owner).s2Ctx t (levelOf n.height) top r cd fuel s1 (index + 1)
            (addr + s2tteMapSize (levelOf n.height))).2 := by
      intro s1 F1 n1 ht1 ho hh hw1 hsame hb hserved
      have hnext1 : addr + s2tteMapSize (levelOf n.height) = n1.slotBase rttShape (index + 1) := by
        rw [hnext, slotBase_congr hh hb]
      obtain ⟨F', hl⟩ := ih hw1 ht1 (by omega) hnext1
        ⟨F1, hw1, .refl s1, .refl F1, le_rfl, fun _ => rfl, .inl rfl⟩
      rw [ho, hh, hsame.rd] at hl
      have hle := hl.le
      rw [hspan] at hserved
      refine ⟨F', hl.wf, hsame.trans hl.same, hserved.trans ?_ (by omega) hle, by omega,
        fun hc => by omega, ?_⟩
      · have hrest := hl.served
        rwa [hsame.rd] at hrest
      · rcases hl.top with he | hle'
        · exact .inr (by omega)
        · exact .inr hle'
    split
    · exact stop
    · next hup =>
      rw [hword] at hup
      exact go ht rfl rfl h (.refl s) rfl
        (rangeServed_of_ripas h.holds ht hi haddr (updateRipas_unchanged hv hup) hr)
    · next w tlbi hup =>
      obtain ⟨ed, hed, hst⟩ := updateRipas_step h ht hi haddr (by omega) hup
      obtain ⟨rfl, hdest⟩ := hed.resolve_left fun hc => hr hc.2
      obtain ⟨n1, hn1, ho, hh, hb, -⟩ := Forest.setSlot_some t index
        ((Edit.ripas r).apply (n.slot index)) ht
      exact go hn1 ho hh (hst.wf h) (hst.sameAll h.holds) hb (hst.rangeServed h.holds haddr hdest)

end

end RmmCaec
