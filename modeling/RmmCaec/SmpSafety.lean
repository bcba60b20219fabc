import RmmCaec.Smp
import RmmCaec.Steady

/-!
# References and auxiliary granules on several CPUs

The references on RDs and RECs are counted by what the CPUs are doing: a realm has one
reference for each of its RECs and one for each CPU that has freed a REC and not yet
dropped its reference, and a REC has one for the CPU that is inside it. Each auxiliary
granule has one owner, a REC or a CPU that is creating one.
-/
namespace RmmCaec
open RadixForest Outcome Runs

section
variable {ι : Type}

/-- Every auxiliary granule that is claimed has one owner. Those of a CPU are zeroed. -/
structure AuxOwned (s : State) (claims : ι → List Word) (own : Word → Option (ι ⊕ Word)) :
    Prop where
  cpu : ∀ c a, own a = some (.inl c) ↔ a ∈ claims c
  recs : ∀ r a, own a = some (.inr r) ↔ (s.granule r).state = .REC ∧ a ∈ (s.recs r).gAux
  aux : ∀ a, own a ≠ none → (s.granule a).state = .REC_AUX
  zero : ∀ c, ∀ a ∈ claims c, s.rtt a = fun _ => 0#64
  nodup : ∀ c, (claims c).Nodup

namespace AuxOwned

variable {s s' : State} {claims : ι → List Word} {own : Word → Option (ι ⊕ Word)}

/-- RECs and their auxiliary granules stay, with the words of those that a CPU owns. -/
theorem congr (h : AuxOwned s claims own)
    (hrec : ∀ g, (s'.granule g).state = .REC ↔ (s.granule g).state = .REC)
    (haux : ∀ g, (s.granule g).state = .REC_AUX → (s'.granule g).state = .REC_AUX)
    (hrecs : ∀ g, (s.granule g).state = .REC → (s'.recs g).gAux = (s.recs g).gAux)
    (hwords : ∀ c, ∀ a ∈ claims c, s'.rtt a = s.rtt a) : AuxOwned s' claims own where
  cpu := h.cpu
  recs r a := by
    rw [h.recs, hrec]
    refine and_congr_right fun hr => ?_
    rw [hrecs r hr]
  aux a ha := haux a (h.aux a ha)
  zero c a ha := by rw [hwords c a ha, h.zero c a ha]
  nodup := h.nodup

theorem state_of_mem (h : AuxOwned s claims own) {c : ι} {a : Word} (ha : a ∈ claims c) :
    (s.granule a).state = .REC_AUX :=
  h.aux a (by rw [(h.cpu c a).mpr ha]; simp)

theorem steady (h : AuxOwned s claims own) (hs : Steady s s') : AuxOwned s' claims own :=
  h.congr hs.isRec (fun g => (hs.isAux g).mpr) (fun g hg => by rw [hs.recs g hg])
    fun _ a ha => hs.words a (h.state_of_mem ha)

/-- Only a reference count changes. -/
theorem setRefcount (h : AuxOwned s claims own) (g : Word) (n : ℕ) :
    AuxOwned (s.setRefcount g n) claims own :=
  h.congr (fun x => by rw [State.setRefcount_state]) (fun x hx => by rwa [State.setRefcount_state])
    (fun _ _ => rfl) fun _ _ _ => rfl

variable [DecidableEq ι]

/-- A CPU claims one more granule. -/
theorem claim (h : AuxOwned s claims own) {c : ι} {a : Word}
    (ha : (s.granule a).state = .DELEGATED) (hz : s.rtt a = fun _ => 0#64) :
    AuxOwned (s.setState a .REC_AUX) (Function.update claims c (claims c ++ [a]))
      (Function.update own a (some (.inl c))) := by
  have hfree : own a = none := by
    by_contra hc
    rw [h.aux a hc] at ha
    cases ha
  have hnot : ∀ c', a ∉ claims c' := by
    intro c' hc
    rw [(h.cpu c' a).mpr hc] at hfree
    cases hfree
  refine ⟨fun c' x => ?_, fun r x => ?_, fun x hx => ?_, fun c' x hx => ?_, fun c' => ?_⟩
  · by_cases hxa : x = a
    · subst hxa
      by_cases hc : c' = c
      · subst hc
        simp
      · simp [hc, hnot, Ne.symm hc]
    · by_cases hc : c' = c
      · subst hc
        simp [hxa, h.cpu]
      · simp [hxa, hc, h.cpu]
  · rw [State.setState_state_iff s (by rw [ha]; decide) (by decide)]
    by_cases hxa : x = a
    · subst hxa
      simp only [Function.update_self, Option.some.injEq, reduceCtorEq, false_iff]
      intro hc
      rw [(h.recs r x).mpr hc] at hfree
      cases hfree
    · rw [Function.update_of_ne hxa, h.recs]
      rfl
  · by_cases hxa : x = a
    · rw [hxa, State.setState_self]
    · rw [Function.update_of_ne hxa] at hx
      rw [State.setState_of_ne s hxa]
      exact h.aux x hx
  · by_cases hc : c' = c
    · subst hc
      rw [Function.update_self, List.mem_append, List.mem_singleton] at hx
      obtain hx | rfl := hx
      · exact h.zero c' x hx
      · exact hz
    · rw [Function.update_of_ne hc] at hx
      exact h.zero c' x hx
  · by_cases hc : c' = c
    · subst hc
      rw [Function.update_self]
      exact List.nodup_append.mpr ⟨h.nodup c', by simp, by
        intro x hx y hy
        rw [List.mem_singleton] at hy
        rintro rfl
        exact hnot c' (hy ▸ hx)⟩
    · rw [Function.update_of_ne hc]
      exact h.nodup c'

/-- A CPU gives its first granule back. -/
theorem unclaim (h : AuxOwned s claims own) {c : ι} {a : Word} {left : List Word}
    (hc : claims c = a :: left) :
    AuxOwned (s.setState a .DELEGATED) (Function.update claims c left)
      (Function.update own a none) := by
  have hown : own a = some (.inl c) := (h.cpu c a).mpr (by rw [hc]; exact List.mem_cons_self)
  have hst := h.state_of_mem (by rw [hc]; exact List.mem_cons_self : a ∈ claims c)
  have hnodup := h.nodup c
  rw [hc, List.nodup_cons] at hnodup
  have hsub : ∀ c', ∀ x ∈ Function.update claims c left c', x ≠ a ∧ x ∈ claims c' := by
    intro c' x hx
    by_cases hcc : c' = c
    · subst hcc
      rw [Function.update_self] at hx
      refine ⟨?_, by rw [hc]; exact List.mem_cons_of_mem _ hx⟩
      rintro rfl
      exact hnodup.1 hx
    · rw [Function.update_of_ne hcc] at hx
      refine ⟨?_, hx⟩
      rintro rfl
      have := (h.cpu c' x).mpr hx
      rw [hown] at this
      cases this
      exact hcc rfl
  refine ⟨fun c' x => ?_, fun r x => ?_, fun x hx => ?_, fun c' x hx => ?_, fun c' => ?_⟩
  · constructor
    · intro hx
      by_cases hxa : x = a
      · rw [hxa, Function.update_self] at hx
        cases hx
      rw [Function.update_of_ne hxa, h.cpu] at hx
      by_cases hcc : c' = c
      · subst hcc
        rw [hc] at hx
        rw [Function.update_self]
        exact (List.mem_cons.mp hx).resolve_left hxa
      · rwa [Function.update_of_ne hcc]
    · intro hx
      obtain ⟨h1, h2⟩ := hsub c' x hx
      rw [Function.update_of_ne h1, h.cpu]
      exact h2
  · rw [State.setState_state_iff s (by rw [hst]; decide) (by decide)]
    by_cases hxa : x = a
    · subst hxa
      simp only [Function.update_self, reduceCtorEq, false_iff]
      intro hr
      have := (h.recs r x).mpr hr
      rw [hown] at this
      cases this
    · rw [Function.update_of_ne hxa, h.recs]
      rfl
  · have hxa : x ≠ a := by
      rintro rfl
      exact hx (Function.update_self ..)
    rw [Function.update_of_ne hxa] at hx
    rw [State.setState_of_ne s hxa]
    exact h.aux x hx
  · exact h.zero c' x (hsub c' x hx).2
  · by_cases hcc : c' = c
    · subst hcc
      rw [Function.update_self]
      exact hnodup.2
    · rw [Function.update_of_ne hcc]
      exact h.nodup c'

/-- The granules of a CPU become those of a new REC. -/
theorem newRec (h : AuxOwned s claims own) {c : ι} {rdAddr recAddr : Word} {s0 : State} {r : Rec}
    (n : NewRec s rdAddr recAddr [] s0) (hr : r.gAux = claims c) :
    AuxOwned (s0.setRec recAddr r) (Function.update claims c [])
      fun a => if own a = some (.inl c) then some (.inr recAddr) else own a := by
  have hnew : ∀ a, own a ≠ some (.inr recAddr) := by
    intro a ha
    rw [h.recs, n.fresh] at ha
    exact absurd ha.1 (by decide)
  refine ⟨fun c' x => ?_, fun r' x => ?_, fun x hx => ?_, fun c' x hx => ?_, fun c' => ?_⟩
  · by_cases hx : own x = some (.inl c)
    · by_cases hcc : c' = c
      · simp [hx, hcc]
      · rw [if_pos hx, Function.update_of_ne hcc, ← h.cpu, hx]
        simp [Ne.symm hcc]
    · rw [if_neg hx]
      by_cases hcc : c' = c
      · subst hcc
        simpa using hx
      · rw [Function.update_of_ne hcc, h.cpu]
  · show _ ↔ (s0.granule r').state = .REC ∧ x ∈ (Function.update s0.recs recAddr r r').gAux
    rw [n.isRec]
    by_cases hrr : r' = recAddr
    · subst hrr
      simp only [or_true, true_and, Function.update_self, hr, ← h.cpu]
      by_cases hx : own x = some (.inl c)
      · simp [hx]
      · rw [if_neg hx]
        exact iff_of_false (hnew x) hx
    · rw [Function.update_of_ne hrr, n.recs, Function.update_of_ne hrr]
      by_cases hx : own x = some (.inl c)
      · rw [if_pos hx]
        refine iff_of_false (by simpa using Ne.symm hrr) ?_
        rintro ⟨h1, h2⟩
        have := (h.recs r' x).mpr ⟨h1.resolve_right hrr, h2⟩
        rw [hx] at this
        cases this
      · rw [if_neg hx, h.recs]
        simp [hrr]
  · have hx' : own x ≠ none := by
      intro hc
      simp [hc] at hx
    have hst := h.aux x hx'
    have h1 : x ≠ rdAddr := by
      rintro rfl
      rw [n.isRd] at hst
      cases hst
    show (s0.granule x).state = _
    rw [n.granule_of_state (by rw [hst]; decide) h1, hst]
  · show s0.rtt x = _
    rw [n.rtt]
    by_cases hcc : c' = c
    · rw [hcc, Function.update_self] at hx
      cases hx
    · rw [Function.update_of_ne hcc] at hx
      exact h.zero c' x hx
  · by_cases hcc : c' = c
    · rw [hcc, Function.update_self]
      exact List.nodup_nil
    · rw [Function.update_of_ne hcc]
      exact h.nodup c'

/-- The granules of a REC go with it. -/
theorem freedRec {F : Tables} (hw : Wf s F) (h : AuxOwned s claims own) {recAddr : Word}
    (f : FreedRec s recAddr s') :
    AuxOwned s' claims fun a => if own a = some (.inr recAddr) then none else own a := by
  have hkept : ∀ {x}, own x ≠ none → own x ≠ some (.inr recAddr) →
      x ≠ recAddr ∧ x ∉ (s.recs recAddr).gAux := by
    intro x h1 h2
    constructor
    · rintro rfl
      have := h.aux x h1
      rw [f.wasRec] at this
      cases this
    · intro hx
      exact h2 ((h.recs recAddr x).mpr ⟨f.wasRec, hx⟩)
  refine ⟨fun c' x => ?_, fun r' x => ?_, fun x hx => ?_, fun c' x hx => ?_, h.nodup⟩
  · rw [← h.cpu]
    by_cases hx : own x = some (.inr recAddr)
    · simp [hx]
    · rw [if_neg hx]
  · rw [f.isRec hw]
    by_cases hrr : r' = recAddr
    · subst hrr
      simp
    · by_cases hx : own x = some (.inr recAddr)
      · rw [if_pos hx]
        refine iff_of_false (by simp) ?_
        rintro ⟨⟨h1, -⟩, h2⟩
        rw [f.recs_of_rec h1 hrr] at h2
        have := (h.recs r' x).mpr ⟨h1, h2⟩
        rw [hx] at this
        cases this
        exact hrr rfl
      · rw [if_neg hx, h.recs]
        constructor
        · rintro ⟨h1, h2⟩
          exact ⟨⟨h1, hrr⟩, by rwa [f.recs_of_rec h1 hrr]⟩
        · rintro ⟨⟨h1, -⟩, h2⟩
          rw [f.recs_of_rec h1 hrr] at h2
          exact ⟨h1, h2⟩
  · by_cases hx' : own x = some (.inr recAddr)
    · simp [hx'] at hx
    rw [if_neg hx'] at hx
    have hst := h.aux x hx
    obtain ⟨h1, h2⟩ := hkept hx hx'
    have h3 : x ≠ (s.recs recAddr).gRd := by
      rintro rfl
      rw [hw.recRd recAddr f.wasRec] at hst
      cases hst
    rw [f.granule x h1 h3 h2, hst]
  · have hown := (h.cpu c' x).mpr hx
    obtain ⟨h1, h2⟩ := hkept (by rw [hown]; simp) (by rw [hown]; simp)
    rw [(f.other x h1 h2).2.2.1]
    exact h.zero c' x hx

end AuxOwned

/-- The references on realms and RECs are those that the RECs and the CPUs hold. -/
structure RefsHeld (s : State) (inside releases : ι → Option Word) : Prop where
  entered : ∀ c r, inside c = some r → s.granule r = ⟨.REC, 1⟩
  alone : ∀ c c' r, inside c = some r → inside c' = some r → c = c'
  outside : ∀ r, (s.granule r).state = .REC → (∀ c, inside c ≠ some r) →
    (s.granule r).refcount = 0
  releasing : ∀ c rd, releases c = some rd → (s.granule rd).state = .RD
  realm : ∀ rd, (s.granule rd).state = .RD → ∃ (R : Finset Word) (D : Finset ι),
    (∀ r, r ∈ R ↔ (s.granule r).state = .REC ∧ (s.recs r).gRd = rd) ∧
    (∀ c, c ∈ D ↔ releases c = some rd) ∧ (s.granule rd).refcount = R.card + D.card

namespace RefsHeld

variable {s s' : State} {F : Tables} {inside releases : ι → Option Word}

/-- RECs stay with their counts and realms, and so do realms that are referenced. -/
theorem congr (h : RefsHeld s inside releases) (hw : Wf s F)
    (hrec : ∀ g, (s'.granule g).state = .REC ↔ (s.granule g).state = .REC)
    (hgran : ∀ g, (s.granule g).state = .REC → s'.granule g = s.granule g)
    (hgRd : ∀ g, (s.granule g).state = .REC → (s'.recs g).gRd = (s.recs g).gRd)
    (hnew : ∀ g, (s'.granule g).state = .RD →
      ((s.granule g).state = .RD ∧ (s'.granule g).refcount = (s.granule g).refcount) ∨
      ((s.granule g).state ≠ .RD ∧ (s'.granule g).refcount = 0))
    (hgone : ∀ g, (s.granule g).state = .RD →
      (s'.granule g).state = .RD ∨ (s.granule g).refcount = 0) :
    RefsHeld s' inside releases := by
  have hmem : ∀ rd r, (s'.granule r).state = .REC ∧ (s'.recs r).gRd = rd ↔
      (s.granule r).state = .REC ∧ (s.recs r).gRd = rd := by
    intro rd r
    rw [hrec]
    refine and_congr_right fun hr => ?_
    rw [hgRd r hr]
  refine ⟨fun c r hc => ?_, h.alone, fun r hr hc => ?_, fun c rd hc => ?_, fun rd hrd => ?_⟩
  · have hr := h.entered c r hc
    rw [hgran r (by rw [hr]), hr]
  · have hr' := (hrec r).mp hr
    rw [hgran r hr']
    exact h.outside r hr' hc
  · have hrd := h.releasing c rd hc
    obtain ⟨R, D, -, hD, hcount⟩ := h.realm rd hrd
    refine (hgone rd hrd).resolve_right fun h0 => ?_
    have hpos := Finset.card_pos.mpr ⟨c, (hD c).mpr hc⟩
    omega
  · obtain ⟨hold, hcount⟩ | ⟨hold, hcount⟩ := hnew rd hrd
    · obtain ⟨R, D, hR, hD, hsum⟩ := h.realm rd hold
      exact ⟨R, D, fun r => (hR r).trans (hmem rd r).symm, hD, hcount.trans hsum⟩
    · refine ⟨∅, ∅, fun r => iff_of_false (Finset.notMem_empty r) ?_,
        fun c => iff_of_false (Finset.notMem_empty c) ?_, by simpa using hcount⟩
      · rw [hmem]
        rintro ⟨hr, rfl⟩
        exact hold (hw.recRd r hr)
      · intro hc
        exact hold (h.releasing c rd hc)

theorem steady (h : RefsHeld s inside releases) (hw : Wf s F) (hs : Steady s s') :
    RefsHeld s' inside releases :=
  h.congr hw hs.isRec hs.recGranule (fun g hg => by rw [hs.recs g hg]) hs.rdNew hs.rdGone

theorem plainChange (h : RefsHeld s inside releases) (hw : Wf s F) {g : Word}
    (hp : PlainChange s s' g) : RefsHeld s' inside releases := by
  have hne : ∀ {x st}, (s.granule x).state = st → st.plain = false → x ≠ g :=
    fun hx hst => PlainChange.ne_of_state hst hx hp.was
  refine h.congr hw (hp.state_iff rfl) (fun x hx => hp.granule x (hne hx rfl))
    (fun x hx => by rw [hp.recs x (hne hx rfl)]) (fun x hx => ?_)
    fun x hx => .inl ((hp.state_iff rfl x).mpr hx)
  have hx' := (hp.state_iff rfl x).mp hx
  exact .inl ⟨hx', by rw [hp.granule x (hne hx' rfl)]⟩

variable [DecidableEq ι]

/-- A CPU takes the reference on a REC. -/
theorem enter (h : RefsHeld s inside releases) {c : ι} {r : Word} (hc : inside c = none)
    (hr : s.granule r = ⟨.REC, 0⟩) :
    RefsHeld (s.setRefcount r 1) (Function.update inside c (some r)) releases := by
  have hnone : ∀ c', inside c' ≠ some r := by
    intro c' hc'
    rw [h.entered c' r hc'] at hr
    cases hr
  have hin : ∀ c' x, Function.update inside c (some r) c' = some x →
      (c' = c ∧ x = r) ∨ (c' ≠ c ∧ inside c' = some x ∧ x ≠ r) := by
    intro c' x hx
    by_cases hcc : c' = c
    · subst hcc
      rw [Function.update_self] at hx
      exact .inl ⟨rfl, by simpa using hx.symm⟩
    · rw [Function.update_of_ne hcc] at hx
      refine .inr ⟨hcc, hx, ?_⟩
      rintro rfl
      exact hnone c' hx
  have hst := s.setRefcount_state r 1
  refine ⟨fun c' x hx => ?_, fun c1 c2 x h1 h2 => ?_, fun x hx hx' => ?_, fun c' rd hc' => ?_,
    fun rd hrd => ?_⟩
  · obtain ⟨-, rfl⟩ | ⟨-, hx, hne⟩ := hin c' x hx
    · rw [State.setRefcount_same, hr]
    · rw [State.setRefcount_of_ne s hne]
      exact h.entered c' x hx
  · obtain ⟨rfl, rfl⟩ | ⟨-, h1, hne1⟩ := hin c1 x h1
    · obtain ⟨rfl, -⟩ | ⟨-, -, hne2⟩ := hin c2 x h2
      · rfl
      · exact absurd rfl hne2
    · obtain ⟨-, rfl⟩ | ⟨-, h2, -⟩ := hin c2 x h2
      · exact absurd rfl hne1
      · exact h.alone c1 c2 x h1 h2
  · have hne : x ≠ r := by
      rintro rfl
      exact hx' c (Function.update_self ..)
    rw [State.setRefcount_of_ne s hne] at hx ⊢
    refine h.outside x hx fun c' hc' => hx' c' ?_
    have hcc : c' ≠ c := by
      rintro rfl
      rw [hc] at hc'
      cases hc'
    rwa [Function.update_of_ne hcc]
  · rw [hst]
    exact h.releasing c' rd hc'
  · rw [hst] at hrd
    have hne : rd ≠ r := by
      rintro rfl
      rw [hr] at hrd
      cases hrd
    obtain ⟨R, D, hR, hD, hcount⟩ := h.realm rd hrd
    exact ⟨R, D,
      fun x => by rw [hR, hst]; rfl, hD, by rw [State.setRefcount_of_ne s hne, hcount]⟩

/-- A CPU drops the reference on its REC. -/
theorem leave (h : RefsHeld s inside releases) {c : ι} {r : Word} (hc : inside c = some r) :
    RefsHeld (s.setRefcount r 0) (Function.update inside c none) releases := by
  have hr := h.entered c r hc
  have hin : ∀ c' x, Function.update inside c none c' = some x →
      inside c' = some x ∧ x ≠ r := by
    intro c' x hx
    have hcc : c' ≠ c := by
      rintro rfl
      rw [Function.update_self] at hx
      cases hx
    rw [Function.update_of_ne hcc] at hx
    refine ⟨hx, ?_⟩
    rintro rfl
    exact hcc (h.alone c' c x hx hc)
  have hst := s.setRefcount_state r 0
  refine ⟨fun c' x hx => ?_, fun c1 c2 x h1 h2 => h.alone c1 c2 x (hin c1 x h1).1 (hin c2 x h2).1,
    fun x hx hx' => ?_, fun c' rd hc' => ?_, fun rd hrd => ?_⟩
  · obtain ⟨hx, hne⟩ := hin c' x hx
    rw [State.setRefcount_of_ne s hne]
    exact h.entered c' x hx
  · by_cases hxr : x = r
    · rw [hxr, State.setRefcount_same]
    · rw [State.setRefcount_of_ne s hxr] at hx ⊢
      refine h.outside x hx fun c' hc' => hx' c' ?_
      have hcc : c' ≠ c := by
        rintro rfl
        rw [hc] at hc'
        exact hxr (by simpa using hc'.symm)
      rwa [Function.update_of_ne hcc]
  · rw [hst]
    exact h.releasing c' rd hc'
  · rw [hst] at hrd
    have hne : rd ≠ r := by
      rintro rfl
      rw [hr] at hrd
      cases hrd
    obtain ⟨R, D, hR, hD, hcount⟩ := h.realm rd hrd
    exact ⟨R, D,
      fun x => by rw [hR, hst]; rfl, hD, by rw [State.setRefcount_of_ne s hne, hcount]⟩

omit [DecidableEq ι] in
/-- The count of a realm covers its RECs, also when one CPU drops a reference. -/
theorem card_le_pred (h : RefsHeld s inside releases) {c : ι} {rd : Word}
    (hc : releases c = some rd) {R : Finset Word}
    (hR : ∀ r, r ∈ R ↔ (s.granule r).state = .REC ∧ (s.recs r).gRd = rd) :
    R.card ≤ (s.granule rd).refcount - 1 ∧ 1 ≤ (s.granule rd).refcount := by
  obtain ⟨R', D, hR', hD, hcount⟩ := h.realm rd (h.releasing c rd hc)
  have hpos := Finset.card_pos.mpr ⟨c, (hD c).mpr hc⟩
  have hsame : R = R' := by
    ext r
    rw [hR, hR']
  rw [hsame]
  omega

/-- A CPU drops the reference of the REC that it has freed. -/
theorem release (h : RefsHeld s inside releases) {c : ι} {rd : Word} (hc : releases c = some rd) :
    RefsHeld (s.setRefcount rd ((s.granule rd).refcount - 1)) inside
      (Function.update releases c none) := by
  have hrd := h.releasing c rd hc
  have hst := s.setRefcount_state rd ((s.granule rd).refcount - 1)
  have hne : ∀ {r}, (s.granule r).state = .REC → r ≠ rd := by
    rintro r hr rfl
    rw [hrd] at hr
    cases hr
  have hrel : ∀ c' x, Function.update releases c none c' = some x →
      c' ≠ c ∧ releases c' = some x := by
    intro c' x hx
    have hcc : c' ≠ c := by
      rintro rfl
      rw [Function.update_self] at hx
      cases hx
    exact ⟨hcc, by rwa [Function.update_of_ne hcc] at hx⟩
  refine ⟨fun c' r hc' => ?_, h.alone, fun r hr hr' => ?_, fun c' x hc' => ?_, fun x hx => ?_⟩
  · have hr := h.entered c' r hc'
    rw [State.setRefcount_of_ne s (hne (by rw [hr])), hr]
  · rw [hst] at hr
    rw [State.setRefcount_of_ne s (hne hr)]
    exact h.outside r hr hr'
  · rw [hst]
    exact h.releasing c' x (hrel c' x hc').2
  · rw [hst] at hx
    obtain ⟨R, D, hR, hD, hcount⟩ := h.realm x hx
    have hmem : ∀ r, r ∈ R ↔
        ((s.setRefcount rd ((s.granule rd).refcount - 1)).granule r).state =
        .REC ∧ (s.recs r).gRd = x := by
      intro r
      rw [hR, hst]
    by_cases hxr : x = rd
    · subst hxr
      refine ⟨R, D.erase c, hmem, fun c' => ?_, ?_⟩
      · rw [Finset.mem_erase, hD]
        constructor
        · rintro ⟨h1, h2⟩
          rwa [Function.update_of_ne h1]
        · exact hrel c' x
      · have hcD := (hD c).mpr hc
        rw [State.setRefcount_same, Finset.card_erase_of_mem hcD]
        have hpos := Finset.card_pos.mpr ⟨c, hcD⟩
        show (s.granule x).refcount - 1 = _
        omega
    · refine ⟨R, D, hmem, fun c' => ?_, by rw [State.setRefcount_of_ne s hxr, hcount]⟩
      rw [hD]
      by_cases hcc : c' = c
      · subst hcc
        rw [Function.update_self, hc]
        simp [Ne.symm hxr]
      · rw [Function.update_of_ne hcc]

omit [DecidableEq ι] in
/-- A new REC takes a reference on its realm. -/
theorem newRec (h : RefsHeld s inside releases) {rdAddr recAddr : Word} {s0 : State} {r : Rec}
    (n : NewRec s rdAddr recAddr [] s0) (hr : r.gRd = rdAddr) :
    RefsHeld (s0.setRec recAddr r) inside releases := by
  have hrec : ∀ {x}, (s.granule x).state = .REC → s0.granule x = s.granule x := by
    intro x hx
    refine n.granule_of_state (by rw [hx]; decide) ?_
    rintro rfl
    rw [n.isRd] at hx
    cases hx
  refine ⟨fun c x hc => ?_, h.alone, fun x hx hc => ?_, fun c rd hc => ?_, fun rd hrd => ?_⟩
  · have hx := h.entered c x hc
    exact (hrec (by rw [hx])).trans hx
  · show (s0.granule x).refcount = 0
    obtain hx | rfl := (n.isRec x).mp hx
    · rw [hrec hx]
      exact h.outside x hx hc
    · rw [n.recGranule]
  · exact (n.state_iff (by decide) (by decide) (by decide) rd).mpr (h.releasing c rd hc)
  · have hold := (n.state_iff (by decide) (by decide) (by decide) rd).mp hrd
    obtain ⟨R, D, hR, hD, hcount⟩ := h.realm rd hold
    have hnew : recAddr ∉ R := by
      rw [hR, n.fresh]
      exact fun hc => absurd hc.1 (by decide)
    have hrecs : ∀ x, x ≠ recAddr → (s0.setRec recAddr r).recs x = s.recs x := by
      intro x hx
      refine (Function.update_of_ne hx _ _).trans ?_
      rw [n.recs, Function.update_of_ne hx]
    have hself : (s0.setRec recAddr r).recs recAddr = r := Function.update_self ..
    by_cases hgr : rd = rdAddr
    · subst hgr
      refine ⟨insert recAddr R, D, fun x => ?_, hD, ?_⟩
      · show _ ↔ (s0.granule x).state = .REC ∧ _
        rw [Finset.mem_insert, hR, n.isRec]
        by_cases hx : x = recAddr
        · subst hx
          simp [hself, hr]
        · rw [hrecs x hx]
          simp [hx]
      · show (s0.granule rd).refcount = _
        rw [Finset.card_insert_of_notMem hnew, n.rdGranule]
        show (s.granule rd).refcount + 1 = _
        omega
    · refine ⟨R, D, fun x => ?_, hD, ?_⟩
      · show _ ↔ (s0.granule x).state = .REC ∧ _
        rw [hR, n.isRec]
        by_cases hx : x = recAddr
        · subst hx
          rw [hself, hr]
          refine iff_of_false ?_ fun hc => hgr hc.2.symm
          rw [n.fresh]
          exact fun hc => absurd hc.1 (by decide)
        · rw [hrecs x hx]
          simp [hx]
      · show (s0.granule rd).refcount = _
        rw [n.granule_of_state (by rw [hold]; decide) hgr, hcount]

/-- A CPU frees a REC and keeps its reference on the realm. -/
theorem freedRec (hw : Wf s F) (h : RefsHeld s inside releases) {c : ι} {recAddr : Word}
    (hc : releases c = none) (f : FreedRec s recAddr s') :
    RefsHeld (s'.setRefcount (s.recs recAddr).gRd (s.granule (s.recs recAddr).gRd).refcount) inside
      (Function.update releases c (some (s.recs recAddr).gRd)) := by
  set rd := (s.recs recAddr).gRd with hrd
  set s2 := s'.setRefcount rd (s.granule rd).refcount with hs2
  have hst : ∀ g, (s2.granule g).state = (s'.granule g).state :=
    s'.setRefcount_state rd (s.granule rd).refcount
  have hisRd := hw.recRd recAddr f.wasRec
  have hrdSame : s2.granule rd = s.granule rd := by
    rw [hs2, State.setRefcount_same, f.rdGranule, ← hrd]
    show (⟨.RD, _⟩ : Granule) = _
    rw [← show (s.granule rd).state = .RD from hisRd]
  have hkept : ∀ {x}, (s.granule x).state = .REC ∨
      (s.granule x).state = .RD → x ≠ recAddr →
      s2.granule x = s.granule x := by
    intro x hx hne
    by_cases hxr : x = rd
    · rw [hxr, hrdSame]
    · rw [hs2, State.setRefcount_of_ne s' hxr]
      refine f.granule x hne hxr fun ha => ?_
      rw [f.wasAux x ha] at hx
      exact hx.elim (by decide) (by decide)
  have hoff : ∀ c', inside c' ≠ some recAddr := by
    intro c' hc'
    have := h.entered c' recAddr hc'
    have hidle := f.idle
    rw [this] at hidle
    cases hidle
  have hrec : ∀ x, (s2.granule x).state = .REC ↔
      (s.granule x).state = .REC ∧ x ≠ recAddr := by
    intro x
    rw [hst, f.isRec hw]
  have hmem : ∀ x r, (s2.granule r).state = .REC ∧ (s2.recs r).gRd = x ↔
      ((s.granule r).state = .REC ∧ (s.recs r).gRd = x) ∧ r ≠ recAddr := by
    intro x r
    rw [hrec]
    constructor
    · rintro ⟨⟨h1, h2⟩, h3⟩
      exact ⟨⟨h1, by rwa [← f.recs_of_rec h1 h2]⟩, h2⟩
    · rintro ⟨⟨h1, h3⟩, h2⟩
      exact ⟨⟨h1, h2⟩, by rw [← h3, ← f.recs_of_rec h1 h2]; rfl⟩
  refine ⟨fun c' r hc' => ?_, h.alone, fun r hr hc' => ?_, fun c' x hc' => ?_, fun x hx => ?_⟩
  · have hr := h.entered c' r hc'
    rw [hkept (.inl (by rw [hr])) (by rintro rfl; exact hoff c' hc'), hr]
  · obtain ⟨h1, h2⟩ := (hrec r).mp hr
    rw [hkept (.inl h1) h2]
    exact h.outside r h1 hc'
  · have hx : (s.granule x).state = .RD := by
      by_cases hcc : c' = c
      · subst hcc
        rw [Function.update_self] at hc'
        cases hc'
        exact hisRd
      · rw [Function.update_of_ne hcc] at hc'
        exact h.releasing c' x hc'
    rw [hst]
    exact (f.state_iff hw (by decide) (by decide) (by decide) x).mpr hx
  · have hold : (s.granule x).state = .RD := by
      rw [hst] at hx
      exact (f.state_iff hw (by decide) (by decide) (by decide) x).mp hx
    obtain ⟨R, D, hR, hD, hcount⟩ := h.realm x hold
    have hxrec : x ≠ recAddr := (f.not_freed (by decide) (by decide) hold).1
    rw [hkept (.inr hold) hxrec]
    have hcD : c ∉ D := by
      rw [hD, hc]
      simp
    by_cases hxr : x = rd
    · have hin : recAddr ∈ R := (hR recAddr).mpr ⟨f.wasRec, hxr.symm⟩
      refine ⟨R.erase recAddr, insert c D, fun r => ?_, fun c' => ?_, ?_⟩
      · rw [hmem, Finset.mem_erase, hR, and_comm]
      · rw [Finset.mem_insert, hD]
        by_cases hcc : c' = c
        · subst hcc
          simp [hxr]
        · simp [hcc]
      · rw [Finset.card_erase_of_mem hin, Finset.card_insert_of_notMem hcD]
        have hpos := Finset.card_pos.mpr ⟨recAddr, hin⟩
        omega
    · refine ⟨R, D, fun r => ?_, fun c' => ?_, hcount⟩
      · rw [hmem, hR]
        constructor
        · intro hr
          refine ⟨hr, ?_⟩
          rintro rfl
          exact hxr hr.2.symm
        · exact And.left
      · rw [hD]
        by_cases hcc : c' = c
        · subst hcc
          rw [Function.update_self, hc]
          simp [Ne.symm hxr]
        · rw [Function.update_of_ne hcc]

end RefsHeld

end

end RmmCaec
