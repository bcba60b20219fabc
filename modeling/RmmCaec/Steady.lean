import RmmCaec.RecordSteps

/-!
# Steps that leave references alone

References on RDs and RECs change only in the handlers for RECs. Every other handler
keeps all RECs with their auxiliary granules, and a realm that it makes or destroys
has no references.
-/
namespace RmmCaec
open RadixForest Outcome Runs

/-- The granule states that the handlers for RECs are about. -/
def GranuleState.held : GranuleState → Bool
  | .RD | .REC | .REC_AUX => true
  | _ => false

/-- RECs and auxiliary granules stay; realms without references may come and go. -/
structure Steady (s s' : State) : Prop where
  isRec : ∀ g, (s'.granule g).state = .REC ↔ (s.granule g).state = .REC
  isAux : ∀ g, (s'.granule g).state = .REC_AUX ↔ (s.granule g).state = .REC_AUX
  recGranule : ∀ g, (s.granule g).state = .REC → s'.granule g = s.granule g
  recs : ∀ g, (s.granule g).state = .REC →
    s'.recs g = { s.recs g with setRipas := (s'.recs g).setRipas }
  words : ∀ g, (s.granule g).state = .REC_AUX → s'.rtt g = s.rtt g
  rdNew : ∀ g, (s'.granule g).state = .RD →
    ((s.granule g).state = .RD ∧ (s'.granule g).refcount = (s.granule g).refcount) ∨
    ((s.granule g).state ≠ .RD ∧ (s'.granule g).refcount = 0)
  rdGone : ∀ g, (s.granule g).state = .RD →
    (s'.granule g).state = .RD ∨ (s.granule g).refcount = 0

namespace Steady

variable {s s1 s' : State} {F F' : Tables}

/-- No granule enters or leaves the states that are held. -/
theorem of_kept (hkeep : ∀ g, (s.granule g).state.held = true → s'.granule g = s.granule g)
    (hnew : ∀ g, (s'.granule g).state.held = true →
      (s'.granule g).state = (s.granule g).state)
    (hrecs : ∀ g, (s.granule g).state = .REC →
      s'.recs g = { s.recs g with setRipas := (s'.recs g).setRipas })
    (hwords : ∀ g, (s.granule g).state = .REC_AUX → s'.rtt g = s.rtt g) : Steady s s' := by
  have hiff : ∀ {st : GranuleState}, st.held = true → ∀ g,
      (s'.granule g).state = st ↔ (s.granule g).state = st := by
    intro st hst g
    constructor
    · intro hg
      rw [← hnew g (by rw [hg, hst]), hg]
    · intro hg
      rw [hkeep g (by rw [hg, hst]), hg]
  refine ⟨hiff rfl, hiff rfl, fun g hg => hkeep g (by rw [hg]; rfl), hrecs, hwords,
    fun g hg => ?_,
    fun g hg => .inl ((hiff rfl g).mpr hg)⟩
  have hold := (hiff rfl g).mp hg
  exact .inl ⟨hold, by rw [hkeep g (by rw [hold]; rfl)]⟩

/-- Granules, RECs and words are the same. -/
theorem of_same (hg : s'.granule = s.granule) (hr : s'.recs = s.recs) (hw : s'.rtt = s.rtt) :
    Steady s s' :=
  of_kept (fun _ _ => by rw [hg]) (fun _ _ => by rw [hg]) (fun _ _ => by rw [hr])
    fun _ _ => by rw [hw]

theorem refl (s : State) : Steady s s := of_same rfl rfl rfl

theorem trans (h : Steady s s1) (h' : Steady s1 s') : Steady s s' := by
  refine ⟨fun g => (h'.isRec g).trans (h.isRec g), fun g => (h'.isAux g).trans (h.isAux g),
    fun g hg => ?_, fun g hg => ?_, fun g hg => ?_, fun g hg => ?_, fun g hg => ?_⟩
  · rw [h'.recGranule g ((h.isRec g).mpr hg), h.recGranule g hg]
  · rw [h'.recs g ((h.isRec g).mpr hg), h.recs g hg]
  · rw [h'.words g ((h.isAux g).mpr hg), h.words g hg]
  · obtain ⟨h1, h2⟩ | ⟨h1, h2⟩ := h'.rdNew g hg
    · obtain ⟨h3, h4⟩ | ⟨h3, h4⟩ := h.rdNew g h1
      · exact .inl ⟨h3, h2.trans h4⟩
      · exact .inr ⟨h3, h2.trans h4⟩
    · by_cases h3 : (s.granule g).state = .RD
      · exact .inl ⟨h3, by rw [h2, (h.rdGone g h3).resolve_left h1]⟩
      · exact .inr ⟨h3, h2⟩
  · obtain h1 | h1 := h.rdGone g hg
    · obtain h2 | h2 := h'.rdGone g h1
      · exact .inl h2
      · obtain ⟨-, h4⟩ | ⟨h3, -⟩ := h.rdNew g h1
        · exact .inr (h4 ▸ h2)
        · exact absurd hg h3
    · exact .inr h1

/-- The RIPAS request of a REC changes. -/
theorem setRipas (s : State) (recAddr : Word) (request : SetRipas) :
    Steady s (s.setRec recAddr { s.recs recAddr with setRipas := request }) := by
  refine of_kept (fun _ _ => rfl) (fun _ _ => rfl) (fun g _ => ?_) fun _ _ => rfl
  by_cases hg : g = recAddr
  · subst hg
    simp [State.setRec]
  · simp [State.setRec, hg]

/-- Only the tables and the records outside RECs change. -/
theorem of_states (hstate : ∀ g, (s'.granule g).state = (s.granule g).state)
    (hgran : ∀ g, (s.granule g).state ≠ .RTT → s'.granule g = s.granule g)
    (hrecs : ∀ g, (s.granule g).state = .REC →
      s'.recs g = { s.recs g with setRipas := (s'.recs g).setRipas })
    (hwords : ∀ g, (s.granule g).state ≠ .RTT → s'.rtt g = s.rtt g) : Steady s s' :=
  of_kept (fun g hg => hgran g (by rintro hc; rw [hc] at hg; cases hg)) (fun g _ => hstate g) hrecs
    fun g hg => hwords g (by rw [hg]; decide)

theorem of_sameAll (h : SameAll s s') : Steady s s' :=
  of_states h.state h.granule (fun g _ => by rw [h.recs]) h.words

theorem of_cleared {P : List (Word × Word)} (h : Cleared s F P s' F') : Steady s s' :=
  of_states h.state h.granule (fun g _ => by rw [h.recs]) h.words

/-- A granule moves between states that are not held. -/
theorem of_plainChange {g : Word} (h : PlainChange s s' g)
    (hwas : (s.granule g).state ≠ .REC_AUX) (his : (s'.granule g).state ≠ .REC_AUX) :
    Steady s s' := by
  have hplain : ∀ {st : GranuleState}, st.plain = true → st ≠ .REC_AUX →
      st.held = false := by
    intro st hp ha
    cases st with
    | REC_AUX => exact absurd rfl ha
    | RD | REC | RTT => cases hp
    | _ => rfl
  have hne : ∀ {x}, (s.granule x).state.held = true → x ≠ g := by
    rintro x hx rfl
    rw [hplain h.was hwas] at hx
    cases hx
  refine of_kept (fun x hx => h.granule x (hne hx)) (fun x hx => ?_) (fun x hx => ?_) fun x hx => ?_
  · have hx' : x ≠ g := by
      rintro rfl
      rw [hplain h.is his] at hx
      cases hx
    rw [h.granule x hx']
  · rw [h.recs x (hne (by rw [hx]; rfl))]
  · exact h.rtt x (hne (by rw [hx]; rfl))

theorem of_graft {t k : Word} {n m : Table} {i : ℕ} (h : Holds s F)
    (st : GraftStep s F t n i k m s' F') : Steady s s' := by
  have ht := (h.node st.leaf.table).1
  refine of_kept (fun g hg => ?_) (fun g hg => ?_) (fun g hg => ?_) fun g hg =>
    st.same.words g (by rw [hg]; decide) (by rw [hg]; decide)
  · refine st.granule g ?_ ?_ <;> rintro rfl
    · rw [ht] at hg
      cases hg
    · rw [st.fresh] at hg
      cases hg
  · have h1 : g ≠ t := by
      rintro rfl
      rw [st.tableState] at hg
      cases hg
    have h2 : g ≠ k := by
      rintro rfl
      rw [st.newState] at hg
      cases hg
    rw [st.granule g h1 h2]
  · rw [st.same.recs g hg]

theorem of_prune {t k : Word} {n m : Table} {i pages : ℕ} {new : Entry} (h : Holds s F)
    (st : PruneStep s F t n i k m new pages s' F') : Steady s s' := by
  have ht := (h.node st.table).1
  have hk := (h.node st.child).1
  refine of_kept (fun g hg => ?_) (fun g hg => ?_) (fun g hg => ?_) fun g hg =>
    st.same.words g (by rw [hg]; decide) (by rw [hg]; decide)
  · refine st.granule g ?_ ?_ <;> rintro rfl
    · rw [ht] at hg
      cases hg
    · rw [hk] at hg
      cases hg
  · have h1 : g ≠ t := by
      rintro rfl
      rw [st.tableState] at hg
      cases hg
    have h2 : g ≠ k := by
      rintro rfl
      rw [st.freed] at hg
      cases hg
    rw [st.granule g h1 h2]
  · rw [st.same.recs g hg]

theorem of_aptFreed {plat : Platform} {rdAddr aptAddr : Word}
    (h : AptFreed plat s F rdAddr aptAddr s' F') : Steady s s' := by
  have hne : ∀ {g}, (s.granule g).state.held = true → g ≠ aptAddr := by
    rintro g hg rfl
    rw [h.isApt] at hg
    cases hg
  refine of_kept (fun g hg => ?_) (fun g hg => ?_) (fun g hg => ?_) fun g hg => ?_
  · exact h.granule g (hne hg) (by rintro hc; rw [hc] at hg; cases hg)
  · refine h.state g ?_
    rintro rfl
    rw [h.freed] at hg
    cases hg
  · rw [h.recs g (hne (by rw [hg]; rfl))]
  · exact h.words g (hne (by rw [hg]; rfl)) (by rw [hg]; decide)

/-- A DELEGATED granule becomes a page. -/
theorem of_assigned {plat : Platform} {rdAddr dataAddr mapAddr : Word} {measured : Bool} {r : Ripas}
    {old : Entry} (h : Wf s F)
    (ha : Assigned plat s F rdAddr dataAddr mapAddr measured s' F' r old) : Steady s s' := by
  obtain ⟨t, n, i, st, -, -, -⟩ := ha.edit
  have hdel := ha.delegated
  have hpc := plainChange_setState h dataAddr .DATA (by rw [hdel]; rfl) rfl (by decide)
    (.inl (by rw [hdel]; rfl))
  exact (of_plainChange hpc (by rw [hdel]; decide) (by simp [State.setState])).trans
    (of_sameAll (st.sameAll ha.claimWf.holds))

/-- A page is destroyed. -/
theorem of_pageDestroyed {rdAddr mapAddr : Word} (h : Wf s F)
    (hp : PageDestroyed s F rdAddr mapAddr s' F') : Steady s s' := by
  obtain ⟨t, n, i, r, dataAddr, s1, -, -, -, st, hdata, -, rfl⟩ := hp
  have hpc := plainChange_release (st.wf h) dataAddr (by rw [hdata]; rfl) (by rw [hdata]; rfl)
  exact (of_sameAll (st.sameAll h.holds)).trans
    (of_plainChange hpc (by rw [hdata]; decide) (by simp [State.release]))

/-- A realm is made. -/
theorem of_planted {rdAddr : Word} {ctx : S2ttContext} (p : Planted s rdAddr ctx s') :
    Steady s s' := by
  have hfresh : ∀ {g}, (s.granule g).state ≠ .DELEGATED → g ≠ rdAddr ∧
      g ∉ rootTables ctx := by
    intro g hg
    refine ⟨?_, fun hr => hg (p.fresh g (.inr hr))⟩
    rintro rfl
    exact hg (p.fresh g (.inl rfl))
  have hkeep : ∀ g, (s.granule g).state ≠ .DELEGATED → s'.granule g = s.granule g :=
    fun g hg => p.granule g (hfresh hg).1 (hfresh hg).2
  refine ⟨p.state_iff (by decide) (by decide) (by decide),
    p.state_iff (by decide) (by decide) (by decide),
    fun g hg => hkeep g (by rw [hg]; decide), fun g _ => by rw [p.recs],
    fun g hg => p.rtt g (hfresh (by rw [hg]; decide)).2, fun g hg => ?_,
    fun g hg => .inl ((p.isRd g).mpr (.inl hg))⟩
  obtain hold | rfl := (p.isRd g).mp hg
  · exact .inl ⟨hold, by rw [hkeep g (by rw [hold]; decide)]⟩
  · exact .inr ⟨by rw [p.fresh g (.inl rfl)]; decide, by rw [p.rdGranule]⟩

/-- A realm is destroyed. -/
theorem of_felled {rdAddr : Word} (p : Felled s rdAddr s') : Steady s s' := by
  have hkeep : ∀ {g}, (s.granule g).state ≠ .RD → (s.granule g).state ≠ .RTT →
      ¬ Felled.Gone s rdAddr g := by
    intro g h1 h2 hg
    exact (p.gone_state hg).elim h1 h2
  refine ⟨p.state_iff (by decide) (by decide) (by decide),
    p.state_iff (by decide) (by decide) (by decide), fun g hg => ?_, fun g hg => ?_,
    fun g hg => ?_, fun g hg => ?_, fun g hg => ?_⟩
  · exact (p.same (hkeep (by rw [hg]; decide) (by rw [hg]; decide))).1
  · rw [(p.same (hkeep (by rw [hg]; decide) (by rw [hg]; decide))).2.2.1]
  · exact (p.same (hkeep (by rw [hg]; decide) (by rw [hg]; decide))).2.2.2.1
  · obtain ⟨hold, hne⟩ := (p.isRd g).mp hg
    exact .inl ⟨hold, by rw [(p.same (mt (p.gone_of_rd hold).mp hne)).1]⟩
  · by_cases hg' : g = rdAddr
    · exact .inr (hg' ▸ p.unused)
    · exact .inl ((p.isRd g).mpr ⟨hg, hg'⟩)

end Steady

/-- What the handlers of RSI calls do. -/
theorem RsiDone.steady {plat : Platform} {s s1 : State} {F : Tables} {recAddr : Word}
    {res : RsiResult} {call : RsiCall} (hd : RsiDone plat s F recAddr s1 res call) :
    Steady s s1 := by
  cases call with
  | csmCreate x2 x3 =>
    rcases hd with ⟨rfl, -⟩ | ⟨ids, -, rfl, -⟩ | ⟨ids, id, -, rfl, -⟩ |
      ⟨-, -, -, -, ids, id, apt', idx, -, -, rfl⟩ <;>
      exact .of_same rfl rfl rfl
  | csmShare x1 x2 x3 =>
    rcases hd with ⟨rfl, -⟩ | ⟨-, -, _, _, _, _, -, -, -, -, rfl⟩ <;>
      exact .of_same rfl rfl rfl
  | csmReserve x1 x2 x3 =>
    rcases hd with rfl | ⟨-, -, -, _, _, _, _, -, -, -, -, -, -, -, -, -, rfl⟩ <;>
      exact .of_same rfl rfl rfl
  | csmAttach x1 =>
    rcases hd with ⟨rfl, -⟩ | ⟨-, _, _, _, -, -, -, -, hm⟩
    · exact .refl _
    · exact .of_sameAll hm.same
  | csmDetachAndFree x1 =>
    rcases hd with ⟨rfl, -⟩ | ⟨-, _, _, -, -, hcl⟩
    · exact .refl _
    · exact .of_cleared hcl
  | csmRevoke x1 =>
    rcases hd with ⟨rfl, -⟩ | ⟨-, _, _, _, -, -, hcl⟩
    · exact .refl _
    · exact .of_cleared hcl
  | csmDestroy x1 =>
    rcases hd with ⟨rfl, -⟩ | ⟨-, -, _, -, -, rfl⟩ <;>
      exact .of_same rfl rfl rfl
  | ipaStateSet x1 x2 x3 x4 =>
    have hs1 : s1 = (handleRsiIpaStateSet s recAddr x1 x2 x3 x4).1 := congrArg Prod.fst hd
    unfold handleRsiIpaStateSet at hs1
    simp only at hs1
    split at hs1
    · rw [hs1]
      exact .refl _
    · rw [hs1]
      exact .setRipas s recAddr _
  | systemOff =>
    cases hd
    exact .of_same rfl rfl rfl

/-- The handlers that run as one step. -/
def Act.whole : Act → Bool
  | .recCreate .. | .recDestroy .. | .recEnter .. => false
  | .dataCreate .. | .dataCreateUnknown .. | .dataDestroy .. => false
  | .rsi .. | .recExit .. => false
  | _ => true

theorem StepDone.steady {plat : Platform} {s s' : State} {F : Tables} {reply : Reply} {act : Act}
    (h : Wf s F) (hd : StepDone plat s F s' reply act) (hact : act.whole = true) :
    Steady s s' := by
  cases act with
  | granuleDelegate addr el3Ok | granuleUndelegate addr el3Ok =>
    obtain rfl | ⟨g, hpc, -, -⟩ := Redelegated.plainChange h hd
    · exact .refl _
    rcases hd with hd | ⟨g', h1, rfl⟩ | ⟨g', h1, rfl⟩
    · rw [hd]
      exact .refl _
    · refine .of_plainChange (plainChange_release h g' (by rw [h1]; rfl) (by rw [h1]; rfl))
        (by rw [h1]; decide) ?_
      simp [State.release]
    · refine .of_plainChange (plainChange_setState h g' .NS (by rw [h1]; rfl) rfl (by decide)
        (.inl (by rw [h1]; rfl))) (by rw [h1]; decide) ?_
      simp [State.setState]
  | realmCreate rdAddr paramsAddr nsRead =>
    obtain ⟨res, -, ⟨rfl, -⟩ | ⟨-, ctx, hp⟩⟩ := hd
    · exact .refl _
    · exact .of_planted hp
  | realmActivate rdAddr =>
    rcases hd with rfl | ⟨-, -, rfl⟩
    · exact .refl _
    · exact .of_same rfl rfl rfl
  | realmDestroy rdAddr =>
    obtain ⟨res, -, ⟨rfl, -⟩ | ⟨-, hp⟩⟩ := hd
    · exact .refl _
    · exact .of_felled hp
  | aptCreate rdAddr aptAddr =>
    obtain ⟨res, -, ⟨rfl, -⟩ | ⟨-, hdel, -, ⟨-, -, rfl⟩ | ⟨-, -, rfl⟩⟩⟩ := hd
    · exact .refl _
    all_goals
      have hst := lockable_state hdel
      have hpc := plainChange_setState h aptAddr .APT (by rw [hst]; rfl) rfl (by decide) (.inr rfl)
      have hsteady := Steady.of_plainChange hpc (by rw [hst]; decide) (by simp [State.setState])
      exact ⟨hsteady.isRec, hsteady.isAux, hsteady.recGranule, hsteady.recs, hsteady.words,
        hsteady.rdNew, hsteady.rdGone⟩
  | aptDestroy rdAddr aptAddr =>
    obtain ⟨res, -, ⟨rfl, -⟩ | ⟨-, F', hf⟩⟩ := hd
    · exact .refl _
    · exact .of_aptFreed hf
  | rttCreate rdAddr rttAddr mapAddr ulevel =>
    obtain ⟨res, -, ⟨rfl, -⟩ | ⟨-, t, n, i, m, F', hg⟩⟩ := hd
    · exact .refl _
    · exact .of_graft h.holds hg.graft
  | rttFold rdAddr mapAddr ulevel =>
    obtain ⟨res, -, ⟨rfl, -⟩ | ⟨-, t, n, i, k, m, new, pages, F', -, -, -, st, -⟩⟩ := hd
    · exact .refl _
    · exact .of_prune h.holds st
  | rttDestroy rdAddr mapAddr ulevel =>
    obtain rfl | ⟨t, n, i, k, m, new, pages, F', -, st, -⟩ := hd
    · exact .refl _
    · exact .of_prune h.holds st
  | rttMapUnprotected rdAddr mapAddr ulevel s2tte =>
    obtain ⟨F', ht⟩ := hd
    exact .of_sameAll ht.same
  | rttUnmapUnprotected rdAddr mapAddr ulevel =>
    obtain ⟨F', ht⟩ := hd
    exact .of_sameAll ht.same
  | rttInitRipas rdAddr base top =>
    obtain ⟨F', height, ht⟩ := hd
    exact .of_sameAll ht.same
  | rttSetRipas rdAddr recAddr base top =>
    obtain rfl | ⟨-, -, -, -, -, s1, F', height, ht, rfl | ⟨addr, -, rfl⟩⟩ := hd
    · exact .refl _
    · exact .of_sameAll ht.same
    · refine .of_states ht.same.state ht.same.granule (fun g _ => ?_) ht.same.words
      by_cases hg : g = recAddr
      · subst hg
        simp [State.setRec]
      · simp [State.setRec, hg, ht.same.recs]
  | _ => cases hact

end RmmCaec
