import RmmCaec.StepEffects

/-!
# Steps that leave the sharing records alone

Attachment tables, tags and region identifiers change only in the calls that are
about them. Every other step keeps them, whatever it does to the tables, and a
realm that appears in such a step has no attachment table yet.
-/
namespace RmmCaec

open RadixForest Outcome Runs

/-- The sharing records of two states agree; realms may appear and disappear. -/
structure Calm (s s' : State) : Prop where
  isApt : ∀ g, (s'.granule g).state = .APT ↔ (s.granule g).state = .APT
  apt : ∀ g, (s.granule g).state = .APT → s'.apt g = s.apt g
  tags : s'.tags = s.tags
  csmIds : s'.csmIds = s.csmIds
  rd : ∀ g, (s'.granule g).state = .RD →
    ((s.granule g).state = .RD ∧ (s'.rd g).aptPa = (s.rd g).aptPa ∧
      (s'.rd g).s2Ctx = (s.rd g).s2Ctx) ∨
    ((s.granule g).state = .DELEGATED ∧ (s'.rd g).aptPa = 0#64)

/-- Moving a granule between other states changes nothing about a given one. -/
theorem State.setState_state_iff (s : State) {g : Word} {x st : GranuleState}
    (h1 : (s.granule g).state ≠ x) (h2 : st ≠ x) (g' : Word) :
    ((s.setState g st).granule g').state = x ↔ (s.granule g').state = x := by
  by_cases hg : g' = g
  · subst hg
    rw [State.setState_self]
    exact iff_of_false h2 h1
  · rw [State.setState_of_ne s hg]

theorem State.setRefcount_state (s : State) (g : Word) (c : ℕ) (x : Word) :
    ((s.setRefcount g c).granule x).state = (s.granule x).state := by
  by_cases hx : x = g
  · subst hx
    rw [State.setRefcount_same]
  · rw [State.setRefcount_of_ne s hx]

namespace Calm

variable {s s1 s' : State}

theorem refl (s : State) : Calm s s :=
  ⟨fun _ => Iff.rfl, fun _ _ => rfl, rfl, rfl, fun _ h => .inl ⟨h, rfl, rfl⟩⟩

theorem of_sameAll (h : SameAll s s') : Calm s s' where
  isApt g := by rw [h.state]
  apt g _ := by rw [h.apt]
  tags := h.tags
  csmIds := h.csmIds
  rd g hg := .inl ⟨by rw [← h.state, hg], by rw [h.rd], by rw [h.rd]⟩

/-- The granules that hold attachment tables or realms are untouched. -/
theorem of_same {s s' : State} (hapt : ∀ g, (s'.granule g).state = .APT ↔
    (s.granule g).state = .APT)
    (hrd : ∀ g, (s'.granule g).state = .RD → (s.granule g).state = .RD)
    (hsame : SameRecords s s') : Calm s s' where
  isApt := hapt
  apt := hsame.apt
  tags := hsame.tags
  csmIds := hsame.csmIds
  rd g hg := .inl ⟨hrd g hg, by rw [hsame.rd g (hrd g hg)], by rw [hsame.rd g (hrd g hg)]⟩

/-- Only granules in plain states move, and none of them is a table. -/
theorem of_states (hstate : ∀ g st, st = .APT ∨ st = .RD →
      ((s'.granule g).state = st ↔ (s.granule g).state = st))
    (hrd : ∀ g, (s.granule g).state = .RD → (s'.rd g).aptPa = (s.rd g).aptPa ∧
      (s'.rd g).s2Ctx = (s.rd g).s2Ctx)
    (hapt : ∀ g, (s.granule g).state = .APT → s'.apt g = s.apt g)
    (htags : s'.tags = s.tags) (hids : s'.csmIds = s.csmIds) : Calm s s' where
  isApt g := hstate g .APT (.inl rfl)
  apt := hapt
  tags := htags
  csmIds := hids
  rd g hg := by
    have hg' := (hstate g .RD (.inr rfl)).mp hg
    exact .inl ⟨hg', hrd g hg'⟩

theorem trans_sameAll (h : Calm s s1) (h' : SameAll s1 s') : Calm s s' where
  isApt g := by rw [h'.state, h.isApt]
  apt g hg := by rw [h'.apt, h.apt g hg]
  tags := h'.tags.trans h.tags
  csmIds := h'.csmIds.trans h.csmIds
  rd g hg := by
    rw [h'.state] at hg
    rw [h'.rd]
    exact h.rd g hg

/-- A change of one granule between states that hold no records. -/
theorem setState {g : Word} {st : GranuleState} (h1 : (s.granule g).state ≠ .APT)
    (h2 : (s.granule g).state ≠ .RD) (h3 : st ≠ .APT) (h4 : st ≠ .RD) :
    Calm s (s.setState g st) := by
  refine of_states ?_ (fun _ _ => ⟨rfl, rfl⟩) (fun _ _ => rfl) rfl rfl
  rintro x st' (rfl | rfl)
  · exact State.setState_state_iff s h1 h3 x
  · exact State.setState_state_iff s h2 h4 x

theorem release {g : Word} (h1 : (s.granule g).state ≠ .APT) (h2 : (s.granule g).state ≠ .RD) :
    Calm s (s.release g) := by
  have hc : Calm s (s.setState g .DELEGATED) := setState h1 h2 (by decide) (by decide)
  exact ⟨hc.isApt, hc.apt, hc.tags, hc.csmIds, hc.rd⟩

theorem setRefcount (h : Calm s s1) (g : Word) (c : ℕ) : Calm s (s1.setRefcount g c) where
  isApt x := by rw [State.setRefcount_state, h.isApt]
  apt := h.apt
  tags := h.tags
  csmIds := h.csmIds
  rd x hx := by
    rw [State.setRefcount_state] at hx
    exact h.rd x hx

theorem setRec (s : State) (g : Word) (r : Rec) : Calm s (s.setRec g r) :=
  of_states (fun _ _ _ => Iff.rfl) (fun _ _ => ⟨rfl, rfl⟩) (fun _ _ => rfl) rfl rfl

/-- A realm's own state changes. -/
theorem setRd {g : Word} {r : Rd} (ha : r.aptPa = (s.rd g).aptPa)
    (hc : r.s2Ctx = (s.rd g).s2Ctx) : Calm s (s.setRd g r) := by
  refine of_states (fun _ _ _ => Iff.rfl) (fun x _ => ?_) (fun _ _ => rfl) rfl rfl
  by_cases hx : x = g
  · subst hx
    simp [State.setRd, ha, hc]
  · simp [State.setRd, hx]

end Calm

/-- A graft makes a table of a delegated granule and changes no other state. -/
theorem GraftStep.state_iff {s s' : State} {F F' : Tables} {t k : Word} {n m : Table} {i : ℕ}
    (h : Holds s F) (st : GraftStep s F t n i k m s' F') (g : Word) {x : GranuleState}
    (h1 : x ≠ .RTT) (h2 : x ≠ .DELEGATED) :
    (s'.granule g).state = x ↔ (s.granule g).state = x := by
  by_cases hgt : g = t
  · rw [hgt, st.tableState, (h.node st.leaf.table).1]
  by_cases hgk : g = k
  · rw [hgk, st.newState, st.fresh]
    exact iff_of_false (Ne.symm h1) (Ne.symm h2)
  · rw [st.granule g hgt hgk]

theorem GraftStep.calm {s s' : State} {F F' : Tables} {t k : Word} {n m : Table} {i : ℕ}
    (h : Holds s F) (st : GraftStep s F t n i k m s' F') : Calm s s' :=
  .of_same (fun g => st.state_iff h g (by decide) (by decide))
    (fun g hg => (st.state_iff h g (by decide) (by decide)).mp hg) st.same

/-- A prune makes a table a delegated granule and changes no other state. -/
theorem PruneStep.state_iff {s s' : State} {F F' : Tables} {t k : Word} {n m : Table} {i : ℕ}
    {new : Entry} {pages : ℕ} (h : Holds s F) (st : PruneStep s F t n i k m new pages s' F')
    (g : Word) {x : GranuleState} (h1 : x ≠ .RTT) (h2 : x ≠ .DELEGATED) :
    (s'.granule g).state = x ↔ (s.granule g).state = x := by
  by_cases hgk : g = k
  · rw [hgk, st.freed, (h.node st.child).1]
    exact iff_of_false (Ne.symm h2) (Ne.symm h1)
  by_cases hgt : g = t
  · rw [hgt, st.tableState, (h.node st.table).1]
  · rw [st.granule g hgt hgk]

theorem PruneStep.calm {s s' : State} {F F' : Tables} {t k : Word} {n m : Table} {i : ℕ}
    {new : Entry} {pages : ℕ} (h : Holds s F) (st : PruneStep s F t n i k m new pages s' F') :
    Calm s s' :=
  .of_same (fun g => st.state_iff h g (by decide) (by decide))
    (fun g hg => (st.state_iff h g (by decide) (by decide)).mp hg) st.same

theorem Planted.calm {s s' : State} {rdAddr : Word} {ctx : S2ttContext}
    (p : Planted s rdAddr ctx s') : Calm s s' := by
  have hstate : ∀ g, g ≠ rdAddr → ∀ {x : GranuleState}, x ≠ .RTT → x ≠ .DELEGATED →
      ((s'.granule g).state = x ↔ (s.granule g).state = x) := by
    intro g hg x h1 h2
    by_cases hr : g ∈ rootTables ctx
    · rw [p.rootGranule g hr, p.fresh g (.inr hr)]
      exact iff_of_false (Ne.symm h1) (Ne.symm h2)
    · rw [p.granule g hg hr]
  refine ⟨fun g => ?_, fun g _ => by rw [p.apt], p.tags, p.csmIds, fun g hg => ?_⟩
  · by_cases hg : g = rdAddr
    · rw [hg, p.rdGranule, p.fresh rdAddr (.inl rfl)]
      exact iff_of_false (by decide) (by decide)
    · exact hstate g hg (by decide) (by decide)
  · by_cases hrd : g = rdAddr
    · subst hrd
      exact .inr ⟨p.fresh g (.inl rfl), by rw [p.rd, Function.update_self]⟩
    · have hg' := (hstate g hrd (by decide) (by decide)).mp hg
      refine .inl ⟨hg', ?_⟩
      rw [p.rd, Function.update_of_ne hrd]
      exact ⟨rfl, rfl⟩

theorem Felled.calm {s s' : State} {rdAddr : Word} (p : Felled s rdAddr s') : Calm s s' := by
  refine ⟨p.state_iff (by decide) (by decide) (by decide), fun g hg => ?_, p.tags, p.csmIds,
    fun g hg => ?_⟩
  · by_cases hgone : Felled.Gone s rdAddr g
    · rcases p.gone_state hgone with hc | hc <;>
        · rw [hc] at hg
          cases hg
    · exact (p.same hgone).2.2.2.2
  · obtain ⟨h1, h2⟩ := (p.isRd g).mp hg
    rw [p.rd_same h1 h2]
    exact .inl ⟨h1, rfl, rfl⟩

theorem NewRec.calm {s s' : State} {rdAddr recAddr : Word} {aux : List Word}
    (n : NewRec s rdAddr recAddr aux s') : Calm s s' := by
  refine .of_states ?_ (fun g _ => ⟨?_, n.ctx g⟩) (fun g _ => by rw [n.apt]) n.tags n.csmIds
  · rintro g st (rfl | rfl)
    · exact n.state_iff (by decide) (by decide) (by decide) g
    · exact n.state_iff (by decide) (by decide) (by decide) g
  · rw [n.rd]
    by_cases hg : g = rdAddr
    · subst hg
      rw [Function.update_self]
    · rw [Function.update_of_ne hg]

theorem FreedRec.calm {s s' : State} {F : Tables} {recAddr : Word} (h : Wf s F)
    (f : FreedRec s recAddr s') : Calm s s' := by
  refine .of_states ?_ (fun g hg => ?_) (fun g hg => ?_) f.tags f.csmIds
  · rintro g st (rfl | rfl)
    · exact f.state_iff h (by decide) (by decide) (by decide) g
    · exact f.state_iff h (by decide) (by decide) (by decide) g
  · obtain ⟨h1, h2⟩ := f.not_freed (by decide) (by decide) hg
    rw [(f.other g h1 h2).1]
    exact ⟨rfl, rfl⟩
  · obtain ⟨h1, h2⟩ := f.not_freed (by decide) (by decide) hg
    exact (f.other g h1 h2).2.2.2

theorem DataCreated.calm {plat : Platform} {s s' : State} {F : Tables}
    {rdAddr dataAddr mapAddr : Word} {measured : Bool} {ret : ReturnCode}
    (hd : DataCreated plat s F rdAddr dataAddr mapAddr measured s' ret) : Calm s s' := by
  rcases hd with ⟨rfl, -⟩ | ⟨-, s1, F1, r, old, F', has, hw1, hm⟩
  · exact .refl _
  obtain ⟨t, n, i, st, -⟩ := has.edit
  have hclaim : Calm s (s.setState dataAddr .DATA) :=
    .setState (by rw [has.delegated]; decide) (by rw [has.delegated]; decide)
      (by decide) (by decide)
  exact (hclaim.trans_sameAll (st.sameAll has.claimWf.holds)).trans_sameAll hm.same

theorem DataDestroyed.calm {plat : Platform} {s s' : State} {F : Tables}
    {rdAddr mapAddr : Word} {ret : ReturnCode} (h : Wf s F)
    (hd : DataDestroyed plat s F rdAddr mapAddr s' ret) : Calm s s' := by
  rcases hd with ⟨rfl, -⟩ | ⟨-, t, n, i, r, d, s1, F1, F', -, -, -, st, hdata, -, hrem⟩
  · exact .refl _
  have hsame := st.sameAll h.holds
  have hfree : Calm s1 (s1.release d) :=
    .release (by rw [hdata]; decide) (by rw [hdata]; decide)
  have h12 : Calm s (s1.release d) := by
    refine .of_states ?_ (fun g _ => ?_) (fun g _ => ?_) hsame.tags hsame.csmIds
    · rintro g st' (rfl | rfl)
      · rw [hfree.isApt, hsame.state]
      · rw [← hsame.state]
        exact State.setState_state_iff s1 (by rw [hdata]; decide) (by decide) g
    · change (s1.rd g).aptPa = _ ∧ (s1.rd g).s2Ctx = _
      rw [hsame.rd]
      exact ⟨rfl, rfl⟩
    · exact congrFun hsame.apt g
  exact h12.trans_sameAll hrem.same

theorem Redelegated.calm {s s' : State} (h : Redelegated s s') : Calm s s' := by
  rcases h with rfl | ⟨g, h1, rfl⟩ | ⟨g, h1, rfl⟩
  · exact .refl _
  · exact .release (by rw [h1]; decide) (by rw [h1]; decide)
  · exact .setState (by rw [h1]; decide) (by rw [h1]; decide) (by decide) (by decide)

theorem RecEntered.calm {s s' : State} {recAddr : Word} (h : RecEntered s recAddr s') :
    Calm s s' := by
  rcases h with rfl | ⟨-, -, reject, rfl | rfl⟩
  · exact .refl _
  · exact .setRec _ _ _
  · have hc := (Calm.refl s).setRefcount recAddr 1
    exact ⟨hc.isApt, hc.apt, hc.tags, hc.csmIds, hc.rd⟩

theorem RipasSet.calm {s s' : State} {F : Tables} {rdAddr recAddr base top : Word}
    (h : RipasSet s F rdAddr recAddr base top s') : Calm s s' := by
  rcases h with rfl | ⟨-, -, -, -, -, s1, F', height, ht, rfl | ⟨addr, -, rfl⟩⟩
  · exact .refl _
  · exact .of_sameAll ht.same
  · have hc := Calm.of_sameAll ht.same
    exact ⟨hc.isApt, hc.apt, hc.tags, hc.csmIds, hc.rd⟩

/-- The calls that change sharing records. -/
def Act.sharing : Act → Bool
  | .aptCreate .. | .aptDestroy .. => true
  | .rsi _ (.csmCreate ..) | .rsi _ (.csmShare ..) | .rsi _ (.csmReserve ..) => true
  | .rsi _ (.csmDetachAndFree ..) | .rsi _ (.csmRevoke ..) | .rsi _ (.csmDestroy ..) => true
  | _ => false

theorem Act.sharing_cases {act : Act} (h : act.sharing = true) :
    (∃ rdAddr aptAddr, act = .aptCreate rdAddr aptAddr) ∨
    (∃ rdAddr aptAddr, act = .aptDestroy rdAddr aptAddr) ∨
    ∃ recAddr call, act = .rsi recAddr call := by
  cases act with
  | aptCreate rdAddr aptAddr => exact .inl ⟨_, _, rfl⟩
  | aptDestroy rdAddr aptAddr => exact .inr (.inl ⟨_, _, rfl⟩)
  | rsi recAddr call => exact .inr (.inr ⟨_, _, rfl⟩)
  | _ => cases h

theorem StepDone.calm {plat : Platform} {s s' : State} {F : Tables} {reply : Reply} {act : Act}
    (h : Wf s F) (hd : StepDone plat s F s' reply act) (hact : act.sharing = false) :
    Calm s s' := by
  cases act with
  | granuleDelegate addr el3Ok => exact Redelegated.calm hd
  | granuleUndelegate addr el3Ok => exact Redelegated.calm hd
  | realmCreate rdAddr paramsAddr nsRead =>
    obtain ⟨res, -, ⟨rfl, -⟩ | ⟨-, ctx, hp⟩⟩ := hd
    · exact .refl _
    · exact hp.calm
  | realmActivate rdAddr =>
    rcases hd with rfl | ⟨-, -, rfl⟩
    · exact .refl _
    · exact .setRd rfl rfl
  | realmDestroy rdAddr =>
    obtain ⟨res, -, ⟨rfl, -⟩ | ⟨-, hp⟩⟩ := hd
    · exact .refl _
    · exact hp.calm
  | recCreate rdAddr recAddr paramsAddr nsRead =>
    obtain ⟨res, -, ⟨rfl, -⟩ | ⟨-, -, aux, hn⟩⟩ := hd
    · exact .refl _
    · exact hn.calm
  | recDestroy recAddr =>
    obtain ⟨res, -, ⟨rfl, -⟩ | ⟨-, hf⟩⟩ := hd
    · exact .refl _
    · exact hf.calm h
  | recEnter recAddr runAddr entry reject => exact RecEntered.calm hd
  | aptCreate rdAddr aptAddr => cases hact
  | aptDestroy rdAddr aptAddr => cases hact
  | dataCreate rdAddr dataAddr mapAddr srcAddr flags nsCopy =>
    obtain ⟨res, -, hd, -⟩ := hd
    exact hd.calm
  | dataCreateUnknown rdAddr dataAddr mapAddr =>
    obtain ⟨res, -, hd, -⟩ := hd
    exact hd.calm
  | dataDestroy rdAddr mapAddr =>
    obtain ⟨res, -, hd, -⟩ := hd
    exact hd.calm h
  | rttCreate rdAddr rttAddr mapAddr ulevel =>
    obtain ⟨res, -, ⟨rfl, -⟩ | ⟨-, t, n, i, m, F', hg⟩⟩ := hd
    · exact .refl _
    · exact hg.graft.calm h.holds
  | rttFold rdAddr mapAddr ulevel =>
    obtain ⟨res, -, ⟨rfl, -⟩ | ⟨-, t, n, i, k, m, new, pages, F', -, -, -, st, -⟩⟩ := hd
    · exact .refl _
    · exact st.calm h.holds
  | rttDestroy rdAddr mapAddr ulevel =>
    rcases hd with rfl | ⟨t, n, i, k, m, new, pages, F', -, st, -⟩
    · exact .refl _
    · exact st.calm h.holds
  | rttMapUnprotected rdAddr mapAddr ulevel s2tte =>
    obtain ⟨F', ht⟩ := hd
    exact .of_sameAll ht.same
  | rttUnmapUnprotected rdAddr mapAddr ulevel =>
    obtain ⟨F', ht⟩ := hd
    exact .of_sameAll ht.same
  | rttInitRipas rdAddr base top =>
    obtain ⟨F', height, ht⟩ := hd
    exact .of_sameAll ht.same
  | rttSetRipas rdAddr recAddr base top => exact RipasSet.calm hd
  | rsi recAddr call =>
    rcases hd with ⟨-, rfl, -⟩ | ⟨hrun, s1, res, hdone, -, rfl⟩
    · exact .refl _
    have h1 : Calm s s1 := by
      cases call with
      | csmAttach x1 =>
        rcases hdone with ⟨rfl, -⟩ | ⟨-, _, _, _, -, -, -, -, hm⟩
        · exact .refl _
        · exact .of_sameAll hm.same
      | ipaStateSet x1 x2 x3 x4 =>
        have hs : s1 = (handleRsiIpaStateSet s recAddr x1 x2 x3 x4).1 := congrArg Prod.fst hdone
        rcases handleRsiIpaStateSet_spec s recAddr x1 x2 x3 x4 with h1 | ⟨req, h1⟩
        · rw [hs, h1]
          exact .refl _
        · rw [hs, h1]
          exact .setRec _ _ _
      | systemOff =>
        have hs : s1 = s.setRd _ _ := hdone
        rw [hs]
        exact .setRd rfl rfl
      | csmCreate x2 x3 => cases hact
      | csmShare x1 x2 x3 => cases hact
      | csmReserve x1 x2 x3 => cases hact
      | csmDetachAndFree x1 => cases hact
      | csmRevoke x1 => cases hact
      | csmDestroy x1 => cases hact
    split
    · exact h1.setRefcount recAddr 0
    · exact h1
  | recExit recAddr =>
    rcases hd with ⟨-, rfl⟩ | ⟨-, rfl⟩
    · exact .refl _
    · exact (Calm.refl s).setRefcount recAddr 0

end RmmCaec
