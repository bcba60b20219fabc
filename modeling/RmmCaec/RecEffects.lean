import RmmCaec.RealmEffects

/-!
# Effects of the REC handlers

Creating and destroying a REC moves it and its auxiliary granules between states
and keeps the reference that it holds on its realm; entering and leaving it
changes its own reference count. None of them touches a table.
-/
namespace RmmCaec

open RadixForest Outcome

/-- Claiming auxiliary granules: all of them become REC_AUX, or none does. -/
theorem claimRecAux_sat {plat : Platform} (aux : List Word) {s : State} (claimed : ℕ) :
    Sat (claimRecAux plat aux s claimed) (fun res => ∀ s1, res = some s1 →
      s1 = s.setStates aux .REC_AUX ∧
        ∀ a ∈ aux, (s.granule a).state = .DELEGATED) Benign := by
  induction aux generalizing s claimed with
  | nil =>
    refine Sat.ok ?_
    rintro s1 ⟨⟩
    exact ⟨(State.setStates_nil s _).symm, by simp⟩
  | cons a rest ih =>
    unfold claimRecAux
    refine findLockGranule_sat (by decide) ?_
    refine Sat.ite (fun _ => ?_) fun hdel => ?_
    · exact assertThat_sat (fun _ => by decide) fun _ => Sat.pure (by rintro s1 ⟨⟩)
    · have hst := lockable_state (by simpa using hdel)
      refine granuleUnlockTransition_sat (by decide) ((ih (claimed + 1)).imp fun res hres => ?_)
      intro s1 hs1
      obtain ⟨h1, h2⟩ := hres s1 hs1
      rw [State.setStates_cons] at h1
      refine ⟨h1, fun x hx => ?_⟩
      by_cases hxa : x = a
      · rw [hxa, hst]
      · have := h2 x ((List.mem_cons.mp hx).resolve_left hxa)
        rwa [State.setState_of_ne _ hxa] at this

/-- Giving claimed granules back restores the state. -/
theorem setStates_back {s : State} {aux : List Word}
    (h : ∀ a ∈ aux, (s.granule a).state = .DELEGATED) :
    (s.setStates aux .REC_AUX).setStates aux .DELEGATED = s := by
  have hg : ((s.setStates aux .REC_AUX).setStates aux .DELEGATED).granule = s.granule := by
    funext g
    by_cases hm : g ∈ aux
    · simp only [State.setStates, hm, if_true, ← h g hm]
    · simp only [State.setStates, hm, if_false]
  calc (s.setStates aux .REC_AUX).setStates aux .DELEGATED
      = { s with granule := ((s.setStates aux .REC_AUX).setStates aux .DELEGATED).granule } := rfl
    _ = s := by rw [hg]

/-- A new REC of a realm. -/
structure NewRec (s : State) (rdAddr recAddr : Word) (aux : List Word) (s' : State) : Prop where
  isRd : (s.granule rdAddr).state = .RD
  fresh : (s.granule recAddr).state = .DELEGATED
  freshAux : ∀ a ∈ aux, (s.granule a).state = .DELEGATED ∧ a ≠ recAddr
  recGranule : s'.granule recAddr = ⟨.REC, 0⟩
  rdGranule : s'.granule rdAddr = ⟨.RD, (s.granule rdAddr).refcount + 1⟩
  auxGranule : ∀ a ∈ aux, s'.granule a = ⟨.REC_AUX, 0⟩
  granule : ∀ g, g ≠ recAddr → g ≠ rdAddr → g ∉ aux → s'.granule g = s.granule g
  rd : s'.rd = Function.update s.rd rdAddr
    { s.rd rdAddr with recCount := (s.rd rdAddr).recCount + 1 }
  recs : s'.recs = Function.update s.recs recAddr
    ⟨(s.rd rdAddr).recCount, rdAddr, (s.rd rdAddr).s2Ctx, aux, default⟩
  rtt : s'.rtt = s.rtt
  apt : s'.apt = s.apt
  tags : s'.tags = s.tags
  csmIds : s'.csmIds = s.csmIds
  tlb : s'.tlb = s.tlb
  vmids : s'.vmids = s.vmids

namespace NewRec

variable {s s' : State} {F : Tables} {rdAddr recAddr : Word} {aux : List Word}

theorem state_iff (n : NewRec s rdAddr recAddr aux s') {st : GranuleState} (h1 : st ≠ .REC)
    (h2 : st ≠ .REC_AUX) (h3 : st ≠ .DELEGATED) (g : Word) :
    (s'.granule g).state = st ↔ (s.granule g).state = st := by
  by_cases hrec : g = recAddr
  · subst hrec
    rw [n.recGranule, n.fresh]
    exact ⟨fun h => absurd h.symm h1, fun h => absurd h.symm h3⟩
  by_cases hrd : g = rdAddr
  · subst hrd
    rw [n.rdGranule, n.isRd]
  by_cases ha : g ∈ aux
  · rw [n.auxGranule g ha, (n.freshAux g ha).1]
    exact ⟨fun h => absurd h.symm h2, fun h => absurd h.symm h3⟩
  · rw [n.granule g hrec hrd ha]

/-- A granule that holds metadata already and is not the realm is untouched. -/
theorem granule_of_state (n : NewRec s rdAddr recAddr aux s') {g : Word}
    (hg : (s.granule g).state ≠ .DELEGATED) (hne : g ≠ rdAddr) :
      s'.granule g = s.granule g := by
  refine n.granule g ?_ hne fun ha => hg (n.freshAux g ha).1
  rintro rfl
  exact hg n.fresh

theorem isRec (n : NewRec s rdAddr recAddr aux s') (g : Word) :
    (s'.granule g).state = .REC ↔ (s.granule g).state = .REC ∨ g = recAddr := by
  by_cases hrec : g = recAddr
  · subst hrec
    simp [n.recGranule]
  by_cases hrd : g = rdAddr
  · subst hrd
    simp [n.rdGranule, n.isRd, hrec]
  by_cases ha : g ∈ aux
  · simp [n.auxGranule g ha, (n.freshAux g ha).1, hrec]
  · simp [n.granule g hrec hrd ha, hrec]

theorem ctx (n : NewRec s rdAddr recAddr aux s') (g : Word) : (s'.rd g).s2Ctx = (s.rd g).s2Ctx := by
  rw [n.rd]
  by_cases hg : g = rdAddr
  · subst hg
    rw [Function.update_self]
  · rw [Function.update_of_ne hg]

theorem recs_of_rec (n : NewRec s rdAddr recAddr aux s') {g : Word}
    (hg : (s.granule g).state = .REC) : s'.recs g = s.recs g := by
  rw [n.recs, Function.update_of_ne]
  rintro rfl
  rw [n.fresh] at hg
  cases hg

theorem quiet (n : NewRec s rdAddr recAddr aux s') : Quiet s s' none none where
  rtt := n.state_iff (by decide) (by decide) (by decide)
  rd := n.state_iff (by decide) (by decide) (by decide)
  ctx g _ := n.ctx g
  word g _ := by rw [n.rtt]
  count g hg := by
    rw [n.granule_of_state (by rw [hg]; decide)]
    rintro rfl
    rw [n.isRd] at hg
    cases hg
  data g hg _ := by rwa [n.state_iff (by decide) (by decide) (by decide)]
  newData g hg := .inl (by rwa [n.state_iff (by decide) (by decide) (by decide)] at hg)
  tlb := n.tlb
  vmids := n.vmids

theorem wf (h : Wf s F) (n : NewRec s rdAddr recAddr aux s') : Wf s' F := by
  have hrd : ∀ g, (s'.granule g).state = .RD ↔ (s.granule g).state = .RD :=
    n.state_iff (by decide) (by decide) (by decide)
  refine ⟨n.quiet.holds h.holds, ?_, ?_, ?_, ?_, ?_, ?_, ?_, ?_⟩
  · intro t m ht
    rw [n.quiet.count t (h.holds.node ht).1]
    exact h.counts t m ht
  · intro g hg
    by_cases hrec : g = recAddr
    · rw [hrec, n.recGranule] at hg
      cases hg
    by_cases hr : g = rdAddr
    · rw [hr, n.rdGranule] at hg
      cases hg
    by_cases ha : g ∈ aux
    · rw [n.auxGranule g ha]
    · rw [n.granule g hrec hr ha] at hg ⊢
      exact h.plain g hg
  · intro g hg
    have hrec : g ≠ recAddr := by
      rintro rfl
      rw [n.recGranule] at hg
      cases hg
    have hr : g ≠ rdAddr := by
      rintro rfl
      rw [n.rdGranule] at hg
      cases hg
    rw [n.rd, n.recs, n.apt, Function.update_of_ne hr, Function.update_of_ne hrec]
    by_cases ha : g ∈ aux
    · exact h.zero g (by rw [(n.freshAux g ha).1]; rfl)
    · rw [n.granule g hrec hr ha] at hg
      exact h.zero g hg
  · intro g hg
    have hrec : g ≠ recAddr := by
      rintro rfl
      rw [n.recGranule] at hg
      cases hg
    have hr : g ≠ rdAddr := by
      rintro rfl
      rw [n.rdGranule] at hg
      cases hg
    have ha : g ∉ aux := by
      intro ha
      rw [n.auxGranule g ha] at hg
      cases hg
    rw [n.granule g hrec hr ha] at hg
    rw [n.rtt]
    exact h.scrubbed g hg
  · intro g hg
    rw [n.ctx, n.vmids]
    exact h.vmid g ((hrd g).mp hg)
  · intro a b ha hb heq
    rw [n.ctx, n.ctx] at heq
    exact h.vmid_inj a b ((hrd a).mp ha) ((hrd b).mp hb) heq
  · intro r hr
    rw [hrd]
    rcases (n.isRec r).mp hr with hr | rfl
    · rw [n.recs_of_rec hr]
      exact h.recRd r hr
    · rw [n.recs, Function.update_self]
      exact n.isRd
  · intro g hg
    obtain ⟨R, hR, hcard⟩ := h.recCount g ((hrd g).mp hg)
    have hnew : recAddr ∉ R := by
      rw [hR, n.fresh]
      exact fun hc => absurd hc.1 (by decide)
    by_cases hgr : g = rdAddr
    · subst hgr
      refine ⟨insert recAddr R, fun r => ?_, by
        rw [Finset.card_insert_of_notMem hnew, n.rdGranule]
        exact Nat.succ_le_succ hcard⟩
      rw [Finset.mem_insert, hR, n.isRec]
      by_cases hrr : r = recAddr
      · subst hrr
        simp [n.recs]
      · rw [n.recs, Function.update_of_ne hrr]
        simp [hrr]
    · refine ⟨R, fun r => ?_, by
        rwa [n.granule_of_state (by rw [(hrd g).mp hg]; decide) hgr]⟩
      rw [hR, n.isRec]
      by_cases hrr : r = recAddr
      · subst hrr
        simp [n.recs, n.fresh, Ne.symm hgr]
      · rw [n.recs, Function.update_of_ne hrr]
        simp [hrr]

end NewRec

/-- What `smc_rec_create` does: nothing, or a new REC. -/
def RecCreated (s : State) (rdAddr recAddr : Word) (s' : State) (ret : ReturnCode) : Prop :=
  (s' = s ∧ ret ≠ rmiSuccess) ∨
    (ret = rmiSuccess ∧ (s.rd rdAddr).state = .NEW ∧ ∃ aux, NewRec s rdAddr recAddr aux s')

theorem newRec_mk {plat : Platform} {s : State} {F : Tables} (h : Wf s F) {rdAddr recAddr : Word}
    {aux : List Word} (haux : ∀ a ∈ aux, (s.granule a).state = .DELEGATED)
    (hlock : findLockTwoGranules plat (s.setStates aux .REC_AUX) recAddr .DELEGATED
      rdAddr .RD = true) :
    NewRec s rdAddr recAddr aux (((((s.setStates aux .REC_AUX).setRec recAddr
        { (s.setStates aux .REC_AUX).recs recAddr with
          recIdx := (s.rd rdAddr).recCount, gRd := rdAddr, s2Ctx := (s.rd rdAddr).s2Ctx,
          gAux := aux }).setRefcount rdAddr
        (((s.setStates aux .REC_AUX).granule rdAddr).refcount + 1)).setRd rdAddr
        { s.rd rdAddr with recCount := (s.rd rdAddr).recCount + 1 }).setState recAddr .REC) := by
  obtain ⟨hne, hrec, hrd⟩ := findLockTwoGranules_iff hlock
  -- neither granule is one that was just claimed
  have unclaimed : ∀ {g st}, st ≠ .REC_AUX →
      ((s.setStates aux .REC_AUX).granule g).state = st →
      g ∉ aux ∧ (s.granule g).state = st := by
    intro g st hst hg
    by_cases hm : g ∈ aux
    · simp only [State.setStates, hm, if_true] at hg
      exact absurd hg.symm hst
    · simp only [State.setStates, hm, if_false] at hg
      exact ⟨hm, hg⟩
  obtain ⟨hrecAux, hfresh⟩ := unclaimed (by decide) (lockable_state hrec)
  obtain ⟨hrdAux, hisRd⟩ := unclaimed (by decide) (lockable_state hrd)
  have hrd1 : (s.setStates aux .REC_AUX).granule rdAddr = s.granule rdAddr := by
    simp only [State.setStates, hrdAux, if_false]
  have hrec1 : (s.setStates aux .REC_AUX).granule recAddr = s.granule recAddr := by
    simp only [State.setStates, hrecAux, if_false]
  have hauxne : ∀ a ∈ aux, a ≠ recAddr ∧ a ≠ rdAddr := by
    intro a ha
    exact ⟨by rintro rfl; exact hrecAux ha, by rintro rfl; exact hrdAux ha⟩
  have hzero : s.recs recAddr = default := (h.zero recAddr (by rw [hfresh]; rfl)).2.1
  refine ⟨hisRd, hfresh, fun a ha => ⟨haux a ha, (hauxne a ha).1⟩, ?_, ?_, fun a ha => ?_,
    fun g h1 h2 h3 => ?_, rfl, ?_, rfl, rfl, rfl, rfl, rfl, rfl⟩
  · show Function.update (Function.update (s.setStates aux .REC_AUX).granule rdAddr _) recAddr
      ⟨.REC, (Function.update (s.setStates aux .REC_AUX).granule rdAddr _ recAddr).refcount⟩
        recAddr = _
    rw [Function.update_self, Function.update_of_ne hne, hrec1,
      h.plain recAddr (by rw [hfresh]; rfl)]
  · show Function.update (Function.update (s.setStates aux .REC_AUX).granule rdAddr
      ⟨((s.setStates aux .REC_AUX).granule rdAddr).state, _⟩) recAddr _ rdAddr = _
    rw [Function.update_of_ne hne.symm, Function.update_self, hrd1, hisRd]
  · show Function.update (Function.update (s.setStates aux .REC_AUX).granule rdAddr _)
        recAddr _ a = _
    rw [Function.update_of_ne (hauxne a ha).1, Function.update_of_ne (hauxne a ha).2]
    simp only [State.setStates, ha, if_true, h.plain a (by rw [haux a ha]; rfl)]
  · show Function.update (Function.update (s.setStates aux .REC_AUX).granule rdAddr _)
        recAddr _ g = _
    rw [Function.update_of_ne h1, Function.update_of_ne h2]
    simp only [State.setStates, h3, if_false]
  · show Function.update s.recs recAddr { s.recs recAddr with
      recIdx := _, gRd := _, s2Ctx := _, gAux := _ } = _
    rw [hzero]
    rfl

theorem smcRecCreate_sat {plat : Platform} {s : State} {F : Tables} (h : Wf s F)
    (rdAddr recAddr paramsAddr : Word) (nsRead : Option RecParams) :
    Sat (smcRecCreate plat s rdAddr recAddr paramsAddr nsRead)
      (fun res => RecCreated s rdAddr recAddr res.1 res.2.ret) Benign := by
  have idle : RecCreated s rdAddr recAddr s (smcRet rmiErrorInput).ret := .inl ⟨rfl, by decide⟩
  unfold smcRecCreate
  refine Sat.ite (fun _ => Sat.pure idle) fun _ => ?_
  cases nsRead with
  | none => exact Sat.pure idle
  | some p =>
    refine Sat.ite (fun _ => Sat.pure idle) fun _ => ?_
    refine Sat.bind (claimRecAux_sat p.aux 0) fun claimed hclaimed => ?_
    cases claimed with
    | none => exact Sat.pure idle
    | some s1 =>
      obtain ⟨rfl, haux⟩ := hclaimed s1 rfl
      simp only
      refine Sat.ite (fun hret => ?_) fun hret => ?_
      · -- every check that fails gives the auxiliary granules back
        refine freeGranules_sat (by decide) (by decide) _ fun _ => Sat.pure (.inl ⟨?_, hret⟩)
        exact setStates_back haux
      · rw [not_ne_iff] at hret
        have hlock : findLockTwoGranules plat (s.setStates p.aux .REC_AUX) recAddr .DELEGATED rdAddr
            .RD = true := by
          by_contra hc
          rw [Bool.not_eq_true] at hc
          rw [if_pos (by rw [hc]; rfl)] at hret
          exact absurd hret (by decide)
        rw [if_neg (by simp [hlock])] at hret
        have hnew : ((s.setStates p.aux .REC_AUX).rd rdAddr).state = .NEW := by
          by_contra hc
          split at hret <;> exact absurd hret (by decide)
        refine granuleRefcountInc_sat (by decide) ?_
        exact granuleUnlockTransition_sat (by decide)
          (Sat.pure (.inr ⟨rfl, hnew, p.aux, newRec_mk h haux hlock⟩))

/-- A REC of a realm is freed with its auxiliary granules. -/
structure FreedRec (s : State) (recAddr : Word) (s' : State) : Prop where
  wasRec : (s.granule recAddr).state = .REC
  idle : (s.granule recAddr).refcount = 0
  wasAux : ∀ a ∈ (s.recs recAddr).gAux, (s.granule a).state = .REC_AUX
  freed : ∀ g, g = recAddr ∨ g ∈ (s.recs recAddr).gAux →
    s'.granule g = ⟨.DELEGATED, 0⟩ ∧
    s'.rd g = default ∧ s'.recs g = default ∧ s'.rtt g = (fun _ => 0#64) ∧ s'.apt g = default
  rdGranule : s'.granule (s.recs recAddr).gRd =
    ⟨.RD, (s.granule (s.recs recAddr).gRd).refcount - 1⟩
  referenced : 1 ≤ (s.granule (s.recs recAddr).gRd).refcount
  granule : ∀ g, g ≠ recAddr → g ≠ (s.recs recAddr).gRd → g ∉ (s.recs recAddr).gAux →
    s'.granule g = s.granule g
  other : ∀ g, g ≠ recAddr → g ∉ (s.recs recAddr).gAux →
    s'.rd g = s.rd g ∧ s'.recs g = s.recs g ∧ s'.rtt g = s.rtt g ∧ s'.apt g = s.apt g
  tags : s'.tags = s.tags
  csmIds : s'.csmIds = s.csmIds
  tlb : s'.tlb = s.tlb
  vmids : s'.vmids = s.vmids

namespace FreedRec

variable {s s' : State} {F : Tables} {recAddr : Word}

/-- The granules that are freed were a REC or auxiliary. -/
theorem not_freed (f : FreedRec s recAddr s') {g : Word} {st : GranuleState} (h1 : st ≠ .REC)
    (h2 : st ≠ .REC_AUX) (hg : (s.granule g).state = st) :
    g ≠ recAddr ∧ g ∉ (s.recs recAddr).gAux := by
  constructor
  · rintro rfl
    exact h1 (hg.symm.trans f.wasRec)
  · intro ha
    exact h2 (hg.symm.trans (f.wasAux g ha))

theorem state_iff (h : Wf s F) (f : FreedRec s recAddr s') {st : GranuleState} (h1 : st ≠ .REC)
    (h2 : st ≠ .REC_AUX) (h3 : st ≠ .DELEGATED) (g : Word) :
    (s'.granule g).state = st ↔ (s.granule g).state = st := by
  by_cases hf : g = recAddr ∨ g ∈ (s.recs recAddr).gAux
  · rw [(f.freed g hf).1]
    refine ⟨fun hc => absurd hc.symm h3, fun hc => ?_⟩
    obtain ⟨hne, hna⟩ := f.not_freed h1 h2 hc
    exact absurd hf (not_or.mpr ⟨hne, hna⟩)
  · rw [not_or] at hf
    by_cases hrd : g = (s.recs recAddr).gRd
    · rw [hrd, f.rdGranule, h.recRd recAddr f.wasRec]
    · rw [f.granule g hf.1 hrd hf.2]

theorem quiet (h : Wf s F) (f : FreedRec s recAddr s') : Quiet s s' none none where
  rtt := f.state_iff h (by decide) (by decide) (by decide)
  rd := f.state_iff h (by decide) (by decide) (by decide)
  ctx g hg := by
    obtain ⟨h1, h2⟩ := f.not_freed (by decide) (by decide) hg
    rw [(f.other g h1 h2).1]
  word g hg := by
    obtain ⟨h1, h2⟩ := f.not_freed (by decide) (by decide) hg
    rw [(f.other g h1 h2).2.2.1]
  count g hg := by
    obtain ⟨h1, h2⟩ := f.not_freed (by decide) (by decide) hg
    rw [f.granule g h1 _ h2]
    rintro rfl
    rw [h.recRd recAddr f.wasRec] at hg
    cases hg
  data g hg _ := by rwa [f.state_iff h (by decide) (by decide) (by decide)]
  newData g hg := .inl (by rwa [f.state_iff h (by decide) (by decide) (by decide)] at hg)
  tlb := f.tlb
  vmids := f.vmids

theorem isRec (h : Wf s F) (f : FreedRec s recAddr s') (g : Word) :
    (s'.granule g).state = .REC ↔ (s.granule g).state = .REC ∧ g ≠ recAddr := by
  by_cases hf : g = recAddr ∨ g ∈ (s.recs recAddr).gAux
  · rw [(f.freed g hf).1]
    refine ⟨by rintro ⟨⟩, fun ⟨hg, hne⟩ => ?_⟩
    have := f.wasAux g (hf.resolve_left hne)
    rw [hg] at this
    cases this
  · rw [not_or] at hf
    by_cases hrd : g = (s.recs recAddr).gRd
    · simp [hrd, f.rdGranule, h.recRd recAddr f.wasRec]
    · simp [f.granule g hf.1 hrd hf.2, hf.1]

/-- The RECs that stay keep their record. -/
theorem recs_of_rec (f : FreedRec s recAddr s') {g : Word} (hg : (s.granule g).state = .REC)
    (hne : g ≠ recAddr) : s'.recs g = s.recs g := by
  refine (f.other g hne fun ha => ?_).2.1
  have := f.wasAux g ha
  rw [hg] at this
  cases this

theorem wf (h : Wf s F) (f : FreedRec s recAddr s') : Wf s' F := by
  have hrd : ∀ g, (s'.granule g).state = .RD ↔ (s.granule g).state = .RD :=
    f.state_iff h (by decide) (by decide) (by decide)
  refine ⟨(f.quiet h).holds h.holds, ?_, ?_, ?_, ?_, ?_, ?_, ?_, ?_⟩
  · intro t m ht
    rw [(f.quiet h).count t (h.holds.node ht).1]
    exact h.counts t m ht
  · intro g hg
    by_cases hf : g = recAddr ∨ g ∈ (s.recs recAddr).gAux
    · rw [(f.freed g hf).1]
    · rw [not_or] at hf
      by_cases hr : g = (s.recs recAddr).gRd
      · rw [hr, f.rdGranule] at hg
        cases hg
      · rw [f.granule g hf.1 hr hf.2] at hg ⊢
        exact h.plain g hg
  · intro g hg
    by_cases hf : g = recAddr ∨ g ∈ (s.recs recAddr).gAux
    · obtain ⟨-, h1, h2, -, h4⟩ := f.freed g hf
      exact ⟨h1, h2, h4⟩
    · rw [not_or] at hf
      by_cases hr : g = (s.recs recAddr).gRd
      · rw [hr, f.rdGranule] at hg
        cases hg
      · obtain ⟨h1, h2, -, h4⟩ := f.other g hf.1 hf.2
        rw [f.granule g hf.1 hr hf.2] at hg
        rw [h1, h2, h4]
        exact h.zero g hg
  · intro g hg
    by_cases hf : g = recAddr ∨ g ∈ (s.recs recAddr).gAux
    · exact (f.freed g hf).2.2.2.1
    · rw [not_or] at hf
      by_cases hr : g = (s.recs recAddr).gRd
      · rw [hr, f.rdGranule] at hg
        cases hg
      · rw [f.granule g hf.1 hr hf.2] at hg
        rw [(f.other g hf.1 hf.2).2.2.1]
        exact h.scrubbed g hg
  · intro g hg
    rw [(f.quiet h).ctx g ((hrd g).mp hg), f.vmids]
    exact h.vmid g ((hrd g).mp hg)
  · intro a b ha hb heq
    rw [(f.quiet h).ctx a ((hrd a).mp ha), (f.quiet h).ctx b ((hrd b).mp hb)] at heq
    exact h.vmid_inj a b ((hrd a).mp ha) ((hrd b).mp hb) heq
  · intro r hr
    obtain ⟨hr', hne⟩ := (f.isRec h r).mp hr
    rw [hrd, f.recs_of_rec hr' hne]
    exact h.recRd r hr'
  · intro g hg
    have hg' := (hrd g).mp hg
    obtain ⟨R, hR, hcard⟩ := h.recCount g hg'
    have hmem : ∀ r, (s'.granule r).state = .REC ∧ (s'.recs r).gRd = g ↔
        r ∈ R.erase recAddr := by
      intro r
      rw [Finset.mem_erase, hR, f.isRec h]
      constructor
      · rintro ⟨⟨h1, h2⟩, h3⟩
        rw [f.recs_of_rec h1 h2] at h3
        exact ⟨h2, h1, h3⟩
      · rintro ⟨h2, h1, h3⟩
        exact ⟨⟨h1, h2⟩, by rw [f.recs_of_rec h1 h2, h3]⟩
    refine ⟨R.erase recAddr, fun r => (hmem r).symm, ?_⟩
    by_cases hgr : g = (s.recs recAddr).gRd
    · rw [Finset.card_erase_of_mem ((hR recAddr).mpr ⟨f.wasRec, hgr.symm⟩), hgr, f.rdGranule]
      exact Nat.sub_le_sub_right (hgr ▸ hcard) 1
    · have hnot : recAddr ∉ R := fun hc => hgr ((hR recAddr).mp hc).2.symm
      obtain ⟨h1, h2⟩ := f.not_freed (by decide) (by decide) hg'
      rwa [Finset.erase_eq_of_notMem hnot, f.granule g h1 hgr h2]

end FreedRec

/-- What `smc_rec_destroy` does: nothing, or a REC goes. -/
def RecDestroyed (s : State) (recAddr : Word) (s' : State) (ret : ReturnCode) : Prop :=
  (s' = s ∧ ret ≠ rmiSuccess) ∨ (ret = rmiSuccess ∧ FreedRec s recAddr s')

/-- A realm is referenced by each of its RECs. -/
theorem Wf.rec_referenced {s : State} {F : Tables} (h : Wf s F) {recAddr : Word}
    (hrec : (s.granule recAddr).state = .REC) :
    1 ≤ (s.granule (s.recs recAddr).gRd).refcount := by
  obtain ⟨R, hR, hcard⟩ := h.recCount _ (h.recRd recAddr hrec)
  exact le_trans (Finset.card_pos.mpr ⟨recAddr, (hR recAddr).mpr ⟨hrec, rfl⟩⟩) hcard

/-- The state after the REC is freed and its reference on the realm dropped. -/
theorem freedRec_mk {s : State} {F : Tables} (h : Wf s F) {recAddr : Word}
    (hrec : (s.granule recAddr).state = .REC) (hcount : (s.granule recAddr).refcount = 0)
    (haux : ∀ a ∈ (s.recs recAddr).gAux, (s.granule a).state = .REC_AUX) {s2 : State}
    (hs2 : s2 = (((s.memzeros (s.recs recAddr).gAux).setStates (s.recs recAddr).gAux
      .DELEGATED).memzero recAddr).setState recAddr .DELEGATED) :
    s2.granule (s.recs recAddr).gRd = s.granule (s.recs recAddr).gRd ∧
      FreedRec s recAddr (s2.setRefcount (s.recs recAddr).gRd
        ((s.granule (s.recs recAddr).gRd).refcount - 1)) := by
  have hrd := h.recRd recAddr hrec
  have hne : (s.recs recAddr).gRd ≠ recAddr := by
    intro hc
    rw [hc, hrec] at hrd
    cases hrd
  have hnaux : (s.recs recAddr).gRd ∉ (s.recs recAddr).gAux := by
    intro hc
    rw [haux _ hc] at hrd
    cases hrd
  have hrecaux : recAddr ∉ (s.recs recAddr).gAux := by
    intro hc
    rw [haux _ hc] at hrec
    cases hrec
  have hrd2 : s2.granule (s.recs recAddr).gRd = s.granule (s.recs recAddr).gRd := by
    rw [hs2]
    exact (Function.update_of_ne hne _ _).trans (if_neg hnaux)
  refine ⟨hrd2, hrec, hcount, haux, fun g hg => ?_, ?_,
    h.rec_referenced hrec, fun g h1 h2 h3 => ?_, fun g h1 h2 => ?_, ?_, ?_, ?_, ?_⟩
  · have hgrd : g ≠ (s.recs recAddr).gRd := by
      rintro rfl
      exact hg.elim hne hnaux
    subst hs2
    by_cases hgr : g = recAddr
    · subst hgr
      refine ⟨(Function.update_of_ne hgrd _ _).trans ?_, Function.update_self ..,
        Function.update_self .., Function.update_self .., Function.update_self ..⟩
      rw [State.setState_self]
      show (⟨.DELEGATED, (if g ∈ (s.recs g).gAux then _ else s.granule g).refcount⟩ :
          Granule) = _
      rw [if_neg hrecaux, hcount]
    · have hm := hg.resolve_left hgr
      refine ⟨(Function.update_of_ne hgrd _ _).trans ((Function.update_of_ne hgr _ _).trans
          ((if_pos hm).trans ?_)), (Function.update_of_ne hgr _ _).trans (if_pos hm),
        (Function.update_of_ne hgr _ _).trans (if_pos hm),
        (Function.update_of_ne hgr _ _).trans (if_pos hm),
        (Function.update_of_ne hgr _ _).trans (if_pos hm)⟩
      show (⟨.DELEGATED, (s.granule g).refcount⟩ : Granule) = _
      rw [h.plain g (by rw [haux g hm]; rfl)]
  · rw [State.setRefcount_same, hrd2, hrd]
  · subst hs2
    exact (Function.update_of_ne h2 _ _).trans ((Function.update_of_ne h1 _ _).trans (if_neg h3))
  · subst hs2
    exact ⟨(Function.update_of_ne h1 _ _).trans (if_neg h2),
      (Function.update_of_ne h1 _ _).trans (if_neg h2),
      (Function.update_of_ne h1 _ _).trans (if_neg h2),
      (Function.update_of_ne h1 _ _).trans (if_neg h2)⟩
  all_goals
    subst hs2
    rfl

theorem smcRecDestroy_sat {plat : Platform} {s : State} {F : Tables} (h : Wf s F) (recAddr : Word) :
    Sat (smcRecDestroy plat s recAddr) (fun res => RecDestroyed s recAddr res.1 res.2.ret)
      Benign := by
  unfold smcRecDestroy
  refine findLockGranule_sat (by decide) ?_
  refine Sat.ite (fun _ => Sat.pure (.inl ⟨rfl, by simp [smcRet, rmiErrorInput, rmiSuccess]⟩))
    fun hr => ?_
  have hrec := lockable_state (by simpa using hr)
  refine Sat.ite (fun _ => Sat.pure (.inl ⟨rfl, by simp [smcRet, rmiErrorRec, rmiSuccess]⟩))
    fun hcount => ?_
  rw [not_ne_iff] at hcount
  refine freeGranules_sat (by decide) (by decide) _ fun haux => ?_
  refine granuleUnlockTransition_sat (by decide) ?_
  set s2 := (((s.memzeros (s.recs recAddr).gAux).setStates (s.recs recAddr).gAux
    .DELEGATED).memzero recAddr).setState recAddr .DELEGATED with hs2
  -- the realm's granule is untouched so far, so its reference is still there
  obtain ⟨hrd2, hfreed⟩ := freedRec_mk h hrec hcount haux hs2
  have hput : atomicGranulePut s2 (s.recs recAddr).gRd = .ok (s2.setRefcount (s.recs recAddr).gRd
      ((s2.granule (s.recs recAddr).gRd).refcount - 1)) :=
    granuleRefcountDec_ok (by rw [hrd2]; exact h.rec_referenced hrec)
  simp only [if_true]
  rw [hput, hrd2]
  exact Sat.ok_bind (Sat.pure (.inr ⟨rfl, hfreed⟩))

/-- The reference count of a REC is read by no table and by no realm. -/
theorem quiet_recCount {s : State} {recAddr : Word} (hrec : (s.granule recAddr).state = .REC)
    (c : ℕ) : Quiet s (s.setRefcount recAddr c) none none := by
  have hst : ∀ g, ((s.setRefcount recAddr c).granule g).state = (s.granule g).state := by
    intro g
    by_cases hg : g = recAddr
    · rw [hg, State.setRefcount_same]
    · rw [State.setRefcount_of_ne _ hg]
  refine ⟨fun g => by rw [hst], fun g => by rw [hst], fun _ _ => rfl, fun _ _ => rfl, ?_,
    fun g hg _ => by rw [hst, hg], fun g hg => .inl (by rwa [hst] at hg), rfl, rfl⟩
  intro g hg
  rw [State.setRefcount_of_ne]
  rintro rfl
  rw [hrec] at hg
  cases hg

theorem wf_recCount {s : State} {F : Tables} (h : Wf s F) {recAddr : Word}
    (hrec : (s.granule recAddr).state = .REC) (c : ℕ) : Wf (s.setRefcount recAddr c) F := by
  have hst : ∀ g, ((s.setRefcount recAddr c).granule g).state = (s.granule g).state := by
    intro g
    by_cases hg : g = recAddr
    · rw [hg, State.setRefcount_same]
    · rw [State.setRefcount_of_ne _ hg]
  refine (quiet_recCount hrec c).wf h ⟨fun g => by rw [hst], fun g => by rw [hst], ?_,
    fun _ _ => rfl, fun _ _ => rfl, ?_, fun g hg => h.zero g (by rwa [hst] at hg),
    fun g hg => h.scrubbed g (by rwa [hst] at hg), rfl⟩
  · intro g hg
    rw [State.setRefcount_of_ne]
    rintro rfl
    rw [hrec] at hg
    cases hg
  · intro g hg
    have hne : g ≠ recAddr := by
      rintro rfl
      rw [hst, hrec] at hg
      cases hg
    rw [State.setRefcount_of_ne _ hne] at hg ⊢
    exact h.plain g hg

/-- What `smc_rec_enter` does: nothing, or the pending RIPAS request is completed, and
on a run the REC holds a reference on itself. -/
def RecEntered (s : State) (recAddr : Word) (s' : State) : Prop :=
  s' = s ∨ ((s.granule recAddr).state = .REC ∧ (s.granule recAddr).refcount = 0 ∧ ∃ reject,
    let r := completeSetRipas { s.recs recAddr with
      setRipas := { (s.recs recAddr).setRipas with reject := reject } }
    s' = s.setRec recAddr r ∨ s' = (s.setRefcount recAddr 1).setRec recAddr r)

theorem completeSetRipas_gRd (r : Rec) : (completeSetRipas r).gRd = r.gRd := by
  unfold completeSetRipas
  split <;> rfl

theorem smcRecEnter_sat (plat : Platform) (s : State) (recAddr runAddr : Word) (entry : RecEntry)
    (reject : Bool) :
    Sat (smcRecEnter plat s recAddr runAddr entry reject) (fun res => RecEntered s recAddr res.1)
      Benign := by
  unfold smcRecEnter
  refine Sat.ite (fun _ => Sat.pure (.inl rfl)) fun _ => ?_
  refine findLockGranule_sat (by decide) ?_
  refine Sat.ite (fun _ => Sat.pure (.inl rfl)) fun hr => ?_
  have hrec := lockable_state (by simpa using hr)
  refine Sat.ite (fun _ => Sat.pure (.inl rfl)) fun hcount => ?_
  rw [not_ne_iff] at hcount
  refine Sat.ite (fun _ => Sat.pure (.inl rfl)) fun _ => ?_
  have stay : ∀ res, Sat (pure (s, res) : Rmm (State × SmcResult))
      (fun res => RecEntered s recAddr res.1) Benign := fun res => Sat.pure (.inl rfl)
  simp only
  cases (s.rd (s.recs recAddr).gRd).state with
  | NEW => exact stay _
  | SYSTEM_OFF => exact stay _
  | ACTIVE =>
    cases entry with
    | unreadable => exact stay _
    | refused => exact stay _
    | aborted =>
      refine Sat.pure ?_
      exact .inr ⟨hrec, hcount, reject, .inl rfl⟩
    | run =>
      simp only
      refine granuleRefcountInc_sat (by decide)
        (Sat.pure (.inr ⟨hrec, hcount, reject, .inr ?_⟩))
      rw [hcount]

theorem RecEntered.wf {s s' : State} {F : Tables} (h : Wf s F) {recAddr : Word}
    (hr : RecEntered s recAddr s') :
    s' = s ∨ ∃ s1, Quiet s s1 none none ∧ Wf s1 F ∧ Quiet s1 s' none none ∧ Wf s' F := by
  refine hr.imp id ?_
  rintro ⟨hrec, -, reject, rfl | rfl⟩
  · have hc := recordChange_setRec (r := completeSetRipas { s.recs recAddr with
      setRipas := { (s.recs recAddr).setRipas with reject := reject } }) hrec
      (completeSetRipas_gRd _)
    exact ⟨s, .refl s, h, hc.quiet, hc.wf h⟩
  · have hw := wf_recCount h hrec 1
    have hrec1 : ((s.setRefcount recAddr 1).granule recAddr).state = .REC := by
      rw [State.setRefcount_same, hrec]
    have hc := @recordChange_setRec (s.setRefcount recAddr 1) recAddr
      (completeSetRipas { s.recs recAddr with
        setRipas := { (s.recs recAddr).setRipas with reject := reject } }) hrec1
      (completeSetRipas_gRd _)
    exact ⟨_, quiet_recCount hrec 1, hw, hc.quiet, hc.wf hw⟩

/-- A running REC exits: its reference is there to be dropped. -/
theorem recExit_ok {s : State} {recAddr : Word} (hc : (s.granule recAddr).refcount = 1) :
    recExit s recAddr = .ok (s.setRefcount recAddr 0) := by
  unfold recExit atomicGranulePut
  rw [granuleRefcountDec_ok hc.ge, hc]

end RmmCaec
