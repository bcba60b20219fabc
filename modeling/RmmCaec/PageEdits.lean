import RmmCaec.QuietSteps

/-!
# Mapping and unmapping single pages

The two helpers that write pages into the tables of a given realm, the loop that
unmaps a range, and the rule by which a page action is mirrored into the
partners of a shared region.
-/
namespace RmmCaec

open RadixForest Outcome

/-- The faults other than the two that are never reached in a run with intact
tables. -/
def Benign (f : Fault) : Prop := f ≠ .refcountUnderflow ∧ f ≠ .dataNotData

instance : DecidablePred Benign := fun f => by unfold Benign; infer_instance

/-- The leaf at an address, if it is a page, satisfies a property. -/
def PageAt (F : Tables) (rd : Word) (a : ℕ) (P : Entry → Prop) : Prop :=
  ∀ t n i, IsLeaf F rd a t n i → n.height = 0 → P (n.slot i)

theorem granuleUnlock_sat {s : State} {addr : Word} {α : Type} {k : Unit → Rmm α}
    {Q : α → Prop}
    {E : Fault → Prop} (hE : E .unlockInvariant) (hk : Sat (k ()) Q E) :
    Sat (granuleUnlock s addr >>= k) Q E :=
  assertThat_sat (fun _ => hE) fun _ => hk

theorem granuleUnlockTransition_sat {s : State} {addr : Word} {st : GranuleState} {α : Type}
    {k : State → Rmm α} {Q : α → Prop} {E : Fault → Prop} (hE : E .unlockInvariant)
    (hk : Sat (k (s.setState addr st)) Q E) :
    Sat (granuleUnlockTransition s addr st >>= k) Q E := by
  unfold granuleUnlockTransition
  rw [bind_assoc]
  exact granuleUnlock_sat hE hk

theorem granuleRefcountInc_sat {s : State} {addr : Word} {c : ℕ} {α : Type}
    {k : State → Rmm α}
    {Q : α → Prop} {E : Fault → Prop} (hE : E .refcountOverflow)
    (hk : Sat (k (s.setRefcount addr ((s.granule addr).refcount + c))) Q E) :
    Sat (granuleRefcountInc s addr c >>= k) Q E := by
  unfold granuleRefcountInc
  rw [bind_assoc]
  exact assertThat_sat (fun _ => hE) fun _ => hk

theorem granuleRefcountDec_ok {s : State} {addr : Word} {c : ℕ}
    (h : c ≤ (s.granule addr).refcount) :
    granuleRefcountDec s addr c = .ok (s.setRefcount addr ((s.granule addr).refcount - c)) := by
  simp [granuleRefcountDec, assertThat, h]

theorem levelOf_eq_page {h : ℕ} (hl : levelOf h = s2ttPageLevel) : h = 0 := by
  unfold levelOf s2ttPageLevel at hl
  omega

theorem setRefcount_self (s : State) (t : Word) : s.setRefcount t (s.granule t).refcount = s := by
  unfold State.setRefcount
  rw [show ({ s.granule t with refcount := (s.granule t).refcount } : Granule) =
    s.granule t from rfl,
    Function.update_eq_self]

section

variable {s : State} {F : Tables} {rd : Word}

theorem mapIpaToPa_sat (h : Wf s F) (hrd : (s.granule rd).state = .RD) (pa ipa : Word) :
    Sat (mapIpaToPa s (s.rd rd).s2Ctx pa ipa) (fun s' =>
      (ipa.toNat < 2 ^ (s.rd rd).s2Ctx.ipaBits ∧ ∃ t n i F', n.owner = rd ∧ n.height = 0 ∧
        EditStep s F t n i ipa.toNat (.mirror pa) s' F') ∨
      (s' = s ∧ PageAt F rd ipa.toNat fun _ => False)) Benign := by
  unfold mapIpaToPa
  refine Sat.bind (h.holds.walk_sat hrd s2ttPageLevel (by decide)) ?_
  rintro wi ⟨n, hw, ha, -, -, hstop⟩
  have hleaf := h.holds.walked_isLeaf hw hstop
  refine Sat.ite (fun hne => ?_) fun heq => ?_
  · refine Sat.pure (.inr ⟨rfl, fun t m i hm h0 => ?_⟩)
    obtain ⟨-, rfl, -⟩ := h.holds.leaf_unique hm hleaf
    exact hne (by rw [hw.level, h0]; rfl)
  · rw [not_ne_iff] at heq
    have h0 : n.height = 0 := levelOf_eq_page (hw.level ▸ heq)
    refine assertThat_sat (fun _ => by decide) fun hok => ?_
    refine granuleRefcountInc_sat (by decide) ?_
    refine granuleUnlock_sat (by decide) (Sat.pure ?_)
    have hv : (Entry.assigned .RAM pa).Valid (s.rd rd).s2Ctx (levelOf n.height) := by
      simp only [s2tteCreateAssignedOk, Bool.and_eq_true, decide_eq_true_eq] at hok
      rw [h0]
      exact ⟨by decide, by decide, hok.2⟩
    have hst := editState_step h.holds (.mirror pa) (some ipa)
      ((s.granule wi.gLlt).refcount + 1) hleaf hleaf.leaf hv rfl
      (fun _ _ => ⟨ipa, rfl⟩) (fun addr hp => by cases hp; rfl)
    rw [← hw.level, heq] at hst
    exact .inl ⟨ha, wi.gLlt, n, wi.index, _, hw.owner, h0, hst⟩

/-- Dropping the reference of an assigned entry after overwriting it. -/
theorem remove_put (h : Wf s F) {t : Word} {n : Table} {i a : ℕ} {r : Ripas} {q : Word}
    (purge : Option Word) (hl : IsLeaf F rd a t n i) (he : n.slot i = .assigned r q)
    (hram : r = .RAM → ∃ addr, purge = some addr)
    (hp : ∀ addr, purge = some addr → addr.toNat = a) :
    ∃ s', atomicGranulePut (writeState s (s.rd rd).s2Ctx t i
        ((Edit.remove.apply (.assigned r q)).word (s.rd rd).s2Ctx (levelOf n.height)) purge) t =
          .ok s' ∧
      EditStep s F t n i a .remove s' (F.setSlot t i (Edit.remove.apply (.assigned r q))) := by
  -- a live entry holds a reference, so the count can be dropped
  have hge : 1 ≤ (s.granule t).refcount := by
    have hpos : (n.slot i).refs ≤ liveCount n :=
      Finset.single_le_sum (f := fun j => (n.slot j).refs) (fun _ _ => Nat.zero_le _)
        (Finset.mem_range.mpr hl.index)
    rw [he] at hpos
    exact hpos.trans (h.counts _ n hl.table)
  have hv : (Edit.remove.apply (n.slot i)).Valid (s.rd rd).s2Ctx (levelOf n.height) := by
    rw [he]
    cases r <;> trivial
  have hst := editState_step h.holds .remove purge ((s.granule t).refcount - 1) hl
    ⟨r, q, he⟩ hv (by simp only [Edit.drops, Edit.adds]; omega)
    (fun ho _ => by
      rw [he] at ho
      cases r with
      | RAM => exact hram rfl
      | EMPTY => exact absurd rfl ho
      | DESTROYED => exact absurd rfl ho) hp
  rw [he] at hst
  refine ⟨_, granuleRefcountDec_ok (by rw [writeState_granule]; exact hge), ?_⟩
  rw [writeState_granule]
  exact hst

theorem unmapIpaFromRd_sat (h : Wf s F) (hrd : (s.granule rd).state = .RD) (ipa : Word) :
    Sat (unmapIpaFromRd s (s.rd rd).s2Ctx ipa) (fun s' =>
      (∃ t n i F', n.owner = rd ∧ n.height = 0 ∧
        EditStep s F t n i ipa.toNat .remove s' F') ∨
      (s' = s ∧ PageAt F rd ipa.toNat fun e => ∀ r pa, e ≠ .assigned r pa)) Benign := by
  unfold unmapIpaFromRd
  refine Sat.bind (h.holds.walk_sat hrd s2ttPageLevel (by decide)) ?_
  rintro wi ⟨n, hw, -, -, -, hstop⟩
  have hleaf := h.holds.walked_isLeaf hw hstop
  refine Sat.ite (fun hne => ?_) fun heq => ?_
  · refine Sat.pure (.inr ⟨rfl, fun t m i hm h0 => ?_⟩)
    obtain ⟨-, rfl, -⟩ := h.holds.leaf_unique hm hleaf
    exact absurd (by rw [hw.level, h0]; rfl) hne
  rw [not_ne_iff, hw.level] at heq
  have h0 : n.height = 0 := levelOf_eq_page heq
  obtain ⟨hv, hword⟩ := h.holds.word _ n hleaf.table _ hleaf.index
  rw [heq, hw.owner] at hv hword
  simp only [hword]
  refine Sat.ite (fun hram => ?_) fun hram => ?_
  · obtain ⟨q, he⟩ := (Entry.isAssignedRam_word hv).mp hram
    obtain ⟨s', hs', hst⟩ := remove_put h (some ipa) hleaf he (fun _ => ⟨ipa, rfl⟩)
      (by rintro addr ⟨⟩; rfl)
    exact Sat.of_eq hs' (.inl ⟨_, n, _, _, hw.owner, h0, hst⟩)
  refine Sat.ite (fun hd => ?_) fun hd => ?_
  · obtain ⟨q, he⟩ := (Entry.isAssignedDestroyed_word hv).mp hd
    obtain ⟨s', hs', hst⟩ := remove_put h none hleaf he (by rintro ⟨⟩)
      (by rintro addr ⟨⟩)
    exact Sat.of_eq hs' (.inl ⟨_, n, _, _, hw.owner, h0, hst⟩)
  refine Sat.ite (fun hm => ?_) fun hm => ?_
  · obtain ⟨q, he⟩ := (Entry.isAssignedEmpty_word hv).mp hm
    obtain ⟨s', hs', hst⟩ := remove_put h none hleaf he (by rintro ⟨⟩)
      (by rintro addr ⟨⟩)
    exact Sat.of_eq hs' (.inl ⟨_, n, _, _, hw.owner, h0, hst⟩)
  · refine Sat.pure (.inr ⟨rfl, fun t m i hl' _ r pa he => ?_⟩)
    obtain ⟨-, rfl, rfl⟩ := h.holds.leaf_unique hl' hleaf
    cases r with
    | RAM => exact hram ((Entry.isAssignedRam_word hv).mpr ⟨pa, he⟩)
    | EMPTY => exact hm ((Entry.isAssignedEmpty_word hv).mpr ⟨pa, he⟩)
    | DESTROYED => exact hd ((Entry.isAssignedDestroyed_word hv).mpr ⟨pa, he⟩)

end

/-- Granule states and all records outside the tables are the same. -/
structure SameAll (s s' : State) : Prop where
  state : ∀ g, (s'.granule g).state = (s.granule g).state
  granule : ∀ g, (s.granule g).state ≠ .RTT → s'.granule g = s.granule g
  words : ∀ g, (s.granule g).state ≠ .RTT → s'.rtt g = s.rtt g
  rd : s'.rd = s.rd
  recs : s'.recs = s.recs
  apt : s'.apt = s.apt
  tags : s'.tags = s.tags
  csmIds : s'.csmIds = s.csmIds
  vmids : s'.vmids = s.vmids

theorem SameAll.refl (s : State) : SameAll s s :=
  ⟨fun _ => rfl, fun _ _ => rfl, fun _ _ => rfl, rfl, rfl, rfl, rfl, rfl, rfl⟩

theorem SameAll.trans {s s1 s' : State} (h : SameAll s s1) (h' : SameAll s1 s') : SameAll s s' where
  state g := (h'.state g).trans (h.state g)
  granule g hg := (h'.granule g (by rwa [h.state])).trans (h.granule g hg)
  words g hg := (h'.words g (by rwa [h.state])).trans (h.words g hg)
  rd := h'.rd.trans h.rd
  recs := h'.recs.trans h.recs
  apt := h'.apt.trans h.apt
  tags := h'.tags.trans h.tags
  csmIds := h'.csmIds.trans h.csmIds
  vmids := h'.vmids.trans h.vmids

theorem EditStep.sameAll {s s' : State} {F F' : Tables} {t : Word} {n : Table}
    {i a : ℕ} {e : Edit}
    (h : Holds s F) (st : EditStep s F t n i a e s' F') : SameAll s s' where
  state := st.sameState h
  granule g hg := st.granule g (by rintro rfl; exact hg (h.node st.leaf.table).1)
  words g hg := by
    rw [st.rtt, Function.update_of_ne]
    rintro rfl
    exact hg (h.node st.leaf.table).1
  rd := st.rd
  recs := st.recs
  apt := st.apt
  tags := st.tags
  csmIds := st.csmIds
  vmids := st.vmids

/-- The assigned pages at a list of places were removed, one by one. -/
structure Removed (s : State) (F : Tables) (places : List (Word × Word)) (s' : State)
    (F' : Tables) : Prop where
  wf : Wf s' F'
  micros : ∃ ls, Micros s F ls s' F' ∧
    ∀ l ∈ ls, ∃ p ∈ places, ∃ old, l = .edit p.1 p.2.toNat 0 old .remove
  same : SameAll s s'
  cleared : ∀ p ∈ places, PageAt F' p.1 p.2.toNat fun e => ∀ r pa, e ≠ .assigned r pa
  nodes : ∀ t n', F' t = some n' → ∃ n, F t = some n ∧ n'.owner = n.owner ∧
    n'.height = n.height ∧ n'.base = n.base ∧ ∀ i, n'.slot i = n.slot i ∨
      (n.height = 0 ∧ (∃ r pa, n.slot i = .assigned r pa) ∧
        n'.slot i = Edit.remove.apply (n.slot i) ∧
        ∃ p ∈ places, p.1 = n.owner ∧ n.SlotCovers rttShape i p.2.toNat)

theorem Removed.refl {s : State} {F : Tables} (h : Wf s F) : Removed s F [] s F where
  wf := h
  micros := ⟨[], .nil, by simp⟩
  same := .refl s
  cleared := by simp
  nodes t n hn := ⟨n, hn, rfl, rfl, rfl, fun _ => .inl rfl⟩

/-- A leaf of the forest before the removal is at the same place afterwards. -/
theorem setSlot_isLeaf {F : Tables} {t : Word} {i : ℕ} {e : Entry} {rd : Word}
    {a : ℕ} {t' : Word}
    {n' : Table} {i' : ℕ} (hlink : ∀ n, F t = some n → (n.slot i).link = none)
    (hl : IsLeaf (F.setSlot t i e) rd a t' n' i') :
    ∃ n, IsLeaf F rd a t' n i' ∧ n'.height = n.height ∧ n'.base = n.base ∧
      n'.slot i' = if t' = t ∧ i' = i then e else n.slot i' := by
  obtain ⟨n, hn, ho, hh, hb, hs⟩ := Forest.setSlot_inv hl.table
  refine ⟨n, ⟨hn, ho.symm.trans hl.owner, hl.index, ?_, ?_⟩, hh, hb, hs i'⟩
  · have := hl.covers
    unfold Node.SlotCovers Node.slotBase at this ⊢
    rwa [hb, hh] at this
  · by_cases hc : t' = t ∧ i' = i
    · obtain ⟨rfl, rfl⟩ := hc
      exact hlink n hn
    · have := hl.leaf
      rwa [hs, if_neg hc] at this

/-- Removed pages stay removed when another page is removed. -/
theorem PageAt.remove {F F' : Tables} {s s' : State} {t : Word} {n : Table} {i a : ℕ} {rd : Word}
    {b : ℕ} (hp : PageAt F rd b fun e => ∀ r pa, e ≠ .assigned r pa)
    (st : EditStep s F t n i a .remove s' F') :
    PageAt F' rd b fun e => ∀ r pa, e ≠ .assigned r pa := by
  intro t' n' i' hl h0
  rw [st.forest] at hl
  obtain ⟨n0, hl0, hh, -, hs⟩ := setSlot_isLeaf (fun m hm => by
    rw [st.leaf.table] at hm
    cases hm
    exact st.allowed.link) hl
  rw [hs]
  split
  · obtain ⟨r, pa, he⟩ := st.allowed
    rw [he]
    intro r' pa' hc
    cases r <;> cases hc
  · exact hp t' n0 i' hl0 (hh ▸ h0)

theorem Removed.snoc {s s1 s' : State} {F F1 : Tables} {places : List (Word × Word)}
    {rd ipa : Word}
    (h : Removed s F places s1 F1)
    (hs : (∃ t n i F', n.owner = rd ∧ n.height = 0 ∧
      EditStep s1 F1 t n i ipa.toNat .remove s' F') ∨
      (s' = s1 ∧ PageAt F1 rd ipa.toNat fun e => ∀ r pa, e ≠ .assigned r pa)) :
    ∃ F', Removed s F (places ++ [(rd, ipa)]) s' F' := by
  obtain ⟨ls, hls, hlab⟩ := h.micros
  rcases hs with ⟨t, n, i, F', ho, h0, st⟩ | ⟨rfl, hpage⟩
  · refine ⟨F', st.wf h.wf, ⟨ls ++ [.edit rd ipa.toNat 0 (n.slot i) .remove], ?_, ?_⟩,
      h.same.trans (st.sameAll h.wf.holds), ?_, ?_⟩
    · have hm : Micro s1 F1 (.edit n.owner ipa.toNat n.height (n.slot i) .remove) s' F' :=
        .edit st (by rintro pa ⟨⟩)
      rw [ho, h0] at hm
      exact hls.append (.single h.wf hm)
    · intro l hl
      rcases List.mem_append.mp hl with hl | hl
      · obtain ⟨p, hp, old, rfl⟩ := hlab l hl
        exact ⟨p, List.mem_append_left _ hp, old, rfl⟩
      · rw [List.mem_singleton] at hl
        exact ⟨(rd, ipa), by simp, n.slot i, hl⟩
    · intro p hp
      rcases List.mem_append.mp hp with hp | hp
      · exact (h.cleared p hp).remove st
      · rw [List.mem_singleton] at hp
        subst hp
        -- the leaf at the place is the one just rewritten
        intro t' n' i' hl' _
        rw [st.forest] at hl'
        obtain ⟨n0, hl0, -, -, hs'⟩ := setSlot_isLeaf (fun m hm => by
          rw [st.leaf.table] at hm
          cases hm
          exact st.allowed.link) hl'
        have hleaf := st.leaf
        rw [ho] at hleaf
        obtain ⟨rfl, rfl, rfl⟩ := h.wf.holds.leaf_unique hl0 hleaf
        rw [hs', if_pos ⟨rfl, rfl⟩]
        obtain ⟨r, pa, he⟩ := st.allowed
        rw [he]
        intro r' pa' hc
        cases r <;> cases hc
    · intro t' n' hn'
      rw [st.forest] at hn'
      obtain ⟨n1, hn1, ho1, hh1, hb1, hs1⟩ := Forest.setSlot_inv hn'
      obtain ⟨n0, hn0, ho0, hh0, hb0, hs0⟩ := h.nodes t' n1 hn1
      refine ⟨n0, hn0, ho1.trans ho0, hh1.trans hh0, hb1.trans hb0, fun j => ?_⟩
      by_cases hc : t' = t ∧ j = i
      · obtain ⟨rfl, rfl⟩ := hc
        rw [st.leaf.table] at hn1
        cases hn1
        rw [hs1, if_pos ⟨rfl, rfl⟩]
        obtain ⟨r, pa, he⟩ := st.allowed
        -- an entry that is assigned now was not removed before
        rcases hs0 j with heq | ⟨-, -, hrem, -⟩
        · refine .inr ⟨hh0 ▸ h0, ⟨r,
            pa, by rw [← heq, he]⟩, by rw [heq], (rd, ipa), by simp,
            by rw [← ho0, ho], ?_⟩
          have hcov := st.leaf.covers
          unfold Node.SlotCovers Node.slotBase at hcov ⊢
          rwa [hb0, hh0] at hcov
        · rw [he] at hrem
          exfalso
          revert hrem
          cases n0.slot j with
          | assigned r0 q0 => cases r0 <;> simp [Edit.apply]
          | _ => simp [Edit.apply]
      · rw [hs1, if_neg hc]
        refine (hs0 j).imp id ?_
        rintro ⟨h1, h2, h3, p, hp, h4⟩
        exact ⟨h1, h2, h3, p, List.mem_append_left _ hp, h4⟩
  · refine ⟨F1, h.wf, ⟨ls, hls, ?_⟩, h.same, ?_, ?_⟩
    · intro l hl
      obtain ⟨p, hp, old, rfl⟩ := hlab l hl
      exact ⟨p, List.mem_append_left _ hp, old, rfl⟩
    · intro p hp
      rcases List.mem_append.mp hp with hp | hp
      · exact h.cleared p hp
      · rw [List.mem_singleton] at hp
        subst hp
        exact hpage
    · intro t n' hn'
      obtain ⟨n, hn, ho, hh, hb, hs⟩ := h.nodes t n' hn'
      refine ⟨n, hn, ho, hh, hb, fun j => (hs j).imp id ?_⟩
      rintro ⟨h1, h2, h3, p, hp, h4⟩
      exact ⟨h1, h2, h3, p, List.mem_append_left _ hp, h4⟩

theorem unmapRange_sat {s : State} {F : Tables} {rd : Word} (h : Wf s F)
    (hrd : (s.granule rd).state = .RD) (start size : Word) :
    Sat (unmapRange s (s.rd rd).s2Ctx start size)
      (fun s' => ∃ F', Removed s F ((rangePages start size).map fun ipa => (rd, ipa)) s' F')
      Benign := by
  unfold unmapRange
  refine Sat.foldlM (fun done cur => ∃ F', Removed s F (done.map fun ipa => (rd, ipa)) cur F') _
    ⟨F, .refl h⟩ ?_
  rintro done ipa rest cur - ⟨F1, hF1⟩
  have hrd1 : (cur.granule rd).state = .RD := by rw [hF1.same.state, hrd]
  have hsat := unmapIpaFromRd_sat hF1.wf hrd1 ipa
  rw [hF1.same.rd] at hsat
  refine hsat.imp fun s' hs' => ?_
  rw [List.map_append]
  exact hF1.snoc hs'

/-- Two places lie in one page of one realm. -/
def SamePage (p q : Word × Word) : Prop := p.1 = q.1 ∧ p.2.toNat / 4096 = q.2.toNat / 4096

instance (p q : Word × Word) : Decidable (SamePage p q) := by unfold SamePage; infer_instance

/-- Pages were mapped over what stood at some of a list of places; `R` relates a
place to the physical page written there. -/
structure Mirrored (s : State) (F : Tables) (R : Word × Word → Word → Prop)
    (places : List (Word × Word)) (s' : State) (F' : Tables) : Prop where
  wf : Wf s' F'
  same : SameAll s s'
  micros : ∃ ls, Micros s F ls s' F' ∧ ∀ l ∈ ls, ∃ p ∈ places, ∃ old pa,
    l = .edit p.1 p.2.toNat 0 old (.mirror pa) ∧ R p pa ∧
    p.2.toNat < 2 ^ (s.rd p.1).s2Ctx.ipaBits ∧
    (places.Pairwise (fun p q => ¬ SamePage p q) →
      ∃ t n i, IsLeaf F p.1 p.2.toNat t n i ∧ n.height = 0 ∧ n.slot i = old)
  untouched : ∀ rd a t n' i, IsLeaf F' rd a t n' i →
    (∀ q ∈ places, ¬ (q.1 = rd ∧ q.2.toNat / 4096 = a / 4096)) →
    ∃ n, IsLeaf F rd a t n i ∧ n.height = n'.height ∧ n.slot i = n'.slot i
  nodes : ∀ t n', F' t = some n' → ∃ n, F t = some n ∧ n'.owner = n.owner ∧
    n'.height = n.height ∧ n'.base = n.base ∧ ∀ i, n'.slot i = n.slot i ∨
      (n.height = 0 ∧ (n.slot i).link = none ∧ ∃ p ∈ places, p.1 = n.owner ∧
        n.SlotCovers rttShape i p.2.toNat ∧ ∃ pa, R p pa ∧ n'.slot i = .assigned .RAM pa)
  mapped : ∀ p ∈ places, PageAt F' p.1 p.2.toNat fun e =>
    ∃ q ∈ places, SamePage p q ∧ ∃ pa, R q pa ∧ e = .assigned .RAM pa

theorem Mirrored.refl {s : State} {F : Tables} {R : Word × Word → Word → Prop} (h : Wf s F) :
    Mirrored s F R [] s F where
  wf := h
  same := .refl s
  micros := ⟨[], .nil, by simp⟩
  untouched rd a t n i hl _ := ⟨n, hl, rfl, rfl⟩
  nodes t n hn := ⟨n, hn, rfl, rfl, rfl, fun _ => .inl rfl⟩
  mapped := by simp

/-- The addresses of a page slot lie in one page. -/
theorem slotCovers_page {s : State} {F : Tables} (h : Holds s F) {t : Word}
    {n : Table} {i a b : ℕ}
    (ht : F t = some n) (h0 : n.height = 0) (ha : n.SlotCovers rttShape i a)
    (hb : n.SlotCovers rttShape i b) : a / 4096 = b / 4096 := by
  obtain ⟨_, _, _, _, ⟨q, hq⟩, _⟩ := h.node ht
  obtain ⟨ha1, ha2⟩ := ha
  obtain ⟨hb1, hb2⟩ := hb
  unfold Node.slotBase at *
  have h1 : rttShape.span 1 = 4096 * 512 := by decide
  rw [h0, rttShape_span_zero] at *
  rw [h1] at hq
  omega

theorem Mirrored.snoc {s s1 s' : State} {F F1 : Tables} {R : Word × Word → Word → Prop}
    {places : List (Word × Word)} {rd ipa pa : Word} (h : Mirrored s F R places s1 F1)
    (hR : R (rd, ipa) pa)
    (hsrc : (s1.granule pa).state = .DATA ∨
      ∃ t' m j, F1 t' = some m ∧ j < 512 ∧ (m.slot j).Names m.height pa)
    (hs : (ipa.toNat < 2 ^ (s1.rd rd).s2Ctx.ipaBits ∧ ∃ t n i F', n.owner = rd ∧
      n.height = 0 ∧
        EditStep s1 F1 t n i ipa.toNat (.mirror pa) s' F') ∨
      (s' = s1 ∧ PageAt F1 rd ipa.toNat fun _ => False)) :
    ∃ F', Mirrored s F R (places ++ [(rd, ipa)]) s' F' := by
  obtain ⟨ls, hls, hlab⟩ := h.micros
  -- labels of the earlier places keep what they say
  have hold : ∀ l ∈ ls, ∃ p ∈ places ++ [(rd, ipa)], ∃ old pa,
      l = .edit p.1 p.2.toNat 0 old (.mirror pa) ∧ R p pa ∧
      p.2.toNat < 2 ^ (s.rd p.1).s2Ctx.ipaBits ∧
      ((places ++ [(rd, ipa)]).Pairwise (fun p q => ¬ SamePage p q) →
        ∃ t n i, IsLeaf F p.1 p.2.toNat t n i ∧ n.height = 0 ∧ n.slot i = old) := by
    intro l hl
    obtain ⟨p, hp, old, pa', hl', hR', hlt, hpre⟩ := hlab l hl
    exact ⟨p, List.mem_append_left _ hp, old, pa', hl', hR', hlt,
      fun hpw => hpre (List.pairwise_append.mp hpw).1⟩
  rcases hs with ⟨ha, t, n, i, F', ho, h0, st⟩ | ⟨rfl, hpage⟩
  · have hlink : ∀ m, F1 t = some m → (m.slot i).link = none := by
      intro m hm
      rw [st.leaf.table] at hm
      cases hm
      exact st.allowed.link
    refine ⟨F', st.wf h.wf, h.same.trans (st.sameAll h.wf.holds),
      ⟨ls ++ [.edit rd ipa.toNat 0 (n.slot i) (.mirror pa)], ?_, ?_⟩, ?_, ?_, ?_⟩
    · have hm : Micro s1 F1 (.edit n.owner ipa.toNat n.height (n.slot i) (.mirror pa)) s' F' :=
        .edit st (by rintro pa' ⟨⟩; exact hsrc)
      rw [ho, h0] at hm
      exact hls.append (.single h.wf hm)
    · intro l hl
      rcases List.mem_append.mp hl with hl | hl
      · exact hold l hl
      · rw [List.mem_singleton] at hl
        refine ⟨(rd, ipa), by simp, n.slot i, pa, hl, hR, ?_, fun hpw => ?_⟩
        · rw [← h.same.rd]
          exact ha
        · have hleaf := st.leaf
          rw [ho] at hleaf
          obtain ⟨n0, hl0, hh, hs⟩ := h.untouched rd ipa.toNat t n i hleaf (fun q hq hc =>
            (List.pairwise_append.mp hpw).2.2 q hq (rd, ipa) (by simp) hc)
          exact ⟨t, n0, i, hl0, hh.trans h0, hs⟩
    · intro rd' a t' n' i' hl' hq
      rw [st.forest] at hl'
      obtain ⟨n1, hl1, hh1, hb1, hs1⟩ := setSlot_isLeaf hlink hl'
      obtain ⟨n0, hl0, hh0, hs0⟩ := h.untouched rd' a t' n1 i' hl1
        (fun q hq' => hq q (List.mem_append_left _ hq'))
      refine ⟨n0, hl0, hh0.trans hh1.symm, ?_⟩
      rw [hs0, hs1, if_neg]
      rintro ⟨rfl, rfl⟩
      have hn1 := hl1.table
      rw [st.leaf.table] at hn1
      cases hn1
      refine hq (rd, ipa) (by simp) ⟨?_, slotCovers_page h.wf.holds st.leaf.table h0
        st.leaf.covers hl1.covers⟩
      rw [← ho, hl1.owner]
    · intro t' n' hn'
      rw [st.forest] at hn'
      obtain ⟨n1, hn1, ho1, hh1, hb1, hs1⟩ := Forest.setSlot_inv hn'
      obtain ⟨n0, hn0, ho0, hh0, hb0, hs0⟩ := h.nodes t' n1 hn1
      refine ⟨n0, hn0, ho1.trans ho0, hh1.trans hh0, hb1.trans hb0, fun j => ?_⟩
      by_cases hc : t' = t ∧ j = i
      · obtain ⟨rfl, rfl⟩ := hc
        rw [st.leaf.table] at hn1
        cases hn1
        have hl0 : (n0.slot j).link = none := by
          rcases hs0 j with heq | ⟨_, hl, _⟩
          · rw [← heq]
            exact st.allowed.link
          · exact hl
        refine .inr ⟨hh0 ▸ h0, hl0, (rd, ipa), by simp, by rw [← ho0, ho], ?_, pa, hR, ?_⟩
        · have hcov := st.leaf.covers
          unfold Node.SlotCovers Node.slotBase at hcov ⊢
          rwa [hb0, hh0] at hcov
        · rw [hs1, if_pos ⟨rfl, rfl⟩]
          rfl
      · rw [hs1, if_neg hc]
        refine (hs0 j).imp id ?_
        rintro ⟨h1, h2, p, hp, h3⟩
        exact ⟨h1, h2, p, List.mem_append_left _ hp, h3⟩
    · intro p hp t' n' i' hl' h0'
      rw [st.forest] at hl'
      obtain ⟨n1, hl1, hh1, hb1, hs1⟩ := setSlot_isLeaf hlink hl'
      by_cases hc : t' = t ∧ i' = i
      · -- the page just written
        obtain ⟨rfl, rfl⟩ := hc
        have hn1 := hl1.table
        rw [st.leaf.table] at hn1
        cases hn1
        refine ⟨(rd, ipa), by simp, ⟨by rw [← ho, hl1.owner], slotCovers_page h.wf.holds
          st.leaf.table h0 hl1.covers st.leaf.covers⟩, pa, hR, ?_⟩
        rw [hs1, if_pos ⟨rfl, rfl⟩]
        rfl
      · rw [hs1, if_neg hc]
        rcases List.mem_append.mp hp with hp | hp
        · obtain ⟨q, hq, h1⟩ := h.mapped p hp t' n1 i' hl1 (hh1 ▸ h0')
          exact ⟨q, List.mem_append_left _ hq, h1⟩
        · rw [List.mem_singleton] at hp
          subst hp
          have hleaf := st.leaf
          rw [ho] at hleaf
          obtain ⟨rfl, -, rfl⟩ := h.wf.holds.leaf_unique hl1 hleaf
          exact absurd ⟨rfl, rfl⟩ hc
  · refine ⟨F1, h.wf, h.same, ⟨ls, hls, hold⟩, ?_, ?_, ?_⟩
    · intro rd' a t' n' i' hl' hq
      exact h.untouched rd' a t' n' i' hl' (fun q hq' => hq q (List.mem_append_left _ hq'))
    · intro t' n' hn'
      obtain ⟨n0, hn0, ho, hh, hb, hs⟩ := h.nodes t' n' hn'
      refine ⟨n0, hn0, ho, hh, hb, fun j => (hs j).imp id ?_⟩
      rintro ⟨h1, h2, p, hp, h3⟩
      exact ⟨h1, h2, p, List.mem_append_left _ hp, h3⟩
    · intro p hp t' n' i' hl' h0'
      rcases List.mem_append.mp hp with hp | hp
      · obtain ⟨q, hq, h1⟩ := h.mapped p hp t' n' i' hl' h0'
        exact ⟨q, List.mem_append_left _ hq, h1⟩
      · rw [List.mem_singleton] at hp
        subst hp
        exact (hpage t' n' i' hl' h0').elim

end RmmCaec
