import RmmCaec.WellFormed

/-!
# Rewriting one leaf

Every handler that changes a mapping without changing the tree does it by
rewriting leaves: creating and destroying data, mirroring a page into a sharing
partner, changing RIPAS and mapping unprotected memory. An edit says what
happens to the abstract entry; an edit step says what happens to the state.
-/
namespace RmmCaec

open RadixForest Outcome

/-- The ways of rewriting a leaf. -/
inductive Edit
  | assign (r : Ripas) (pa : Word)
  | mirror (pa : Word)
  | remove
  | ripas (r : Ripas)
  | mapNs (desc : Word)
  | unmapNs
  | keep
  deriving DecidableEq

namespace Edit

def apply : Edit → Entry → Entry
  | assign r pa, _ => .assigned r pa
  | mirror pa, _ => .assigned .RAM pa
  | remove, .assigned .EMPTY _ => .unassigned .EMPTY
  | remove, _ => .unassigned .DESTROYED
  | ripas r, .assigned _ pa => .assigned r pa
  | ripas r, _ => .unassigned r
  | mapNs desc, _ => .assignedNs desc
  | unmapNs, _ => .unassignedNs
  | keep, e => e

/-- The entries on which the monitor performs an edit. -/
def Allowed : Edit → Entry → Prop
  | assign _ _, e => (∃ r, e = .unassigned r) ∨ e = .unassignedNs
  | mirror _, e => e.link = none
  | remove, e => ∃ r pa, e = .assigned r pa
  | ripas _, e => (∃ r, e = .unassigned r) ∨ ∃ r pa, e = .assigned r pa
  | mapNs _, e => e = .unassignedNs
  | unmapNs, e => ∃ desc, e = .assignedNs desc
  | keep, e => e.link = none

/-- References that the monitor takes on the table. -/
def adds : Edit → ℕ
  | assign _ _ => 1
  | mirror _ => 1
  | _ => 0

/-- References that the monitor drops from the table. -/
def drops : Edit → ℕ
  | remove => 1
  | _ => 0

/-- References that stay behind when an assigned page is overwritten. -/
def leftover : Edit → Entry → ℕ
  | mirror _, e => e.refs
  | _, _ => 0

theorem Allowed.link {e : Edit} {old : Entry} (h : e.Allowed old) : old.link = none := by
  cases e with
  | assign r pa => rcases h with ⟨r', rfl⟩ | rfl <;> rfl
  | mirror pa => exact h
  | remove => obtain ⟨r, pa, rfl⟩ := h; rfl
  | ripas r => rcases h with ⟨r', rfl⟩ | ⟨r', pa, rfl⟩ <;> rfl
  | mapNs desc => cases h; rfl
  | unmapNs => obtain ⟨desc, rfl⟩ := h; rfl
  | keep => exact h

theorem Allowed.link_apply {e : Edit} {old : Entry} (h : e.Allowed old) :
    (e.apply old).link = none := by
  cases e with
  | assign r pa => rfl
  | mirror pa => rfl
  | remove => obtain ⟨r, pa, rfl⟩ := h; cases r <;> rfl
  | ripas r => rcases h with ⟨r', rfl⟩ | ⟨r', pa, rfl⟩ <;> rfl
  | mapNs desc => rfl
  | unmapNs => rfl
  | keep => exact h

/-- References taken and dropped balance the change of the entry, up to what an
overwritten page leaves behind. -/
theorem Allowed.balance {e : Edit} {old : Entry} (h : e.Allowed old) :
    (e.apply old).refs + e.drops + e.leftover old = old.refs + e.adds := by
  cases e with
  | assign r pa => rcases h with ⟨r', rfl⟩ | rfl <;> rfl
  | mirror pa => simp [apply, Entry.refs, drops, leftover, adds, Nat.add_comm]
  | remove => obtain ⟨r, pa, rfl⟩ := h; cases r <;> rfl
  | ripas r => rcases h with ⟨r', rfl⟩ | ⟨r', pa, rfl⟩ <;> rfl
  | mapNs desc => cases h; rfl
  | unmapNs => obtain ⟨desc, rfl⟩ := h; rfl
  | keep => simp [apply, drops, leftover, adds]

end Edit

/-- One leaf of the tables is rewritten, at the slot that covers address `a`. -/
structure EditStep (s : State) (F : Tables) (t : Word) (n : Table) (i a : ℕ) (e : Edit)
    (s' : State) (F' : Tables) : Prop where
  leaf : IsLeaf F n.owner a t n i
  allowed : e.Allowed (n.slot i)
  valid : (e.apply (n.slot i)).Valid (s.rd n.owner).s2Ctx (levelOf n.height)
  forest : F' = F.setSlot t i (e.apply (n.slot i))
  state : (s'.granule t).state = .RTT
  count : (s'.granule t).refcount + e.drops = (s.granule t).refcount + e.adds
  granule : ∀ g, g ≠ t → s'.granule g = s.granule g
  rtt : s'.rtt = Function.update s.rtt t (Function.update (s.rtt t) i
    ((e.apply (n.slot i)).word (s.rd n.owner).s2Ctx (levelOf n.height)))
  rd : s'.rd = s.rd
  recs : s'.recs = s.recs
  apt : s'.apt = s.apt
  tags : s'.tags = s.tags
  csmIds : s'.csmIds = s.csmIds
  vmids : s'.vmids = s.vmids
  tlb : ∀ leaf, s'.tlb leaf = true →
    (s.tlb leaf = true ∧
      ((n.slot i).output (s.rd n.owner).s2Ctx (levelOf n.height) ≠ none →
        e.apply (n.slot i) ≠ n.slot i → tlbiHits (s.rd n.owner).s2Ctx a leaf = false)) ∨
    ∃ t' n' i', CurrentLeaf s' F' leaf t' n' i'

theorem Holds.setSlot {s s' : State} {F : Tables} (h : Holds s F) {t : Word} {n : Table} {i : ℕ}
    {e : Entry} (ht : F t = some n) (hold : (n.slot i).link = none)
    (hnew : e.link = none) (hv : e.Valid (s.rd n.owner).s2Ctx (levelOf n.height))
    (hstate : ∀ g, (s'.granule g).state = (s.granule g).state) (hrd : s'.rd = s.rd)
    (hrtt : s'.rtt = Function.update s.rtt t (Function.update (s.rtt t) i
      (e.word (s.rd n.owner).s2Ctx (levelOf n.height)))) :
    Holds s' (F.setSlot t i e) := by
  have hplot : plotOf s' = plotOf s := by
    funext g
    simp only [plotOf, hstate, hrd]
  refine ⟨?_, hplot ▸ h.ok.setSlot ht hold hnew, ?_, ?_⟩
  · intro g
    rw [hstate, h.rtt_iff]
    constructor
    · rintro ⟨m, hm⟩
      obtain ⟨m', hm', _⟩ := Forest.setSlot_some t i e hm
      exact ⟨m', hm'⟩
    · rintro ⟨m, hm⟩
      obtain ⟨m', hm', _⟩ := Forest.setSlot_inv hm
      exact ⟨m', hm'⟩
  · intro rd hr
    rw [hstate] at hr
    rw [hrd]
    exact h.ctx rd hr
  · intro g m hm j hj
    obtain ⟨m0, h0, ho, hh, _, hs⟩ := Forest.setSlot_inv hm
    rw [hs, ho, hh, hrd, hrtt]
    by_cases hg : g = t
    · subst hg
      rw [ht] at h0
      cases h0
      rw [Function.update_self]
      by_cases hji : j = i
      · subst hji
        rw [if_pos ⟨rfl, rfl⟩, Function.update_self]
        exact ⟨hv, rfl⟩
      · rw [if_neg (fun hc => hji hc.2), Function.update_of_ne hji]
        exact h.word g n ht j hj
    · rw [if_neg (fun hc => hg hc.1), Function.update_of_ne hg]
      exact h.word g m0 h0 j hj

namespace EditStep

variable {s s' : State} {F F' : Tables} {t : Word} {n : Table} {i a : ℕ} {e : Edit}

theorem sameState (h : Holds s F) (st : EditStep s F t n i a e s' F') (g : Word) :
    (s'.granule g).state = (s.granule g).state := by
  by_cases hg : g = t
  · rw [hg, st.state, (h.node st.leaf.table).1]
  · rw [st.granule g hg]

theorem holds (h : Holds s F) (st : EditStep s F t n i a e s' F') : Holds s' F' := by
  rw [st.forest]
  exact h.setSlot st.leaf.table st.allowed.link st.allowed.link_apply st.valid (st.sameState h)
    st.rd st.rtt

theorem sameMeta (h : Wf s F) (st : EditStep s F t n i a e s' F') : SameMeta s s' := by
  have hs := st.sameState h.holds
  have ht := (h.holds.node st.leaf.table).1
  have hne : ∀ {g}, (s.granule g).state ≠ .RTT → g ≠ t := by
    rintro g hg rfl
    exact hg ht
  refine ⟨fun g => by rw [hs], fun g => by rw [hs], ?_, ?_, ?_, ?_, ?_, ?_, st.vmids⟩
  · intro g hg
    rw [st.granule g (hne (by rw [hg]; decide))]
  · intro g _
    rw [st.rd]
  · intro g _
    rw [st.recs]
  · intro g hg
    rw [hs] at hg
    rw [st.granule g (hne (by rintro hc; rw [hc] at hg; cases hg))]
    exact h.plain g hg
  · intro g hg
    rw [hs] at hg
    rw [st.rd, st.recs, st.apt]
    exact h.zero g hg
  · intro g hg
    rw [hs] at hg
    rw [st.rtt, Function.update_of_ne (hne (by rw [hg]; decide))]
    exact h.scrubbed g hg

/-- The live entries of the edited table change as the entry does. -/
theorem liveCount_eq (st : EditStep s F t n i a e s' F') :
    ∃ n', F' t = some n' ∧ liveCount n' + (n.slot i).refs =
      liveCount n + (e.apply (n.slot i)).refs := by
  refine ⟨_, ?_, liveCount_update st.leaf.index _⟩
  rw [st.forest, Forest.setSlot_same st.leaf.table]

theorem wf (h : Wf s F) (st : EditStep s F t n i a e s' F') : Wf s' F' := by
  refine h.of_sameMeta (st.sameMeta h) (st.holds h.holds) ?_
  intro g m hm
  by_cases hg : g = t
  · subst hg
    obtain ⟨n', hn', hlive⟩ := st.liveCount_eq
    rw [hn'] at hm
    cases hm
    have hcount := st.count
    have hbal := st.allowed.balance
    have hold := h.counts g n st.leaf.table
    omega
  · rw [st.forest, Forest.setSlot_of_ne hg] at hm
    rw [st.granule g hg]
    exact h.counts g m hm

end EditStep

/-- Write an entry and perhaps invalidate one address. -/
def writeState (s : State) (ctx : S2ttContext) (t : Word) (i : ℕ) (w : Word) :
    Option Word → State
  | some addr => s2ttInvalidatePage (s2tteWrite s ctx t i w) ctx addr
  | none => s2tteWrite s ctx t i w

@[simp] theorem writeState_granule (s : State) (ctx : S2ttContext) (t : Word) (i : ℕ) (w : Word)
    (purge : Option Word) : (writeState s ctx t i w purge).granule = s.granule := by
  cases purge <;> rfl

/-- The same, with the reference count of the table set. -/
def editState (s : State) (ctx : S2ttContext) (t : Word) (i : ℕ) (w : Word) (purge : Option Word)
    (c : ℕ) : State :=
  (writeState s ctx t i w purge).setRefcount t c

theorem stage2TlbiIpa_page_tlb (s : State) (ctx : S2ttContext) (addr : Word) (leaf : TlbLeaf) :
    (s2ttInvalidatePage s ctx addr).tlb leaf =
      ((s.tlb leaf && !tlbiHits ctx addr.toNat leaf) || validLeaf s.rtt ctx leaf) := by
  simp [s2ttInvalidatePage, stage2TlbiIpa, granuleSize, List.range_succ]

theorem editState_step {s : State} {F : Tables} (h : Holds s F) {rd t : Word} {n : Table}
    {i a : ℕ} (e : Edit) (purge : Option Word) (c : ℕ) (hl : IsLeaf F rd a t n i)
    (hallowed : e.Allowed (n.slot i))
    (hv : (e.apply (n.slot i)).Valid (s.rd rd).s2Ctx (levelOf n.height))
    (hc : c + e.drops = (s.granule t).refcount + e.adds)
    (hpurge : (n.slot i).output (s.rd rd).s2Ctx (levelOf n.height) ≠ none →
      e.apply (n.slot i) ≠ n.slot i → ∃ addr, purge = some addr)
    (hpa : ∀ addr, purge = some addr → addr.toNat = a) :
    EditStep s F t n i a e
      (editState s (s.rd rd).s2Ctx t i
        ((e.apply (n.slot i)).word (s.rd rd).s2Ctx (levelOf n.height)) purge c)
      (F.setSlot t i (e.apply (n.slot i))) := by
  obtain ⟨hrtt, hrd, _⟩ := h.node hl.table
  obtain rfl := hl.owner
  set w := (e.apply (n.slot i)).word (s.rd n.owner).s2Ctx (levelOf n.height) with hw
  set s' := editState s (s.rd n.owner).s2Ctx t i w purge c with hs'
  have hgran : s'.granule = Function.update s.granule t ⟨.RTT, c⟩ := by
    rw [hs', ← hrtt]
    cases purge <;> rfl
  have hrtt' : s'.rtt = Function.update s.rtt t (Function.update (s.rtt t) i w) := by
    cases purge <;> rfl
  have hrd' : s'.rd = s.rd := by cases purge <;> rfl
  have hholds : Holds s' (F.setSlot t i (e.apply (n.slot i))) := by
    refine h.setSlot hl.table hallowed.link hallowed.link_apply hv ?_ hrd' hrtt'
    intro g
    by_cases hg : g = t
    · rw [hg, hgran, Function.update_self, hrtt]
    · rw [hgran, Function.update_of_ne hg]
  refine ⟨hl, hallowed, hv, rfl, by rw [hgran, Function.update_self],
    by rw [hgran, Function.update_self]; exact hc,
    fun g hg => by rw [hgran, Function.update_of_ne hg], hrtt', hrd', by cases purge <;> rfl,
    by cases purge <;> rfl, by cases purge <;> rfl, by cases purge <;> rfl,
    by cases purge <;> rfl, ?_⟩
  intro leaf hleaf
  have hrdS : (s'.granule n.owner).state = .RD := by
    rw [hgran]
    by_cases hg : n.owner = t
    · rw [hg, hrtt] at hrd
      cases hrd
    · rw [Function.update_of_ne hg, hrd]
  -- a leaf that was there before, or one that the hardware loaded after the write
  have split :
      (s.tlb leaf = true ∧ ((n.slot i).output (s.rd n.owner).s2Ctx (levelOf n.height) ≠ none →
      e.apply (n.slot i) ≠ n.slot i → tlbiHits (s.rd n.owner).s2Ctx a leaf = false)) ∨
      validLeaf s'.rtt (s'.rd n.owner).s2Ctx leaf = true := by
    rw [hrd']
    cases purge with
    | none =>
      have hleaf' : (s.tlb leaf || validLeaf s'.rtt (s.rd n.owner).s2Ctx leaf) = true := hleaf
      rw [Bool.or_eq_true] at hleaf'
      refine hleaf'.imp (fun h1 => ⟨h1, fun ho hne => ?_⟩) id
      obtain ⟨addr, ha⟩ := hpurge ho hne
      cases ha
    | some addr =>
      have hleaf' : (s2ttInvalidatePage (s2tteWrite s (s.rd n.owner).s2Ctx t i w)
          (s.rd n.owner).s2Ctx addr).tlb leaf = true := hleaf
      rw [stage2TlbiIpa_page_tlb, hpa addr rfl] at hleaf'
      have hold : (((s.tlb leaf || validLeaf s'.rtt (s.rd n.owner).s2Ctx leaf) &&
          !tlbiHits (s.rd n.owner).s2Ctx a leaf) ||
          validLeaf s'.rtt (s.rd n.owner).s2Ctx leaf) = true := hleaf'
      simp only [Bool.or_eq_true, Bool.and_eq_true, Bool.not_eq_true'] at hold
      rcases hold with ⟨h1 | h1, h2⟩ | h1
      · exact .inl ⟨h1, fun _ _ => h2⟩
      · exact .inr h1
      · exact .inr h1
  rcases split with h1 | h1
  · exact .inl h1
  · obtain ⟨t', n', i', hcur, _⟩ := hholds.currentLeaf hrdS h1
    exact .inr ⟨t', n', i', hcur⟩

end RmmCaec
