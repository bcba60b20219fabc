import RmmCaec.Tables
import RmmCaec.System

/-!
# Well-formed states

What holds in every state that the system can reach, whatever the host and the
realms do: the tables form a forest, a table's reference count covers its live
entries, granules that hold no metadata have no references and no record, DELEGATED
granules are zeroed, each realm owns its VMID, and an RD is referenced at least once by each of
its RECs.
-/
namespace RmmCaec

open RadixForest Outcome

/-- The references that an entry holds on its table: tables and assigned pages
or blocks are counted, unprotected mappings are not. -/
def Entry.refs : Entry → ℕ
  | .assigned _ _ => 1
  | .table _ => 1
  | _ => 0

/-- The number of live protected entries of a table. -/
def liveCount (n : Table) : ℕ := ∑ i ∈ Finset.range 512, (n.slot i).refs

theorem Entry.refs_le_one (e : Entry) : e.refs ≤ 1 := by cases e <;> simp [Entry.refs]

theorem liveCount_update {n : Table} {i : ℕ} (hi : i < 512) (e : Entry) :
    liveCount { n with slot := Function.update n.slot i e } + (n.slot i).refs =
      liveCount n + e.refs := by
  have hmem : i ∈ Finset.range 512 := Finset.mem_range.mpr hi
  have h1 := Finset.sum_erase_add (Finset.range 512) (fun j => (n.slot j).refs) hmem
  have h2 := Finset.sum_erase_add (Finset.range 512)
    (fun j => (Function.update n.slot i e j).refs) hmem
  have h3 : ∑ j ∈ (Finset.range 512).erase i, (Function.update n.slot i e j).refs =
      ∑ j ∈ (Finset.range 512).erase i, (n.slot j).refs := by
    refine Finset.sum_congr rfl fun j hj => ?_
    rw [Function.update_of_ne (Finset.ne_of_mem_erase hj)]
  simp only [Function.update_self] at h2
  simp only [liveCount]
  omega

theorem liveCount_eq_zero {n : Table} (h : liveCount n = 0) {i : ℕ} (hi : i < 512) :
    (n.slot i).refs = 0 :=
  Finset.sum_eq_zero_iff.mp h i (Finset.mem_range.mpr hi)

theorem liveCount_const {n : Table} {c : ℕ} (h : ∀ i < 512, (n.slot i).refs = c) :
    liveCount n = 512 * c := by
  rw [liveCount, Finset.sum_congr rfl fun i hi => h i (Finset.mem_range.mp hi)]
  simp

/-- The output address of a valid leaf. -/
def Entry.output (ctx : S2ttContext) (level : ℤ) : Entry → Option Word
  | .assigned .RAM pa => some pa
  | .assignedNs desc => some (Entry.nsPa ctx level desc)
  | _ => none

/-- A leaf as the TLB would cache it from the tables of the state. -/
structure CurrentLeaf (s : State) (F : Tables) (leaf : TlbLeaf) (t : Word) (n : Table) (i : ℕ) :
    Prop where
  table : F t = some n
  index : i < 512
  inside : n.slotBase rttShape i < 2 ^ (s.rd n.owner).s2Ctx.ipaBits
  vmid : leaf.vmid = (s.rd n.owner).s2Ctx.vmid
  level : leaf.level = levelOf n.height
  ipa : leaf.ipa = n.slotBase rttShape i
  output : (n.slot i).output (s.rd n.owner).s2Ctx (levelOf n.height) = some leaf.pa

/-- The output of a stored entry, read from its word. -/
theorem Entry.output_word {ctx : S2ttContext} {level : ℤ} {e : Entry} (he : e.Valid ctx level)
    (hv : (s2tteIsAssignedRam (e.word ctx level) level ||
      s2tteIsAssignedNs (e.word ctx level) level) = true) :
    e.output ctx level = some (s2ttePa ctx (e.word ctx level) level) := by
  rw [Bool.or_eq_true, Entry.isAssignedRam_word he, Entry.isAssignedNs_word he] at hv
  rcases hv with ⟨pa, rfl⟩ | ⟨desc, rfl⟩
  · rw [Entry.s2ttePa_assigned he]
    rfl
  · rw [Entry.s2ttePa_assignedNs he]
    rfl

theorem Entry.isLeafWord_of_output {ctx : S2ttContext} {level : ℤ} {e : Entry} {pa : Word}
    (he : e.Valid ctx level) (ho : e.output ctx level = some pa) :
    (s2tteIsAssignedRam (e.word ctx level) level ||
      s2tteIsAssignedNs (e.word ctx level) level) = true ∧
        s2ttePa ctx (e.word ctx level) level = pa := by
  rw [Bool.or_eq_true, Entry.isAssignedRam_word he, Entry.isAssignedNs_word he]
  rcases e with r | _ | ⟨r, q⟩ | desc | q
  · cases ho
  · cases ho
  · cases r with
    | RAM =>
      cases ho
      exact ⟨.inl ⟨pa, rfl⟩, Entry.s2ttePa_assigned he⟩
    | EMPTY => cases ho
    | DESTROYED => cases ho
  · cases ho
    exact ⟨.inr ⟨desc, rfl⟩, Entry.s2ttePa_assignedNs he⟩
  · cases ho

/-- The first address of a slot is aligned to its size. -/
theorem Holds.span_dvd_slotBase {s : State} {F : Tables} (h : Holds s F) {t : Word} {n : Table}
    (ht : F t = some n) (i : ℕ) : rttShape.span n.height ∣ n.slotBase rttShape i := by
  obtain ⟨_, _, _, _, hdvd, _⟩ := h.node ht
  exact Nat.dvd_add ((rttShape.span_dvd (Nat.le_succ _)).trans hdvd) (Nat.dvd_mul_left _ _)

/-- An aligned address inside a slot is its first one. -/
theorem Holds.eq_slotBase {s : State} {F : Tables} (h : Holds s F) {t : Word}
    {n : Table} {i a : ℕ}
    (ht : F t = some n) (hc : n.SlotCovers rttShape i a) (hd : rttShape.span n.height ∣ a) :
    a = n.slotBase rttShape i := by
  obtain ⟨h1, h2⟩ := hc
  obtain ⟨c, hc⟩ := Nat.dvd_sub hd (h.span_dvd_slotBase ht i)
  rcases Nat.eq_zero_or_pos c with h0 | h0
  · rw [h0, Nat.mul_zero] at hc
    omega
  · have := Nat.le_mul_of_pos_right (rttShape.span n.height) h0
    omega

/-- What the hardware can load now is a leaf of the forest. -/
theorem Holds.currentLeaf {s : State} {F : Tables} (h : Holds s F) {rd : Word}
    (hrd : (s.granule rd).state = .RD) {leaf : TlbLeaf}
    (hv : validLeaf s.rtt (s.rd rd).s2Ctx leaf = true) :
    ∃ t n i, CurrentLeaf s F leaf t n i ∧ n.owner = rd := by
  have hctx := h.ctx rd hrd
  have h52 : 2 ^ (s.rd rd).s2Ctx.ipaBits ≤ 2 ^ 52 :=
    Nat.pow_le_pow_right (by omega) hctx.bits_le_52
  unfold validLeaf at hv
  simp only [Bool.and_eq_true, beq_iff_eq, decide_eq_true_eq] at hv
  obtain ⟨⟨⟨⟨⟨hvm, hlt⟩, hlev⟩, hmod⟩, hval⟩, hpa⟩ := hv
  have htn : (BitVec.ofNat 64 leaf.ipa : Word).toNat = leaf.ipa := by
    rw [BitVec.toNat_ofNat]
    exact Nat.mod_eq_of_lt (by omega)
  obtain ⟨t, n, i, hl, hleaf⟩ := h.leafOf_spec hrd (by rwa [htn])
  rw [hleaf] at hlev hmod hval hpa
  simp only at hlev hmod hval hpa
  rw [htn] at hl
  obtain ⟨hvalid, _⟩ := h.word t n hl.table i hl.index
  rw [hl.owner] at hvalid
  have hbase : leaf.ipa = n.slotBase rttShape i := by
    refine h.eq_slotBase hl.table hl.covers ?_
    rw [rttShape_span]
    exact Nat.dvd_of_mod_eq_zero hmod
  refine ⟨t, n, i, ⟨hl.table, hl.index, ?_, ?_, hlev.symm, hbase, ?_⟩, hl.owner⟩
  · rw [← hbase, hl.owner]
    exact hlt
  · rw [hl.owner]
    exact hvm
  · rw [hl.owner, Entry.output_word hvalid hval, hpa]

/-- The forest reads only which granules are tables and realm descriptors, the
contexts of the realms and the words of the tables. -/
theorem Holds.frame {s s' : State} {F : Tables} (h : Holds s F)
    (hrtt : ∀ g, (s'.granule g).state = .RTT ↔ (s.granule g).state = .RTT)
    (hrd : ∀ g, (s'.granule g).state = .RD ↔ (s.granule g).state = .RD)
    (hctx : ∀ g, (s.granule g).state = .RD → (s'.rd g).s2Ctx = (s.rd g).s2Ctx)
    (hword : ∀ g, (s.granule g).state = .RTT → ∀ i < 512, s'.rtt g i = s.rtt g i) :
    Holds s' F := by
  have hplot : plotOf s' = plotOf s := by
    funext g
    unfold plotOf
    by_cases hg : (s.granule g).state = .RD
    · rw [if_pos hg, if_pos ((hrd g).mpr hg), hctx g hg]
    · rw [if_neg hg, if_neg (mt (hrd g).mp hg)]
  refine ⟨fun g => (hrtt g).trans (h.rtt_iff g), hplot ▸ h.ok, ?_, ?_⟩
  · intro g hg
    have hg' := (hrd g).mp hg
    rw [hctx g hg']
    exact h.ctx g hg'
  · intro t n ht i hi
    obtain ⟨h1, h2, _⟩ := h.node ht
    rw [hctx _ h2, hword t h1 i hi]
    exact h.word t n ht i hi

/-- The granule states that never carry references. -/
def GranuleState.plain : GranuleState → Bool
  | .NS | .DELEGATED | .DATA | .APT | .REC_AUX => true
  | _ => false

/-- The granule states that hold no record of the monitor. The words of such a
granule belong to the host, to a realm or to the auxiliary data of a REC, unless
it is DELEGATED. -/
def GranuleState.blank : GranuleState → Bool
  | .NS | .DELEGATED | .DATA | .REC_AUX => true
  | _ => false

structure Wf (s : State) (F : Tables) : Prop where
  holds : Holds s F
  counts : ∀ t n, F t = some n → liveCount n ≤ (s.granule t).refcount
  plain : ∀ g, (s.granule g).state.plain = true → (s.granule g).refcount = 0
  zero : ∀ g, (s.granule g).state.blank = true → s.rd g = default ∧ s.recs g = default ∧
    s.apt g = default
  scrubbed : ∀ g, (s.granule g).state = .DELEGATED → s.rtt g = fun _ => 0#64
  vmid : ∀ rd, (s.granule rd).state = .RD → s.vmids (s.rd rd).s2Ctx.vmid = true
  vmid_inj : ∀ a b, (s.granule a).state = .RD → (s.granule b).state = .RD →
    (s.rd a).s2Ctx.vmid = (s.rd b).s2Ctx.vmid → a = b
  recRd : ∀ r, (s.granule r).state = .REC → (s.granule (s.recs r).gRd).state = .RD
  recCount : ∀ rd, (s.granule rd).state = .RD → ∃ R : Finset Word,
    (∀ r, r ∈ R ↔ (s.granule r).state = .REC ∧ (s.recs r).gRd = rd) ∧
      R.card ≤ (s.granule rd).refcount

/-- Changes that do not touch metadata: granule states, contexts and references
of RDs and RECs, and VMIDs stay, and what is or becomes blank is zeroed. -/
structure SameMeta (s s' : State) : Prop where
  rd : ∀ g, (s'.granule g).state = .RD ↔ (s.granule g).state = .RD
  recs : ∀ g, (s'.granule g).state = .REC ↔ (s.granule g).state = .REC
  rdRefs : ∀ g, (s.granule g).state = .RD → (s'.granule g).refcount = (s.granule g).refcount
  ctx : ∀ g, (s.granule g).state = .RD → (s'.rd g).s2Ctx = (s.rd g).s2Ctx
  gRd : ∀ g, (s.granule g).state = .REC → (s'.recs g).gRd = (s.recs g).gRd
  plain : ∀ g, (s'.granule g).state.plain = true → (s'.granule g).refcount = 0
  zero : ∀ g, (s'.granule g).state.blank = true → s'.rd g = default ∧ s'.recs g = default ∧
    s'.apt g = default
  scrubbed : ∀ g, (s'.granule g).state = .DELEGATED → s'.rtt g = fun _ => 0#64
  vmids : s'.vmids = s.vmids

theorem Wf.of_sameMeta {s s' : State} {F F' : Tables} (h : Wf s F) (hm : SameMeta s s')
    (hh : Holds s' F') (hc : ∀ t n, F' t = some n → liveCount n ≤ (s'.granule t).refcount) :
    Wf s' F' where
  holds := hh
  counts := hc
  plain := hm.plain
  zero := hm.zero
  scrubbed := hm.scrubbed
  vmid := by
    intro rd hrd
    have hrd' := (hm.rd rd).mp hrd
    rw [hm.vmids, hm.ctx rd hrd']
    exact h.vmid rd hrd'
  vmid_inj := by
    intro a b ha hb heq
    have ha' := (hm.rd a).mp ha
    have hb' := (hm.rd b).mp hb
    rw [hm.ctx a ha', hm.ctx b hb'] at heq
    exact h.vmid_inj a b ha' hb' heq
  recRd := by
    intro r hr
    have hr' := (hm.recs r).mp hr
    rw [hm.gRd r hr', hm.rd]
    exact h.recRd r hr'
  recCount := by
    intro rd hrd
    have hrd' := (hm.rd rd).mp hrd
    obtain ⟨R, hR, hcard⟩ := h.recCount rd hrd'
    refine ⟨R, fun r => ?_, by rwa [hm.rdRefs rd hrd']⟩
    rw [hR, hm.recs]
    constructor
    · rintro ⟨h1, h2⟩
      exact ⟨h1, by rw [hm.gRd r h1, h2]⟩
    · rintro ⟨h1, h2⟩
      exact ⟨h1, by rw [← hm.gRd r h1, h2]⟩

end RmmCaec
