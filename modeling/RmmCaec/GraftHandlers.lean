import RmmCaec.TreeSteps

/-!
# Effects of table creation

Creating a table fills it with what the parent entry means, takes the references
for it and grafts it under the parent entry.
-/
namespace RmmCaec

open RadixForest Outcome

/-- What `rttUnfold` leaves behind before the new table is linked. -/
structure Unfolded (s : State) (t : Word) (n : Table) (i : ℕ) (k : Word) (m : Table)
    (s1 : State) : Prop where
  splits : Splits (s.rd n.owner).s2Ctx (levelOf m.height) (n.slot i) m.slot
  entries : ∀ j < 512, (m.slot j).Valid (s.rd n.owner).s2Ctx (levelOf m.height) ∧
    s1.rtt k j = (m.slot j).word (s.rd n.owner).s2Ctx (levelOf m.height)
  table : ∀ j, j ≠ i → s1.rtt t j = s.rtt t j
  other : ∀ g, g ≠ t → g ≠ k → s1.rtt g = s.rtt g
  tableGranule : ∃ c, s1.granule t = ⟨.RTT, c⟩ ∧
    c + (n.slot i).refs = (s.granule t).refcount + 1
  newCount : (s1.granule k).refcount = 512 * (n.slot i).refs
  granule : ∀ g, g ≠ t → g ≠ k → s1.granule g = s.granule g
  rd : s1.rd = s.rd
  recs : s1.recs = s.recs
  apt : s1.apt = s.apt
  tags : s1.tags = s.tags
  csmIds : s1.csmIds = s.csmIds
  vmids : s1.vmids = s.vmids
  tlb : ∀ leaf, s1.tlb leaf = true →
    (s.tlb leaf = true ∧ ((n.slot i).output (s.rd n.owner).s2Ctx (levelOf n.height) ≠ none →
      tlbiHits (s.rd n.owner).s2Ctx (n.slotBase rttShape i) leaf = false)) ∨
    validLeaf (Function.update s.rtt t (Function.update (s.rtt t) i 0#64))
      (s.rd n.owner).s2Ctx leaf = true

/-- The state before the new table is filled: the parent entry is cleared and
invalidated first if it was valid. -/
def clearedState (s : State) (ctx : S2ttContext) (t : Word) (i : ℕ) (mapAddr : Word)
    (purge : Bool) : State :=
  if purge then s2ttInvalidateBlock (s2tteWrite s ctx t i 0#64) ctx mapAddr else s

/-- Filling the table and taking the references, on the parent for an entry that
held none and on the new table for one that did. -/
theorem unfolded_mk {s : State} {F : Tables} (h : Wf s F) {t k mapAddr : Word}
    {n m : Table} {i : ℕ}
    (purge : Bool) (ht : F t = some n) (hk : (s.granule k).state = .DELEGATED)
    (hmap : mapAddr.toNat = n.slotBase rttShape i)
    (hsplits : Splits (s.rd n.owner).s2Ctx (levelOf m.height) (n.slot i) m.slot)
    (hvalid : ∀ j < 512, (m.slot j).Valid (s.rd n.owner).s2Ctx (levelOf m.height))
    (hpurge : (n.slot i).output (s.rd n.owner).s2Ctx (levelOf n.height) ≠ none → purge = true)
    (table : ℕ → Word)
    (htable : ∀ j < 512, table j = (m.slot j).word (s.rd n.owner).s2Ctx (levelOf m.height)) :
    ((n.slot i).refs = 0 → Unfolded s t n i k m
      (((clearedState s (s.rd n.owner).s2Ctx t i mapAddr purge).setTable k table).setRefcount t
        ((s.granule t).refcount + 1))) ∧
    ((n.slot i).refs = 1 → Unfolded s t n i k m
      (((clearedState s (s.rd n.owner).s2Ctx t i mapAddr purge).setTable k table).setRefcount k
        ((((clearedState s (s.rd n.owner).s2Ctx t i mapAddr purge).setTable k table).granule
          k).refcount + s2ttesPerS2tt))) := by
  obtain ⟨htst, -⟩ := h.holds.node ht
  have hk0 : (s.granule k).refcount = 0 := h.plain k (by rw [hk]; rfl)
  have hkt : k ≠ t := by
    rintro rfl
    rw [hk] at htst
    cases htst
  set s0 := clearedState s (s.rd n.owner).s2Ctx t i mapAddr purge with hs0
  have hg0 : s0.granule = s.granule := by
    rw [hs0, clearedState]
    cases purge <;> rfl
  have hr0 : s0.rtt = s.rtt ∨ s0.rtt =
      Function.update s.rtt t (Function.update (s.rtt t) i 0#64) := by
    rw [hs0, clearedState]
    cases purge
    · exact .inl rfl
    · exact .inr rfl
  have htab0 : ∀ j, j ≠ i → s0.rtt t j = s.rtt t j := by
    intro j hj
    rcases hr0 with hr | hr
    · rw [hr]
    · rw [hr, Function.update_self, Function.update_of_ne hj]
  have hoth0 : ∀ g, g ≠ t → s0.rtt g = s.rtt g := by
    intro g hg
    rcases hr0 with hr | hr
    · rw [hr]
    · rw [hr, Function.update_of_ne hg]
  have htlb : ∀ leaf, s0.tlb leaf = true →
      (s.tlb leaf = true ∧ ((n.slot i).output (s.rd n.owner).s2Ctx (levelOf n.height) ≠ none →
        tlbiHits (s.rd n.owner).s2Ctx (n.slotBase rttShape i) leaf = false)) ∨
      validLeaf (Function.update s.rtt t (Function.update (s.rtt t) i 0#64))
        (s.rd n.owner).s2Ctx leaf = true := by
    intro leaf hleaf
    rw [hs0, clearedState] at hleaf
    cases purge with
    | false => exact .inl ⟨hleaf, fun ho => absurd (hpurge ho) (by decide)⟩
    | true =>
      have hleaf' : (s2ttInvalidatePage (s2tteWrite s (s.rd n.owner).s2Ctx t i 0#64)
          (s.rd n.owner).s2Ctx mapAddr).tlb leaf = true := hleaf
      rw [stage2TlbiIpa_page_tlb, hmap] at hleaf'
      have hsplit : (((s.tlb leaf || validLeaf (Function.update s.rtt t (Function.update (s.rtt t) i
          0#64)) (s.rd n.owner).s2Ctx leaf) &&
          !tlbiHits (s.rd n.owner).s2Ctx (n.slotBase rttShape i) leaf) ||
          validLeaf (Function.update s.rtt t (Function.update (s.rtt t) i 0#64))
            (s.rd n.owner).s2Ctx leaf) = true := hleaf'
      simp only [Bool.or_eq_true, Bool.and_eq_true, Bool.not_eq_true'] at hsplit
      rcases hsplit with ⟨h1 | h1, h2⟩ | h1
      · exact .inl ⟨h1, fun _ => h2⟩
      · exact .inr h1
      · exact .inr h1
  -- the fields that the two cases share
  have shared : ∀ (y : Word) (c : ℕ),
      (∃ c', ((s0.setTable k table).setRefcount y c).granule t = ⟨.RTT, c'⟩ ∧
        c' + (n.slot i).refs = (s.granule t).refcount + 1) →
      (((s0.setTable k table).setRefcount y c).granule k).refcount = 512 * (n.slot i).refs →
      (y = t ∨ y = k) → Unfolded s t n i k m ((s0.setTable k table).setRefcount y c) := by
    intro y c hgt hgk hy
    refine ⟨hsplits, fun j hj => ⟨hvalid j hj, ?_⟩, fun j hj => ?_,
      fun g hgt hgk => ?_, hgt, hgk,
      fun g hgt hgk => ?_, ?_, ?_, ?_, ?_, ?_, ?_, htlb⟩
    · show Function.update s0.rtt k table k j = _
      rw [Function.update_self, htable j hj]
    · show Function.update s0.rtt k table t j = _
      rw [Function.update_of_ne hkt.symm, htab0 j hj]
    · show Function.update s0.rtt k table g = _
      rw [Function.update_of_ne hgk, hoth0 g hgt]
    · show Function.update s0.granule y _ g = _
      have hgy : g ≠ y := by
        rcases hy with rfl | rfl
        · exact hgt
        · exact hgk
      rw [Function.update_of_ne hgy, hg0]
    all_goals
      rw [hs0, clearedState]
      cases purge <;> rfl
  constructor
  · intro hrefs
    refine shared t _ ⟨(s.granule t).refcount + 1, ?_, by rw [hrefs]⟩ ?_ (.inl rfl)
    · show Function.update s0.granule t ⟨(s0.granule t).state, _⟩ t = _
      rw [Function.update_self, hg0, htst]
    · show (Function.update s0.granule t _ k).refcount = _
      rw [Function.update_of_ne hkt, hg0, hk0, hrefs]
  · intro hrefs
    refine shared k _ ⟨(s.granule t).refcount, ?_, by rw [hrefs]⟩ ?_ (.inr rfl)
    · show Function.update s0.granule k _ t = _
      rw [Function.update_of_ne hkt.symm, hg0, ← htst]
    · show (Function.update s0.granule k ⟨_, (s0.granule k).refcount + s2ttesPerS2tt⟩
          k).refcount = _
      rw [Function.update_self, hrefs, hg0, hk0]
      rfl

/-- A new table under slot `i`. -/
def newTable (n : Table) (i : ℕ) (slot : ℕ → Entry) : Table :=
  ⟨n.owner, n.height - 1, n.slotBase rttShape i, slot⟩

theorem s2ttInit_lt {old entry : ℕ → Word} {j : ℕ} (hj : j < 512) :
    s2ttInit old s2ttesPerS2tt entry j = entry j := if_pos hj

section

variable {s : State} {F : Tables} {t k mapAddr : Word} {i : ℕ} {n : Table} {level : ℤ}

/-- An entry without an output is repeated in the new table. -/
theorem unfolded_plain (h : Wf s F) (ht : F t = some n) (hml : levelOf (n.height - 1) = level)
    (hk : (s.granule k).state = .DELEGATED) (hmap : mapAddr.toNat = n.slotBase rttShape i)
    {e : Entry} (he : n.slot i = e) (hrefs : e.refs = 0)
    (hout : e.output (s.rd n.owner).s2Ctx (levelOf n.height) = none)
    (hsp : Splits (s.rd n.owner).s2Ctx level e (fun _ => e))
    (hve : e.Valid (s.rd n.owner).s2Ctx level) :
    Unfolded s t n i k (newTable n i fun _ => e)
      ((s.setTable k (s2ttInit (s.rtt k) s2ttesPerS2tt fun _ =>
        e.word (s.rd n.owner).s2Ctx level)).setRefcount t ((s.granule t).refcount + 1)) := by
  have hu := unfolded_mk (k := k) (m := newTable n i fun _ => e) h false ht hk hmap
    (by rw [he]; simpa only [newTable, hml] using hsp)
    (fun j _ => by simpa only [newTable, hml] using hve)
    (fun ho => by rw [he, hout] at ho; exact absurd rfl ho)
    (s2ttInit (s.rtt k) s2ttesPerS2tt fun _ => e.word (s.rd n.owner).s2Ctx level)
    (fun j hj => by rw [s2ttInit_lt hj]; simp only [newTable, hml])
  exact hu.1 (by rw [he, hrefs])

/-- An assigned block becomes the blocks or pages of its parts. -/
theorem unfolded_block (purge : Bool) (h : Wf s F) (ht : F t = some n)
    (hml : levelOf (n.height - 1) = level)
    (hk : (s.granule k).state = .DELEGATED) (hmap : mapAddr.toNat = n.slotBase rttShape i)
    {r : Ripas} {pa : Word} (he : n.slot i = .assigned r pa)
    (hv : (Entry.assigned r pa).Valid (s.rd n.owner).s2Ctx (level - 1)) (h1 : 1 < level)
    (h3 : level ≤ 3) (hp : r = .RAM → purge = true) :
    Unfolded s t n i k (newTable n i fun j => .assigned r (blockPa pa level j))
      (((clearedState s (s.rd n.owner).s2Ctx t i mapAddr purge).setTable k
        (s2ttInitAssigned r (s.rd n.owner).s2Ctx pa level (s.rtt k))).setRefcount k
        ((((clearedState s (s.rd n.owner).s2Ctx t i mapAddr purge).setTable k
          (s2ttInitAssigned r (s.rd n.owner).s2Ctx pa level (s.rtt k))).granule k).refcount +
            s2ttesPerS2tt)) := by
  have hb : ∀ j < 512, (Entry.assigned r (blockPa pa level j)).Valid (s.rd n.owner).s2Ctx level :=
    fun j hj => ⟨by omega, h3, (blockPa_spec (by omega) h3 hv.2.2 hj).2⟩
  have hu := unfolded_mk (k := k) (m := newTable n i fun j => .assigned r (blockPa pa level j))
    h purge ht hk hmap
    (by rw [he]; intro j _; simp only [newTable, hml])
    (fun j hj => by simpa only [newTable, hml] using hb j hj)
    (fun ho => by
      rw [he] at ho
      cases r with
      | RAM => exact hp rfl
      | EMPTY => exact absurd rfl ho
      | DESTROYED => exact absurd rfl ho)
    (s2ttInitAssigned r (s.rd n.owner).s2Ctx pa level (s.rtt k))
    (fun j hj => by
      rw [s2ttInitAssigned, s2ttInit_lt hj]
      simp only [newTable, hml, Entry.word])
  exact hu.2 (by rw [he]; rfl)

/-- A block of the host becomes the blocks or pages of its parts, with its attributes. -/
theorem unfolded_ns (h : Wf s F) (ht : F t = some n) (hml : levelOf (n.height - 1) = level)
    (hk : (s.granule k).state = .DELEGATED) (hmap : mapAddr.toNat = n.slotBase rttShape i)
    {desc : Word} (he : n.slot i = .assignedNs desc)
    (hv : (Entry.assignedNs desc).Valid (s.rd n.owner).s2Ctx (level - 1)) (h1 : 1 < level)
    (h3 : level ≤ 3) {w pa : Word}
    (hw : w = (n.slot i).word (s.rd n.owner).s2Ctx (level - 1))
    (hpa : pa = Entry.nsPa (s.rd n.owner).s2Ctx (level - 1) desc) :
    ∃ slot, Unfolded s t n i k (newTable n i slot)
      (((clearedState s (s.rd n.owner).s2Ctx t i mapAddr true).setTable k
        (s2ttInitAssignedNs (s.rd n.owner).s2Ctx w pa level (s.rtt k))).setRefcount t
        ((s.granule t).refcount + 1)) := by
  have hmem : (s.rd n.owner).s2Ctx.opencca = true →
      w &&& s2tteMemattrMask = s2tteMemattrMask := by
    intro ho
    rw [hw, he, Entry.memattr_of_attrs (Entry.word_assignedNs_and_attrs hv)]
    exact hv.2.2.2 ho
  have hal : ∀ j < 512, s2tteIsAddrLvlAligned (s.rd n.owner).s2Ctx (blockPa pa level j) level =
      true := by
    intro j hj
    rw [hpa]
    exact (blockPa_spec (by omega) h3 (Entry.nsPa_aligned _ (level - 1) desc (by omega)) hj).2
  refine ⟨fun j => .assignedNs (Entry.nsChild (s.rd n.owner).s2Ctx w (blockPa pa level j)), ?_⟩
  have hu := unfolded_mk (k := k) (m := newTable n i fun j =>
      .assignedNs (Entry.nsChild (s.rd n.owner).s2Ctx w (blockPa pa level j))) h true ht hk hmap
    (by
      rw [he]
      intro j hj
      refine ⟨_, rfl, ?_, ?_⟩
      · simp only [newTable, hml]
        rw [← hpa]
        exact Entry.nsPa_nsChild (hal j hj)
      · rw [Entry.nsChild_and_attrs (hal j hj), hw, he]
        exact Entry.word_assignedNs_and_attrs hv)
    (fun j hj => by
      simp only [newTable, hml]
      exact ⟨by omega, h3, Entry.hostDesc_nsChild (hal j hj) hmem⟩)
    (fun _ => rfl)
    (s2ttInitAssignedNs (s.rd n.owner).s2Ctx w pa level (s.rtt k))
    (fun j hj => by
      rw [s2ttInitAssignedNs, s2ttInit_lt hj]
      simp only [newTable, hml, Entry.word, Entry.nsChild])
  exact hu.1 (by rw [he]; rfl)

end

theorem rttUnfold_sat {s : State} {F : Tables} (h : Wf s F) {k mapAddr : Word} {wi : S2ttWalk}
    {n : Table} {level : ℤ} (ht : F wi.gLlt = some n) (hi : wi.index < 512)
    (hlevel : levelOf n.height = level - 1) (h3 : level ≤ 3)
    (hk : (s.granule k).state = .DELEGATED)
    (hmap : mapAddr.toNat = n.slotBase rttShape wi.index) :
    Sat (rttUnfold s (s.rd n.owner).s2Ctx wi k mapAddr level) (fun res => ∀ s1, res = some s1 →
      (n.slot wi.index).link = none ∧ ∃ m, m.owner = n.owner ∧ m.height + 1 = n.height ∧
        m.base = n.slotBase rttShape wi.index ∧ Unfolded s wi.gLlt n wi.index k m s1) Benign := by
  obtain ⟨hv, hword⟩ := h.holds.word _ n ht _ hi
  have hm : n.height - 1 + 1 = n.height := by
    unfold levelOf at hlevel
    omega
  have hml : levelOf (n.height - 1) = level := by
    unfold levelOf at hlevel ⊢
    omega
  rw [hlevel] at hv hword
  set ctx := (s.rd n.owner).s2Ctx with hctx
  -- each branch names the old entry and the entries of the new table
  have finish : ∀ (slot : ℕ → Entry) (s1 : State), (n.slot wi.index).link = none →
      Unfolded s wi.gLlt n wi.index k (newTable n wi.index slot) s1 →
      ∀ s2, some s1 = some s2 → (n.slot wi.index).link = none ∧ ∃ m, m.owner = n.owner ∧
        m.height + 1 = n.height ∧ m.base = n.slotBase rttShape wi.index ∧
        Unfolded s wi.gLlt n wi.index k m s2 := by
    intro slot s1 hl hu s2 hs
    cases hs
    exact ⟨hl, newTable n wi.index slot, rfl, hm, rfl, hu⟩
  have hpa : ∀ r pa, n.slot wi.index = .assigned r pa →
      s2ttePa ctx ((n.slot wi.index).word ctx (level - 1)) (level - 1) = pa := by
    intro r pa he
    rw [he] at hv ⊢
    exact Entry.s2ttePa_assigned hv
  unfold rttUnfold
  simp only [hword]
  refine Sat.ite (fun hc => ?_) fun h1 => ?_
  · have he := (Entry.isUnassignedEmpty_word hv).mp hc
    exact granuleRefcountInc_sat (by decide) (Sat.pure (finish _ _ (by rw [he]; rfl)
      (unfolded_plain h ht hml hk hmap he rfl rfl (fun _ _ => rfl) trivial)))
  refine Sat.ite (fun hc => ?_) fun h2 => ?_
  · have he := (Entry.isUnassignedRam_word hv).mp hc
    exact granuleRefcountInc_sat (by decide) (Sat.pure (finish _ _ (by rw [he]; rfl)
      (unfolded_plain h ht hml hk hmap he rfl rfl (fun _ _ => rfl) trivial)))
  refine Sat.ite (fun hc => ?_) fun h3' => ?_
  · have he := (Entry.isUnassignedNs_word hv).mp hc
    exact granuleRefcountInc_sat (by decide) (Sat.pure (finish _ _ (by rw [he]; rfl)
      (unfolded_plain h ht hml hk hmap he rfl rfl (fun _ _ => rfl) trivial)))
  refine Sat.ite (fun hc => ?_) fun h4 => ?_
  · have he := (Entry.isUnassignedDestroyed_word hv).mp hc
    exact granuleRefcountInc_sat (by decide) (Sat.pure (finish _ _ (by rw [he]; rfl)
      (unfolded_plain h ht hml hk hmap he rfl rfl (fun _ _ => rfl) trivial)))
  refine Sat.ite (fun hc => ?_) fun h5 => ?_
  · obtain ⟨pa, he⟩ := (Entry.isAssignedDestroyed_word hv).mp hc
    refine assertThat_sat (fun _ => by decide) fun hb => ?_
    rw [hpa _ _ he]
    have hu := unfolded_block false h ht hml hk hmap he (he ▸ hv) (of_decide_eq_true hb)
      h3 (by rintro ⟨⟩)
    exact granuleRefcountInc_sat (by decide) (Sat.pure (finish _ _ (by rw [he]; rfl) hu))
  refine Sat.ite (fun hc => ?_) fun h6 => ?_
  · obtain ⟨pa, he⟩ := (Entry.isAssignedEmpty_word hv).mp hc
    refine assertThat_sat (fun _ => by decide) fun hb => ?_
    rw [hpa _ _ he]
    have hu := unfolded_block false h ht hml hk hmap he (he ▸ hv) (of_decide_eq_true hb)
      h3 (by rintro ⟨⟩)
    exact granuleRefcountInc_sat (by decide) (Sat.pure (finish _ _ (by rw [he]; rfl) hu))
  refine Sat.ite (fun hc => ?_) fun h7 => ?_
  · obtain ⟨pa, he⟩ := (Entry.isAssignedRam_word hv).mp hc
    refine assertThat_sat (fun _ => by decide) fun hb => ?_
    rw [hpa _ _ he]
    have hu := unfolded_block true h ht hml hk hmap he (he ▸ hv) (of_decide_eq_true hb)
      h3 fun _ => rfl
    exact granuleRefcountInc_sat (by decide) (Sat.pure (finish _ _ (by rw [he]; rfl) hu))
  refine Sat.ite (fun hc => ?_) fun h8 => ?_
  · obtain ⟨desc, he⟩ := (Entry.isAssignedNs_word hv).mp hc
    refine assertThat_sat (fun _ => by decide) fun hb => ?_
    have hns : s2ttePa ctx ((n.slot wi.index).word ctx (level - 1)) (level - 1) =
        Entry.nsPa ctx (level - 1) desc := by
      rw [he] at hv ⊢
      exact Entry.s2ttePa_assignedNs hv
    obtain ⟨slot, hu⟩ := unfolded_ns h ht hml hk hmap he (he ▸ hv)
      (of_decide_eq_true hb) h3 rfl hns
    exact granuleRefcountInc_sat (by decide) (Sat.pure (finish slot _ (by rw [he]; rfl) hu))
  refine Sat.ite (fun _ => Sat.pure (by simp)) fun _ => ?_
  exact Sat.error (by decide)

/-- A granule of the machine can be named by a descriptor of the realm. -/
theorem findGranule_aligned {plat : Platform} {ctx : S2ttContext} {a : Word}
    (hf : findGranule plat a = true)
    (hlpa : ¬ ((!ctx.enableLpa2 && decide (2 ^ 48 ≤ a.toNat)) = true)) :
    s2tteIsAddrLvlAligned ctx a 3 = true := by
  rw [findGranule, Bool.and_eq_true, granuleAligned_iff] at hf
  rw [addrLvlAligned_iff]
  refine ⟨hf.1, ?_⟩
  have h52 := plat.isGranule_lt a hf.2
  unfold s2tteOaBits
  cases hl : ctx.enableLpa2 with
  | true => exact h52
  | false =>
    rw [hl] at hlpa
    simpa using hlpa

/-- The arguments that the structure commands accept. -/
theorem validateRttStructureCmds_iff {mapAddr : Word} {level : ℤ} {rd : Rd}
    (h : validateRttStructureCmds mapAddr level rd = true) :
    rd.s2Ctx.s2StartingLevel + 1 ≤ level ∧ level ≤ 3 ∧
      mapAddr.toNat % s2tteMapSize (level - 1) = 0 := by
  unfold validateRttStructureCmds at h
  split at h
  case isTrue => cases h
  case isFalse hl =>
    unfold s2ttPageLevel at hl
    rw [validateMapAddr, Bool.and_eq_true, addrLvlAligned_iff] at h
    exact ⟨by omega, by omega, h.2.1⟩

/-- The entry that a structure command works on: its address is the first one of
its slot. -/
theorem walked_structure {s : State} {F : Tables} (h : Holds s F) {rd mapAddr : Word}
    {wi : S2ttWalk} {n : Table} {level : ℤ} (hw : Walked F rd mapAddr wi n)
    (hl : wi.lastLevel = level - 1) (hmod : mapAddr.toNat % s2tteMapSize (level - 1) = 0) :
    F wi.gLlt = some n ∧ wi.index < 512 ∧ levelOf n.height = level - 1 ∧
      mapAddr.toNat = n.slotBase rttShape wi.index := by
  have hlev : levelOf n.height = level - 1 := by rw [← hw.level, hl]
  have hi : wi.index < 512 := by
    rw [hw.index]
    exact hw.covers.slotOf_lt
  refine ⟨hw.table, hi, hlev, h.eq_slotBase hw.table ?_ ?_⟩
  · rw [hw.index]
    exact hw.covers.slotCovers
  · rw [rttShape_span, hlev]
    exact Nat.dvd_of_mod_eq_zero hmod

/-- A table that `smc_rtt_create` made, with the checks that let it. -/
structure RttGrown (plat : Platform) (s : State) (F : Tables) (rdAddr rttAddr mapAddr : Word)
    (level : ℤ) (s' : State) (t : Word) (n : Table) (i : ℕ) (m : Table)
    (F' : Tables) : Prop where
  rttLock : lockable plat s rttAddr .DELEGATED = true
  rdLock : lockable plat s rdAddr .RD = true
  args : validateRttStructureCmds mapAddr level (s.rd rdAddr) = true
  owner : n.owner = rdAddr
  first : mapAddr.toNat = n.slotBase rttShape i
  level : levelOf n.height = level - 1
  graft : GraftStep s F t n i rttAddr m s' F'
  wf : Wf s' F'
  bound : (s'.granule t).refcount ≤ rttRefcountMax

/-- What `smc_rtt_create` does: nothing, or a graft. -/
def RttCreated (plat : Platform) (s : State) (F : Tables) (rdAddr rttAddr mapAddr : Word)
    (level : ℤ) (s' : State) (ret : ReturnCode) : Prop :=
  (s' = s ∧ ret ≠ rmiSuccess) ∨ (ret = rmiSuccess ∧ ∃ t n i m F',
    RttGrown plat s F rdAddr rttAddr mapAddr level s' t n i m F')

theorem smcRttCreate_sat {plat : Platform} {s : State} {F : Tables} (h : Wf s F)
    (rdAddr rttAddr mapAddr ulevel : Word) :
    Sat (smcRttCreate plat s rdAddr rttAddr mapAddr ulevel)
      (fun res => RttCreated plat s F rdAddr rttAddr mapAddr ulevel.toInt res.1
        res.2.ret) Benign := by
  unfold smcRttCreate
  simp only
  refine Sat.ite (fun _ => Sat.pure (.inl ⟨rfl, by simp [smcRet, rmiErrorInput, rmiSuccess]⟩))
    fun hlock => ?_
  obtain ⟨-, hk, hr⟩ := findLockTwoGranules_iff (by simpa using hlock)
  have hrd := lockable_state hr
  have hdel := lockable_state hk
  refine Sat.ite (fun _ => Sat.pure (.inl ⟨rfl, by simp [smcRet, rmiErrorInput, rmiSuccess]⟩))
    fun hargs => ?_
  replace hargs : validateRttStructureCmds mapAddr ulevel.toInt (s.rd rdAddr) = true := by
    simpa using hargs
  obtain ⟨-, h3, hmod⟩ := validateRttStructureCmds_iff hargs
  refine Sat.ite (fun _ => Sat.pure (.inl ⟨rfl, by simp [smcRet, rmiErrorInput, rmiSuccess]⟩))
    fun hlpa => ?_
  have hal := findGranule_aligned (Bool.and_eq_true _ _ ▸ hk).1 hlpa
  generalize ulevel.toInt = level at hargs h3 hmod ⊢
  refine Sat.bind (h.holds.walk_sat hrd (level - 1) (by decide)) ?_
  rintro wi ⟨n, hw, hin, -, -, -⟩
  refine Sat.ite (fun _ => Sat.pure (.inl ⟨rfl, by simp [smcRet, rmiErrorRtt, rmiSuccess]⟩))
    fun hl => ?_
  rw [not_ne_iff] at hl
  obtain ⟨ht, hi, hlev, hmap⟩ := walked_structure h.holds hw hl hmod
  obtain rfl : n.owner = rdAddr := hw.owner
  refine Sat.bind (rttUnfold_sat h ht hi hlev h3 hdel hmap) ?_
  rintro (_ | s1) hs1
  · exact Sat.pure (.inl ⟨rfl, by simp [smcRet, rmiErrorRtt, rmiSuccess]⟩)
  obtain ⟨hlink, m, ho, hh, hb, u⟩ := hs1 s1 rfl
  simp only
  refine assertThat_sat (fun _ => by decide) fun hunlock => ?_
  refine granuleUnlock_sat (by decide) (Sat.pure (.inr ⟨rfl, ?_⟩))
  have hkt : rttAddr ≠ wi.gLlt := by
    intro hc
    have := (h.holds.node ht).1
    rw [← hc, hdel] at this
    cases this
  obtain ⟨c, hgt, hc⟩ := u.tableGranule
  have hgraft : Grafted s F wi.gLlt n wi.index rttAddr m (s2tteWrite (s1.setState rttAddr .RTT)
      (s.rd n.owner).s2Ctx wi.gLlt wi.index (s2tteCreateTable (s.rd n.owner).s2Ctx rttAddr)) := by
    refine ⟨isLeaf_slotBase ht hi hlink, by rw [← hmap]; exact hin, hdel, ho, hh, hb, u.splits,
      ⟨by omega, hal⟩, fun j hj => ⟨(u.entries j hj).1, ?_⟩, fun j => ?_,
        fun g hg1 hg2 => ?_,
      ⟨c, ?_, hc⟩, ?_, fun g hg1 hg2 => ?_, u.rd, u.recs, u.apt, u.tags, u.csmIds, u.vmids,
      fun leaf hleaf => ?_⟩
    · rw [← (u.entries j hj).2]
      exact congrFun (Function.update_of_ne hkt _ _) j
    · show Function.update s1.rtt wi.gLlt _ wi.gLlt j = _
      rw [Function.update_self]
      by_cases hj : j = wi.index
      · rw [if_pos hj, hj, Function.update_self]
        rfl
      · rw [if_neg hj]
        exact (Function.update_of_ne hj _ _).trans (u.table j hj)
    · exact (Function.update_of_ne hg1 _ _).trans (u.other g hg1 hg2)
    · exact (Function.update_of_ne hkt.symm _ _).trans hgt
    · show Function.update s1.granule rttAddr ⟨.RTT, (s1.granule rttAddr).refcount⟩ rttAddr = _
      rw [Function.update_self, u.newCount]
    · exact (Function.update_of_ne hg2 _ _).trans (u.granule g hg1 hg2)
    · have hleaf' : (s1.tlb leaf || validLeaf (s2tteWrite (s1.setState rttAddr .RTT)
        (s.rd n.owner).s2Ctx wi.gLlt wi.index (s2tteCreateTable (s.rd n.owner).s2Ctx rttAddr)).rtt
        (s.rd n.owner).s2Ctx leaf) = true := hleaf
      rw [Bool.or_eq_true] at hleaf'
      rcases hleaf' with h1 | h1
      · exact (u.tlb leaf h1).imp id .inl
      · exact .inr (.inr h1)
  obtain ⟨hst, hwf⟩ := hgraft.step h
  refine ⟨wi.gLlt, n, wi.index, m, _, hk, hr, hargs, rfl, hmap, hlev, hst, hwf, ?_⟩
  unfold unlockedInvariant at hunlock
  rw [hst.tableState] at hunlock
  exact of_decide_eq_true hunlock

end RmmCaec
