import RmmCaec.GraftHandlers

/-!
# Effects of folding and destroying tables

Folding a table prunes it into an entry of the same meaning; destroying one prunes
it into an unmapped entry. Both handlers end in the same way, with a number of
pages invalidated that depends on the entry.
-/
namespace RmmCaec

open RadixForest Outcome

/-- The end of both handlers: clear the parent entry, invalidate, write the new
entry, scrub the table and free it. -/
def prunedState (s : State) (ctx : S2ttContext) (t : Word) (i : ℕ) (k mapAddr entry : Word)
    (size : ℕ) : State :=
  ((s2tteWrite (stage2TlbiIpa (s2tteWrite s ctx t i 0#64) ctx mapAddr size) ctx t i entry).memzero
    k).setState k .DELEGATED

/-- The state after the references were moved, with everything else unchanged. -/
structure Recounted (s : State) (t k : Word) (refs : ℕ) (s1 : State) : Prop where
  eq : s1 = { s with granule := s1.granule }
  table : ∃ c, s1.granule t = ⟨.RTT, c⟩ ∧ c + 1 = (s.granule t).refcount + refs
  child : (s1.granule k).refcount = 0
  granule : ∀ g, g ≠ t → g ≠ k → s1.granule g = s.granule g

theorem pruned_mk {s s1 : State} {F : Tables} (h : Wf s F) {t k mapAddr : Word} {n m : Table}
    {i : ℕ} (pages : ℕ) (new : Entry) (ht : F t = some n) (hi : i < 512)
    (hlink : n.slot i = .table k)
    (hk : F k = some m) (hleaves : ∀ j < 512, (m.slot j).link = none) (hnew : new.link = none)
    (hv : new.Valid (s.rd n.owner).s2Ctx (levelOf n.height))
    (hmap : mapAddr.toNat = n.slotBase rttShape i)
    (hin : mapAddr.toNat < 2 ^ (s.rd n.owner).s2Ctx.ipaBits)
    (hc : Recounted s t k new.refs s1) :
    Pruned s F t n i k m new pages (prunedState s1 (s.rd n.owner).s2Ctx t i k mapAddr
      (new.word (s.rd n.owner).s2Ctx (levelOf n.height)) (pages * granuleSize)) := by
  have hkt : t ≠ k := by
    rintro rfl
    obtain ⟨m', hm', -, hh, -⟩ := h.holds.ok.child ht hi (Entry.link_eq_some.mpr hlink)
    rw [ht] at hm'
    cases hm'
    omega
  set ctx := (s.rd n.owner).s2Ctx with hctx
  set w := new.word ctx (levelOf n.height) with hw
  obtain ⟨c, hgt, hcount⟩ := hc.table
  have hrtt1 : s1.rtt = s.rtt := by rw [hc.eq]
  have hrtt : (prunedState s1 ctx t i k mapAddr w (pages * granuleSize)).rtt =
      Function.update (Function.update s.rtt t (Function.update (s.rtt t) i w)) k
        fun _ => 0#64 := by
    show Function.update (Function.update (Function.update s1.rtt t _) t
      (Function.update (Function.update s1.rtt t (Function.update (s1.rtt t) i 0#64) t) i w)) k _ =
        _
    rw [Function.update_self, Function.update_idem, Function.update_idem, hrtt1]
  refine ⟨ht, hi, hlink, hk, hleaves, hnew, by rw [← hmap]; exact hin, hv, fun j => ?_,
    fun g h1 h2 => ?_, ⟨c, ?_, hcount⟩, ?_, ⟨?_, ?_, ?_, ?_⟩, fun g h1 h2 => ?_,
      fun g h1 => ?_,
    fun g h1 => ?_, fun g h1 => ?_, ?_, ?_, ?_, fun leaf hleaf => ?_⟩
  · rw [hrtt, Function.update_of_ne hkt, Function.update_self, Function.update_apply]
  · rw [hrtt, Function.update_of_ne h2, Function.update_of_ne h1]
  · exact (Function.update_of_ne hkt _ _).trans hgt
  · show Function.update s1.granule k ⟨.DELEGATED, (s1.granule k).refcount⟩ k = _
    rw [Function.update_self, hc.child]
  · exact Function.update_self ..
  · exact Function.update_self ..
  · exact Function.update_self ..
  · exact Function.update_self ..
  · exact (Function.update_of_ne h2 _ _).trans (hc.granule g h1 h2)
  · exact (Function.update_of_ne h1 _ _).trans (by rw [hc.eq]; rfl)
  · exact (Function.update_of_ne h1 _ _).trans (by rw [hc.eq]; rfl)
  · exact (Function.update_of_ne h1 _ _).trans (by rw [hc.eq]; rfl)
  · show s1.tags = s.tags
    rw [hc.eq]
  · show s1.csmIds = s.csmIds
    rw [hc.eq]
  · show s1.vmids = s.vmids
    rw [hc.eq]
  · have htlb : s1.tlb = s.tlb := by rw [hc.eq]
    have hleaf' :
        ((((s1.tlb leaf || validLeaf (Function.update s1.rtt t (Function.update (s1.rtt t) i
          0#64)) ctx leaf) &&
        !((List.range (pages * granuleSize / granuleSize)).any fun p =>
          tlbiHits ctx (mapAddr.toNat + p * granuleSize) leaf)) ||
        validLeaf (Function.update s1.rtt t (Function.update (s1.rtt t) i 0#64)) ctx leaf) ||
        validLeaf (Function.update (Function.update s1.rtt t (Function.update (s1.rtt t) i 0#64)) t
          (Function.update (Function.update s1.rtt t (Function.update (s1.rtt t) i 0#64) t) i w))
            ctx
          leaf) = true := hleaf
    rw [Function.update_self, Function.update_idem, Function.update_idem, hrtt1, htlb] at hleaf'
    simp only [Bool.or_eq_true, Bool.and_eq_true, Bool.not_eq_true', List.any_eq_false,
      List.mem_range, Bool.not_eq_true] at hleaf'
    rcases hleaf' with (⟨h1 | h1, h2⟩ | h1) | h1
    · refine .inl ⟨h1, fun p hp => ?_⟩
      have := h2 p (by rw [Nat.mul_div_cancel _ (by decide)]; exact hp)
      rwa [hmap] at this
    · exact .inr (.inl h1)
    · exact .inr (.inl h1)
    · exact .inr (.inr h1)

theorem tableIsUniformBlock_iff {table : ℕ → Word} {isX : Word → Bool} :
    tableIsUniformBlock table isX = true ↔ ∀ j < 512, isX (table j) = true := by
  simp only [tableIsUniformBlock, List.all_eq_true, List.mem_range]
  exact Iff.rfl

theorem blockPa_zero (pa : Word) (level : ℤ) : blockPa pa level 0 = pa := by
  simp [blockPa]

theorem tableMapsBlock_spec {ctx : S2ttContext} {table : ℕ → Word} {level : ℤ}
    {isX : Word → ℤ → Bool} {chk : Bool} (h : tableMapsBlock ctx table level isX chk = true) :
    s2tteIsAddrLvlAligned ctx (s2ttePa ctx (table 0) level) (level - 1) = true ∧
      ∀ j < 512, isX (table j) level = true ∧
        s2ttePa ctx (table j) level = blockPa (s2ttePa ctx (table 0) level) level j ∧
        (chk = true → table j &&& s2tteNsAttrMask = table 0 &&& s2tteNsAttrMask) := by
  simp only [tableMapsBlock, Bool.and_eq_true, List.all_eq_true, List.mem_range, Bool.or_eq_true,
    beq_iff_eq, Bool.not_eq_true'] at h
  obtain ⟨⟨h0, hal⟩, hall⟩ := h
  refine ⟨hal, fun j hj => ?_⟩
  rcases hall j hj with rfl | ⟨⟨h1, h2⟩, h3⟩
  · exact ⟨h0, (blockPa_zero _ _).symm, fun _ => rfl⟩
  · refine ⟨h1, h2, fun hc => ?_⟩
    rcases h3 with h3 | h3
    · rw [hc] at h3
      cases h3
    · exact h3.symm

/-- What `rttFoldEntry` returns: an entry that means what the table means, with the
references moved. -/
structure FoldEntry (s : State) (t k : Word) (n m : Table) (level : ℤ) (s1 : State) (w : Word)
    (new : Entry) : Prop where
  word : w = new.word (s.rd n.owner).s2Ctx (level - 1)
  valid : new.Valid (s.rd n.owner).s2Ctx (level - 1)
  splits : Splits (s.rd n.owner).s2Ctx level new m.slot
  counts : Recounted s t k new.refs s1

section

variable {s : State} {F : Tables} {t k : Word} {n m : Table} {i : ℕ}

/-- The parent of a table holds a reference for it. -/
theorem parent_count_pos (h : Wf s F) (ht : F t = some n) (hi : i < 512)
    (hlink : n.slot i = .table k) : 1 ≤ (s.granule t).refcount := by
  have h1 := h.counts t n ht
  have h2 : (n.slot i).refs ≤ liveCount n :=
    Finset.single_le_sum (f := fun j => (n.slot j).refs) (fun _ _ => Nat.zero_le _)
      (Finset.mem_range.mpr hi)
  rw [hlink] at h2
  have h3 : (Entry.table k).refs = 1 := rfl
  omega

/-- Dropping the parent's reference for an empty table. -/
theorem recounted_put (h : Wf s F) (ht : F t = some n) (hi : i < 512)
    (hlink : n.slot i = .table k) (hk0 : (s.granule k).refcount = 0) (hkt : k ≠ t) :
    atomicGranulePut s t = .ok (s.setRefcount t ((s.granule t).refcount - 1)) ∧
      Recounted s t k 0 (s.setRefcount t ((s.granule t).refcount - 1)) := by
  have hpos := parent_count_pos h ht hi hlink
  refine ⟨granuleRefcountDec_ok hpos, rfl, ⟨(s.granule t).refcount - 1, ?_, by omega⟩, ?_,
    fun g hg _ => Function.update_of_ne hg _ _⟩
  · show Function.update s.granule t ⟨(s.granule t).state, _⟩ t = _
    rw [Function.update_self, (h.holds.node ht).1]
  · show (Function.update s.granule t _ k).refcount = 0
    rw [Function.update_of_ne hkt, hk0]

/-- The entry for a table without references. -/
theorem foldEntry_idle {ctx : S2ttContext} {level last : ℤ} {table : ℕ → Word}
    {slot : ℕ → Entry}
    (h3 : level ≤ 3) (hslot : ∀ j < 512, (slot j).Valid ctx level ∧
      table j = (slot j).word ctx level)
    {w : Word}
    (hw : (if tableIsUniformBlock table s2tteIsUnassignedDestroyed then
        (.ok s2tteCreateUnassignedDestroyed : Except ℤ Word)
      else if tableIsUniformBlock table s2tteIsUnassignedEmpty then .ok s2tteCreateUnassignedEmpty
      else if tableIsUniformBlock table s2tteIsUnassignedRam then .ok s2tteCreateUnassignedRam
      else if tableIsUniformBlock table s2tteIsUnassignedNs then .ok s2tteCreateUnassignedNs
      else if tableMapsBlock ctx table level s2tteIsAssignedNs true then
        if level ≤ s2ttMinBlockLevel then .error last
        else .ok (s2tteCreateAssignedNs ctx (table 0) (level - 1))
      else .error level) = .ok w) :
    ∃ new : Entry, w = new.word ctx (level - 1) ∧ new.Valid ctx (level - 1) ∧
      Splits ctx level new slot ∧ new.refs = 0 := by
  split at hw
  case isTrue hc =>
    cases hw
    refine ⟨.unassigned .DESTROYED, rfl, trivial, fun j hj => ?_, rfl⟩
    have := tableIsUniformBlock_iff.mp hc j hj
    rw [(hslot j hj).2] at this
    exact (Entry.isUnassignedDestroyed_word (hslot j hj).1).mp this
  split at hw
  case isTrue hc =>
    cases hw
    refine ⟨.unassigned .EMPTY, rfl, trivial, fun j hj => ?_, rfl⟩
    have := tableIsUniformBlock_iff.mp hc j hj
    rw [(hslot j hj).2] at this
    exact (Entry.isUnassignedEmpty_word (hslot j hj).1).mp this
  split at hw
  case isTrue hc =>
    cases hw
    refine ⟨.unassigned .RAM, rfl, trivial, fun j hj => ?_, rfl⟩
    have := tableIsUniformBlock_iff.mp hc j hj
    rw [(hslot j hj).2] at this
    exact (Entry.isUnassignedRam_word (hslot j hj).1).mp this
  split at hw
  case isTrue hc =>
    cases hw
    refine ⟨.unassignedNs, rfl, trivial, fun j hj => ?_, rfl⟩
    have := tableIsUniformBlock_iff.mp hc j hj
    rw [(hslot j hj).2] at this
    exact (Entry.isUnassignedNs_word (hslot j hj).1).mp this
  split at hw
  case isFalse => cases hw
  case isTrue hc =>
    split at hw
    case isTrue => cases hw
    case isFalse hl =>
      unfold s2ttMinBlockLevel at hl
      cases hw
      obtain ⟨hal, hall⟩ := tableMapsBlock_spec hc
      have entry : ∀ j < 512, ∃ d, slot j = .assignedNs d ∧ Entry.HostDesc ctx level d ∧
          s2ttePa ctx (table j) level = Entry.nsPa ctx level d ∧
          table j &&& s2tteNsAttrMask = d &&& s2tteNsAttrMask := by
        intro j hj
        obtain ⟨hv, htab⟩ := hslot j hj
        have hns := (hall j hj).1
        rw [htab] at hns ⊢
        obtain ⟨d, hd⟩ := (Entry.isAssignedNs_word hv).mp hns
        rw [hd] at hv ⊢
        exact ⟨d, rfl, hv.2.2, Entry.s2ttePa_assignedNs hv, Entry.word_assignedNs_and_attrs hv⟩
      obtain ⟨d0, hd0, hhost, hpa0, hat0⟩ := entry 0 (by omega)
      rw [hpa0] at hal hall
      refine ⟨.assignedNs d0, ?_,
        ⟨by omega, by omega, Entry.hostDesc_pred hhost hal (by omega)⟩,
        fun j hj => ?_, rfl⟩
      · rw [(hslot 0 (by omega)).2, hd0]
        exact Entry.createAssignedNs_word _
      · obtain ⟨d, hd, -, hpa, hat⟩ := entry j hj
        refine ⟨d, hd, ?_, ?_⟩
        · rw [← hpa, (hall j hj).2.1, Entry.nsPa_pred hal (by omega)]
        · rw [← hat, (hall j hj).2.2 rfl, hat0]

/-- The entry for a table of assigned entries. -/
theorem foldEntry_block {ctx : S2ttContext} {level : ℤ} {table : ℕ → Word}
    {slot : ℕ → Entry}
    (h1 : 1 < level) (h3 : level ≤ 3)
    (hslot : ∀ j < 512, (slot j).Valid ctx level ∧ table j = (slot j).word ctx level)
    {r : Ripas}
    {isX : Word → ℤ → Bool} {chk : Bool}
    (hX : ∀ e : Entry, e.Valid ctx level → (isX (e.word ctx level) level = true ↔
      ∃ pa, e = .assigned r pa))
    (hmaps : tableMapsBlock ctx table level isX chk = true) :
    ∃ pa, s2ttePa ctx (table 0) level = pa ∧
      (Entry.assigned r pa).Valid ctx (level - 1) ∧ Splits ctx level (.assigned r pa) slot := by
  obtain ⟨hal, hall⟩ := tableMapsBlock_spec hmaps
  refine ⟨_, rfl, ⟨by omega, by omega, hal⟩, fun j hj => ?_⟩
  obtain ⟨hv, htab⟩ := hslot j hj
  obtain ⟨hx, hpa, -⟩ := hall j hj
  rw [htab] at hx
  obtain ⟨pa, he⟩ := (hX _ hv).mp hx
  rw [← hpa, htab, he, Entry.s2ttePa_assigned (he ▸ hv)]

theorem rttFoldEntry_sat (h : Wf s F) {wi : S2ttWalk} {level : ℤ} (ht : F wi.gLlt = some n)
    (hi : wi.index < 512) (hlink : n.slot wi.index = .table k) (hk : F k = some m)
    (ho : m.owner = n.owner) (hml : levelOf m.height = level) (h3 : level ≤ 3)
    (hkt : k ≠ wi.gLlt) :
    Sat (rttFoldEntry s (s.rd n.owner).s2Ctx wi k level) (fun res => ∀ s1 w, res = .ok (s1, w) →
      ∃ new, FoldEntry s wi.gLlt k n m level s1 w new) Benign := by
  have hslot : ∀ j < 512, (m.slot j).Valid (s.rd n.owner).s2Ctx level ∧
      s.rtt k j = (m.slot j).word (s.rd n.owner).s2Ctx level := by
    intro j hj
    have := h.holds.word k m hk j hj
    rwa [ho, hml] at this
  set ctx := (s.rd n.owner).s2Ctx with hctx
  unfold rttFoldEntry
  refine Sat.ite (fun hk0 => ?_) fun _ => Sat.ite (fun hk512 => ?_) fun _ => ?_
  · obtain ⟨hput, hrec⟩ := recounted_put h ht hi hlink hk0 hkt
    have hidle := fun w => @foldEntry_idle ctx level wi.lastLevel (s.rtt k) m.slot h3 hslot w
    generalize (if tableIsUniformBlock (s.rtt k) s2tteIsUnassignedDestroyed = true then _ else _ :
      Except ℤ Word) = entry at hidle ⊢
    cases entry with
    | error l => exact Sat.pure (by rintro s1 w ⟨⟩)
    | ok w =>
      obtain ⟨new, hw, hv, hsp, hrefs⟩ := hidle w rfl
      simp only [hput]
      refine Sat.ok_bind (Sat.pure ?_)
      rintro s1 w' ⟨⟩
      exact ⟨new, hw, hv, hsp, by rw [hrefs]; exact hrec⟩
  · refine Sat.ite (fun _ => Sat.pure (by rintro s1 w ⟨⟩)) fun hl => ?_
    unfold s2ttMinBlockLevel at hl
    refine assertThat_sat (fun _ => by decide) fun _ => ?_
    simp only
    have hentry : ∀ w, (if tableMapsBlock ctx (s.rtt k) level
        (fun w _ => s2tteIsAssignedEmpty w) false then
          (.ok (s2tteCreateAssignedEmpty ctx (s2ttePa ctx (s.rtt k 0) level) (level - 1)) :
            Except ℤ Word)
        else if tableMapsBlock ctx (s.rtt k) level s2tteIsAssignedRam false then
          .ok (s2tteCreateAssignedRam ctx (s2ttePa ctx (s.rtt k 0) level) (level - 1))
        else if tableMapsBlock ctx (s.rtt k) level
          (fun w _ => s2tteIsAssignedDestroyed w) false then
          .ok (s2tteCreateAssignedDestroyed ctx (s2ttePa ctx (s.rtt k 0) level) (level - 1))
        else .error level) = .ok w →
        ∃ r pa, w = (Entry.assigned r pa).word ctx (level - 1) ∧
          (Entry.assigned r pa).Valid ctx (level - 1) ∧
            Splits ctx level (.assigned r pa) m.slot := by
      intro w hw
      split at hw
      case isTrue hc =>
        cases hw
        obtain ⟨pa, hpa, hv, hsp⟩ := foldEntry_block (r := .EMPTY) (by omega) h3 hslot
          (fun e he => Entry.isAssignedEmpty_word he) hc
        exact ⟨.EMPTY, pa, by rw [hpa]; rfl, hv, hsp⟩
      split at hw
      case isTrue hc =>
        cases hw
        obtain ⟨pa, hpa, hv, hsp⟩ := foldEntry_block (r := .RAM) (by omega) h3 hslot
          (fun e he => Entry.isAssignedRam_word he) hc
        exact ⟨.RAM, pa, by rw [hpa]; rfl, hv, hsp⟩
      split at hw
      case isTrue hc =>
        cases hw
        obtain ⟨pa, hpa, hv, hsp⟩ := foldEntry_block (r := .DESTROYED) (by omega) h3 hslot
          (fun e he => Entry.isAssignedDestroyed_word he) hc
        exact ⟨.DESTROYED, pa, by rw [hpa]; rfl, hv, hsp⟩
      cases hw
    generalize (if tableMapsBlock ctx (s.rtt k) level (fun w _ => s2tteIsAssignedEmpty w) false =
      true then _ else _ : Except ℤ Word) = entry at hentry ⊢
    cases entry with
    | error l => exact Sat.pure (by rintro s1 w ⟨⟩)
    | ok w =>
      obtain ⟨r, pa, hw, hv, hsp⟩ := hentry w rfl
      simp only [granuleRefcountDec_ok hk512.ge]
      refine Sat.ok_bind (Sat.pure ?_)
      rintro s1 w' ⟨⟩
      refine ⟨.assigned r pa, hw, hv, hsp, rfl, ⟨(s.granule wi.gLlt).refcount, ?_, rfl⟩, ?_,
        fun g _ hg => Function.update_of_ne hg _ _⟩
      · show Function.update s.granule k _ wi.gLlt = _
        rw [Function.update_of_ne hkt.symm, ← (h.holds.node ht).1]
      · show (Function.update s.granule k ⟨_, (s.granule k).refcount - s2ttesPerS2tt⟩
            k).refcount = 0
        rw [Function.update_self, hk512, Nat.sub_self]
  · exact Sat.pure (by rintro s1 w ⟨⟩)

/-- The table below an entry that is tested as a table descriptor. -/
theorem table_child (h : Holds s F) {level : ℤ} (ht : F t = some n) (hi : i < 512)
    (hlev : levelOf n.height = level - 1) (htab : s2tteIsTable (s.rtt t i) (level - 1) = true) :
    ∃ m, n.slot i = .table (s2ttePa (s.rd n.owner).s2Ctx (s.rtt t i) (level - 1)) ∧
      F (s2ttePa (s.rd n.owner).s2Ctx (s.rtt t i) (level - 1)) = some m ∧ m.owner = n.owner ∧
      levelOf m.height = level ∧ s2ttePa (s.rd n.owner).s2Ctx (s.rtt t i) (level - 1) ≠ t := by
  obtain ⟨hv, hword⟩ := h.word t n ht i hi
  rw [hlev] at hv hword
  rw [hword] at htab ⊢
  obtain ⟨k, he⟩ := (Entry.isTable_word hv).mp htab
  rw [he, Entry.s2ttePa_table (he ▸ hv)]
  obtain ⟨m, hm, ho, hh, -⟩ := h.ok.child ht hi (Entry.link_eq_some.mpr he)
  refine ⟨m, rfl, hm, ho, ?_, ?_⟩
  · unfold levelOf at hlev ⊢
    omega
  · rintro rfl
    rw [ht] at hm
    cases hm
    omega

end

/-- What `smc_rtt_fold` does: nothing, or a table becomes a leaf of its meaning. -/
def RttFolded (s : State) (F : Tables) (rdAddr mapAddr : Word) (level : ℤ) (s' : State)
    (ret : ReturnCode) : Prop :=
  (s' = s ∧ ret ≠ rmiSuccess) ∨ (ret = rmiSuccess ∧
    ∃ t n i k m new pages F', n.owner = rdAddr ∧
    mapAddr.toNat = n.slotBase rttShape i ∧ levelOf n.height = level - 1 ∧
    PruneStep s F t n i k m new pages s' F' ∧ Wf s' F' ∧
    Splits (s.rd n.owner).s2Ctx (levelOf m.height) new m.slot ∧
    (new.output (s.rd n.owner).s2Ctx (levelOf n.height) ≠ none → pages = 512) ∧ 0 < pages)

theorem smcRttFold_sat {plat : Platform} {s : State} {F : Tables} (h : Wf s F)
    (rdAddr mapAddr ulevel : Word) :
    Sat (smcRttFold plat s rdAddr mapAddr ulevel) (fun res =>
      RttFolded s F rdAddr mapAddr ulevel.toInt res.1 res.2.ret) Benign := by
  unfold smcRttFold
  simp only
  refine findLockGranule_sat (by decide) ?_
  refine Sat.ite (fun _ => Sat.pure (.inl ⟨rfl, by simp [smcRet, rmiErrorInput, rmiSuccess]⟩))
    fun hr => ?_
  have hrd := lockable_state (by simpa using hr)
  refine Sat.ite (fun _ => Sat.pure (.inl ⟨rfl, by simp [smcRet, rmiErrorInput, rmiSuccess]⟩))
    fun hargs => ?_
  obtain ⟨-, h3, hmod⟩ := validateRttStructureCmds_iff (by simpa using hargs)
  generalize ulevel.toInt = level at h3 hmod ⊢
  refine Sat.bind (h.holds.walk_sat hrd (level - 1) (by decide)) ?_
  rintro wi ⟨n, hw, hin, -, -, -⟩
  refine Sat.ite (fun _ => Sat.pure (.inl ⟨rfl, by simp [smcRet, rmiErrorRtt, rmiSuccess]⟩))
    fun hl => ?_
  rw [not_ne_iff] at hl
  obtain ⟨ht, hi, hlev, hmap⟩ := walked_structure h.holds hw hl hmod
  obtain rfl : n.owner = rdAddr := hw.owner
  refine Sat.ite (fun _ => Sat.pure (.inl ⟨rfl, by simp [smcRet, rmiErrorRtt, rmiSuccess]⟩))
    fun htab => ?_
  obtain ⟨m, hlink, hk, ho, hml, hkt⟩ := table_child h.holds ht hi hlev (by simpa using htab)
  generalize s2ttePa (s.rd n.owner).s2Ctx (s.rtt wi.gLlt wi.index) (level - 1) =
    k at hlink hk hkt ⊢
  refine findLockGranule_sat (by decide) (assertThat_sat (fun _ => by decide) fun _ => ?_)
  refine Sat.bind (rttFoldEntry_sat h ht hi hlink hk ho hml h3 hkt) ?_
  rintro (l | ⟨s1, w⟩) hfold
  · exact Sat.pure (.inl ⟨rfl, by simp [smcRet, rmiErrorRtt, rmiSuccess]⟩)
  obtain ⟨new, hfe⟩ := hfold s1 w rfl
  simp only
  refine granuleUnlock_sat (by decide) (granuleUnlock_sat (by decide) (Sat.pure ?_))
  have hnew : new.link = none := (hfe.splits.link (j := 0) (by omega)).2
  have hleaves : ∀ j < 512, (m.slot j).link = none := fun j hj => (hfe.splits.link hj).1
  have hv := hfe.valid
  rw [← hlev] at hv
  have done : ∀ pages, (new.output (s.rd n.owner).s2Ctx (levelOf n.height) ≠ none →
      pages = 512) →
      0 < pages → RttFolded s F n.owner mapAddr level (prunedState s1 (s.rd n.owner).s2Ctx wi.gLlt
        wi.index k mapAddr w (pages * granuleSize)) rmiSuccess := by
    intro pages hp hpos
    have hpr := pruned_mk h pages new ht hi hlink hk hleaves hnew hv hmap hin hfe.counts
    rw [hlev, ← hfe.word] at hpr
    obtain ⟨hst, hwf⟩ := hpr.step h
    exact .inr ⟨rfl, _, n, _, k, m, new, pages, _, rfl, hmap, hlev, hst,
      hwf, by rw [hml]; exact hfe.splits, hp, hpos⟩
  have hout : (s2tteIsAssignedRam w (level - 1) || s2tteIsAssignedNs w (level - 1)) = false →
      new.output (s.rd n.owner).s2Ctx (levelOf n.height) = none := by
    intro hf
    by_contra hne
    obtain ⟨pa, hpa⟩ := Option.ne_none_iff_exists'.mp hne
    have := (Entry.isLeafWord_of_output hv hpa).1
    rw [hlev, ← hfe.word, hf] at this
    cases this
  cases hval : s2tteIsAssignedRam w (level - 1) || s2tteIsAssignedNs w (level - 1) with
  | true => exact done 512 (fun _ => rfl) (by decide)
  | false => exact done 1 (fun hne => absurd (hout hval) hne) (by decide)

/-- What `smc_rtt_destroy` does: nothing, or a table without live protected entries
becomes an unmapped leaf. -/
def RttDestroyed (s : State) (F : Tables) (rdAddr : Word) (s' : State) : Prop :=
  s' = s ∨ ∃ t n i k m new pages F', n.owner = rdAddr ∧
    PruneStep s F t n i k m new pages s' F' ∧ Wf s' F' ∧ (s.granule k).refcount = 0 ∧
    (∀ j < 512, (m.slot j).refs = 0) ∧
    (n.slotBase rttShape i < 2 ^ (s.rd n.owner).s2Ctx.ipaBits / 2 →
      new = .unassigned .DESTROYED ∧ pages = 1) ∧
    (¬ n.slotBase rttShape i < 2 ^ (s.rd n.owner).s2Ctx.ipaBits / 2 →
      new = .unassignedNs ∧ pages = 512)

theorem Entry.link_of_refs {e : Entry} (h : e.refs = 0) : e.link = none := by
  cases e with
  | table pa => cases h
  | _ => rfl

/-- Destroying does nothing or cuts off the table below the walked entry. -/
theorem smcRttDestroy_walked {plat : Platform} {s : State} {F : Tables} (h : Wf s F)
    (rdAddr mapAddr ulevel : Word) :
    Sat (smcRttDestroy plat s rdAddr mapAddr ulevel) (fun res =>
      (res.1 = s ∧ res.2.ret ≠ rmiSuccess) ∨
      (res.2.ret = rmiSuccess ∧ ∃ wi n k m new pages F',
        s2ttWalkLockUnlock s (s.rd rdAddr).s2Ctx mapAddr (ulevel.toInt - 1) = .ok wi ∧
        n.owner = rdAddr ∧ PruneStep s F wi.gLlt n wi.index k m new pages res.1
          F' ∧ Wf res.1 F' ∧
        (s.granule k).refcount = 0 ∧ (∀ j < 512, (m.slot j).refs = 0) ∧
        (n.slotBase rttShape wi.index < 2 ^ (s.rd n.owner).s2Ctx.ipaBits / 2 →
          new = .unassigned .DESTROYED ∧ pages = 1) ∧
        (¬ n.slotBase rttShape wi.index < 2 ^ (s.rd n.owner).s2Ctx.ipaBits / 2 →
          new = .unassignedNs ∧ pages = 512))) Benign := by
  unfold smcRttDestroy
  refine findLockGranule_sat (by decide) ?_
  have hne : rmiErrorInput ≠ rmiSuccess := by decide
  refine Sat.ite (fun _ => Sat.pure (.inl ⟨rfl, hne⟩)) fun hr => ?_
  have hrd := lockable_state (by simpa using hr)
  refine Sat.ite (fun _ => Sat.pure (.inl ⟨rfl, hne⟩)) fun hargs => ?_
  obtain ⟨-, h3, hmod⟩ := validateRttStructureCmds_iff (by simpa using hargs)
  generalize ulevel.toInt = level at h3 hmod ⊢
  refine Sat.bind (h.holds.walk_sat hrd (level - 1) (by decide)).withEq ?_
  rintro wi ⟨hwalk, n, hw, hin, -, -, -⟩
  refine Sat.ite (fun _ => Sat.pure (.inl ⟨rfl, by simp [rmiErrorRtt, rmiSuccess]⟩)) fun hl =>
    ?_
  rw [not_or, not_ne_iff, Bool.not_eq_false] at hl
  obtain ⟨hl, htab⟩ := hl
  obtain ⟨ht, hi, hlev, hmap⟩ := walked_structure h.holds hw hl hmod
  obtain rfl : n.owner = rdAddr := hw.owner
  obtain ⟨m, hlink, hk, ho, hml, hkt⟩ := table_child h.holds ht hi hlev htab
  generalize s2ttePa (s.rd n.owner).s2Ctx (s.rtt wi.gLlt wi.index) (level - 1) =
    k at hlink hk hkt ⊢
  refine findLockGranule_sat (by decide) (assertThat_sat (fun _ => by decide) fun _ => ?_)
  refine Sat.ite (fun _ => Sat.pure (.inl ⟨rfl, by simp [rmiErrorRtt, rmiSuccess]⟩)) fun hk0 =>
    ?_
  rw [not_ne_iff] at hk0
  have hdead : ∀ j < 512, (m.slot j).refs = 0 := fun j hj =>
    liveCount_eq_zero (Nat.le_zero.mp (hk0 ▸ h.counts k m hk)) hj
  have hleaves : ∀ j < 512, (m.slot j).link = none := fun j hj => Entry.link_of_refs (hdead j hj)
  obtain ⟨hput, hrec⟩ := recounted_put h ht hi hlink hk0 hkt
  rw [hput]
  refine Sat.ok_bind ?_
  simp only
  refine granuleUnlock_sat (by decide) (granuleUnlock_sat (by decide)
    (Sat.pure (.inr ⟨rfl, ?_⟩)))
  have hpar : addrInPar (s.rd n.owner) mapAddr = true ↔
      n.slotBase rttShape wi.index < 2 ^ (s.rd n.owner).s2Ctx.ipaBits / 2 := by
    rw [← hmap]
    exact decide_eq_true_iff
  cases hp : addrInPar (s.rd n.owner) mapAddr with
  | true =>
    have hpr := pruned_mk h 1 (.unassigned .DESTROYED) ht hi hlink hk hleaves rfl
      trivial hmap hin hrec
    obtain ⟨hst, hwf⟩ := hpr.step h
    exact ⟨_, n, k, m, _, _, _, hwalk, rfl, hst, hwf, hk0, hdead, fun _ => ⟨rfl, rfl⟩,
      fun hc => absurd (hpar.mp hp) hc⟩
  | false =>
    have hpr := pruned_mk h 512 .unassignedNs ht hi hlink hk hleaves rfl
      trivial hmap hin hrec
    obtain ⟨hst, hwf⟩ := hpr.step h
    refine ⟨_, n, k, m, _, _, _, hwalk, rfl, hst, hwf, hk0, hdead, fun hc => ?_,
      fun _ => ⟨rfl, rfl⟩⟩
    rw [hpar.mpr hc] at hp
    cases hp

theorem smcRttDestroy_sat {plat : Platform} {s : State} {F : Tables} (h : Wf s F)
    (rdAddr mapAddr ulevel : Word) :
    Sat (smcRttDestroy plat s rdAddr mapAddr ulevel) (fun res => RttDestroyed s F rdAddr res.1)
      Benign := by
  refine (smcRttDestroy_walked h rdAddr mapAddr ulevel).imp ?_
  rintro res (⟨heq, -⟩ | ⟨-, wi, n, k, m, new, pages, F', -, hown, hst⟩)
  · exact .inl heq
  · exact .inr ⟨_, n, _, k, m, new, pages, F', hown, hst⟩

end RmmCaec
