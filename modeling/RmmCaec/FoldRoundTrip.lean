import RmmCaec.Replay
import RmmCaec.Translations

/-!
# Unfolding and folding tables

Growing a table and folding one change no translation, and folding the table that
was just created undoes its creation: the fold succeeds, every table holds the
words it held before and every granule is as it was.
-/
namespace RmmCaec

open RadixForest Outcome

/-- Two states translate an address alike if their forests do. -/
theorem translate_congr {s s' : State} {F F' : Tables} (h : Holds s F) (h' : Holds s' F')
    {rd ipa : Word} (hrd : (s.granule rd).state = .RD) (hrd' : (s'.granule rd).state = .RD)
    (hctx : (s'.rd rd).s2Ctx = (s.rd rd).s2Ctx) (ha : ipa.toNat < 2 ^ (s.rd rd).s2Ctx.ipaBits)
    (ht : ∀ v, Translates F' (s.rd rd).s2Ctx rd ipa.toNat v ↔
      Translates F (s.rd rd).s2Ctx rd ipa.toNat v) : translate s' rd ipa = translate s rd ipa := by
  obtain ⟨v, hv, hvF⟩ := translate_spec h hrd ha
  rw [hv, translate_iff h' hrd' (by rw [hctx]; exact ha), hctx]
  exact (ht v).mpr hvF

/-- The leaf that stands for a given table of leaves is determined. -/
theorem Splits.unique {ctx : S2ttContext} {level : ℤ} {e e' : Entry} {slot : ℕ → Entry}
    (h : Splits ctx level e slot) (h' : Splits ctx level e' slot) (hv : e.Valid ctx (level - 1))
    (hv' : e'.Valid ctx (level - 1)) : e = e' := by
  have h0 : (0 : ℕ) < 512 := by decide
  cases e with
  | unassigned r =>
    have hs := h 0 h0
    cases e' with
    | unassigned r' => rw [h' 0 h0] at hs; cases hs; rfl
    | unassignedNs => rw [h' 0 h0] at hs; cases hs
    | assigned r' pa => rw [h' 0 h0] at hs; cases hs
    | assignedNs desc => obtain ⟨d, hd, -⟩ := h' 0 h0; rw [hd] at hs; cases hs
    | table pa => exact h'.elim
  | unassignedNs =>
    have hs := h 0 h0
    cases e' with
    | unassigned r' => rw [h' 0 h0] at hs; cases hs
    | unassignedNs => rfl
    | assigned r' pa => rw [h' 0 h0] at hs; cases hs
    | assignedNs desc => obtain ⟨d, hd, -⟩ := h' 0 h0; rw [hd] at hs; cases hs
    | table pa => exact h'.elim
  | assigned r pa =>
    have hs := h 0 h0
    cases e' with
    | unassigned r' => rw [h' 0 h0] at hs; cases hs
    | unassignedNs => rw [h' 0 h0] at hs; cases hs
    | assigned r' pa' =>
      rw [h' 0 h0, blockPa_zero, blockPa_zero] at hs
      cases hs
      rfl
    | assignedNs desc => obtain ⟨d, hd, -⟩ := h' 0 h0; rw [hd] at hs; cases hs
    | table pa => exact h'.elim
  | assignedNs desc =>
    obtain ⟨d, hd, hpa, hat⟩ := h 0 h0
    cases e' with
    | unassigned r' => rw [h' 0 h0] at hd; cases hd
    | unassignedNs => rw [h' 0 h0] at hd; cases hd
    | assigned r' pa => rw [h' 0 h0] at hd; cases hd
    | assignedNs desc' =>
      obtain ⟨d', hd', hpa', hat'⟩ := h' 0 h0
      rw [hd] at hd'
      cases hd'
      rw [hpa, blockPa_zero, blockPa_zero] at hpa'
      rw [hat] at hat'
      rw [Entry.hostDesc_ext hv.2.2 hv'.2.2 hpa' hat']
    | table pa => exact h'.elim
  | table pa => exact h.elim

theorem tableMapsBlock_mk {ctx : S2ttContext} {table : ℕ → Word} {level : ℤ}
    {isX : Word → ℤ → Bool} {chk : Bool} {pa : Word}
    (ha : s2tteIsAddrLvlAligned ctx pa (level - 1) = true)
    (hall : ∀ j < 512, isX (table j) level = true ∧
      s2ttePa ctx (table j) level = blockPa pa level j ∧
      (chk = true → table j &&& s2tteNsAttrMask = table 0 &&& s2tteNsAttrMask)) :
    tableMapsBlock ctx table level isX chk = true := by
  obtain ⟨h1, h2, -⟩ := hall 0 (by omega)
  rw [blockPa_zero] at h2
  simp only [tableMapsBlock, h1, h2, ha, Bool.true_and, List.all_eq_true, List.mem_range,
    Bool.or_eq_true, beq_iff_eq, Bool.and_eq_true, Bool.not_eq_true']
  intro j hj
  obtain ⟨h3, h4, h5⟩ := hall j hj
  refine .inr ⟨⟨h3, h4⟩, ?_⟩
  cases chk with
  | false => exact .inl rfl
  | true => exact .inr (h5 rfl).symm

section

variable {ctx : S2ttContext} {level : ℤ} {table : ℕ → Word} {slot : ℕ → Entry}

/-- A table of unassigned or unprotected leaves. -/
theorem foldEntry_idle_some {e : Entry} {last : ℤ}
    (hslot : ∀ j < 512, (slot j).Valid ctx level ∧ table j = (slot j).word ctx level)
    (hs : Splits ctx level e slot) (hv : e.Valid ctx (level - 1)) (hrefs : e.refs = 0) :
    ∃ w, (if tableIsUniformBlock table s2tteIsUnassignedDestroyed then
        (.ok s2tteCreateUnassignedDestroyed : Except ℤ Word)
      else if tableIsUniformBlock table s2tteIsUnassignedEmpty then .ok s2tteCreateUnassignedEmpty
      else if tableIsUniformBlock table s2tteIsUnassignedRam then .ok s2tteCreateUnassignedRam
      else if tableIsUniformBlock table s2tteIsUnassignedNs then .ok s2tteCreateUnassignedNs
      else if tableMapsBlock ctx table level s2tteIsAssignedNs true then
        if level ≤ s2ttMinBlockLevel then .error last
        else .ok (s2tteCreateAssignedNs ctx (table 0) (level - 1))
      else .error level) = .ok w := by
  have huniform : ∀ (x : Entry) (isX : Word → Bool), (∀ j < 512, slot j = x) →
      (∀ j < 512, isX ((slot j).word ctx level) = true ↔ slot j = x) →
      tableIsUniformBlock table isX = true := by
    intro x isX hx hX
    refine tableIsUniformBlock_iff.mpr fun j hj => ?_
    rw [(hslot j hj).2]
    exact (hX j hj).mpr (hx j hj)
  split
  · exact ⟨_, rfl⟩
  next h1 =>
  split
  · exact ⟨_, rfl⟩
  next h2 =>
  split
  · exact ⟨_, rfl⟩
  next h3 =>
  split
  · exact ⟨_, rfl⟩
  next h4 =>
  -- the leaf is none of the unassigned kinds, so it is an unprotected mapping
  cases e with
  | unassigned r =>
    cases r with
    | EMPTY => exact absurd (huniform _ _ hs fun j hj =>
        Entry.isUnassignedEmpty_word (hslot j hj).1) h2
    | RAM => exact absurd (huniform _ _ hs fun j hj => Entry.isUnassignedRam_word (hslot j hj).1) h3
    | DESTROYED =>
      exact absurd (huniform _ _ hs fun j hj => Entry.isUnassignedDestroyed_word (hslot j hj).1) h1
  | unassignedNs =>
    exact absurd (huniform _ _ hs fun j hj => Entry.isUnassignedNs_word (hslot j hj).1) h4
  | assigned r pa => cases hrefs
  | table pa => cases hrefs
  | assignedNs desc =>
    have hmin : ¬ level ≤ s2ttMinBlockLevel := by
      have := hv.1
      unfold s2ttMinBlockLevel
      omega
    have hmaps : tableMapsBlock ctx table level s2tteIsAssignedNs true = true := by
      refine tableMapsBlock_mk (Entry.nsPa_aligned ctx (level - 1) desc hv.1) fun j hj => ?_
      obtain ⟨d, hd, hpa, hat⟩ := hs j hj
      obtain ⟨d0, hd0, -, hat0⟩ := hs 0 (by omega)
      have hvj := (hslot j hj).1
      have hv0 := (hslot 0 (by omega)).1
      rw [hd] at hvj
      rw [hd0] at hv0
      rw [(hslot j hj).2, (hslot 0 (by omega)).2, hd, hd0]
      refine ⟨(Entry.isAssignedNs_word hvj).mpr ⟨d, rfl⟩, ?_, fun _ => ?_⟩
      · rw [Entry.s2ttePa_assignedNs hvj, hpa]
      · rw [Entry.word_assignedNs_and_attrs hvj, Entry.word_assignedNs_and_attrs hv0, hat, hat0]
    rw [if_pos hmaps, if_neg hmin]
    exact ⟨_, rfl⟩

/-- A table of consecutive assigned leaves. -/
theorem tableMapsBlock_assigned {r : Ripas} {pa : Word} {isX : Word → ℤ → Bool}
    (hslot : ∀ j < 512, (slot j).Valid ctx level ∧ table j = (slot j).word ctx level)
    (hs : Splits ctx level (.assigned r pa) slot)
    (hv : (Entry.assigned r pa).Valid ctx (level - 1))
    (hX : ∀ e : Entry, e.Valid ctx level → (isX (e.word ctx level) level = true ↔
      ∃ pa, e = .assigned r pa)) :
    tableMapsBlock ctx table level isX false = true := by
  refine tableMapsBlock_mk hv.2.2 fun j hj => ?_
  have hvj := (hslot j hj).1
  rw [(hslot j hj).2]
  refine ⟨(hX _ hvj).mpr ⟨_, hs j hj⟩, ?_, fun hc => by cases hc⟩
  rw [hs j hj] at hvj ⊢
  exact Entry.s2ttePa_assigned hvj

theorem foldEntry_block_some {r : Ripas} {pa : Word}
    (hslot : ∀ j < 512, (slot j).Valid ctx level ∧ table j = (slot j).word ctx level)
    (hs : Splits ctx level (.assigned r pa) slot)
    (hv : (Entry.assigned r pa).Valid ctx (level - 1)) :
    ∃ w, (if tableMapsBlock ctx table level (fun w _ => s2tteIsAssignedEmpty w) false then
        (.ok (s2tteCreateAssignedEmpty ctx (s2ttePa ctx (table 0) level) (level - 1)) :
          Except ℤ Word)
      else if tableMapsBlock ctx table level s2tteIsAssignedRam false then
        .ok (s2tteCreateAssignedRam ctx (s2ttePa ctx (table 0) level) (level - 1))
      else if tableMapsBlock ctx table level (fun w _ => s2tteIsAssignedDestroyed w) false then
        .ok (s2tteCreateAssignedDestroyed ctx (s2ttePa ctx (table 0) level) (level - 1))
      else .error level) = .ok w := by
  split
  · exact ⟨_, rfl⟩
  next h1 =>
  split
  · exact ⟨_, rfl⟩
  next h2 =>
  split
  · exact ⟨_, rfl⟩
  next h3 =>
  cases r with
  | EMPTY =>
    exact absurd (tableMapsBlock_assigned hslot hs hv fun e he => Entry.isAssignedEmpty_word he) h1
  | RAM =>
    exact absurd (tableMapsBlock_assigned hslot hs hv fun e he => Entry.isAssignedRam_word he) h2
  | DESTROYED =>
    exact absurd
      (tableMapsBlock_assigned hslot hs hv fun e he => Entry.isAssignedDestroyed_word he) h3

end

theorem findLockGranule_free (plat : Platform) (s : State) (addr : Word) (st : GranuleState) :
    findLockGranule plat s [] addr st = .ok (lockable plat s addr st) := by
  unfold findLockGranule lockable
  cases findGranule plat addr <;> simp

/-- A walk within the bounds of a realm returns. -/
theorem Holds.walk_ok {s : State} {F : Tables} (h : Holds s F) {rd addr : Word}
    (hrd : (s.granule rd).state = .RD) {level : ℤ}
    (hlo : (s.rd rd).s2Ctx.s2StartingLevel ≤ level)
    (hhi : level ≤ 3) (ha : addr.toNat < 2 ^ (s.rd rd).s2Ctx.ipaBits) :
    Sat (s2ttWalkLockUnlock s (s.rd rd).s2Ctx addr level)
      (fun wi => ∃ n, Walked F rd addr wi n ∧ wi.lastLevel ≤ level ∧
        ((n.slot wi.index).link = none ∨ wi.lastLevel = level)) (fun _ => False) := by
  have hctx := h.ctx rd hrd
  have hw := @Holds.walk_sat s F h rd addr hrd level (fun f => f = .walkArgs) rfl
  cases hres : s2ttWalkLockUnlock s (s.rd rd).s2Ctx addr level with
  | ok wi =>
    obtain ⟨n, hn, -, hle, -, hstop⟩ := hw.of_ok hres
    exact Sat.ok ⟨n, hn, hle, hstop⟩
  | error f =>
    exfalso
    have hf := hw.of_error hres
    subst hf
    -- every assertion of the walk holds
    have hslot : s2SlAddrToIdx addr (s.rd rd).s2Ctx.s2StartingLevel (s.rd rd).s2Ctx.ipaBits /
        s2ttesPerS2tt < (s.rd rd).s2Ctx.numRootRtts := by
      rw [← hctx.roots, s2SlAddrToIdx, Nat.mod_eq_of_lt ha, Nat.div_div_eq_div_mul, pow_add]
      exact lt_of_le_of_lt (Nat.div_mul_le_self _ _) ha
    obtain ⟨n, hn, ho, hl, hc⟩ := h.walkRoot_spec hrd ha
    subst ho
    have hfuel : (level - (s.rd n.owner).s2Ctx.s2StartingLevel).toNat ≤ n.height := by
      rw [← hl]
      unfold levelOf
      omega
    have hwalk := (h.translateFrom_spec _ hn hc ha hfuel).1
    rw [hl] at hwalk
    unfold s2ttWalkLockUnlock at hres
    rw [granuleLock_ok (h.gRtt_isRtt hrd), granuleLock_ok (h.node hn).1, hwalk] at hres
    simp [assertThat, hlo, hhi, s2ttPageLevel, ha, hctx.bits_le, hslot, bind, Except.bind] at hres

theorem validateRttStructureCmds_lt {mapAddr : Word} {level : ℤ} {rd : Rd}
    (h : validateRttStructureCmds mapAddr level rd = true) :
    mapAddr.toNat < 2 ^ rd.s2Ctx.ipaBits := by
  unfold validateRttStructureCmds at h
  split at h
  · cases h
  · simp only [validateMapAddr, Bool.and_eq_true, decide_eq_true_eq] at h
    exact h.1

/-- What a table needs so that it can be folded into a given leaf. -/
structure Foldable (s : State) (F : Tables) (t : Word) (n : Table) (i : ℕ) (k : Word) (m : Table)
    (e : Entry) : Prop where
  table : F t = some n
  index : i < 512
  link : n.slot i = .table k
  child : F k = some m
  splits : Splits (s.rd n.owner).s2Ctx (levelOf m.height) e m.slot
  valid : e.Valid (s.rd n.owner).s2Ctx (levelOf n.height)
  count : (s.granule k).refcount = 512 * e.refs
  bound : (s.granule t).refcount ≤ rttRefcountMax

namespace Foldable

variable {s : State} {F : Tables} {t k : Word} {n m : Table} {i : ℕ} {e : Entry}

/-- The child of the slot. -/
theorem position (f : Foldable s F t n i k m e) (h : Holds s F) :
    m.owner = n.owner ∧ m.height + 1 = n.height ∧
      levelOf m.height - 1 = levelOf n.height ∧ k ≠ t := by
  obtain ⟨m', hm', ho, hh, -⟩ := h.ok.child f.table f.index (Entry.link_eq_some.mpr f.link)
  rw [f.child] at hm'
  cases hm'
  refine ⟨ho, hh, ?_, ?_⟩
  · unfold levelOf
    omega
  · rintro rfl
    have hc := f.child
    rw [f.table] at hc
    cases hc
    omega

theorem entry_ok (f : Foldable s F t n i k m e) (h : Wf s F) {wi : S2ttWalk} (hwt : wi.gLlt = t)
    (hwi : wi.index = i) :
    Sat (rttFoldEntry s (s.rd n.owner).s2Ctx wi k (levelOf m.height))
      (fun res => ∃ s1 w new, res = .ok (s1, w) ∧
        FoldEntry s wi.gLlt k n m (levelOf m.height) s1 w new) (fun _ => False) := by
  obtain ⟨ho, hh, hlev, hkt⟩ := f.position h.holds
  subst hwt hwi
  have hslot : ∀ j < 512, (m.slot j).Valid (s.rd n.owner).s2Ctx (levelOf m.height) ∧
      s.rtt k j = (m.slot j).word (s.rd n.owner).s2Ctx (levelOf m.height) := by
    intro j hj
    have := h.holds.word k m f.child j hj
    rwa [ho] at this
  have hv := f.valid
  rw [← hlev] at hv
  have h3 : levelOf m.height ≤ 3 := by
    unfold levelOf
    omega
  have hsat := rttFoldEntry_sat h f.table f.index f.link f.child ho rfl h3 hkt
  suffices hok : ∃ s1 w, rttFoldEntry s (s.rd n.owner).s2Ctx wi k (levelOf m.height) =
      .ok (.ok (s1, w)) by
    obtain ⟨s1, w, hw⟩ := hok
    obtain ⟨new, hfe⟩ := hsat.of_ok hw s1 w rfl
    rw [hw]
    exact Sat.ok ⟨s1, w, new, rfl, hfe⟩
  have hcount := f.count
  unfold rttFoldEntry
  rcases Nat.eq_zero_or_pos e.refs with h0 | h0
  · -- no references: an unassigned or unprotected leaf
    rw [h0, Nat.mul_zero] at hcount
    obtain ⟨hput, -⟩ := recounted_put h f.table f.index f.link hcount hkt
    obtain ⟨w, hw⟩ := @foldEntry_idle_some _ _ _ _ e wi.lastLevel hslot f.splits hv h0
    simp only [hcount, if_true, hw, hput]
    exact ⟨_, w, rfl⟩
  · -- one reference: an assigned block
    have h1 : e.refs = 1 := le_antisymm e.refs_le_one h0
    obtain ⟨r, pa, rfl⟩ : ∃ r pa, e = .assigned r pa := by
      cases e with
      | assigned r pa => exact ⟨r, pa, rfl⟩
      | table pa => exact f.splits.elim
      | unassigned r => cases h1
      | unassignedNs => cases h1
      | assignedNs desc => cases h1
    rw [h1, Nat.mul_one] at hcount
    have hmin : ¬ levelOf m.height ≤ s2ttMinBlockLevel := by
      have := hv.1
      unfold s2ttMinBlockLevel
      omega
    have hpa0 : s2tteHasPa (s.rtt k 0) = true := by
      have hlive := @Entry.isLive_word (s.rd n.owner).s2Ctx (levelOf m.height) _
        (hslot 0 (by omega)).1
      rw [← (hslot 0 (by omega)).2, f.splits 0 (by omega)] at hlive
      exact hlive.mpr (by simp)
    have hne : ¬ (s.granule k).refcount = 0 := by omega
    obtain ⟨w, hw⟩ := foldEntry_block_some hslot f.splits hv
    have hdec := @granuleRefcountDec_ok s k s2ttesPerS2tt hcount.ge
    rw [if_neg hne, if_pos (show (s.granule k).refcount = s2ttesPerS2tt from hcount), if_neg hmin]
    simp only [hpa0, assertThat, if_true, hw, hdec]
    exact ⟨_, w, rfl⟩

/-- The walk of a fold ends at the slot of the table. -/
theorem walked (f : Foldable s F t n i k m e) (h : Holds s F) {mapAddr : Word} {wi : S2ttWalk}
    {n' : Table} (hmap : mapAddr.toNat = n.slotBase rttShape i)
    (hw : Walked F n.owner mapAddr wi n') (hle : wi.lastLevel ≤ levelOf n.height)
    (hstop : (n'.slot wi.index).link = none ∨ wi.lastLevel = levelOf n.height) :
    wi.gLlt = t ∧ n' = n ∧ wi.index = i ∧ wi.lastLevel = levelOf n.height := by
  have hcov : n.SlotCovers rttShape i mapAddr.toNat := by
    rw [hmap]
    exact ⟨le_rfl, Nat.lt_add_of_pos_right (rttShape.span_pos _)⟩
  have hcn := hcov.covers f.index
  have hheight : n'.height = n.height := by
    rw [hw.level] at hle hstop
    have hge : n.height ≤ n'.height := by
      unfold levelOf at hle
      omega
    rcases hstop with hleaf | heq
    · -- a leaf above the table would hide it
      by_contra hne
      obtain ⟨p, hp, htop, -⟩ := h.ok.node hw.table
      rw [hw.owner] at hp
      obtain ⟨t', n2, ht', ho', hh', hc', k', hk'⟩ :=
        h.ok.ancestor f.table hp hcn (lt_of_le_of_ne hge (Ne.symm hne)) htop
      have htt := h.ok.eq_of_covers ht' hw.table (ho'.trans hw.owner.symm) hh' hc' hw.covers
      subst htt
      have hn2 := hw.table
      rw [ht'] at hn2
      cases hn2
      rw [hw.index, hk'] at hleaf
      cases hleaf
    · unfold levelOf at heq
      omega
  have ht := h.ok.eq_of_covers hw.table f.table hw.owner hheight hw.covers hcn
  have hn : n' = n := by
    have := hw.table
    rw [ht, f.table] at this
    exact (Option.some.inj this).symm
  subst hn
  exact ⟨ht, rfl, by rw [hw.index, ← hcov.eq_slotOf], hw.level⟩

/-- Folding the table succeeds. -/
theorem fold_ok (f : Foldable s F t n i k m e) (h : Wf s F) {plat : Platform}
    {mapAddr ulevel : Word}
    (hrd : lockable plat s n.owner .RD = true) (hk : lockable plat s k .RTT = true)
    (hargs : validateRttStructureCmds mapAddr ulevel.toInt (s.rd n.owner) = true)
    (hmap : mapAddr.toNat = n.slotBase rttShape i) (hlev : levelOf n.height = ulevel.toInt - 1) :
    Sat (smcRttFold plat s n.owner mapAddr ulevel) (fun res => res.2.ret = rmiSuccess)
      (fun _ => False) := by
  obtain ⟨ho, hh, hml, hkt⟩ := f.position h.holds
  obtain ⟨hstart, h3, -⟩ := validateRttStructureCmds_iff hargs
  have hin := validateRttStructureCmds_lt hargs
  have hlevel : ulevel.toInt = levelOf m.height := by omega
  unfold smcRttFold
  simp only
  rw [findLockGranule_free, hrd]
  refine Sat.ok_bind (Sat.ite (fun hc => by cases hc) fun _ => ?_)
  refine Sat.ite (fun hc => by simp [hargs] at hc) fun _ => ?_
  refine Sat.bind (h.holds.walk_ok (lockable_state hrd) (by omega) (by omega) hin) ?_
  rintro wi ⟨n', hw, hle, hstop⟩
  rw [← hlev] at hle hstop
  obtain ⟨hwt, rfl, hwi, hlast⟩ := f.walked h.holds hmap hw hle hstop
  refine Sat.ite (fun hc => absurd (hlast.trans hlev) hc) fun _ => ?_
  -- the parent entry is the descriptor of the table
  obtain ⟨hv, hword⟩ := h.holds.word t n' f.table i f.index
  rw [f.link] at hv hword
  rw [hwt, hwi, hword, ← hlev]
  refine Sat.ite (fun hc => ?_) fun _ => ?_
  · rw [(Entry.isTable_word hv).mpr ⟨k, rfl⟩] at hc
    cases hc
  rw [Entry.s2ttePa_table hv, findLockGranule_free, hk]
  refine Sat.ok_bind (assertThat_sat (fun hc => by cases hc) fun _ => ?_)
  rw [hlevel]
  refine Sat.bind (f.entry_ok h hwt hwi) ?_
  rintro res ⟨s1, w, new, rfl, hfe⟩
  rw [hwt] at hfe
  obtain ⟨c, hct, hcc⟩ := hfe.counts.table
  have hb := f.bound
  have hr := new.refs_le_one
  have hc : c ≤ rttRefcountMax := by omega
  -- whatever is invalidated, both granules pass the check at their unlock
  have unlocks : ∀ size, Sat (do
      granuleUnlock (prunedState s1 (s.rd n'.owner).s2Ctx t i k mapAddr w size) k
      granuleUnlock (prunedState s1 (s.rd n'.owner).s2Ctx t i k mapAddr w size) t
      return (prunedState s1 (s.rd n'.owner).s2Ctx t i k mapAddr w size,
        (⟨rmiSuccess, k, 0#64⟩ : SmcResult)))
      (fun res => res.2.ret = rmiSuccess) (fun _ => False) := by
    intro size
    refine assertThat_sat (fun hf => ?_) fun _ => assertThat_sat (fun hf => ?_) fun _ =>
      Sat.pure rfl
    · simp [prunedState, State.setState, State.memzero, s2tteWrite, stage2TlbiIpa,
        unlockedInvariant, hfe.counts.child] at hf
    · simp [prunedState, State.setState, State.memzero, s2tteWrite, stage2TlbiIpa,
        unlockedInvariant, Ne.symm hkt, hct, hc] at hf
  simp only
  cases hval : s2tteIsAssignedRam w (levelOf n'.height) ||
    s2tteIsAssignedNs w (levelOf n'.height) with
  | true => exact unlocks (granuleSize * s2ttesPerS2tt)
  | false => exact unlocks granuleSize

/-- A fold at the slot is a fold of this table into this leaf. -/
theorem unique (f : Foldable s F t n i k m e) (h : Holds s F) {s' : State} {F' : Tables}
    (h' : Holds s' F') {t2 k2 : Word} {n2 m2 : Table} {i2 pages : ℕ} {new : Entry}
    (st : PruneStep s F t2 n2 i2 k2 m2 new pages s' F') (ho : n2.owner = n.owner)
    (hb : n2.slotBase rttShape i2 = n.slotBase rttShape i)
    (hl : levelOf n2.height = levelOf n.height)
    (hs : Splits (s.rd n2.owner).s2Ctx (levelOf m2.height) new m2.slot) :
    t2 = t ∧ n2 = n ∧ i2 = i ∧ k2 = k ∧ m2 = m ∧ new = e := by
  have hheight : n2.height = n.height := by
    unfold levelOf at hl
    omega
  have hcov : n.SlotCovers rttShape i (n.slotBase rttShape i) :=
    ⟨le_rfl, Nat.lt_add_of_pos_right (rttShape.span_pos _)⟩
  have hcov2 : n2.SlotCovers rttShape i2 (n.slotBase rttShape i) := by
    rw [← hb]
    exact ⟨le_rfl, Nat.lt_add_of_pos_right (rttShape.span_pos _)⟩
  obtain rfl := h.ok.eq_of_covers st.table f.table ho hheight (hcov2.covers st.index)
    (hcov.covers f.index)
  obtain rfl := Option.some.inj (st.table.symm.trans f.table)
  obtain rfl : i2 = i := hcov2.eq_slotOf.trans hcov.eq_slotOf.symm
  have hlink := f.link
  rw [st.link] at hlink
  cases hlink
  obtain rfl := Option.some.inj (st.child.symm.trans f.child)
  refine ⟨rfl, rfl, rfl, rfl, rfl, Splits.unique hs f.splits ?_ ?_⟩
  · have hn' : F' t2 = some { n2 with slot := Function.update n2.slot i2 new } := by
      rw [st.forest, Function.update_of_ne (f.position h).2.2.2.symm, Forest.setSlot_same f.table]
    have hv := (h'.word t2 _ hn' i2 f.index).1
    rw [st.same.rd _ (h.node f.table).2.1] at hv
    rw [(f.position h).2.2.1]
    simpa using hv
  · rw [(f.position h).2.2.1]
    exact f.valid

end Foldable

/-- Every realm stays and every address of it translates as before. -/
def SameTranslations (s s' : State) : Prop :=
  ∀ rd ipa : Word, (s.granule rd).state = .RD → ipa.toNat < 2 ^ (s.rd rd).s2Ctx.ipaBits →
    (s'.granule rd).state = .RD ∧ translate s' rd ipa = translate s rd ipa

/-- Every granule and every entry of a table is as before. -/
def SameTables (s s' : State) : Prop :=
  s'.granule = s.granule ∧
    ∀ t, (s.granule t).state = .RTT → ∀ i < s2ttesPerS2tt, s'.rtt t i = s.rtt t i

theorem GraftStep.sameTranslations {s s' : State} {F F' : Tables} {t k : Word}
    {n m : Table} {i : ℕ}
    (h : Holds s F) (h' : Holds s' F') (st : GraftStep s F t n i k m s' F') :
    SameTranslations s s' := by
  intro rd ipa hrd ha
  have hrd' := (st.state_iff h rd (by decide) (by decide)).mpr hrd
  refine ⟨hrd', translate_congr h h' hrd hrd' (by rw [st.same.rd rd hrd]) ha fun v => ?_⟩
  exact st.translates h rd _ v fun he => by rw [he]

theorem PruneStep.sameTranslations {s s' : State} {F F' : Tables} {t k : Word}
    {n m : Table} {i : ℕ}
    {new : Entry} {pages : ℕ} (h : Holds s F) (h' : Holds s' F')
    (st : PruneStep s F t n i k m new pages s' F')
    (splits : Splits (s.rd n.owner).s2Ctx (levelOf m.height) new m.slot) :
    SameTranslations s s' := by
  intro rd ipa hrd ha
  have hrd' := (st.state_iff h rd (by decide) (by decide)).mpr hrd
  refine ⟨hrd', translate_congr h h' hrd hrd' (by rw [st.same.rd rd hrd]) ha fun v => ?_⟩
  exact st.translates h splits rd _ v fun he => by rw [he]

namespace RttGrown

variable {plat : Platform} {s s' : State} {F F' : Tables} {rd rtt mapAddr t : Word} {level : ℤ}
  {n m : Table} {i : ℕ}

/-- The parent after the creation. -/
theorem parent (g : RttGrown plat s F rd rtt mapAddr level s' t n i m F') (h : Holds s F) :
    F' t = some { n with slot := Function.update n.slot i (.table rtt) } ∧ F' rtt = some m ∧
      t ≠ rtt ∧ F rtt = none := by
  have hk : F rtt = none := by
    by_contra hne
    obtain ⟨m', hm'⟩ := Option.ne_none_iff_exists'.mp hne
    have := (h.node hm').1
    rw [g.graft.fresh] at this
    cases this
  have hne : t ≠ rtt := by
    rintro rfl
    rw [g.graft.leaf.table] at hk
    cases hk
  rw [g.graft.forest]
  refine ⟨?_, Function.update_self .., hne, hk⟩
  rw [Function.update_of_ne hne, Forest.setSlot_same g.graft.leaf.table]

/-- The table just made can be folded into the entry that it replaced. -/
theorem foldable (g : RttGrown plat s F rd rtt mapAddr level s' t n i m F') (h : Wf s F) :
    Foldable s' F' t { n with slot := Function.update n.slot i (.table rtt) } i rtt m
      (n.slot i) := by
  obtain ⟨hp, hc, -, -⟩ := g.parent h.holds
  have hctx : (s'.rd n.owner).s2Ctx = (s.rd n.owner).s2Ctx := by
    rw [g.graft.same.rd _ (h.holds.node g.graft.leaf.table).2.1]
  exact
    { table := hp
      index := g.graft.leaf.index
      link := Function.update_self ..
      child := hc
      splits := by rw [hctx]; exact g.graft.splits
      valid := by rw [hctx]; exact (h.holds.word t n g.graft.leaf.table i g.graft.leaf.index).1
      count := g.graft.newCount
      bound := g.bound }

/-- The realm and the new table can be locked and the arguments pass again, so the
fold of the new table goes through. -/
theorem folds {ulevel : Word} (g : RttGrown plat s F rd rtt mapAddr ulevel.toInt s' t n i m F')
    (h : Wf s F) : ∃ s'' res, smcRttFold plat s' rd mapAddr ulevel = .ok (s'', res) ∧
      res.ret = rmiSuccess := by
  have hrd := lockable_state g.rdLock
  have hrdLock : lockable plat s' n.owner .RD = true := by
    have hgr := g.rdLock
    simp only [lockable, Bool.and_eq_true, beq_iff_eq] at hgr ⊢
    rw [g.owner]
    exact ⟨hgr.1, (g.graft.state_iff h.holds _ (by decide) (by decide)).mpr hgr.2⟩
  have hrttLock : lockable plat s' rtt .RTT = true := by
    have hgr := g.rttLock
    simp only [lockable, Bool.and_eq_true, beq_iff_eq] at hgr ⊢
    exact ⟨hgr.1, g.graft.newState⟩
  have hargs : validateRttStructureCmds mapAddr ulevel.toInt (s'.rd n.owner) = true := by
    rw [g.owner, g.graft.same.rd rd hrd]
    exact g.args
  have hsat := (g.foldable h).fold_ok g.wf hrdLock hrttLock hargs g.first g.level
  cases hres : smcRttFold plat s' n.owner mapAddr ulevel with
  | error f => exact (hsat.of_error hres).elim
  | ok res => exact ⟨res.1, res.2, by rw [← g.owner, hres], hsat.of_ok hres⟩

/-- A fold of the new table restores everything. -/
theorem folded (g : RttGrown plat s F rd rtt mapAddr level s' t n i m F') (h : Wf s F)
    {s'' : State} (hf : RttFolded s' F' rd mapAddr level s'' rmiSuccess) : SameTables s s'' := by
  obtain ⟨hp, hc, hne, hk⟩ := g.parent h.holds
  obtain ⟨-, hn⟩ | ⟨-, t2, n2, i2, k2, m2, new, pages, F2, ho2, hmap2, hlev2, st, hwf,
      hs2, -, -⟩ := hf
  · exact absurd rfl hn
  -- the fold works on the same slot and restores its entry
  obtain ⟨rfl, rfl, rfl, rfl, rfl, rfl⟩ := (g.foldable h).unique g.wf.holds hwf.holds st
    (ho2.trans g.owner.symm) (hmap2.symm.trans g.first) (hlev2.trans g.level.symm) hs2
  have hF : F2 = F := by
    rw [st.forest]
    funext x
    by_cases hx : x = k2
    · rw [hx, Function.update_self, hk]
    rw [Function.update_of_ne hx]
    by_cases hxt : x = t2
    · rw [hxt, Forest.setSlot_same hp, g.graft.leaf.table]
      simp
    · rw [Forest.setSlot_of_ne hxt, g.graft.forest, Function.update_of_ne hx,
        Forest.setSlot_of_ne hxt]
  subst hF
  have hcount := g.graft.tableCount
  have hcount2 := st.tableCount
  constructor
  · funext x
    by_cases hx : x = k2
    · have hs := g.graft.fresh
      have hr := h.plain k2 (by rw [hs]; rfl)
      rw [hx, st.freed, ← hs, ← hr]
    by_cases hxt : x = t2
    · have hs := (h.holds.node g.graft.leaf.table).1
      have hr : (s''.granule t2).refcount = (s.granule t2).refcount := by omega
      calc s''.granule x = ⟨(s''.granule t2).state, (s''.granule t2).refcount⟩ := by rw [hxt]
        _ = ⟨(s.granule t2).state, (s.granule t2).refcount⟩ := by rw [st.tableState, hs, hr]
        _ = s.granule x := by rw [hxt]
    · rw [st.granule x hxt hx, g.graft.granule x hxt hx]
  · intro x hx j hj
    obtain ⟨n', hn'⟩ := (h.holds.rtt_iff x).mp hx
    have hrd := (h.holds.node hn').2.1
    have hrd' := (g.graft.state_iff h.holds _ (by decide) (by decide)).mpr hrd
    rw [(h.holds.word x n' hn' j hj).2, (hwf.holds.word x n' hn' j hj).2, st.same.rd _ hrd',
      g.graft.same.rd _ hrd]

end RttGrown

/-- Unfolding and folding change no translation, folding the table just created
restores all tables, and a failed call changes nothing. -/
theorem rtt_create_fold_preserve (plat : Platform) {s : State} {F : Tables} (h : Wf s F)
    (rd rtt mapAddr ulevel : Word) :
    (∀ s' res, smcRttCreate plat s rd rtt mapAddr ulevel = .ok (s', res) →
      (res.ret = rmiSuccess → SameTranslations s s' ∧ ∃ s'' res',
        smcRttFold plat s' rd mapAddr ulevel = .ok (s'', res') ∧ res'.ret = rmiSuccess ∧
          SameTables s s'') ∧
      (res.ret ≠ rmiSuccess → s' = s)) ∧
    (∀ s' res, smcRttFold plat s rd mapAddr ulevel = .ok (s', res) →
      (res.ret = rmiSuccess → SameTranslations s s') ∧
      (res.ret ≠ rmiSuccess → s' = s)) := by
  constructor
  · intro s' res hres
    obtain ⟨rfl, hne⟩ | ⟨hok, t, n, i, m, F', g⟩ :=
      (smcRttCreate_sat h rd rtt mapAddr ulevel).of_ok hres
    · exact ⟨fun hok => absurd hok hne, fun _ => rfl⟩
    refine ⟨fun _ => ⟨g.graft.sameTranslations h.holds g.wf.holds, ?_⟩,
      fun hne => absurd hok hne⟩
    obtain ⟨s'', res', hfold, hret⟩ := g.folds h
    have hdone := (smcRttFold_sat g.wf rd mapAddr ulevel).of_ok hfold
    rw [hret] at hdone
    exact ⟨s'', res', hfold, hret, g.folded h hdone⟩
  · intro s' res hres
    obtain ⟨rfl, hne⟩ | ⟨hok, t, n, i, k, m, new, pages, F', -, -, -, st, hwf, hs, -, -⟩ :=
      (smcRttFold_sat h rd mapAddr ulevel).of_ok hres
    · exact ⟨fun hok => absurd hok hne, fun _ => rfl⟩
    · exact ⟨fun _ => st.sameTranslations h.holds hwf.holds hs, fun hne => absurd hok hne⟩

set_option maxRecDepth 100000 in
/-- A second table at level 3 is created and folded again. -/
theorem rtt_create_fold_preserve_demo : ∃ s, Reachable demoPlat s ∧ ∃ s' res s'' res',
    smcRttCreate demoPlat s (gr 16) (gr 128) 0x200000#64 3#64 = .ok (s', res) ∧
      res.ret = rmiSuccess ∧ SameTranslations s s' ∧
      smcRttFold demoPlat s' (gr 16) 0x200000#64 3#64 = .ok (s'', res') ∧
      res'.ret = rmiSuccess ∧ SameTables s s'' := by
  have hrun : replayEnds (demoKeys [16] [128] [0, 1]) demoPlat (fun _ _ => true)
      (demoRealm 16 1 ++ [.granuleDelegate (gr 128) true]) (fun s =>
        match smcRttCreate demoPlat s (gr 16) (gr 128) 0x200000#64 3#64 with
        | .ok (_, res) => res.ret == rmiSuccess
        | .error _ => false) = true := by
    decide +kernel
  obtain ⟨s, hs, ht⟩ := replayEnds_reachable hrun
  obtain ⟨F, hF⟩ := hs.wf
  cases hc : smcRttCreate demoPlat s (gr 16) (gr 128) 0x200000#64 3#64 with
  | error f => simp [hc] at ht
  | ok out =>
    simp only [hc, beq_iff_eq] at ht
    have hall := rtt_create_fold_preserve demoPlat hF (gr 16) (gr 128) 0x200000#64 3#64
    obtain ⟨hsame, s'', res', hfold, hret, htab⟩ := (hall.1 out.1 out.2 hc).1 ht
    exact ⟨s, hs, out.1, out.2, s'', res', hc, ht, hsame, hfold, hret, htab⟩

end RmmCaec
