import RmmCaec.Locking
import RmmCaec.Replay

/-!
# The locks of an attachment

Each turn of the loop of an attachment walks the master's tables hand over hand, keeps the
last one locked while it maps the page in the slave, and then releases it. The result of
the walk stays in a local variable, so when a later page of the master is not mapped, the
error path releases the table of the page before once more, and the pages that were mapped
stay. A failure on the first page leaves no trace.
-/
namespace RmmCaec

open RadixForest Outcome Runs LockTrace

def walkFromTraced (s : State) (ctx : S2ttContext) (mapAddr : Word) :
    ℕ → Word → ℤ → Trace → Rmm (S2ttWalk × Trace)
  | 0, tbl, i, tr => .ok (⟨tbl, s2AddrToIdx mapAddr i, i⟩, tr)
  | n + 1, tbl, i, tr =>
    let entry := s.rtt tbl (s2AddrToIdx mapAddr i)
    if entryIsTable entry then do
      let next := s2tteToPa entry s2ttPageLevel ctx.enableLpa2
      let tr ← granuleLockTraced s tr next .RTT
      let tr ← granuleUnlockTraced s tr tbl
      walkFromTraced s ctx mapAddr n next (i + 1) tr
    else .ok (⟨tbl, s2AddrToIdx mapAddr i, i⟩, tr)

/-- The walk with the lock that its callers take on the first root table. The last table
stays locked. -/
def s2ttWalkLockUnlockTraced (s : State) (tr : Trace) (ctx : S2ttContext) (mapAddr : Word)
    (level : ℤ) : Rmm (S2ttWalk × Trace) := do
  let tr ← granuleLockTraced s tr ctx.gRtt .RTT
  assertThat (decide (ctx.s2StartingLevel ≤ level) && decide (level ≤ s2ttPageLevel) &&
    decide (mapAddr.toNat < 2 ^ ctx.ipaBits) &&
    decide (ctx.ipaBits ≤ s2tteOaBits ctx.enableLpa2)) .walkArgs
  let slIdx := s2SlAddrToIdx mapAddr ctx.s2StartingLevel ctx.ipaBits
  let n := (level - ctx.s2StartingLevel).toNat
  if s2ttesPerS2tt ≤ slIdx then
    let ttNum := slIdx / s2ttesPerS2tt
    assertThat (decide (ttNum < ctx.numRootRtts)) .walkArgs
    let tr ← granuleLockTraced s tr (rootTable ctx ttNum) .RTT
    let tr ← granuleUnlockTraced s tr ctx.gRtt
    walkFromTraced s ctx mapAddr n (rootTable ctx ttNum) ctx.s2StartingLevel tr
  else walkFromTraced s ctx mapAddr n ctx.gRtt ctx.s2StartingLevel tr

/-- The physical page and the table that is still locked, or nothing. -/
def realmIpaToPaWithRdTraced (s : State) (tr : Trace) (ctx : S2ttContext) (ipa : Word) :
    Rmm (Option (Word × Word) × Trace) := do
  if !granuleAligned ipa then return (none, tr)
  else
    let (wi, tr) ← s2ttWalkLockUnlockTraced s tr ctx ipa s2ttPageLevel
    let s2tte := s.rtt wi.gLlt wi.index
    if s2tteIsAssignedRam s2tte wi.lastLevel then
      return (some (s2ttePa ctx s2tte wi.lastLevel +
        BitVec.ofNat 64 (ipa.toNat % s2tteMapSize wi.lastLevel), wi.gLlt), tr)
    else
      let tr ← granuleUnlockTraced s tr wi.gLlt
      return (none, tr)

def mapIpaToPaTraced (s : State) (tr : Trace) (ctx : S2ttContext) (paAddr ipaAddr : Word) :
    Rmm (State × Trace) := do
  let (wi, tr) ← s2ttWalkLockUnlockTraced s tr ctx ipaAddr s2ttPageLevel
  if wi.lastLevel ≠ s2ttPageLevel then
    let tr ← granuleUnlockTraced s tr wi.gLlt
    return (s, tr)
  else
    assertThat (s2tteCreateAssignedOk ctx paAddr s2ttPageLevel) .unaligned
    let s1 := s2tteWrite s ctx wi.gLlt wi.index (s2tteCreateAssignedRam ctx paAddr s2ttPageLevel)
    let s2 := s2ttInvalidatePage s1 ctx ipaAddr
    let s3 ← atomicGranuleGet s2 wi.gLlt
    let tr ← granuleUnlockTraced s3 tr wi.gLlt
    return (s3, tr)

/-- The loop over the pages, with the table that the walk result of the page before
names. -/
def attachLoopTraced (masterCtx slaveCtx : S2ttContext) (masterStart slaveStart : Word) :
    List ℕ → Option Word → State → Trace → Rmm (State × Bool × Trace)
  | [], _, s, tr => .ok (s, true, tr)
  | k :: rest, llt, s, tr => do
    let offset := BitVec.ofNat 64 (k * granuleSize)
    let (page, tr) ← realmIpaToPaWithRdTraced s tr masterCtx (masterStart + offset)
    match page with
    | none =>
      -- a failed walk does not change the walk result
      match llt with
      | none => return (s, false, tr)
      | some t =>
        let tr ← granuleUnlockTraced s tr t
        return (s, false, tr)
    | some (pa, t) =>
      let (s, tr) ← mapIpaToPaTraced s tr slaveCtx pa (slaveStart + offset)
      let tr ← granuleUnlockTraced s tr t
      attachLoopTraced masterCtx slaveCtx masterStart slaveStart rest (some t) s tr

def handleRsiCsmAttachTraced (plat : Platform) (s : State) (rdAddr x1 : Word) :
    Rmm (State × RsiResult × Trace) := do
  let regionIndex := (x1.setWidth 32).toInt
  let tr ← granuleLockTraced s [] rdAddr .RD
  let aptPa := (s.rd rdAddr).aptPa
  let (found, tr) ← findLockGranuleTraced plat s tr aptPa .APT
  assertThat found .nullGranule
  assertThat (decide (0 ≤ regionIndex) && decide (regionIndex < maxMemRegions)) .outOfBounds
  let slave := (s.apt aptPa).slaveMemory regionIndex.toNat
  let (mrd, tr) ← findLockGranuleTraced plat s tr slave.masterRdPa .RD
  if !mrd then
    let tr ← [aptPa, rdAddr].foldlM (granuleUnlockTraced s) tr
    return (s, rsiRet .ERROR_INPUT, tr)
  else
    let masterRd := s.rd slave.masterRdPa
    let (mfound, tr) ← findLockGranuleTraced plat s tr masterRd.aptPa .APT
    assertThat mfound .nullGranule
    match aptFindMasterByRegionId (s.apt masterRd.aptPa) slave.regionId with
    | none =>
      let tr ← [aptPa, masterRd.aptPa, rdAddr, slave.masterRdPa].foldlM (granuleUnlockTraced s) tr
      return (s, rsiRet .ERROR_INPUT, tr)
    | some midx =>
      let m := (s.apt masterRd.aptPa).masterMemory midx
      let (s1, ok, tr) ← attachLoopTraced masterRd.s2Ctx (s.rd rdAddr).s2Ctx m.ipaStart
        slave.ipaStart
        (List.range (rangePages m.ipaStart m.mapSize).length) none s tr
      let tr ← [aptPa, masterRd.aptPa, rdAddr, slave.masterRdPa].foldlM
        (granuleUnlockTraced s1) tr
      return (s1, rsiRet (if ok then .SUCCESS else .ERROR_INPUT), tr)

/-- A trace continues another one without an operation that is not allowed, and ends with
the given locks. -/
structure Continues (tr tr' : Trace) (held : Finset Word) : Prop where
  disciplined : Disciplined ∅ tr' ↔ Disciplined ∅ tr
  held : heldAfter ∅ tr' = held

theorem Continues.refl {tr : Trace} {held : Finset Word} (h : heldAfter ∅ tr = held) :
    Continues tr tr held := ⟨Iff.rfl, h⟩

theorem Continues.trans {tr tr1 tr' : Trace} {held held' : Finset Word} (h : Continues tr tr1 held)
    (h' : Continues tr1 tr' held') : Continues tr tr' held' :=
  ⟨h'.disciplined.trans h.disciplined, h'.held⟩

theorem Continues.lock {tr : Trace} {addr : Word} {held : Finset Word} (h : heldAfter ∅ tr = held)
    (ha : addr ∉ held) : Continues tr (tr ++ [.lock addr]) (insert addr held) := by
  refine ⟨?_, ?_⟩
  · rw [disciplined_append, h]
    simp [LockOp.Allowed, ha]
  · rw [heldAfter_append, h]
    rfl

theorem Continues.unlock {tr : Trace} {addr : Word} {held : Finset Word}
    (h : heldAfter ∅ tr = insert addr held) (ha : addr ∉ held) :
    Continues tr (tr ++ [.unlock addr]) held := by
  refine ⟨?_, ?_⟩
  · rw [disciplined_append, h]
    simp [LockOp.Allowed]
  · rw [heldAfter_append, h]
    exact Finset.erase_insert ha

section
variable {plat : Platform} {s : State} {tr : Trace} {held : Finset Word} {addr : Word}

/-- Locking with an asserted state. -/
theorem granuleLockTraced_sat {expected : GranuleState} (h : heldAfter ∅ tr = held) :
    Sat (granuleLockTraced s tr addr expected) (fun tr' => (s.granule addr).state = expected ∧
      addr ∉ held ∧ Continues tr tr' (insert addr held)) fun _ => True := by
  unfold granuleLockTraced granuleBitlockAcquire
  by_cases ha : addr ∈ held
  · rw [h, if_pos ha]
    exact Sat.error_bind trivial
  · rw [h, if_neg ha]
    refine Sat.ok_bind (assertThat_sat (fun _ => trivial) fun hst =>
      Sat.pure ⟨?_, ha, .lock h ha⟩)
    simpa using hst

theorem granuleUnlockTraced_sat (h : heldAfter ∅ tr = insert addr held) (ha : addr ∉ held) :
    Sat (granuleUnlockTraced s tr addr) (fun tr' => granuleUnlock s addr = .ok () ∧
      Continues tr tr' held) fun _ => True := by
  unfold granuleUnlockTraced
  refine assertThat_sat (fun _ => trivial) fun hinv => Sat.pure ⟨?_, .unlock h ha⟩
  rw [granuleUnlock, hinv]
  rfl

theorem walkFromTraced_sat (ctx : S2ttContext) (mapAddr : Word) (n : ℕ) :
    ∀ tbl i tr, heldAfter ∅ tr = insert tbl held → tbl ∉ held →
      Sat (walkFromTraced s ctx mapAddr n tbl i tr) (fun res =>
        walkFrom s ctx mapAddr n tbl i = .ok res.1 ∧ res.1.gLlt ∉ held ∧
          Continues tr res.2 (insert res.1.gLlt held)) fun _ => True := by
  induction n with
  | zero =>
    intro tbl i tr h hne
    exact Sat.ok ⟨rfl, hne, Continues.refl h⟩
  | succ n ih =>
    intro tbl i tr h hne
    unfold walkFromTraced walkFrom
    refine Sat.ite (fun htbl => ?_) fun htbl => ?_
    · refine Sat.bind (granuleLockTraced_sat h) ?_
      rintro tr1 ⟨hst, hfree, h1⟩
      rw [Finset.mem_insert, not_or] at hfree
      rw [Finset.insert_comm] at h1
      have hne' : tbl ∉ insert (s2tteToPa (s.rtt tbl (s2AddrToIdx mapAddr i)) s2ttPageLevel
          ctx.enableLpa2) held := by
        rw [Finset.mem_insert, not_or]
        exact ⟨Ne.symm hfree.1, hne⟩
      refine Sat.bind (granuleUnlockTraced_sat h1.held hne') ?_
      rintro tr2 ⟨-, h2⟩
      refine (ih _ _ tr2 h2.held hfree.2).imp ?_
      rintro res ⟨hwalk, hllt, h3⟩
      refine ⟨?_, hllt, (h1.trans h2).trans h3⟩
      simp only [if_pos htbl, granuleLock_ok hst]
      exact hwalk
    · refine Sat.ok ⟨?_, hne, Continues.refl h⟩
      rw [if_neg htbl]

theorem s2ttWalkLockUnlockTraced_sat (ctx : S2ttContext) (mapAddr : Word) (level : ℤ)
    (h : heldAfter ∅ tr = held) :
    Sat (s2ttWalkLockUnlockTraced s tr ctx mapAddr level) (fun res =>
      s2ttWalkLockUnlock s ctx mapAddr level = .ok res.1 ∧ res.1.gLlt ∉ held ∧
        Continues tr res.2 (insert res.1.gLlt held)) fun _ => True := by
  unfold s2ttWalkLockUnlockTraced
  refine Sat.bind (granuleLockTraced_sat h) fun tr1 ⟨hst, hfree, h1⟩ => ?_
  refine assertThat_sat (fun _ => trivial) fun hargs => ?_
  have hwalk : s2ttWalkLockUnlock s ctx mapAddr level = (do
      assertThat (decide (s2SlAddrToIdx mapAddr ctx.s2StartingLevel ctx.ipaBits < s2ttesPerS2tt) ||
        decide (s2SlAddrToIdx mapAddr ctx.s2StartingLevel ctx.ipaBits / s2ttesPerS2tt <
          ctx.numRootRtts)) .walkArgs
      granuleLock s (walkRoot ctx mapAddr) .RTT
      walkFrom s ctx mapAddr (level - ctx.s2StartingLevel).toNat (walkRoot ctx mapAddr)
        ctx.s2StartingLevel) := by
    unfold s2ttWalkLockUnlock
    rw [granuleLock_ok hst, hargs]
    rfl
  rw [hwalk]
  unfold walkRoot
  refine Sat.ite (fun hsl => ?_) fun hsl => ?_
  · refine assertThat_sat (fun _ => trivial) fun hroot => ?_
    refine Sat.bind (granuleLockTraced_sat h1.held) fun tr2 ⟨hst2, hfree2, h2⟩ => ?_
    rw [Finset.mem_insert, not_or] at hfree2
    rw [Finset.insert_comm] at h2
    have hne : ctx.gRtt ∉ insert (rootTable ctx
        (s2SlAddrToIdx mapAddr ctx.s2StartingLevel ctx.ipaBits / s2ttesPerS2tt)) held := by
      rw [Finset.mem_insert, not_or]
      exact ⟨Ne.symm hfree2.1, hfree⟩
    refine Sat.bind (granuleUnlockTraced_sat h2.held hne) fun tr3 ⟨_, h3⟩ => ?_
    refine (walkFromTraced_sat ctx mapAddr _ _ _ tr3 h3.held hfree2.2).imp
      fun res ⟨hres, hllt, h4⟩ => ⟨?_, hllt, ((h1.trans h2).trans h3).trans h4⟩
    rw [hroot, Bool.or_true]
    simp only [if_pos hsl, granuleLock_ok hst2]
    exact hres
  · refine (walkFromTraced_sat ctx mapAddr _ _ _ tr1 h1.held hfree).imp
      fun res ⟨hres, hllt, h4⟩ => ⟨?_, hllt, h1.trans h4⟩
    rw [decide_eq_true (not_le.mp hsl), Bool.true_or]
    simp only [if_neg hsl, granuleLock_ok hst]
    exact hres

/-- A translated page leaves the lock of its table to the caller. -/
theorem realmIpaToPaWithRdTraced_sat (ctx : S2ttContext) (ipa : Word)
    (h : heldAfter ∅ tr = held) :
    Sat (realmIpaToPaWithRdTraced s tr ctx ipa) (fun res =>
      realmIpaToPaWithRd s ctx ipa = .ok (res.1.map Prod.fst) ∧
        match res.1 with
        | none => Continues tr res.2 held
        | some (_, t) => t ∉ held ∧ Continues tr res.2 (insert t held)) fun _ => True := by
  unfold realmIpaToPaWithRdTraced realmIpaToPaWithRd
  refine Sat.ite (fun hna => ?_) fun hal => ?_
  · refine Sat.pure ⟨?_, Continues.refl h⟩
    rw [if_pos hna]
    rfl
  · rw [if_neg hal]
    refine Sat.bind (s2ttWalkLockUnlockTraced_sat ctx ipa s2ttPageLevel h) ?_
    rintro ⟨wi, tr1⟩ ⟨hwalk, hllt, h1⟩
    simp only at hwalk hllt h1 ⊢
    rw [hwalk]
    refine Sat.ite (fun hram => ?_) fun hram => ?_
    · refine Sat.pure ⟨?_, hllt, h1⟩
      simp only [bind, Except.bind, if_pos hram]
      rfl
    · refine Sat.bind (granuleUnlockTraced_sat h1.held hllt) fun tr2 ⟨_, h2⟩ => ?_
      refine Sat.pure ⟨?_, h1.trans h2⟩
      simp only [bind, Except.bind, if_neg hram]
      rfl

theorem mapIpaToPaTraced_sat (ctx : S2ttContext) (paAddr ipaAddr : Word)
    (h : heldAfter ∅ tr = held) :
    Sat (mapIpaToPaTraced s tr ctx paAddr ipaAddr) (fun res =>
      mapIpaToPa s ctx paAddr ipaAddr = .ok res.1 ∧ Continues tr res.2 held) fun _ => True := by
  unfold mapIpaToPaTraced mapIpaToPa
  refine Sat.bind (s2ttWalkLockUnlockTraced_sat ctx ipaAddr s2ttPageLevel h) ?_
  rintro ⟨wi, tr1⟩ ⟨hwalk, hllt, h1⟩
  simp only at hwalk hllt h1 ⊢
  rw [hwalk]
  refine Sat.ite (fun hlevel => ?_) fun hlevel => ?_
  · refine Sat.bind (granuleUnlockTraced_sat h1.held hllt) fun tr2 ⟨_, h2⟩ => ?_
    refine Sat.pure ⟨?_, h1.trans h2⟩
    simp only [bind, Except.bind, if_pos hlevel]
    rfl
  · refine assertThat_sat (fun _ => trivial) fun hok => ?_
    simp only [bind, Except.bind, if_neg hlevel, hok]
    cases hget : atomicGranuleGet (s2ttInvalidatePage (s2tteWrite s ctx wi.gLlt wi.index
        (s2tteCreateAssignedRam ctx paAddr s2ttPageLevel)) ctx ipaAddr) wi.gLlt with
    | error e => exact Sat.error trivial
    | ok s3 =>
      refine Sat.bind (granuleUnlockTraced_sat h1.held hllt) fun tr2 ⟨hunlock, h2⟩ => ?_
      refine Sat.pure ⟨?_, h1.trans h2⟩
      simp only [hunlock]
      rfl

theorem findLockGranuleTraced_sat {expected : GranuleState} (h : heldAfter ∅ tr = held) :
    Sat (findLockGranuleTraced plat s tr addr expected) (fun res =>
      res.1 = lockable plat s addr expected ∧ (findGranule plat addr = true → addr ∉ held) ∧
        Continues tr res.2 (if res.1 then insert addr held else held)) fun _ => True := by
  by_cases ha : addr ∈ held
  · unfold findLockGranuleTraced granuleBitlockAcquire lockable
    rw [h, if_pos ha]
    cases hf : findGranule plat addr with
    | false => exact Sat.pure ⟨rfl, by simp, Continues.refl h⟩
    | true => exact Sat.error_bind trivial
  · rw [findLockGranuleTraced_ok (h.symm ▸ ha)]
    cases hl : lockable plat s addr expected with
    | true => exact Sat.ok ⟨rfl, fun _ => ha, Continues.lock h ha⟩
    | false =>
      refine Sat.ok ⟨rfl, fun _ => ha, ?_⟩
      simp only [Bool.false_eq_true, if_false, probe]
      split
      · have hlock := Continues.lock h ha
        have hunlock := hlock.trans (Continues.unlock hlock.held ha)
        rw [List.append_assoc] at hunlock
        exact hunlock
      · rw [List.append_nil]
        exact Continues.refl h

/-- Release locks that are all held. -/
theorem granuleUnlocksTraced_sat (addrs : List Word) (hnd : addrs.Nodup)
    (h : heldAfter ∅ tr = addrs.toFinset) :
    Sat (addrs.foldlM (granuleUnlockTraced s) tr) (fun tr' => Continues tr tr' ∅)
      fun _ => True := by
  induction addrs generalizing tr with
  | nil => exact Sat.pure (Continues.refl h)
  | cons a rest ih =>
    rw [List.nodup_cons] at hnd
    rw [List.toFinset_cons] at h
    have ha : a ∉ rest.toFinset := by
      rw [List.mem_toFinset]
      exact hnd.1
    rw [List.foldlM_cons]
    refine Sat.bind (granuleUnlockTraced_sat h ha) fun tr1 ⟨_, h1⟩ => ?_
    exact (ih hnd.2 h1.held).imp fun tr2 h2 => h1.trans h2

/-- What the loop does from page `k` on. It stops cleanly only at the first page. -/
def LoopTraced (mctx sctx : S2ttContext) (mstart sstart : Word) (ks : List ℕ) (first : Prop)
    (held : Finset Word) (s : State) (tr : Trace) (res : State × Bool × Trace) : Prop :=
  (res.2.1 = true ∧ attachLoop mctx sctx mstart sstart ks s = .ok (res.1, true) ∧
    Continues tr res.2.2 held) ∨
  (res.2.1 = false ∧ res.1 = s ∧ attachLoop mctx sctx mstart sstart ks s = .ok (s, false) ∧
    Continues tr res.2.2 held ∧ first ∧
      realmIpaToPaWithRd s mctx (pageAddr mstart 0) = .ok none) ∨
  (res.2.1 = false ∧ attachLoop mctx sctx mstart sstart ks s = .error .doubleUnlock ∧
    ¬ Disciplined ∅ res.2.2 ∧ heldAfter ∅ res.2.2 = held ∧
    (first → ∃ pa, realmIpaToPaWithRd s mctx (pageAddr mstart 0) = .ok (some pa)))

theorem attachLoopTraced_sat (mctx sctx : S2ttContext) (mstart sstart : Word) (len : ℕ) :
    ∀ (k : ℕ) (llt : Option Word) (s : State) (tr : Trace), heldAfter ∅ tr = held →
      (llt = none ↔ k = 0) → (∀ t, llt = some t → t ∉ held) →
      Sat (attachLoopTraced mctx sctx mstart sstart (List.range' k len) llt s tr)
        (LoopTraced mctx sctx mstart sstart (List.range' k len) (k = 0) held s tr)
        fun _ => True := by
  induction len with
  | zero =>
    intro k llt s tr h hfirst hllt
    exact Sat.ok (.inl ⟨rfl, rfl, Continues.refl h⟩)
  | succ len ih =>
    intro k llt s tr h hfirst hllt
    rw [List.range'_succ]
    unfold attachLoopTraced LoopTraced attachLoop
    refine Sat.bind (realmIpaToPaWithRdTraced_sat mctx _ h) ?_
    rintro ⟨page, tr1⟩ ⟨hpage, h1⟩
    simp only at hpage h1 ⊢
    rw [hpage]
    cases page with
    | none =>
      cases llt with
      | none =>
        obtain rfl : k = 0 := hfirst.mp rfl
        exact Sat.pure (.inr (.inl ⟨rfl, rfl, rfl, h1, rfl, hpage⟩))
      | some t =>
        have hk : k ≠ 0 := fun hc => Option.some_ne_none t (hfirst.mpr hc)
        -- the table was released when its page was mapped
        refine Sat.bind (Q := fun tr2 => ¬ Disciplined ∅ tr2 ∧ heldAfter ∅ tr2 = held) ?_ ?_
        · unfold granuleUnlockTraced
          refine assertThat_sat (fun _ => trivial) fun hinv => Sat.pure ⟨?_, ?_⟩
          · exact not_disciplined_of_unlock (h1.held.symm ▸ hllt t rfl) []
          · rw [heldAfter_append, h1.held]
            exact Finset.erase_eq_of_notMem (hllt t rfl)
        · rintro tr2 ⟨hbad, hheld⟩
          refine Sat.pure (.inr (.inr ⟨rfl, ?_, hbad, hheld, fun hc => absurd hc hk⟩))
          simp only [Option.map_none, beq_eq_false_iff_ne.mpr hk]
          rfl
    | some page =>
      obtain ⟨pa, t⟩ := page
      obtain ⟨ht, h1⟩ := h1
      refine Sat.bind (mapIpaToPaTraced_sat sctx pa _ h1.held) ?_
      rintro ⟨s', tr2⟩ ⟨hmap, h2⟩
      simp only at hmap h2 ⊢
      refine Sat.bind (granuleUnlockTraced_sat h2.held ht) ?_
      rintro tr3 ⟨-, h3⟩
      have hcont : Continues tr tr3 held := (h1.trans h2).trans h3
      have hrest := ih (k + 1) (some t) s' tr3 h3.held (by simp)
        fun t' ht' => Option.some_injective _ ht' ▸ ht
      refine hrest.imp fun res hres => ?_
      simp only [Option.map_some, bind, Except.bind, hmap]
      rcases hres with ⟨hok, heq, h4⟩ | ⟨-, -, -, -, hc, -⟩ | ⟨hok, heq, hbad, hheld, -⟩
      · exact .inl ⟨hok, heq, hcont.trans h4⟩
      · cases hc
      · refine .inr (.inr ⟨hok, heq, hbad, hheld, ?_⟩)
        rintro rfl
        exact ⟨pa, hpage⟩

theorem findLockGranule_of_apart {locked : List Word} {expected : GranuleState}
    (h : findGranule plat addr = true → addr ∉ locked) :
    findLockGranule plat s locked addr expected = .ok (lockable plat s addr expected) := by
  unfold findLockGranule lockable
  cases hf : findGranule plat addr with
  | false => rfl
  | true =>
    rw [if_pos rfl, if_neg (h hf)]
    rfl

end

section
variable {plat : Platform} {s : State} {rdAddr x1 : Word} {slave : SlaveMem}

/-- The attach after the lock of its own table, with the lock of the master's descriptor. -/
theorem handleRsiCsmAttach_refused (hrd : (s.granule rdAddr).state = .RD)
    (hapt : findLockGranule plat s [rdAddr] (s.rd rdAddr).aptPa .APT = .ok true)
    (hidx : (decide (0 ≤ (x1.setWidth 32).toInt) &&
      decide ((x1.setWidth 32).toInt < maxMemRegions)) = true)
    (hslave : (s.apt (s.rd rdAddr).aptPa).slaveMemory (x1.setWidth 32).toInt.toNat = slave)
    (hmrd : findLockGranule plat s [(s.rd rdAddr).aptPa, rdAddr] slave.masterRdPa .RD = .ok false) :
    handleRsiCsmAttach plat s rdAddr x1 = .ok (s, rsiRet .ERROR_INPUT) := by
  subst hslave
  unfold handleRsiCsmAttach lockApt
  simp only [granuleLock_ok hrd, hapt, assertThat, hidx, hmrd, bind, Except.bind, pure, Except.pure,
    if_true, Bool.not_false]

theorem handleRsiCsmAttach_found (hrd : (s.granule rdAddr).state = .RD)
    (hapt : findLockGranule plat s [rdAddr] (s.rd rdAddr).aptPa .APT = .ok true)
    (hidx : (decide (0 ≤ (x1.setWidth 32).toInt) &&
      decide ((x1.setWidth 32).toInt < maxMemRegions)) = true)
    (hslave : (s.apt (s.rd rdAddr).aptPa).slaveMemory (x1.setWidth 32).toInt.toNat = slave)
    (hmrd : findLockGranule plat s [(s.rd rdAddr).aptPa, rdAddr] slave.masterRdPa .RD = .ok true)
    (hmapt : findLockGranule plat s [slave.masterRdPa, (s.rd rdAddr).aptPa, rdAddr]
      (s.rd slave.masterRdPa).aptPa .APT = .ok true) :
    handleRsiCsmAttach plat s rdAddr x1 =
      match aptFindMasterByRegionId (s.apt (s.rd slave.masterRdPa).aptPa) slave.regionId with
      | none => .ok (s, rsiRet .ERROR_INPUT)
      | some midx => do
        let m := (s.apt (s.rd slave.masterRdPa).aptPa).masterMemory midx
        let (s1, ok) ← attachLoop (s.rd slave.masterRdPa).s2Ctx (s.rd rdAddr).s2Ctx m.ipaStart
          slave.ipaStart (List.range (regionPages m)) s
        return (s1, rsiRet (if ok then .SUCCESS else .ERROR_INPUT)) := by
  subst hslave
  unfold handleRsiCsmAttach lockApt
  simp only [granuleLock_ok hrd, hapt, assertThat, hidx, hmrd, hmapt, bind, Except.bind, pure,
    Except.pure, if_true, Bool.not_true, Bool.false_eq_true, if_false]
  rfl

end

/-- What the traced handler has to do with the handler that faults at a second release. -/
def AttachTraced (plat : Platform) (s : State) (rdAddr x1 : Word)
    (res : State × RsiResult × Trace) : Prop :=
  (handleRsiCsmAttach plat s rdAddr x1 = .ok (res.1, res.2.1) ∧
    Continues [] res.2.2 ∅ ∧ (res.2.1.status ≠ .SUCCESS → res.1 = s ∧
      ∀ slave m, attachEntry plat s rdAddr x1 = some (slave, m) →
        ramPage s slave.masterRdPa (pageAddr m.ipaStart 0) = none)) ∨
  (handleRsiCsmAttach plat s rdAddr x1 = .error .doubleUnlock ∧ res.2.1.status ≠ .SUCCESS ∧
    ¬ Disciplined ∅ res.2.2 ∧ ∃ slave m, attachEntry plat s rdAddr x1 = some (slave, m) ∧
      ramPage s slave.masterRdPa (pageAddr m.ipaStart 0) ≠ none)

theorem insert_four (apt mapt rd mrd : Word) :
    insert mapt (insert mrd (insert apt (insert rd (∅ : Finset Word)))) =
      [apt, mapt, rd, mrd].toFinset := by
  ext a
  simp only [Finset.mem_insert, Finset.notMem_empty, List.mem_toFinset, List.mem_cons,
    List.not_mem_nil]
  tauto

/-- The loop and the releases at the end, when both tables have been found. -/
theorem attachRegionTraced_sat {plat : Platform} {s : State} {F : Tables} (h : Holds s F)
    {rdAddr x1 : Word} {slave : SlaveMem} {m : MasterMem} {tr : Trace} {addrs : List Word}
    (hmrd : (s.granule slave.masterRdPa).state = .RD)
    (hentry : attachEntry plat s rdAddr x1 = some (slave, m))
    (heq : handleRsiCsmAttach plat s rdAddr x1 = do
      let (s1, ok) ← attachLoop (s.rd slave.masterRdPa).s2Ctx (s.rd rdAddr).s2Ctx m.ipaStart
        slave.ipaStart (List.range (regionPages m)) s
      return (s1, rsiRet (if ok then .SUCCESS else .ERROR_INPUT)))
    (htr : Continues [] tr addrs.toFinset) (hnd : addrs.Nodup) :
    Sat (do
        let (s1, ok, tr) ← attachLoopTraced (s.rd slave.masterRdPa).s2Ctx (s.rd rdAddr).s2Ctx
          m.ipaStart slave.ipaStart (List.range (regionPages m)) none s tr
        let tr ← addrs.foldlM (granuleUnlockTraced s1) tr
        return (s1, rsiRet (if ok then .SUCCESS else .ERROR_INPUT), tr))
      (AttachTraced plat s rdAddr x1) fun _ => True := by
  have hloop := attachLoopTraced_sat (s.rd slave.masterRdPa).s2Ctx (s.rd rdAddr).s2Ctx m.ipaStart
    slave.ipaStart (regionPages m) 0 none s tr htr.held (by simp) (by simp)
  rw [← List.range_eq_range'] at hloop
  have hpage : ∀ res, realmIpaToPaWithRd s (s.rd slave.masterRdPa).s2Ctx (pageAddr m.ipaStart 0) =
      .ok res → ramPage s slave.masterRdPa (pageAddr m.ipaStart 0) = res := fun res hres =>
    ((realmIpaToPaWithRd_sat h hmrd _).of_ok hres).symm
  refine Sat.bind hloop ?_
  rintro ⟨s1, ok, tr1⟩ hres
  unfold AttachTraced
  rw [heq]
  rcases hres with ⟨hok, hrun, h1⟩ | ⟨hok, hs1, hrun, h1, -, hnone⟩ |
    ⟨hok, hrun, hbad, hheld, hsome⟩
  · simp only at hok hrun h1 ⊢
    subst hok
    rw [hrun]
    refine Sat.bind (granuleUnlocksTraced_sat addrs hnd h1.held) fun tr2 h2 => ?_
    refine Sat.pure (.inl ⟨rfl, (htr.trans h1).trans h2, fun hc => absurd rfl hc⟩)
  · simp only at hok hs1 hrun h1 ⊢
    subst hok hs1
    rw [hrun]
    refine Sat.bind (granuleUnlocksTraced_sat addrs hnd h1.held) fun tr2 h2 => ?_
    refine Sat.pure (.inl ⟨rfl, (htr.trans h1).trans h2,
      fun _ => ⟨rfl, fun slave' m' he => ?_⟩⟩)
    rw [hentry] at he
    cases he
    exact hpage _ hnone
  · simp only at hok hrun hbad hheld ⊢
    subst hok
    rw [hrun]
    refine Sat.bind (granuleUnlocksTraced_sat addrs hnd hheld) fun tr2 h2 => ?_
    refine Sat.pure (.inr ⟨rfl, by simp [rsiRet], fun hd => hbad (h2.disciplined.mp hd), slave, m,
      hentry, ?_⟩)
    obtain ⟨pa, hpa⟩ := hsome rfl
    rw [hpage _ hpa]
    simp

theorem handleRsiCsmAttachTraced_sat {plat : Platform} {s : State} {F : Tables} (h : Holds s F)
    {rdAddr : Word} (hrd : (s.granule rdAddr).state = .RD) (x1 : Word) :
    Sat (handleRsiCsmAttachTraced plat s rdAddr x1) (AttachTraced plat s rdAddr x1)
      fun _ => True := by
  unfold handleRsiCsmAttachTraced
  refine Sat.bind (granuleLockTraced_sat (heldAfter_nil ∅)) fun tr1 ⟨_, _, h1⟩ => ?_
  refine Sat.bind (findLockGranuleTraced_sat h1.held) ?_
  rintro ⟨found, tr2⟩ ⟨hfound, hapt, h2⟩
  simp only at hfound h2 ⊢
  refine assertThat_sat (fun _ => trivial) fun hok => ?_
  subst hok
  rw [if_pos rfl] at h2
  have hne : (s.rd rdAddr).aptPa ∉ [rdAddr] := by
    simpa using hapt (lockable_findGranule hfound.symm)
  have hf1 : findLockGranule plat s [rdAddr] (s.rd rdAddr).aptPa .APT = .ok true := by
    rw [findLockGranule_of_apart fun _ => hne, ← hfound]
  refine assertThat_sat (fun _ => trivial) fun hidx => ?_
  obtain ⟨slave, hslave⟩ : ∃ slave, (s.apt (s.rd rdAddr).aptPa).slaveMemory
    (x1.setWidth 32).toInt.toNat = slave := ⟨_, rfl⟩
  rw [hslave]
  refine Sat.bind (findLockGranuleTraced_sat h2.held) ?_
  rintro ⟨mrd, tr3⟩ ⟨hmrd, hapart, h3⟩
  simp only at hmrd h3 ⊢
  have hf2 : findLockGranule plat s [(s.rd rdAddr).aptPa, rdAddr] slave.masterRdPa .RD =
      .ok mrd := by
    rw [findLockGranule_of_apart (by simpa using hapart), ← hmrd]
  have c3 := (h1.trans h2).trans h3
  cases mrd with
  | false =>
    have hset : heldAfter ∅ tr3 = [(s.rd rdAddr).aptPa, rdAddr].toFinset := by
      rw [h3.held]
      simp
    refine Sat.bind (granuleUnlocksTraced_sat _ (by simpa using hne) hset) fun tr4 h4 => ?_
    refine Sat.pure (.inl ⟨handleRsiCsmAttach_refused hrd hf1 hidx hslave hf2, c3.trans h4,
      fun _ => ⟨rfl, fun slave' m he => ?_⟩⟩)
    simp only [attachEntry, hslave, ← hmrd, Bool.and_false, Bool.false_and] at he
    cases he
  | true =>
    rw [if_pos rfl] at h3 c3
    have hne2 : slave.masterRdPa ∉ [(s.rd rdAddr).aptPa, rdAddr] := by
      simpa using hapart (lockable_findGranule hmrd.symm)
    refine Sat.bind (findLockGranuleTraced_sat h3.held) ?_
    rintro ⟨mfound, tr4⟩ ⟨hmfound, hmapt, h4⟩
    simp only at hmfound h4 ⊢
    refine assertThat_sat (fun _ => trivial) fun hok => ?_
    subst hok
    rw [if_pos rfl] at h4
    have hne3 : (s.rd slave.masterRdPa).aptPa ∉
        [slave.masterRdPa, (s.rd rdAddr).aptPa, rdAddr] := by
      simpa using hmapt (lockable_findGranule hmfound.symm)
    have hf3 : findLockGranule plat s [slave.masterRdPa, (s.rd rdAddr).aptPa, rdAddr]
        (s.rd slave.masterRdPa).aptPa .APT = .ok true := by
      rw [findLockGranule_of_apart fun _ => hne3, ← hmfound]
    have hnodup : [(s.rd rdAddr).aptPa, (s.rd slave.masterRdPa).aptPa, rdAddr,
        slave.masterRdPa].Nodup := by
      simp only [List.mem_cons, List.not_mem_nil, or_false, not_or] at hne hne2 hne3
      simp [hne, hne3, Ne.symm hne2.1, Ne.symm hne2.2, Ne.symm hne3.2.1]
    have hset : insert (s.rd slave.masterRdPa).aptPa (insert slave.masterRdPa
        (insert (s.rd rdAddr).aptPa (insert rdAddr ∅))) = [(s.rd rdAddr).aptPa,
          (s.rd slave.masterRdPa).aptPa, rdAddr, slave.masterRdPa].toFinset := by
      exact insert_four _ _ _ _
    rw [hset] at h4
    have heq := handleRsiCsmAttach_found hrd hf1 hidx hslave hf2 hf3
    cases hfind : aptFindMasterByRegionId (s.apt (s.rd slave.masterRdPa).aptPa) slave.regionId with
    | none =>
      rw [hfind] at heq
      refine Sat.bind (granuleUnlocksTraced_sat _ hnodup h4.held) fun tr5 h5 => ?_
      refine Sat.pure (.inl ⟨heq, (c3.trans h4).trans h5,
        fun _ => ⟨rfl, fun slave' m he => ?_⟩⟩)
      simp only [attachEntry, hslave, hfind, Option.map_none, ite_self] at he
      cases he
    | some midx =>
      rw [hfind] at heq
      refine attachRegionTraced_sat h (lockable_state hmrd.symm) ?_ heq (c3.trans h4) hnodup
      rw [Bool.and_eq_true] at hidx
      simp only [attachEntry, hslave, ← hfound, ← hmrd, ← hmfound, hfind, hidx, Bool.and_self,
        if_true, Option.map_some]

/-- Every lock is taken and released equally often, no lock is released that is not held,
and tables and granules are as before. -/
structure AttachClean (s s' : State) (tr : Trace) : Prop where
  disciplined : Disciplined ∅ tr
  balanced : ∀ g, tr.count (.lock g) = tr.count (.unlock g)
  rtt : s'.rtt = s.rtt
  granule : s'.granule = s.granule

/-- Either no region of a master is found, or its first page is not mapped. -/
def AttachStopsFirst (plat : Platform) (s : State) (rdAddr x1 : Word) : Prop :=
  ∀ slave m, attachEntry plat s rdAddr x1 = some (slave, m) →
    ramPage s slave.masterRdPa (pageAddr m.ipaStart 0) = none

theorem attachClean_iff {plat : Platform} {s : State} (hs : Reachable plat s) {rdAddr x1 : Word}
    (hrd : (s.granule rdAddr).state = .RD) {s' : State} {res : RsiResult} {tr : Trace}
    (hcall : handleRsiCsmAttachTraced plat s rdAddr x1 = .ok (s', res, tr))
    (herr : res.status ≠ .SUCCESS) :
    AttachClean s s' tr ↔ AttachStopsFirst plat s rdAddr x1 := by
  obtain ⟨F, hF⟩ := hs.wf
  rcases (handleRsiCsmAttachTraced_sat hF.holds hrd x1).of_ok hcall with
    ⟨-, hcont, hstop⟩ | ⟨-, -, hbad, slave, m, hentry, hpage⟩
  · obtain ⟨rfl, hfirst⟩ := hstop herr
    have hdisc := hcont.disciplined.mpr (disciplined_nil ∅)
    exact iff_of_true ⟨hdisc, hdisc.balanced hcont.held, rfl, rfl⟩ hfirst
  · exact iff_of_false (fun hc => hbad hc.disciplined) fun hc => hpage (hc slave m hentry)

/-- Two realms; the second has reserved a region of two pages of the first, which has
done some steps before. -/
def demoTwoPages (before : List Act) : List Act :=
  demoRealm 16 1 ++ before ++ demoRealm 64 2 ++ demoShare 0x1000 0x2000 0 0x5000

set_option maxRecDepth 100000 in
/-- Nothing of the region is mapped. -/
theorem attachClean_unmapped : ∃ s, Reachable demoPlat s ∧ ∃ s' res tr,
    handleRsiCsmAttachTraced demoPlat s (gr 64) 0 = .ok (s', res, tr) ∧
      res.status ≠ .SUCCESS ∧
      (attachEntry demoPlat s (gr 64) 0).isSome = true ∧ AttachClean s s' tr := by
  have hrun : replayEnds (demoKeys [16, 64] [] [0, 1, 2, 5, 6]) demoPlat (fun _ _ => true)
      (demoTwoPages [])
      (fun s => match handleRsiCsmAttachTraced demoPlat s (gr 64) 0 with
        | .ok (_, res, _) => res.status == .ERROR_INPUT && (s.granule (gr 64)).state == .RD &&
            (attachEntry demoPlat s (gr 64) 0).isSome &&
            (attachEntry demoPlat s (gr 64) 0).all (fun e =>
              (ramPage s e.1.masterRdPa (pageAddr e.2.ipaStart 0)).isNone)
        | .error _ => false) = true := by
    decide +kernel
  obtain ⟨s, hs, ht⟩ := replayEnds_reachable hrun
  revert ht
  cases hcall : handleRsiCsmAttachTraced demoPlat s (gr 64) 0 with
  | error f => exact fun hc => by cases hc
  | ok p =>
    obtain ⟨s', res, tr⟩ := p
    intro ht
    simp only [Bool.and_eq_true, beq_iff_eq, Option.all_eq_true, Option.isNone_iff_eq_none] at ht
    obtain ⟨⟨⟨hret, hrd⟩, hentry⟩, hpage⟩ := ht
    have herr : res.status ≠ .SUCCESS := by simp [hret]
    exact ⟨s, hs, s', res, tr, hcall, herr, hentry, (attachClean_iff hs hrd hcall herr).mpr
      fun slave m he => hpage (slave, m) he⟩

set_option maxRecDepth 100000 in
/-- The first page of the region is mapped and the second is not: the error path releases
the table of the first page once more, and the slave keeps that page. -/
theorem attach_second_page_unclean : ∃ s, Reachable demoPlat s ∧ recRunning s (gr 70) = true ∧
    (s.recs (gr 70)).gRd = gr 64 ∧ ∃ s' res tr,
      handleRsiCsmAttachTraced demoPlat s (gr 64) 0 = .ok (s', res, tr) ∧
        res.status = .ERROR_INPUT ∧ tr.count (.lock (gr 23)) + 1 = tr.count (.unlock (gr 23)) ∧
        s'.rtt (gr 71) 5 ≠ s.rtt (gr 71) 5 ∧
        (s'.granule (gr 71)).refcount = (s.granule (gr 71)).refcount + 1 ∧
        ¬ AttachClean s s' tr := by
  have hrun : replayEnds (demoKeys [16, 64] [128] [0, 1, 2, 5, 6]) demoPlat (fun _ _ => true)
      (demoTwoPages (demoPage 16 128 0x1000))
      (fun s => match handleRsiCsmAttachTraced demoPlat s (gr 64) 0 with
        | .ok (s', res, tr) => res.status == .ERROR_INPUT && recRunning s (gr 70) &&
            (s.recs (gr 70)).gRd == gr 64 &&
            tr.count (.lock (gr 23)) + 1 == tr.count (.unlock (gr 23)) &&
            s'.rtt (gr 71) 5 != s.rtt (gr 71) 5 &&
            (s'.granule (gr 71)).refcount == (s.granule (gr 71)).refcount + 1
        | .error _ => false) = true := by
    decide +kernel
  obtain ⟨s, hs, ht⟩ := replayEnds_reachable hrun
  revert ht
  cases hcall : handleRsiCsmAttachTraced demoPlat s (gr 64) 0 with
  | error f => exact fun hc => by cases hc
  | ok p =>
    obtain ⟨s', res, tr⟩ := p
    intro ht
    simp only [Bool.and_eq_true, beq_iff_eq, bne_iff_ne] at ht
    obtain ⟨⟨⟨⟨⟨hret, hrun'⟩, hg⟩, hcount⟩, hrtt⟩, href⟩ := ht
    exact ⟨s, hs, hrun', hg, s', res, tr, hcall, hret, hcount, hrtt, href,
      fun hc => hrtt (by rw [hc.rtt])⟩

end RmmCaec
