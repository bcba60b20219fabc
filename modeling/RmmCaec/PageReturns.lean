import RmmCaec.AttachEffects
import RmmCaec.Exactness
import RmmCaec.FoldRoundTrip

/-!
# When page operations return

The walk asserts that the address is below the size of the address space; nothing
else in the removal of a page can fail. Mapping a page also asserts that the page fits
the descriptor format and that the table has a reference left, and every page that is
attached takes a reference, whether or not the entry was live.
-/
namespace RmmCaec

open RadixForest Outcome

/-- The CPU would wait for a lock that it holds. -/
def SelfWait (plat : Platform) (held : List Word) (addr : Word) : Prop :=
  findGranule plat addr = true ∧ addr ∈ held

instance (plat : Platform) (held : List Word) (addr : Word) :
    Decidable (SelfWait plat held addr) := by
  unfold SelfWait
  infer_instance

@[simp] theorem selfWait_nil (plat : Platform) (addr : Word) : ¬ SelfWait plat [] addr := by
  rintro ⟨-, ⟨⟩⟩

/-- A computation behind an assertion. -/
theorem assertThat_bind {α : Type} {b : Bool} {f : Fault} {k : Unit → Rmm α} {D : Prop}
    {Q : α → Prop}
    (hk : b = true → Exact (k ()) D Q) : Exact (assertThat b f >>= k) (b = true ∧ D) Q := by
  cases b with
  | true => exact (hk rfl).congr (by simp)
  | false => exact (Exact.error f).congr (by simp)

theorem granuleUnlockTransition_ok {s : State} {addr : Word} {st : GranuleState}
    (h : unlockedInvariant ((s.setState addr st).granule addr) = true) :
    granuleUnlockTransition s addr st = .ok (s.setState addr st) := by
  simp only [granuleUnlockTransition, granuleUnlock, assertThat, h]
  rfl

theorem findLockGranule_exact (plat : Platform) (s : State) (held : List Word) (addr : Word)
    (expected : GranuleState) :
    Exact (findLockGranule plat s held addr expected) (¬ SelfWait plat held addr)
      fun b => b = lockable plat s addr expected := by
  unfold findLockGranule SelfWait lockable
  cases hf : findGranule plat addr with
  | false => exact (Exact.ok (by simp)).congr (by simp)
  | true =>
    by_cases hm : addr ∈ held
    · simp only [if_true, hm]
      exact (Exact.error _).congr (by simp)
    · simp only [if_true, hm, if_false]
      exact (Exact.ok (by simp)).congr (by simp)

theorem lockable_findGranule {plat : Platform} {s : State} {addr : Word} {expected : GranuleState}
    (h : lockable plat s addr expected = true) : findGranule plat addr = true := by
  unfold lockable at h
  exact (Bool.and_eq_true _ _ ▸ h).1

theorem lockApt_exact (plat : Platform) (s : State) (held : List Word) (aptPa : Word) :
    Exact (lockApt plat s held aptPa) (lockable plat s aptPa .APT = true ∧ aptPa ∉ held)
      fun a => a = s.apt aptPa := by
  unfold lockApt
  refine (Exact.bind (D := lockable plat s aptPa .APT = true)
    (findLockGranule_exact plat s held aptPa .APT) ?_).congr ?_
  · rintro _ - rfl
    refine (assertThat_bind (D := True) fun _ => ?_).congr (and_iff_left trivial)
    exact Exact.pure rfl
  · unfold SelfWait
    constructor
    · rintro ⟨hw, hl⟩
      exact ⟨hl, fun hm => hw ⟨lockable_findGranule hl, hm⟩⟩
    · rintro ⟨hl, hm⟩
      exact ⟨fun hw => hm hw.2, hl⟩

/-- Where the translation of an address ends. -/
def walkOf (s : State) (rd ipa : Word) : S2ttWalk :=
  let ctx := (s.rd rd).s2Ctx
  translateFrom s.rtt ctx ipa (s2ttPageLevel - ctx.s2StartingLevel).toNat (walkRoot ctx ipa)
    ctx.s2StartingLevel

section

variable {s : State} {F : Tables} {rd : Word}

theorem walk_sat_walkOf (h : Holds s F) (hrd : (s.granule rd).state = .RD) (ipa : Word) :
    Sat (s2ttWalkLockUnlock s (s.rd rd).s2Ctx ipa s2ttPageLevel) (fun wi => wi = walkOf s rd ipa)
      fun _ => True := by
  unfold s2ttWalkLockUnlock
  rw [granuleLock_ok (h.gRtt_isRtt hrd)]
  refine Sat.ok_bind (assertThat_sat (fun _ => trivial) fun hargs => ?_)
  simp only [Bool.and_eq_true, decide_eq_true_eq] at hargs
  refine assertThat_sat (fun _ => trivial) fun _ => ?_
  obtain ⟨n, hn, ho, hl, hc⟩ := h.walkRoot_spec hrd hargs.1.2
  rw [granuleLock_ok (h.node hn).1]
  subst ho
  have hfuel : (s2ttPageLevel - (s.rd n.owner).s2Ctx.s2StartingLevel).toNat ≤ n.height := by
    rw [← hl]
    unfold levelOf s2ttPageLevel
    omega
  have hwalk := (h.translateFrom_spec _ hn hc hargs.1.2 hfuel).1
  rw [hl] at hwalk
  rw [hwalk]
  exact Sat.ok_bind (Sat.ok rfl)

/-- The walk to the last level returns for the addresses of the realm, and ends at the
leaf that translates the address. -/
theorem walk_exact (h : Holds s F) (hrd : (s.granule rd).state = .RD) (ipa : Word) :
    Exact (s2ttWalkLockUnlock s (s.rd rd).s2Ctx ipa s2ttPageLevel)
      (ipa.toNat < 2 ^ (s.rd rd).s2Ctx.ipaBits)
      fun wi => wi = walkOf s rd ipa ∧ ∃ n, IsLeaf F rd ipa.toNat wi.gLlt n wi.index ∧
        wi.lastLevel = levelOf n.height := by
  have hsat := @Holds.walk_sat s F h rd ipa hrd s2ttPageLevel (fun _ => True) trivial
  refine Exact.of_returns ⟨?_, fun ha => ?_⟩ fun wi hw => ?_
  · rintro ⟨wi, hw⟩
    obtain ⟨n, -, ha, -⟩ := hsat.of_ok hw
    exact ha
  · have hstart : (s.rd rd).s2Ctx.s2StartingLevel ≤ s2ttPageLevel :=
      le_trans (h.ctx rd hrd).start_le (by decide)
    have hok := h.walk_ok hrd hstart le_rfl ha
    cases hw : s2ttWalkLockUnlock s (s.rd rd).s2Ctx ipa s2ttPageLevel with
    | ok wi => exact ⟨wi, rfl⟩
    | error f => exact (hok.of_error hw).elim
  · obtain ⟨n, hn, -, -, -, hstop⟩ := hsat.of_ok hw
    exact ⟨(walk_sat_walkOf h hrd ipa).of_ok hw, n, h.walked_isLeaf hn hstop, hn.level⟩

theorem unmapIpaFromRd_exact (h : Wf s F) (hrd : (s.granule rd).state = .RD) (ipa : Word) :
    Exact (unmapIpaFromRd s (s.rd rd).s2Ctx ipa) (ipa.toNat < 2 ^ (s.rd rd).s2Ctx.ipaBits) fun s' =>
      (∃ t n i F', n.owner = rd ∧ n.height = 0 ∧
        EditStep s F t n i ipa.toNat .remove s' F') ∨
      (s' = s ∧ PageAt F rd ipa.toNat fun e => ∀ r pa, e ≠ .assigned r pa) := by
  have hsat := unmapIpaFromRd_sat h hrd ipa
  have hwalk := walk_exact h.holds hrd ipa
  refine Exact.of_returns ⟨?_, fun ha => ?_⟩ fun s' hs' => hsat.of_ok hs'
  · rintro ⟨s', hs'⟩
    unfold unmapIpaFromRd at hs'
    cases hw : s2ttWalkLockUnlock s (s.rd rd).s2Ctx ipa s2ttPageLevel with
    | ok wi => exact (hwalk.of_ok hw).1
    | error f =>
      rw [hw] at hs'
      cases hs'
  · -- after the walk only a missing reference could stop the removal
    have hput : ∀ s1 t, Sat (atomicGranulePut s1 t) (fun _ => True)
        (· = .refcountUnderflow) := by
      intro s1 t
      unfold atomicGranulePut granuleRefcountDec
      exact assertThat_sat (fun _ => rfl) fun _ => Sat.pure trivial
    have hfault : Sat (unmapIpaFromRd s (s.rd rd).s2Ctx ipa) (fun _ => True)
        (· = .refcountUnderflow) := by
      obtain ⟨wi, hw, -⟩ := hwalk.ok_of ha
      unfold unmapIpaFromRd
      rw [hw]
      refine Sat.ok_bind (Sat.ite (fun _ => Sat.pure trivial) fun _ => ?_)
      refine Sat.ite (fun _ => hput _ _) fun _ => Sat.ite (fun _ => hput _ _) fun _ => ?_
      exact Sat.ite (fun _ => hput _ _) fun _ => Sat.pure trivial
    cases hs' : unmapIpaFromRd s (s.rd rd).s2Ctx ipa with
    | ok s' => exact ⟨s', rfl⟩
    | error f => exact absurd (hfault.of_error hs') (hsat.of_error hs').1

theorem unmapRange_exact (h : Wf s F) (hrd : (s.granule rd).state = .RD) (start size : Word) :
    Exact (unmapRange s (s.rd rd).s2Ctx start size)
      (∀ ipa ∈ rangePages start size, ipa.toNat < 2 ^ (s.rd rd).s2Ctx.ipaBits)
      fun s' => ∃ F', Removed s F ((rangePages start size).map fun ipa => (rd, ipa)) s' F' := by
  unfold unmapRange
  refine Exact.foldlM (fun done cur => ∃ F', Removed s F (done.map fun ipa => (rd, ipa)) cur F') _
    ⟨F, .refl h⟩ ?_
  rintro done ipa rest cur - ⟨F1, hF1⟩
  have hrd1 : (cur.granule rd).state = .RD := by rw [hF1.same.state, hrd]
  have hun := unmapIpaFromRd_exact hF1.wf hrd1 ipa
  rw [hF1.same.rd] at hun
  refine hun.imp fun s' hs' => ?_
  rw [List.map_append]
  exact hF1.snoc hs'

/-- What mapping a page asserts once the walk has returned. -/
def MapFits (s : State) (rd pa ipa : Word) (taken : ℕ) : Prop :=
  (walkOf s rd ipa).lastLevel = s2ttPageLevel →
    s2tteCreateAssignedOk (s.rd rd).s2Ctx pa s2ttPageLevel = true ∧
      (s.granule (walkOf s rd ipa).gLlt).refcount + taken < rttRefcountMax

/-- A reference of a table, which the unlock bounds by the number of entries. -/
theorem tableGet_exact {s s1 : State} {t : Word} (hs1 : s1.granule = s.granule)
    (ht : (s.granule t).state = .RTT) :
    Exact (do
        let s' ← atomicGranuleGet s1 t
        granuleUnlock s' t
        return s')
      ((s.granule t).refcount < rttRefcountMax)
      fun s' => ∀ g, (s'.granule g).refcount = (s.granule g).refcount + if t = g then
        1 else 0 := by
  unfold atomicGranuleGet granuleRefcountInc granuleUnlock
  rw [bind_assoc, hs1]
  refine (assertThat_bind (D := (s.granule t).refcount < rttRefcountMax) fun _ => ?_).congr ?_
  · rw [pure_bind]
    refine (assertThat_bind (D := True) fun _ => ?_).congr ?_
    · refine Exact.pure fun g => ?_
      by_cases hg : t = g
      · rw [if_pos hg, ← hg, State.setRefcount_same]
      · rw [if_neg hg, State.setRefcount_of_ne _ (Ne.symm hg), hs1, Nat.add_zero]
    · rw [State.setRefcount_same, hs1, ht]
      simp only [unlockedInvariant, decide_eq_true_eq, and_true]
      omega
  · unfold rttRefcountMax refcountMax
    rw [decide_eq_true_eq]
    omega

theorem mapIpaToPa_exact (h : Wf s F) (hrd : (s.granule rd).state = .RD) (pa ipa : Word) :
    Exact (mapIpaToPa s (s.rd rd).s2Ctx pa ipa)
      (ipa.toNat < 2 ^ (s.rd rd).s2Ctx.ipaBits ∧ MapFits s rd pa ipa 0) fun s' =>
      ∀ t, (s'.granule t).refcount = (s.granule t).refcount +
        if (walkOf s rd ipa).lastLevel = s2ttPageLevel ∧
          (walkOf s rd ipa).gLlt = t then 1 else 0 := by
  unfold mapIpaToPa
  refine Exact.bind (walk_exact h.holds hrd ipa) ?_
  rintro _ - ⟨rfl, n, hleaf, -⟩
  unfold MapFits
  by_cases hpage : (walkOf s rd ipa).lastLevel = s2ttPageLevel
  · rw [if_neg (not_not.mpr hpage)]
    simp only [hpage, true_and, forall_const]
    exact assertThat_bind fun _ => tableGet_exact rfl (h.holds.node hleaf.table).1
  · rw [if_pos hpage]
    simp only [hpage, false_and, if_false, Nat.add_zero]
    exact (Exact.pure fun _ => rfl).congr (by simp)

theorem realmIpaToPaWithRd_exact (h : Holds s F) (hrd : (s.granule rd).state = .RD) (ipa : Word) :
    Exact (realmIpaToPaWithRd s (s.rd rd).s2Ctx ipa)
      (granuleAligned ipa = true → ipa.toNat < 2 ^ (s.rd rd).s2Ctx.ipaBits)
      fun res => res = ramPage s rd ipa := by
  have hsat := realmIpaToPaWithRd_sat h hrd ipa
  refine Exact.of_returns ?_ fun res hres => hsat.of_ok hres
  refine Exact.returns_iff (Q := fun _ => True) ?_
  unfold realmIpaToPaWithRd
  cases hal : granuleAligned ipa with
  | false => exact (Exact.pure trivial).congr (by simp)
  | true =>
    refine (Exact.bind (D := True) (walk_exact h hrd ipa) ?_).congr (by simp)
    rintro wi - -
    exact Exact.ite_same (fun _ => Exact.pure trivial) fun _ => Exact.pure trivial

end

section

variable {s cur : State} {F F1 : Tables} {rdAddr : Word} {slave : SlaveMem} {m : MasterMem}

/-- Mirrored pages do not change where a walk ends. -/
theorem Mirrored.walkOf_eq {R : Word × Word → Word → Prop} {places : List (Word × Word)}
    (h : Holds s F) (hm : Mirrored s F R places cur F1) {rd ipa : Word}
    (hrd : (s.granule rd).state = .RD) (ha : ipa.toNat < 2 ^ (s.rd rd).s2Ctx.ipaBits) :
    walkOf cur rd ipa = walkOf s rd ipa := by
  have hrd1 : (cur.granule rd).state = .RD := by rw [hm.same.state, hrd]
  obtain ⟨wi, -, rfl, n, hl, hlev⟩ := (walk_exact h hrd ipa).ok_of ha
  obtain ⟨wi1, -, rfl, n1, hl1, hlev1⟩ := (walk_exact hm.wf.holds hrd1 ipa).ok_of
    (by rwa [hm.same.rd])
  -- the leaf of the new tables stands in the old ones
  obtain ⟨n0, hn0, ho, hh, hb, hs⟩ := hm.nodes _ n1 hl1.table
  have hl0 : IsLeaf F rd ipa.toNat (walkOf cur rd ipa).gLlt n0 (walkOf cur rd ipa).index := by
    refine ⟨hn0, ho.symm.trans hl1.owner, hl1.index, ?_, ?_⟩
    · have hc := hl1.covers
      unfold Node.SlotCovers Node.slotBase at hc ⊢
      rwa [hb, hh] at hc
    · rcases hs (walkOf cur rd ipa).index with he | ⟨-, hlink, -⟩
      · rw [← he]
        exact hl1.leaf
      · exact hlink
  obtain ⟨ht, rfl, hi⟩ := h.leaf_unique hl0 hl
  have hlevel : (walkOf cur rd ipa).lastLevel = (walkOf s rd ipa).lastLevel := by
    rw [hlev, hlev1, hh]
  rcases hw : walkOf cur rd ipa with ⟨t1, i1, l1⟩
  rcases hw' : walkOf s rd ipa with ⟨t2, i2, l2⟩
  rw [hw, hw'] at ht hi hlevel
  simp only at ht hi hlevel
  rw [ht, hi, hlevel]

/-- The references of a table that an attach has taken before page `k`. -/
def takenBefore (s : State) (rdAddr start : Word) (k : ℕ) (t : Word) : ℕ :=
  ((List.range k).filter fun j => decide ((walkOf s rdAddr (pageAddr start j)).lastLevel =
    s2ttPageLevel ∧ (walkOf s rdAddr (pageAddr start j)).gLlt = t)).length

theorem takenBefore_succ (s : State) (rdAddr start : Word) (k : ℕ) (t : Word) :
    takenBefore s rdAddr start (k + 1) t = takenBefore s rdAddr start k t +
      if (walkOf s rdAddr (pageAddr start k)).lastLevel = s2ttPageLevel ∧
        (walkOf s rdAddr (pageAddr start k)).gLlt = t then 1 else 0 := by
  unfold takenBefore
  rw [List.range_succ, List.filter_append, List.length_append]
  congr 1
  by_cases hc : (walkOf s rdAddr (pageAddr start k)).lastLevel = s2ttPageLevel ∧
      (walkOf s rdAddr (pageAddr start k)).gLlt = t
  · simp [hc]
  · simp [hc]

/-- Page `k` of the master is mapped as RAM, and it can be mapped in the slave. -/
def AttachPageRuns (s : State) (rdAddr : Word) (slave : SlaveMem) (m : MasterMem)
    (k : ℕ) : Prop :=
  ∃ pa, ramPage s slave.masterRdPa (pageAddr m.ipaStart k) = some pa ∧
    (pageAddr slave.ipaStart k).toNat < 2 ^ (s.rd rdAddr).s2Ctx.ipaBits ∧
    MapFits s rdAddr pa (pageAddr slave.ipaStart k) (takenBefore s rdAddr slave.ipaStart k
      (walkOf s rdAddr (pageAddr slave.ipaStart k)).gLlt)

/-- The loop ends at once because page 0 of the master is not mapped as RAM. -/
def AttachStops (s : State) (slave : SlaveMem) (m : MasterMem) : Prop :=
  ramPage s slave.masterRdPa (pageAddr m.ipaStart 0) = none ∧
    (granuleAligned (pageAddr m.ipaStart 0) = true →
      (pageAddr m.ipaStart 0).toNat < 2 ^ (s.rd slave.masterRdPa).s2Ctx.ipaBits)

/-- The loop from page `k` on returns if every page runs, or if it stops at page 0. -/
theorem attachLoop_exact (h : Wf s F) (hrd : (s.granule rdAddr).state = .RD)
    (hmrd : (s.granule slave.masterRdPa).state = .RD)
    (hne : slave.masterRdPa ≠ rdAddr) (len : ℕ) :
    ∀ k cur F1, k + len = regionPages m →
      Mirrored s F (AttachPage s rdAddr slave m) (attachPlaces rdAddr slave k) cur F1 →
      (∀ t, (cur.granule t).refcount = (s.granule t).refcount +
        takenBefore s rdAddr slave.ipaStart k t) →
      Exact (attachLoop (s.rd slave.masterRdPa).s2Ctx (s.rd rdAddr).s2Ctx m.ipaStart slave.ipaStart
          (List.range' k len) cur)
        ((∀ j, k ≤ j → j < k + len → AttachPageRuns s rdAddr slave m j) ∨
          (k = 0 ∧ 0 < len ∧ AttachStops s slave m)) fun _ => True := by
  induction len with
  | zero =>
    intro k cur F1 hk hm hcount
    exact (Exact.ok trivial).congr ⟨fun _ => .inl fun j h1 h2 => by omega, fun _ => trivial⟩
  | succ len ih =>
    intro k cur F1 hk hm hcount
    have hplace : ∀ q ∈ attachPlaces rdAddr slave k, q.1 ≠ slave.masterRdPa := by
      intro q hq
      obtain ⟨j, -, rfl⟩ := List.mem_map.mp hq
      exact hne.symm
    have hpage : ramPage cur slave.masterRdPa (pageAddr m.ipaStart k) =
        ramPage s slave.masterRdPa (pageAddr m.ipaStart k) := hm.ramPage_other h.holds hmrd hplace
    have hmrd1 : (cur.granule slave.masterRdPa).state = .RD := by rw [hm.same.state, hmrd]
    have hrd1 : (cur.granule rdAddr).state = .RD := by rw [hm.same.state, hrd]
    have hipa := realmIpaToPaWithRd_exact hm.wf.holds hmrd1 (pageAddr m.ipaStart k)
    rw [hm.same.rd, hpage] at hipa
    rw [List.range'_succ, attachLoop]
    cases hp : ramPage s slave.masterRdPa (pageAddr m.ipaStart k) with
    | none =>
      rw [hp] at hipa
      refine (Exact.bind (D := k = 0) hipa ?_).congr ?_
      · rintro _ - rfl
        refine (assertThat_bind (D := True) fun _ => ?_).congr (by simp)
        exact Exact.pure trivial
      · constructor
        · rintro ⟨ha, rfl⟩
          exact .inr ⟨rfl, Nat.succ_pos _, hp, ha⟩
        · rintro (hall | ⟨rfl, -, -, ha⟩)
          · obtain ⟨pa, hpa, -⟩ := hall k le_rfl (by omega)
            rw [hp] at hpa
            cases hpa
          · exact ⟨ha, rfl⟩
    | some pa =>
      rw [hp] at hipa
      have hp1 : ramPage cur slave.masterRdPa (pageAddr m.ipaStart k) = some pa := hpage.trans hp
      obtain ⟨-, hma, hmaps⟩ := (ramPage_eq_some hm.wf.holds hmrd1).mp hp1
      have hmap := (mapIpaToPa_exact hm.wf hrd1 pa (pageAddr slave.ipaStart k)).and_sat
        (mapIpaToPa_sat hm.wf hrd1 pa (pageAddr slave.ipaStart k))
      rw [hm.same.rd] at hmap
      have hfits : (pageAddr slave.ipaStart k).toNat < 2 ^ (s.rd rdAddr).s2Ctx.ipaBits →
          (MapFits cur rdAddr pa (pageAddr slave.ipaStart k) 0 ↔
            MapFits s rdAddr pa (pageAddr slave.ipaStart k) (takenBefore s rdAddr slave.ipaStart k
              (walkOf s rdAddr (pageAddr slave.ipaStart k)).gLlt)) := by
        intro ha
        unfold MapFits
        rw [hm.walkOf_eq h.holds hrd ha, hm.same.rd, hcount, Nat.add_zero]
      refine (Exact.bind (D := ((pageAddr slave.ipaStart k).toNat <
        2 ^ (s.rd rdAddr).s2Ctx.ipaBits ∧
          MapFits cur rdAddr pa (pageAddr slave.ipaStart k) 0) ∧
        ∀ j, k + 1 ≤ j → j < k + 1 + len → AttachPageRuns s rdAddr slave m j)
          hipa ?_).congr ?_
      · rintro _ - rfl
        refine Exact.bind hmap ?_
        rintro s' ⟨ha, -⟩ ⟨hs', hpost⟩
        rw [← hm.same.rd] at hpost
        obtain ⟨t, c, i, ht, hi, -, -, hnames⟩ := hmaps.names hm.wf.holds
        obtain ⟨F2, hm2⟩ := hm.snoc ⟨k, by omega, rfl, hp⟩
          (.inr ⟨t, c, i, ht, hi, hnames⟩) hpost
        rw [← attachPlaces_succ] at hm2
        refine (ih (k + 1) s' F2 (by omega) hm2 fun t => ?_).congr (by simp)
        rw [hs', hcount, takenBefore_succ, hm.walkOf_eq h.holds hrd ha, Nat.add_assoc]
      · constructor
        · rintro ⟨-, ⟨ha, hfit⟩, hall⟩
          refine .inl fun j h1 h2 => ?_
          rcases Nat.eq_or_lt_of_le h1 with rfl | h1
          · exact ⟨pa, hp, ha, (hfits ha).mp hfit⟩
          · exact hall j h1 (by omega)
        · rintro (hall | ⟨rfl, -, hnone, -⟩)
          · obtain ⟨pa', hpa', ha, hfit⟩ := hall k le_rfl (by omega)
            rw [hp] at hpa'
            cases hpa'
            exact ⟨fun _ => hm.same.rd ▸ hma, ⟨ha, (hfits ha).mpr hfit⟩,
              fun j h1 h2 => hall j (by omega) (by omega)⟩
          · rw [hp] at hnone
            cases hnone

/-- The loop of an attach returns if every page runs, or if it stops at page 0. -/
def AttachRuns (s : State) (rdAddr : Word) (slave : SlaveMem) (m : MasterMem) : Prop :=
  (∀ k < regionPages m, AttachPageRuns s rdAddr slave m k) ∨ AttachStops s slave m

theorem attachRegion_exact (h : Wf s F) (hrd : (s.granule rdAddr).state = .RD)
    (hmrd : (s.granule slave.masterRdPa).state = .RD) (hne : slave.masterRdPa ≠ rdAddr) :
    Exact (attachLoop (s.rd slave.masterRdPa).s2Ctx (s.rd rdAddr).s2Ctx m.ipaStart slave.ipaStart
        (List.range (regionPages m)) s)
      (AttachRuns s rdAddr slave m) fun _ => True := by
  rw [List.range_eq_range']
  refine (attachLoop_exact h hrd hmrd hne (regionPages m) 0 s F (Nat.zero_add _) (.refl h)
    fun t => ?_).congr ?_
  · simp [takenBefore]
  · unfold AttachRuns
    rw [Nat.zero_add]
    constructor
    · rintro (hall | ⟨-, -, hstop⟩)
      · exact .inl fun k hk => hall k (Nat.zero_le k) hk
      · exact .inr hstop
    · rintro (hall | hstop)
      · exact .inl fun k _ hk => hall k hk
      · rcases Nat.eq_zero_or_pos (regionPages m) with h0 | hpos
        · exact .inl fun k _ hk => by omega
        · exact .inr ⟨rfl, hpos, hstop⟩

end

end RmmCaec
