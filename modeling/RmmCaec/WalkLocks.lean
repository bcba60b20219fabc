import RmmCaec.Locking
import RmmCaec.RealmEffects
import RmmCaec.Replay

/-!
# The table walk with its locks

The walk as it runs: it keeps the tables that it has met in an array indexed from level -1,
changes the root under lock when the starting level is concatenated, and locks each next
table before it releases the one above. The specification is the recursive walk in the
forest, from the root whose range contains the address.
-/
namespace RmmCaec

open RadixForest Outcome LockTrace

/-- The length of the array `g_tbls`. -/
def nrRttLevelsLpa2 : ℕ := 5

/-- The array `g_tbls`. -/
abbrev GTbls := ℕ → Option Word

/-- Read an element of the array that must not be NULL. -/
def GTbls.read (gTbls : GTbls) (i : ℤ) : Rmm Word := do
  assertThat (decide (0 ≤ i) && decide (i < nrRttLevelsLpa2)) .outOfBounds
  match gTbls i.toNat with
  | some g => return g
  | none => .error .nullGranule

def GTbls.write (gTbls : GTbls) (i : ℤ) (g : Option Word) : Rmm GTbls := do
  assertThat (decide (0 ≤ i) && decide (i < nrRttLevelsLpa2)) .outOfBounds
  return Function.update gTbls i.toNat g

/-- The table that an entry links to. -/
def findNextLevelIdx (s : State) (ctx : S2ttContext) (gTbl : Word) (idx : ℕ) : Option Word :=
  let entry := s.rtt gTbl idx
  if entryIsTable entry then some (s2tteToPa entry s2ttPageLevel ctx.enableLpa2) else none

def findLockNextLevel (s : State) (ctx : S2ttContext) (tr : Trace)
    (gTbl mapAddr : Word) (level : ℤ) :
    Rmm (Option Word × Trace) :=
  match findNextLevelIdx s ctx gTbl (s2AddrToIdx mapAddr level) with
  | none => .ok (none, tr)
  | some g => do
    let tr ← granuleLockTraced s tr g .RTT
    return (some g, tr)

/-- The loop from level `i` on, with `n` levels left to the target. It yields the last level. -/
def walkLevels (s : State) (ctx : S2ttContext) (mapAddr : Word) :
    ℕ → ℤ → GTbls → Trace → Rmm (ℤ × GTbls × Trace)
  | 0, i, gTbls, tr => .ok (i, gTbls, tr)
  | n + 1, i, gTbls, tr => do
    let gTbl ← gTbls.read (i + 1)
    let (next, tr) ← findLockNextLevel s ctx tr gTbl mapAddr i
    let gTbls ← gTbls.write (i + 1 + 1) next
    if next = none then return (i, gTbls, tr)
    else
      let gTbl ← gTbls.read (i + 1)
      let tr ← granuleUnlockTraced s tr gTbl
      walkLevels s ctx mapAddr n (i + 1) gTbls tr

/-- The root table of the walk. For concatenated tables the lock moves from the first root
to the one of the address. -/
def lockRoot (s : State) (ctx : S2ttContext) (mapAddr : Word) (tr : Trace) :
    Rmm (Word × Trace) := do
  let slIdx := s2SlAddrToIdx mapAddr ctx.s2StartingLevel ctx.ipaBits
  if s2ttesPerS2tt ≤ slIdx then
    let ttNum := slIdx / s2ttesPerS2tt
    assertThat (decide (ttNum < ctx.numRootRtts)) .walkArgs
    let gConcatRoot := rootTable ctx ttNum
    let tr ← granuleLockTraced s tr gConcatRoot .RTT
    let tr ← granuleUnlockTraced s tr ctx.gRtt
    return (gConcatRoot, tr)
  else return (ctx.gRtt, tr)

def s2ttWalkLockUnlockLoop (s : State) (ctx : S2ttContext) (mapAddr : Word) (level : ℤ)
    (tr : Trace) :
    Rmm (S2ttWalk × Trace) := do
  assertThat (decide (ctx.s2StartingLevel ≤ level) && decide (level ≤ s2ttPageLevel) &&
    decide (mapAddr.toNat < 2 ^ ctx.ipaBits) &&
    decide (ctx.ipaBits ≤ s2tteOaBits ctx.enableLpa2)) .walkArgs
  let (gRoot, tr) ← lockRoot s ctx mapAddr tr
  let gTbls ← GTbls.write (fun _ => none) (ctx.s2StartingLevel + 1) (some gRoot)
  let (lastLevel, gTbls, tr) ← walkLevels s ctx mapAddr (level - ctx.s2StartingLevel).toNat
    ctx.s2StartingLevel gTbls tr
  let gLlt ← gTbls.read (lastLevel + 1)
  return (⟨gLlt, s2AddrToIdx mapAddr lastLevel, lastLevel⟩, tr)

/-- From a table at `level`: stop at the target level or at an entry that is not a table. -/
def refWalkFrom (F : Tables) (addr : ℕ) : ℕ → Word → ℤ → Option S2ttWalk
  | 0, t, level => (F t).map fun n => ⟨t, n.slotOf rttShape addr, level⟩
  | k + 1, t, level => (F t).bind fun n =>
    match n.slot (n.slotOf rttShape addr) with
    | .table pa => refWalkFrom F addr k pa (level + 1)
    | _ => some ⟨t, n.slotOf rttShape addr, level⟩

/-- From the root table whose range contains the address. -/
def refWalk (F : Tables) (ctx : S2ttContext) (addr : ℕ) (level : ℤ) : Option S2ttWalk :=
  refWalkFrom F addr (level - ctx.s2StartingLevel).toNat
    (rootTable ctx (addr / (s2ttesPerS2tt * s2tteMapSize ctx.s2StartingLevel))) ctx.s2StartingLevel

/-- The tables of a realm are well formed, and none has more references than entries. -/
structure RttTree (s : State) (F : Tables) (rd : Word) : Prop where
  holds : Holds s F
  isRd : (s.granule rd).state = .RD
  refs : ∀ t n, F t = some n → n.owner = rd → (s.granule t).refcount ≤ rttRefcountMax

/-- One table of a realm is locked, and no other one. -/
def OnlyLocked (F : Tables) (rd : Word) (tr : Trace) (t : Word) : Prop :=
  ∀ k n, F k = some n → n.owner = rd → (k ∈ heldAfter ∅ tr ↔ k = t)

/-- The trace takes and releases locks of one realm's tables, each only where it may. -/
structure WalkOps (F : Tables) (rd : Word) (tr ops : Trace) : Prop where
  disciplined : Disciplined (heldAfter ∅ tr) ops
  others : ∀ g, (∀ n, F g = some n → n.owner ≠ rd) →
    (g ∈ heldAfter ∅ (tr ++ ops) ↔ g ∈ heldAfter ∅ tr)

section
variable {s : State} {F : Tables} {rd : Word} {tr : Trace} {t : Word} {n : Table}

theorem WalkOps.nil : WalkOps F rd tr [] := ⟨trivial, fun _ _ => by simp⟩

theorem WalkOps.append {ops ops' : Trace} (h : WalkOps F rd tr ops)
    (h' : WalkOps F rd (tr ++ ops) ops') :
    WalkOps F rd tr (ops ++ ops') := by
  refine ⟨?_, fun g hg => ?_⟩
  · rw [disciplined_append]
    refine ⟨h.disciplined, ?_⟩
    rw [← heldAfter_append]
    exact h'.disciplined
  · rw [← List.append_assoc]
    exact (h'.others g hg).trans (h.others g hg)

theorem RttTree.unlockable (h : RttTree s F rd) (ht : F t = some n) (ho : n.owner = rd) :
    unlockedInvariant (s.granule t) = true := by
  unfold unlockedInvariant
  rw [(h.holds.node ht).1]
  exact decide_eq_true (h.refs t n ht ho)

/-- Moving the lock from one table of the realm to another. -/
theorem RttTree.handOver (h : RttTree s F rd) (ht : F t = some n) (ho : n.owner = rd) {k : Word}
    {m : Table} (hk : F k = some m) (hmo : m.owner = rd) (hkt : k ≠ t)
    (hheld : OnlyLocked F rd tr t) :
    granuleLockTraced s tr k .RTT = .ok (tr ++ [.lock k]) ∧
      granuleUnlockTraced s (tr ++ [.lock k]) t = .ok (tr ++ [.lock k, .unlock t]) ∧
      OnlyLocked F rd (tr ++ [.lock k, .unlock t]) k ∧ WalkOps F rd tr [.lock k, .unlock t] := by
  have htin : t ∈ heldAfter ∅ tr := (hheld t n ht ho).mpr rfl
  have hkout : k ∉ heldAfter ∅ tr := fun hin => hkt ((hheld k m hk hmo).mp hin)
  refine ⟨granuleLockTraced_ok hkout (h.holds.node hk).1, ?_, ?_, ?_⟩
  · rw [granuleUnlockTraced_ok _ (h.unlockable ht ho), List.append_assoc]
    rfl
  · intro g m' hg hgo
    have hgin := hheld g m' hg hgo
    simp only [heldAfter_append, heldAfter_cons, heldAfter_nil, LockOp.apply, Finset.mem_erase,
      Finset.mem_insert, hgin]
    constructor
    · rintro ⟨hne, rfl | hgt⟩
      · rfl
      · exact absurd hgt hne
    · rintro rfl
      exact ⟨hkt, .inl rfl⟩
  · refine ⟨?_, fun g hg => ?_⟩
    · simp [LockOp.apply, LockOp.Allowed, hkout, htin]
    · have hgk : g ≠ k := by
        rintro rfl
        exact hg m hk hmo
      have hgt : g ≠ t := by
        rintro rfl
        exact hg n ht ho
      simp [LockOp.apply, hgk, hgt]

/-- The table below the entry for an address. -/
theorem RttTree.nextLevel (h : RttTree s F rd) {addr : Word} (ht : F t = some n) (ho : n.owner = rd)
    (hc : n.Covers rttShape addr.toNat) (ha : addr.toNat < 2 ^ (s.rd rd).s2Ctx.ipaBits)
    (hh : 0 < n.height) :
    findNextLevelIdx s (s.rd rd).s2Ctx t (s2AddrToIdx addr (levelOf n.height)) =
      (n.slot (n.slotOf rttShape addr.toNat)).link := by
  subst ho
  have hiff := h.holds.entryIsTable_iff ht hc.slotOf_lt hh
  rw [h.holds.s2AddrToIdx_eq ht hc ha, findNextLevelIdx]
  cases hlink : (n.slot (n.slotOf rttShape addr.toNat)).link with
  | some pa =>
    obtain ⟨htab, hpa⟩ := (hiff pa).mpr (Entry.link_eq_some.mp hlink)
    simp [htab, hpa]
  | none =>
    have hleaf : entryIsTable (s.rtt t (n.slotOf rttShape addr.toNat)) = false := by
      rw [Bool.eq_false_iff]
      intro htab
      exact Entry.link_eq_none.mp hlink _ ((hiff _).mp ⟨htab, rfl⟩)
    simp [hleaf]

theorem GTbls.read_ok {gTbls : GTbls} {i : ℤ} {g : Word} (h0 : 0 ≤ i) (h5 : i < 5)
    (hg : gTbls i.toNat = some g) : gTbls.read i = .ok g := by
  simp [GTbls.read, nrRttLevelsLpa2, assertThat, h0, h5, hg, bind, Except.bind, pure, Except.pure]

theorem GTbls.write_ok (gTbls : GTbls) {i : ℤ} (g : Option Word) (h0 : 0 ≤ i) (h5 : i < 5) :
    gTbls.write i g = .ok (Function.update gTbls i.toNat g) := by
  simp [GTbls.write, nrRttLevelsLpa2, assertThat, h0, h5, bind, Except.bind, pure, Except.pure]

/-- What a walk through the lower levels yields: the result of the recursive walk, in the
array and under the only lock. -/
structure Descended (s : State) (F : Tables) (rd addr : Word) (fuel : ℕ) (t : Word) (level : ℤ)
    (tr : Trace) (wi : S2ttWalk) (gTbls : GTbls) (ops : Trace) : Prop where
  ref : refWalkFrom F addr.toNat fuel t level = some wi
  unlogged : walkFrom s (s.rd rd).s2Ctx addr fuel t level = .ok wi
  walked : ∃ m, Walked F rd addr wi m
  kept : gTbls (wi.lastLevel + 1).toNat = some wi.gLlt
  locked : OnlyLocked F rd (tr ++ ops) wi.gLlt
  ops : WalkOps F rd tr ops

theorem walkFrom_succ (s : State) (ctx : S2ttContext) (addr : Word) (k : ℕ)
    (t : Word) (level : ℤ) :
    walkFrom s ctx addr (k + 1) t level =
      match findNextLevelIdx s ctx t (s2AddrToIdx addr level) with
      | some next => do
        granuleLock s next .RTT
        walkFrom s ctx addr k next (level + 1)
      | none => .ok ⟨t, s2AddrToIdx addr level, level⟩ := by
  rw [walkFrom, findNextLevelIdx]
  dsimp only
  split <;> rfl

theorem refWalkFrom_link {addr k : ℕ} {level : ℤ} {pa : Word} (ht : F t = some n)
    (hlink : (n.slot (n.slotOf rttShape addr)).link = some pa) :
    refWalkFrom F addr (k + 1) t level = refWalkFrom F addr k pa (level + 1) := by
  rw [refWalkFrom, ht, Option.bind_some, Entry.link_eq_some.mp hlink]

theorem refWalkFrom_leaf {addr k : ℕ} {level : ℤ} (ht : F t = some n)
    (hlink : (n.slot (n.slotOf rttShape addr)).link = none) :
    refWalkFrom F addr (k + 1) t level = some ⟨t, n.slotOf rttShape addr, level⟩ := by
  rw [refWalkFrom, ht, Option.bind_some]
  split
  case h_1 pa heq =>
    rw [heq] at hlink
    cases hlink
  case h_2 => rfl

/-- The loop follows the recursive walk, with the lock on its current table. The induction is
on the number of levels left. -/
theorem RttTree.walkLevels_ok (h : RttTree s F rd) {addr : Word} (gTbls : GTbls) {fuel : ℕ}
    (ht : F t = some n) (ho : n.owner = rd) (hc : n.Covers rttShape addr.toNat)
    (ha : addr.toNat < 2 ^ (s.rd rd).s2Ctx.ipaBits) (hf : fuel ≤ n.height)
    (hkept : gTbls (levelOf n.height + 1).toNat = some t) (hheld : OnlyLocked F rd tr t) :
    ∃ wi gTbls' ops, walkLevels s (s.rd rd).s2Ctx addr fuel (levelOf n.height) gTbls tr =
        .ok (wi.lastLevel, gTbls', tr ++ ops) ∧
      Descended s F rd addr fuel t (levelOf n.height) tr wi gTbls' ops := by
  induction fuel generalizing t n tr gTbls with
  | zero =>
    have hidx : s2AddrToIdx addr (levelOf n.height) = n.slotOf rttShape addr.toNat := by
      subst ho
      exact h.holds.s2AddrToIdx_eq ht hc ha
    refine ⟨⟨t, n.slotOf rttShape addr.toNat, levelOf n.height⟩, gTbls, [], ?_, ?_, ?_,
      ?_, hkept, ?_,
      .nil⟩
    · simp [walkLevels]
    · simp [refWalkFrom, ht]
    · rw [walkFrom, hidx]
    · exact ⟨n, ht, ho, rfl, hc, rfl⟩
    · simpa using hheld
  | succ fuel ih =>
    have hheight := h.holds.height_le ht
    have hlevel : 0 ≤ levelOf n.height + 1 ∧ levelOf n.height + 1 + 1 < 5 := by
      unfold levelOf
      omega
    have hidx : s2AddrToIdx addr (levelOf n.height) = n.slotOf rttShape addr.toNat := by
      subst ho
      exact h.holds.s2AddrToIdx_eq ht hc ha
    have hnext := h.nextLevel ht ho hc ha (by omega)
    have hread := GTbls.read_ok hlevel.1 (by omega) hkept
    have hwrite (o : Option Word) := gTbls.write_ok o
      (show 0 ≤ levelOf n.height + 1 + 1 by omega) hlevel.2
    have hkept' (o : Option Word) : Function.update gTbls (levelOf n.height + 1 + 1).toNat o
        (levelOf n.height + 1).toNat = some t := by
      rw [Function.update_of_ne (by omega), hkept]
    have hread' (o : Option Word) := GTbls.read_ok hlevel.1 (by omega) (hkept' o)
    cases hlink : (n.slot (n.slotOf rttShape addr.toNat)).link with
    | none =>
      rw [hlink] at hnext
      refine ⟨⟨t, n.slotOf rttShape addr.toNat, levelOf n.height⟩, _, [], ?_, ?_, ?_, ?_,
        hkept' none, ?_, .nil⟩
      · simp [walkLevels, hread, findLockNextLevel, hnext, hwrite, bind, Except.bind,
          pure, Except.pure]
      · exact refWalkFrom_leaf ht hlink
      · rw [walkFrom_succ, hnext, hidx]
      · exact ⟨n, ht, ho, rfl, hc, rfl⟩
      · simpa using hheld
    | some k =>
      rw [hlink] at hnext
      obtain ⟨m, hm, hmo, hmh, hmb⟩ := h.holds.ok.child ht hc.slotOf_lt hlink
      have hmc : m.Covers rttShape addr.toNat := by
        obtain ⟨h1, h2⟩ := hc.slotCovers
        rw [← hmb] at h1 h2
        rw [← hmh] at h2
        exact ⟨h1, h2⟩
      have hdown : levelOf n.height + 1 = levelOf m.height := by
        unfold levelOf
        omega
      have hkt : k ≠ t := by
        rintro rfl
        rw [ht] at hm
        cases hm
        omega
      obtain ⟨hlock, hunlock, honly, hops⟩ := h.handOver ht ho hm (hmo.trans ho) hkt hheld
      have hkept1 : Function.update gTbls (levelOf n.height + 1 + 1).toNat (some k)
          (levelOf m.height + 1).toNat = some k := by
        rw [← hdown, Function.update_self]
      obtain ⟨wi, gTbls', ops, hwalk, hd⟩ := ih _ hm (hmo.trans ho) hmc (by omega) hkept1 honly
      refine ⟨wi, gTbls', [.lock k, .unlock t] ++ ops, ?_, ?_, ?_, hd.walked, hd.kept, ?_,
        hops.append hd.ops⟩
      · rw [← hdown] at hwalk
        simp [walkLevels, hread, findLockNextLevel, hnext, hlock, hwrite, hread',
          hunlock, hwalk, bind,
          Except.bind, pure, Except.pure]
      · rw [refWalkFrom_link ht hlink, hdown]
        exact hd.ref
      · rw [walkFrom_succ, hnext, hdown]
        simp only [granuleLock_ok (h.holds.node hm).1]
        exact hd.unlogged
      · rw [← List.append_assoc]
        exact hd.locked

/-- The root whose range contains the address. -/
theorem walkRoot_split (ctx : S2ttContext) {addr : Word} (ha : addr.toNat < 2 ^ ctx.ipaBits) :
    walkRoot ctx addr =
        rootTable ctx (addr.toNat / (s2ttesPerS2tt * s2tteMapSize ctx.s2StartingLevel)) ∧
      s2SlAddrToIdx addr ctx.s2StartingLevel ctx.ipaBits / s2ttesPerS2tt =
        addr.toNat / (s2ttesPerS2tt * s2tteMapSize ctx.s2StartingLevel) := by
  have hsl : s2SlAddrToIdx addr ctx.s2StartingLevel ctx.ipaBits / s2ttesPerS2tt =
      addr.toNat / (s2ttesPerS2tt * s2tteMapSize ctx.s2StartingLevel) := by
    rw [s2SlAddrToIdx, Nat.mod_eq_of_lt ha, Nat.div_div_eq_div_mul, Nat.mul_comm]
    rfl
  refine ⟨?_, hsl⟩
  unfold walkRoot
  dsimp only
  split
  case isTrue => rw [hsl]
  case isFalse hlt =>
    rw [← hsl, Nat.div_eq_of_lt (Nat.lt_of_not_le hlt)]
    simp [rootTable]

/-- The lock of the first root table moves to the root of the address. -/
theorem RttTree.lockRoot_ok (h : RttTree s F rd) {addr : Word}
    (ha : addr.toNat < 2 ^ (s.rd rd).s2Ctx.ipaBits)
    (hheld : OnlyLocked F rd tr (s.rd rd).s2Ctx.gRtt) :
    ∃ ops, lockRoot s (s.rd rd).s2Ctx addr tr = .ok (walkRoot (s.rd rd).s2Ctx addr, tr ++ ops) ∧
      OnlyLocked F rd (tr ++ ops) (walkRoot (s.rd rd).s2Ctx addr) ∧ WalkOps F rd tr ops := by
  obtain ⟨hroot, hsl⟩ := walkRoot_split (s.rd rd).s2Ctx ha
  by_cases hbig : s2ttesPerS2tt ≤
      s2SlAddrToIdx addr (s.rd rd).s2Ctx.s2StartingLevel (s.rd rd).s2Ctx.ipaBits
  · have hctx := h.holds.ctx rd h.isRd
    set ctx := (s.rd rd).s2Ctx with hctxdef
    set k := addr.toNat / (s2ttesPerS2tt * s2tteMapSize ctx.s2StartingLevel) with hk
    have hspan : rttShape.span ((3 - ctx.s2StartingLevel).toNat + 1) =
        s2ttesPerS2tt * s2tteMapSize ctx.s2StartingLevel := by
      rw [rttShape.span_succ, rttShape_span, hctx.levelOf_top]
      rfl
    have hin : k * rttShape.span ((3 - ctx.s2StartingLevel).toNat + 1) < 2 ^ ctx.ipaBits := by
      rw [hspan]
      exact lt_of_le_of_lt (Nat.div_mul_le_self _ _) ha
    obtain ⟨n, hn, ho, hh, hb⟩ := h.holds.ok.root (plotOf_of_rd h.isRd) hin
    obtain ⟨n0, hn0, ho0, hh0, hb0⟩ := h.holds.ok.root (j := 0) (plotOf_of_rd h.isRd) (by simp)
    have hzero : rootTable ctx 0 = ctx.gRtt := by simp [rootTable]
    change F (rootTable ctx k) = some n at hn
    simp only [← hctxdef, hzero] at hn0
    have hnum : k < ctx.numRootRtts := by
      rw [← hctx.roots, ← span_top]
      exact hin
    -- the two roots start at different addresses
    have hne : rootTable ctx k ≠ ctx.gRtt := by
      intro heq
      rw [heq, hn0] at hn
      cases hn
      have hpos := rttShape.span_pos ((3 - ctx.s2StartingLevel).toNat + 1)
      have hk0 : k = 0 := by
        rw [hb, Nat.zero_mul] at hb0
        exact (Nat.mul_eq_zero.mp hb0).resolve_right hpos.ne'
      rw [← hsl, Nat.div_eq_zero_iff] at hk0
      unfold s2ttesPerS2tt at hbig hk0
      omega
    obtain ⟨hlock, hunlock, honly, hops⟩ := h.handOver hn0 ho0 hn ho hne hheld
    refine ⟨[.lock (rootTable ctx k), .unlock ctx.gRtt], ?_, by rw [hroot]; exact honly, hops⟩
    simp [lockRoot, hbig, hsl, assertThat, hnum, hlock, hunlock, hroot, bind, Except.bind, pure,
      Except.pure]
  · have hfirst : walkRoot (s.rd rd).s2Ctx addr = (s.rd rd).s2Ctx.gRtt := if_neg hbig
    rw [hfirst]
    refine ⟨[], ?_, by simpa using hheld, .nil⟩
    simp [lockRoot, hbig, pure, Except.pure]

/-- With only root 0 locked among the tables of the realm, a walk for an address of the
IPA space to a level below the starting level returns what the recursive walk finds: a table
that contains the address, and in it the entry whose range does. At the end this table is
the only one that is locked. -/
theorem s2ttWalkLockUnlock_refines (h : RttTree s F rd) {addr : Word} {level : ℤ}
    (ha : addr.toNat < 2 ^ (s.rd rd).s2Ctx.ipaBits)
    (hlo : (s.rd rd).s2Ctx.s2StartingLevel ≤ level)
    (hhi : level ≤ s2ttPageLevel) (hheld : OnlyLocked F rd tr (s.rd rd).s2Ctx.gRtt) :
    ∃ wi ops, s2ttWalkLockUnlockLoop s (s.rd rd).s2Ctx addr level tr = .ok (wi, tr ++ ops) ∧
      refWalk F (s.rd rd).s2Ctx addr.toNat level = some wi ∧
      (∃ n, F wi.gLlt = some n ∧ n.owner = rd ∧ levelOf n.height = wi.lastLevel ∧
        n.Covers rttShape addr.toNat ∧ wi.index < s2ttesPerS2tt ∧
        n.SlotCovers rttShape wi.index addr.toNat) ∧
      OnlyLocked F rd (tr ++ ops) wi.gLlt ∧ WalkOps F rd tr ops ∧
      s2ttWalkLockUnlock s (s.rd rd).s2Ctx addr level = .ok wi := by
  have hctx := h.holds.ctx rd h.isRd
  obtain ⟨hroot, hsl⟩ := walkRoot_split (s.rd rd).s2Ctx ha
  obtain ⟨ops0, hlock, honly0, hops0⟩ := h.lockRoot_ok ha hheld
  obtain ⟨n, hn, ho, hl, hc⟩ := h.holds.walkRoot_spec h.isRd ha
  have hstart := hctx.start_ge
  have hwrite := GTbls.write_ok (fun _ => none) (some (walkRoot (s.rd rd).s2Ctx addr))
    (show 0 ≤ (s.rd rd).s2Ctx.s2StartingLevel + 1 by omega)
    (by have := hctx.start_le; omega)
  have hfuel : (level - (s.rd rd).s2Ctx.s2StartingLevel).toNat ≤ n.height := by
    rw [← hl]
    unfold levelOf s2ttPageLevel at *
    omega
  obtain ⟨wi, gTbls, ops, hwalk, hd⟩ := h.walkLevels_ok
    (Function.update (fun _ => none) ((s.rd rd).s2Ctx.s2StartingLevel + 1).toNat
      (some (walkRoot (s.rd rd).s2Ctx addr))) hn ho hc ha hfuel
      (by rw [hl, Function.update_self]) honly0
  rw [hl] at hwalk hd
  obtain ⟨m, hm⟩ := hd.walked
  have hmh := h.holds.height_le hm.table
  have hread := GTbls.read_ok (i := wi.lastLevel + 1)
    (by rw [hm.level]; unfold levelOf; omega) (by rw [hm.level]; unfold levelOf; omega) hd.kept
  have hidx : s2AddrToIdx addr wi.lastLevel = wi.index := by
    rw [hm.level, hm.index]
    have hown := hm.owner
    subst hown
    exact h.holds.s2AddrToIdx_eq hm.table hm.covers ha
  refine ⟨wi, ops0 ++ ops, ?_, ?_, ⟨m, hm.table, hm.owner, hm.level.symm,
    hm.covers, ?_, ?_⟩, ?_,
    hops0.append hd.ops, ?_⟩
  · simp [s2ttWalkLockUnlockLoop, assertThat, hlo, hhi, ha, hctx.bits_le, hlock,
      hwrite, hwalk, hread,
      hidx, bind, Except.bind, pure, Except.pure]
  · rw [refWalk, ← hroot]
    exact hd.ref
  · rw [hm.index]
    exact hm.covers.slotOf_lt
  · rw [hm.index]
    exact hm.covers.slotCovers
  · rw [← List.append_assoc]
    exact hd.locked
  · have hnum : addr.toNat / (s2ttesPerS2tt * s2tteMapSize (s.rd rd).s2Ctx.s2StartingLevel) <
        (s.rd rd).s2Ctx.numRootRtts := by
      rw [← hctx.roots, ← span_top, rttShape.span_succ, rttShape_span, hctx.levelOf_top]
      exact lt_of_le_of_lt (Nat.div_mul_le_self _ _) ha
    unfold s2ttWalkLockUnlock
    simp [granuleLock_ok (h.holds.gRtt_isRtt h.isRd),
      granuleLock_ok (h.holds.node hn).1, hd.unlogged,
      assertThat, hlo, hhi, ha, hctx.bits_le, hsl, hnum, bind, Except.bind]

end

/-- The tables of a new realm are well formed. -/
theorem Planted.rttTree {s s' : State} {F : Tables} {rd : Word} {ctx : S2ttContext} (h : Holds s F)
    (p : Planted s rd ctx s') : RttTree s' (plantTables F rd ctx) rd := by
  refine ⟨p.holds h, by rw [p.rdGranule], fun t n ht ho => ?_⟩
  by_cases hr : t ∈ rootTables ctx
  · rw [p.rootGranule t hr]
    exact Nat.zero_le _
  · rw [plantTables_other hr] at ht
    have hrd := (h.node ht).2.1
    rw [ho, p.fresh rd (.inl rfl)] at hrd
    cases hrd

set_option maxRecDepth 100000 in
/-- A walk in a new realm with four concatenated tables, for an address in the third. -/
theorem s2ttWalkLockUnlock_refines_third : ∃ s F wi ops,
    s2ttWalkLockUnlockLoop s (s.rd (gr 16)).s2Ctx 0x80000000#64 3
        [.lock (s.rd (gr 16)).s2Ctx.gRtt] =
      .ok (wi, [.lock (s.rd (gr 16)).s2Ctx.gRtt] ++ ops) ∧
    OnlyLocked F (gr 16) ([.lock (s.rd (gr 16)).s2Ctx.gRtt] ++ ops) wi.gLlt := by
  have hrun : replayEnds (demoKeys [16] [] []) demoPlat (fun _ _ => true)
      ((List.range 24).map fun k => Act.granuleDelegate (gr (16 + k)) true) (fun s =>
        match smcRealmCreate demoPlat s (gr 16) (gr 0) (some (demoParams 17 1)) with
        | .ok (s', res) => res.ret == rmiSuccess &&
            (s'.rd (gr 16)).s2Ctx == paramsCtx demoPlat (demoParams 17 1)
        | .error _ => false) = true := by
    decide +kernel
  obtain ⟨s0, hs0, htest⟩ := replayEnds_reachable hrun
  obtain ⟨F, hF⟩ := hs0.wf
  have hsat := @smcRealmCreate_sat demoPlat s0 F hF (gr 16) (gr 0) (some (demoParams 17 1))
  cases hres : smcRealmCreate demoPlat s0 (gr 16) (gr 0) (some (demoParams 17 1)) with
  | error e => simp [hres] at htest
  | ok res =>
    obtain ⟨s, r⟩ := res
    simp only [hres, Bool.and_eq_true, beq_iff_eq] at htest
    obtain ⟨hret, hctx⟩ := htest
    obtain ⟨-, hne⟩ | ⟨-, ctx, hp⟩ := hsat.of_ok hres
    · exact absurd hret hne
    · have ha : (0x80000000#64).toNat < 2 ^ (s.rd (gr 16)).s2Ctx.ipaBits := by
        rw [hctx]
        decide
      have hlo : (s.rd (gr 16)).s2Ctx.s2StartingLevel ≤ 3 := by
        rw [hctx]
        decide
      have hheld : OnlyLocked (plantTables F (gr 16) ctx) (gr 16)
          [.lock (s.rd (gr 16)).s2Ctx.gRtt] (s.rd (gr 16)).s2Ctx.gRtt := by
        intro k n _ _
        simp [LockOp.apply]
      obtain ⟨wi, ops, hwalk, -, -, honly, -⟩ :=
        s2ttWalkLockUnlock_refines (hp.rttTree hF.holds) ha hlo le_rfl hheld
      exact ⟨s, _, wi, ops, hwalk, honly⟩

end RmmCaec
