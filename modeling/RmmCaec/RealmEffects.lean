import RmmCaec.PruneHandlers

/-!
# Effects of the granule and realm handlers

Delegation moves blank granules, creating a realm plants its root tables and
destroying it fells them.
-/
namespace RmmCaec

open RadixForest Outcome

/-- A granule is delegated or undelegated, or nothing happens. -/
def Redelegated (s s' : State) : Prop :=
  s' = s ∨ (∃ g, (s.granule g).state = .NS ∧ s' = s.release g) ∨
    ∃ g, (s.granule g).state = .DELEGATED ∧ s' = s.setState g .NS

theorem smcGranuleDelegate_sat {plat : Platform} {s : State} {F : Tables} (h : Wf s F) (addr : Word)
    (el3Ok : Bool) :
    Sat (smcGranuleDelegate plat s addr el3Ok) (fun res => Redelegated s res.1) Benign := by
  unfold smcGranuleDelegate
  refine findLockGranule_sat (by decide) ?_
  refine Sat.ite (fun _ => Sat.pure (.inl rfl)) fun hns => ?_
  have hst := lockable_state (by simpa using hns)
  refine Sat.ite (fun _ => Sat.pure (.inl rfl)) fun _ => ?_
  refine granuleUnlock_sat (by decide) (Sat.pure (.inr (.inl ⟨addr, hst, ?_⟩)))
  have hzero : s.memzero addr = s.setTable addr fun _ => 0#64 :=
    memzero_blank h (by rw [hst]; rfl)
  exact congrArg (fun u => u.setState addr .DELEGATED) hzero

theorem smcGranuleUndelegate_sat (plat : Platform) (s : State) (addr : Word) (el3Ok : Bool) :
    Sat (smcGranuleUndelegate plat s addr el3Ok) (fun res => Redelegated s res.1) Benign := by
  unfold smcGranuleUndelegate
  refine findLockGranule_sat (by decide) ?_
  refine Sat.ite (fun _ => Sat.pure (.inl rfl)) fun hdel => ?_
  have hst := lockable_state (by simpa using hdel)
  refine assertThat_sat (fun _ => by decide) fun _ => ?_
  exact granuleUnlockTransition_sat (by decide) (Sat.pure (.inr (.inr ⟨addr, hst, rfl⟩)))

theorem Redelegated.plainChange {s s' : State} {F : Tables} (h : Wf s F) (hr : Redelegated s s') :
    s' = s ∨ ∃ g, PlainChange s s' g ∧ (s.granule g).state ≠ .DATA ∧
      (s'.granule g).state ≠ .DATA := by
  refine hr.imp id ?_
  rintro (⟨g, h1, rfl⟩ | ⟨g, h1, rfl⟩)
  · refine ⟨g, plainChange_release h g (by rw [h1]; rfl) (by rw [h1]; rfl), ?_, ?_⟩
    · rw [h1]
      decide
    · simp [State.release]
  · refine ⟨g, plainChange_setState h g _ (by rw [h1]; rfl) rfl (by decide)
      (.inl (by rw [h1]; rfl)), ?_, ?_⟩
    · rw [h1]
      decide
    · simp [State.setState]

namespace State

/-- Several granules move to one state. -/
def setStates (s : State) (addrs : List Word) (st : GranuleState) : State :=
  { s with granule := fun g =>
      if g ∈ addrs then { s.granule g with state := st } else s.granule g }

/-- Several granules are zeroed. -/
def memzeros (s : State) (addrs : List Word) : State :=
  { s with
    rd := fun g => if g ∈ addrs then default else s.rd g
    recs := fun g => if g ∈ addrs then default else s.recs g
    rtt := fun g => if g ∈ addrs then (fun _ => 0#64) else s.rtt g
    apt := fun g => if g ∈ addrs then default else s.apt g }

theorem setStates_nil (s : State) (st : GranuleState) : s.setStates [] st = s := by
  simp [setStates]

theorem setStates_cons (s : State) (a : Word) (addrs : List Word) (st : GranuleState) :
    (s.setState a st).setStates addrs st = s.setStates (a :: addrs) st := by
  unfold setStates setState
  congr 1
  funext g
  by_cases hg : g = a
  · subst hg
    simp
  · simp [hg]

theorem memzeros_nil (s : State) : s.memzeros [] = s := by simp [memzeros]

theorem update_if_mem {β : Type} (f : Word → β) (a : Word) (addrs : List Word) (b : β) :
    (fun g => if g ∈ addrs then b else Function.update f a b g) =
      fun g => if g ∈ a :: addrs then b else f g := by
  funext g
  by_cases hg : g = a
  · subst hg
    simp
  · simp [hg]

theorem memzeros_cons (s : State) (a : Word) (addrs : List Word) :
    (s.memzero a).memzeros addrs = s.memzeros (a :: addrs) := by
  unfold memzeros memzero
  simp only [update_if_mem]

theorem memzeros_setState (s : State) (a : Word) (addrs : List Word) (st : GranuleState) :
    (s.setState a st).memzeros addrs = (s.memzeros addrs).setState a st := rfl

end State

theorem unlockTransitions_sat {st : GranuleState} {α : Type} {k : State → Rmm α}
    {Q : α → Prop}
    {E : Fault → Prop} (hE : E .unlockInvariant) (addrs : List Word) {s : State}
    (hk : Sat (k (s.setStates addrs st)) Q E) :
    Sat (unlockTransitions s addrs st >>= k) Q E := by
  unfold unlockTransitions
  induction addrs generalizing s with
  | nil =>
    rw [State.setStates_nil] at hk
    exact hk
  | cons a rest ih =>
    rw [List.foldlM_cons, bind_assoc]
    refine granuleUnlockTransition_sat hE (ih ?_)
    rwa [State.setStates_cons]

theorem freeGranules_sat {expected : GranuleState} {scrub : Bool}
    {α : Type} {k : State → Rmm α} {Q : α → Prop} {E : Fault → Prop}
    (hE : E .unlockInvariant)
    (hE' : E .lockState) (addrs : List Word) {s : State}
    (hk : (∀ a ∈ addrs, (s.granule a).state = expected) →
      Sat (k ((if scrub then s.memzeros addrs else s).setStates addrs .DELEGATED)) Q E) :
    Sat (freeGranules s addrs expected scrub >>= k) Q E := by
  unfold freeGranules
  induction addrs generalizing s with
  | nil =>
    have h0 : (if scrub then s.memzeros [] else s).setStates [] .DELEGATED = s := by
      rw [State.setStates_nil, State.memzeros_nil, ite_self]
    rw [h0] at hk
    exact hk (by simp)
  | cons a rest ih =>
    rw [List.foldlM_cons]
    simp only [bind_assoc]
    refine assertThat_sat (fun _ => hE') fun hlock => ?_
    rw [beq_iff_eq] at hlock
    refine granuleUnlockTransition_sat hE (ih fun hrest => ?_)
    have hstate : ∀ x ∈ a :: rest, (s.granule x).state = expected := by
      intro x hx
      rcases List.mem_cons.mp hx with rfl | hx
      · exact hlock
      · have := hrest x hx
        by_cases hxa : x = a
        · rw [hxa]
          exact hlock
        · have hg : (((if scrub = true then s.memzero a else s).setState a .DELEGATED).granule x) =
              s.granule x := by
            cases scrub <;> exact Function.update_of_ne hxa _ _
          rwa [hg] at this
    have := hk hstate
    rw [← State.setStates_cons] at this
    cases scrub with
    | false => exact this
    | true =>
      simp only [if_true] at this ⊢
      rw [State.memzeros_setState, State.memzeros_cons]
      exact this

/-- What the check of the starting level says about levels and sizes. -/
theorem validateIpaBitsAndSl_geometry {plat : Platform} {ipaBits : ℕ} {sl : ℤ} {lpa2 : Bool}
    (h : validateIpaBitsAndSl plat ipaBits sl lpa2 = true) :
    -1 ≤ sl ∧ sl ≤ 2 ∧ ipaBits ≤ s2tteOaBits lpa2 ∧ levelLsb sl + 1 ≤ ipaBits ∧
      ipaBits ≤ levelLsb sl + 13 ∧ (sl = -1 → ipaBits ≤ levelLsb sl + 4) := by
  cases lpa2 <;>
    simp [validateIpaBitsAndSl, s2InconsistentSl, s2ttMinStartingLevelLpa2, s2ttMinStartingLevel,
      s2ttPageLevel] at h <;>
    simp only [s2tteOaBits, levelLsb, if_true, if_false, Bool.false_eq_true] <;>
    obtain ⟨⟨h1, h2⟩, ⟨h3, h4⟩, -, h5, h6⟩ := h <;>
    split at h6 <;> (try split at h6) <;> omega

/-- What the parameter checks say about levels and sizes. -/
theorem realmParamsValid_geometry {plat : Platform} {p : RealmParams}
    (h : realmParamsValid plat p = true) :
    validateIpaBitsAndSl plat p.s2sz p.rttLevelStart p.lpa2 = true ∧
      p.rttNumStart = s2NumRootRtts p.s2sz p.rttLevelStart := by
  simp only [realmParamsValid, Bool.and_eq_true] at h
  obtain ⟨⟨⟨-, hsl⟩, hnum⟩, -⟩ := h
  exact ⟨hsl, (beq_iff_eq.mp hnum).symm⟩

theorem s2NumRootRtts_roots {ipaBits : ℕ} {sl : ℤ} (h : ipaBits ≤ levelLsb sl + 13) :
    (∀ j, j * 2 ^ (levelLsb sl + 9) < 2 ^ ipaBits ↔ j < s2NumRootRtts ipaBits sl) ∧
      s2NumRootRtts ipaBits sl ≤ 16 := by
  have hb : (3 - sl).toNat * 9 + 12 + 9 = levelLsb sl + 9 := rfl
  simp only [s2NumRootRtts, hb]
  split
  case isTrue hle =>
    refine ⟨fun j => ?_, by omega⟩
    have hpow : 2 ^ ipaBits ≤ 2 ^ (levelLsb sl + 9) := Nat.pow_le_pow_right (by omega) hle
    constructor
    · intro hj
      by_contra hc
      have := Nat.le_mul_of_pos_left (2 ^ (levelLsb sl + 9)) (show 0 < j by omega)
      omega
    · intro hj
      obtain rfl : j = 0 := by omega
      simp
  case isFalse hgt =>
    have hsplit : 2 ^ ipaBits = 2 ^ (ipaBits - (levelLsb sl + 9)) * 2 ^ (levelLsb sl + 9) := by
      rw [← pow_add]
      congr 1
      omega
    refine ⟨fun j => ?_, ?_⟩
    · rw [hsplit]
      exact Nat.mul_lt_mul_right (Nat.two_pow_pos _)
    · calc 2 ^ (ipaBits - (levelLsb sl + 9)) ≤ 2 ^ 4 :=
        Nat.pow_le_pow_right (by omega) (by omega)
        _ = 16 := rfl

/-- The context that `smc_realm_create` builds. -/
def paramsCtx (plat : Platform) (p : RealmParams) : S2ttContext :=
  ⟨p.s2sz, p.rttLevelStart, p.rttNumStart, p.rttBase, p.vmid, p.lpa2, plat.opencca⟩

theorem ctxOk_of_valid {plat : Platform} {p : RealmParams} (h : realmParamsValid plat p = true) :
    CtxOk (paramsCtx plat p) ∧ p.rttNumStart ≤ 16 := by
  obtain ⟨hsl, h7⟩ := realmParamsValid_geometry h
  obtain ⟨h1, h2, h3, h4, h5, -⟩ := validateIpaBitsAndSl_geometry hsl
  obtain ⟨hroots, hle⟩ := s2NumRootRtts_roots h5
  rw [← h7] at hroots hle
  exact ⟨⟨h1, h2, h3, h4, hroots⟩, hle⟩

/-- Few root tables in a row have different addresses. -/
theorem rootTable_inj {ctx : S2ttContext} {j k : ℕ} (hj : j < 16) (hk : k < 16)
    (h : rootTable ctx j = rootTable ctx k) : j = k := by
  have h' : (BitVec.ofNat 64 (j * granuleSize) : Word) = BitVec.ofNat 64 (k * granuleSize) := by
    unfold rootTable at h
    simpa using h
  have := congrArg BitVec.toNat h'
  simp only [BitVec.toNat_ofNat, granuleSize] at this
  omega

theorem mem_rootTables {ctx : S2ttContext} {g : Word} :
    g ∈ rootTables ctx ↔ ∃ k < ctx.numRootRtts, rootTable ctx k = g := by
  simp [rootTables]

/-- The root table `k` of a new realm. -/
def rootNode (rd : Word) (ctx : S2ttContext) (k : ℕ) : Table :=
  let m : Table := ⟨rd, (3 - ctx.s2StartingLevel).toNat,
    k * rttShape.span ((3 - ctx.s2StartingLevel).toNat + 1), fun _ => .unassignedNs⟩
  { m with slot := rootEntry ctx m }

/-- The forest with the root tables of a new realm. -/
def plantTables (F : Tables) (rd : Word) (ctx : S2ttContext) : Tables := fun g =>
  match (List.range ctx.numRootRtts).find? fun k => decide (g = rootTable ctx k) with
  | some k => some (rootNode rd ctx k)
  | none => F g

theorem plantTables_root (F : Tables) (rd : Word) {ctx : S2ttContext} (h16 : ctx.numRootRtts ≤ 16)
    {k : ℕ} (hk : k < ctx.numRootRtts) :
    plantTables F rd ctx (rootTable ctx k) = some (rootNode rd ctx k) := by
  unfold plantTables
  cases hf : (List.range ctx.numRootRtts).find? fun j =>
    decide (rootTable ctx k = rootTable ctx j) with
  | none =>
    have := List.find?_eq_none.mp hf k (List.mem_range.mpr hk)
    simp at this
  | some j =>
    have hj := List.mem_range.mp (List.mem_of_find?_eq_some hf)
    have he : rootTable ctx k = rootTable ctx j := by simpa using List.find?_some hf
    rw [rootTable_inj (by omega) (by omega) he]

theorem plantTables_other {F : Tables} {rd : Word} {ctx : S2ttContext} {g : Word}
    (hg : g ∉ rootTables ctx) : plantTables F rd ctx g = F g := by
  unfold plantTables
  cases hf : (List.range ctx.numRootRtts).find? fun j => decide (g = rootTable ctx j) with
  | none => rfl
  | some j =>
    have hj := List.mem_range.mp (List.mem_of_find?_eq_some hf)
    have he : g = rootTable ctx j := by simpa using List.find?_some hf
    exact absurd (mem_rootTables.mpr ⟨j, hj, he.symm⟩) hg

/-- The loop over the root tables writes each of them once. -/
theorem startingLevel_foldl (s : State) (rd : Rd) (n : ℕ) (hn : n ≤ 16) :
    ∃ tbl, (List.range n).foldl (fun s k => s.setTable (rootTable rd.s2Ctx k)
        (startingLevelTable rd (s.rtt (rootTable rd.s2Ctx k)) k)) s = { s with rtt := tbl } ∧
      (∀ k < n, tbl (rootTable rd.s2Ctx k) =
        startingLevelTable rd (s.rtt (rootTable rd.s2Ctx k)) k) ∧
      ∀ g, (∀ k < n, g ≠ rootTable rd.s2Ctx k) → tbl g = s.rtt g := by
  induction n with
  | zero => exact ⟨s.rtt, rfl, by omega, fun _ _ => rfl⟩
  | succ n ih =>
    obtain ⟨tbl, htbl, hroot, hother⟩ := ih (by omega)
    have hne : ∀ k < n, rootTable rd.s2Ctx n ≠ rootTable rd.s2Ctx k := fun k hk hc => by
      have := rootTable_inj (by omega) (by omega) hc
      omega
    rw [List.range_succ, List.foldl_append, htbl]
    refine ⟨Function.update tbl (rootTable rd.s2Ctx n) (startingLevelTable rd
      (tbl (rootTable rd.s2Ctx n)) n), rfl, fun k hk => ?_, fun g hg => ?_⟩
    · by_cases hkn : k = n
      · rw [hkn, Function.update_self, hother _ hne]
      · rw [Function.update_of_ne (hne k (by omega)).symm, hroot k (by omega)]
    · rw [Function.update_of_ne (hg n (by omega)), hother g fun k hk => hg k (by omega)]

/-- What creating a realm leaves behind, in the terms of the state. -/
structure Planted (s : State) (rdAddr : Word) (ctx : S2ttContext) (s' : State) : Prop where
  ctxOk : CtxOk ctx
  few : ctx.numRootRtts ≤ 16
  apart : rdAddr ∉ rootTables ctx
  fresh : ∀ g, g = rdAddr ∨ g ∈ rootTables ctx → (s.granule g).state = .DELEGATED
  rdGranule : s'.granule rdAddr = ⟨.RD, 0⟩
  rootGranule : ∀ g ∈ rootTables ctx, s'.granule g = ⟨.RTT, 0⟩
  granule : ∀ g, g ≠ rdAddr → g ∉ rootTables ctx → s'.granule g = s.granule g
  rd : s'.rd = Function.update s.rd rdAddr ⟨.NEW, 0, ctx, maxRecAuxGranules, 0#64⟩
  table : ∀ k < ctx.numRootRtts, ∀ i < 512, s'.rtt (rootTable ctx k) i =
    ((rootNode rdAddr ctx k).slot i).word ctx ctx.s2StartingLevel
  rtt : ∀ g, g ∉ rootTables ctx → s'.rtt g = s.rtt g
  recs : s'.recs = s.recs
  apt : s'.apt = s.apt
  tags : s'.tags = s.tags
  csmIds : s'.csmIds = s.csmIds
  tlb : s'.tlb = s.tlb
  vmidFree : s.vmids ctx.vmid = false
  vmids : s'.vmids = Function.update s.vmids ctx.vmid true

theorem rootNode_refs (rd : Word) (ctx : S2ttContext) (k i : ℕ) :
    ((rootNode rd ctx k).slot i).refs = 0 ∧ ((rootNode rd ctx k).slot i).link = none ∧
      ∀ level, ((rootNode rd ctx k).slot i).Valid ctx level := by
  simp only [rootNode, rootEntry]
  split
  · exact ⟨rfl, rfl, fun _ => trivial⟩
  · exact ⟨rfl, rfl, fun _ => trivial⟩

namespace Planted

variable {s s' : State} {F : Tables} {rdAddr : Word} {ctx : S2ttContext}

theorem state_iff (p : Planted s rdAddr ctx s') {st : GranuleState} (h1 : st ≠ .RD)
    (h2 : st ≠ .RTT)
    (h3 : st ≠ .DELEGATED) (g : Word) : (s'.granule g).state = st ↔
    (s.granule g).state = st := by
  by_cases hg : g = rdAddr
  · subst hg
    rw [p.rdGranule, p.fresh g (.inl rfl)]
    exact ⟨fun h => absurd h.symm h1, fun h => absurd h.symm h3⟩
  by_cases hr : g ∈ rootTables ctx
  · rw [p.rootGranule g hr, p.fresh g (.inr hr)]
    exact ⟨fun h => absurd h.symm h2, fun h => absurd h.symm h3⟩
  · rw [p.granule g hg hr]

theorem isRd (p : Planted s rdAddr ctx s') (g : Word) :
    (s'.granule g).state = .RD ↔ (s.granule g).state = .RD ∨ g = rdAddr := by
  by_cases hg : g = rdAddr
  · subst hg
    simp [p.rdGranule]
  by_cases hr : g ∈ rootTables ctx
  · simp [p.rootGranule g hr, p.fresh g (.inr hr), hg]
  · simp [p.granule g hg hr, hg]

theorem rd_of_ne (p : Planted s rdAddr ctx s') {g : Word} (hg : (s.granule g).state = .RD) :
    s'.rd g = s.rd g := by
  rw [p.rd, Function.update_of_ne]
  rintro rfl
  rw [p.fresh g (.inl rfl)] at hg
  cases hg

theorem rd_self (p : Planted s rdAddr ctx s') :
    s'.rd rdAddr = ⟨.NEW, 0, ctx, maxRecAuxGranules, 0#64⟩ := by
  rw [p.rd, Function.update_self]

theorem forest_fresh (h : Holds s F) (p : Planted s rdAddr ctx s') {g : Word}
    (hg : g ∈ rootTables ctx) : F g = none := by
  cases hF : F g with
  | none => rfl
  | some n =>
    have := (h.node hF).1
    rw [p.fresh g (.inr hg)] at this
    cases this

theorem plot (p : Planted s rdAddr ctx s') : plotOf s' = Function.update (plotOf s) rdAddr
    (some ⟨(3 - ctx.s2StartingLevel).toNat, 2 ^ ctx.ipaBits, rootTable ctx⟩) := by
  funext g
  by_cases hg : g = rdAddr
  · subst hg
    rw [Function.update_self, plotOf, if_pos (by rw [p.rdGranule]), p.rd_self]
  · rw [Function.update_of_ne hg, plotOf, plotOf]
    by_cases hs : (s.granule g).state = .RD
    · rw [if_pos hs, if_pos ((p.isRd g).mpr (.inl hs)), p.rd_of_ne hs]
    · rw [if_neg hs, if_neg]
      rw [p.isRd]
      exact not_or.mpr ⟨hs, hg⟩

theorem holds (h : Holds s F) (p : Planted s rdAddr ctx s') :
    Holds s' (plantTables F rdAddr ctx) := by
  have hroots := p.ctxOk.roots
  have hspan := span_top ctx
  refine ⟨?_, ?_, ?_, ?_⟩
  · intro g
    by_cases hr : g ∈ rootTables ctx
    · obtain ⟨k, hk, rfl⟩ := mem_rootTables.mp hr
      simp [p.rootGranule _ hr, plantTables_root F rdAddr p.few hk]
    · rw [plantTables_other hr, ← h.rtt_iff]
      by_cases hg : g = rdAddr
      · subst hg
        simp [p.rdGranule, p.fresh g (.inl rfl)]
      · rw [p.granule g hg hr]
  · rw [p.plot]
    refine h.ok.plant (fun k => (rootNode rdAddr ctx k).slot) ?_ ?_ ?_ ?_
    · rw [plotOf, if_neg]
      rw [p.fresh rdAddr (.inl rfl)]
      decide
    · intro j hj
      rw [hspan, hroots] at hj
      exact ⟨p.forest_fresh h (mem_rootTables.mpr ⟨j, hj, rfl⟩),
        plantTables_root F rdAddr p.few hj⟩
    · intro g hg
      apply plantTables_other
      rw [mem_rootTables]
      rintro ⟨k, hk, rfl⟩
      exact hg k (by rw [hspan, hroots]; exact hk) rfl
    · exact fun j _ i _ => (rootNode_refs rdAddr ctx j i).2.1
  · intro g hg
    rcases (p.isRd g).mp hg with hg | rfl
    · rw [p.rd_of_ne hg]
      exact h.ctx g hg
    · rw [p.rd_self]
      exact p.ctxOk
  · intro t m ht i hi
    by_cases hr : t ∈ rootTables ctx
    · obtain ⟨k, hk, rfl⟩ := mem_rootTables.mp hr
      rw [plantTables_root F rdAddr p.few hk] at ht
      cases ht
      have hown : (rootNode rdAddr ctx k).owner = rdAddr := rfl
      have hlev : levelOf (rootNode rdAddr ctx k).height = ctx.s2StartingLevel :=
        p.ctxOk.levelOf_top
      rw [hown, hlev, p.rd_self]
      exact ⟨(rootNode_refs rdAddr ctx k i).2.2 _, p.table k hk i hi⟩
    · rw [plantTables_other hr] at ht
      rw [p.rtt t hr, p.rd_of_ne (h.node ht).2.1]
      exact h.word t m ht i hi

theorem wf (h : Wf s F) (p : Planted s rdAddr ctx s') : Wf s' (plantTables F rdAddr ctx) where
  holds := p.holds h.holds
  counts := by
    intro t m ht
    by_cases hr : t ∈ rootTables ctx
    · obtain ⟨k, hk, rfl⟩ := mem_rootTables.mp hr
      rw [plantTables_root F rdAddr p.few hk] at ht
      cases ht
      rw [liveCount_const fun i _ => (rootNode_refs rdAddr ctx k i).1]
      omega
    · rw [plantTables_other hr] at ht
      have hne : t ≠ rdAddr := by
        rintro rfl
        have := (h.holds.node ht).1
        rw [p.fresh t (.inl rfl)] at this
        cases this
      rw [p.granule t hne hr]
      exact h.counts t m ht
  plain := by
    intro g hg
    by_cases hrd : g = rdAddr
    · rw [hrd, p.rdGranule] at hg
      cases hg
    by_cases hr : g ∈ rootTables ctx
    · rw [p.rootGranule g hr] at hg
      cases hg
    · rw [p.granule g hrd hr] at hg ⊢
      exact h.plain g hg
  zero := by
    intro g hg
    by_cases hrd : g = rdAddr
    · rw [hrd, p.rdGranule] at hg
      cases hg
    by_cases hr : g ∈ rootTables ctx
    · rw [p.rootGranule g hr] at hg
      cases hg
    · rw [p.granule g hrd hr] at hg
      rw [p.rd, Function.update_of_ne hrd, p.recs, p.apt]
      exact h.zero g hg
  scrubbed := by
    intro g hg
    by_cases hrd : g = rdAddr
    · rw [hrd, p.rdGranule] at hg
      cases hg
    by_cases hr : g ∈ rootTables ctx
    · rw [p.rootGranule g hr] at hg
      cases hg
    · rw [p.granule g hrd hr] at hg
      rw [p.rtt g hr]
      exact h.scrubbed g hg
  vmid := by
    intro g hg
    rw [p.vmids]
    rcases (p.isRd g).mp hg with hg | rfl
    · rw [p.rd_of_ne hg, Function.update_apply, h.vmid g hg, ite_self]
    · rw [p.rd_self, Function.update_self]
  vmid_inj := by
    have old : ∀ g, (s.granule g).state = .RD → (s.rd g).s2Ctx.vmid ≠ ctx.vmid := by
      intro g hg hc
      have := h.vmid g hg
      rw [hc, p.vmidFree] at this
      cases this
    intro a b ha hb heq
    rcases (p.isRd a).mp ha with ha | rfl <;> rcases (p.isRd b).mp hb with hb | rfl
    · rw [p.rd_of_ne ha, p.rd_of_ne hb] at heq
      exact h.vmid_inj a b ha hb heq
    · rw [p.rd_of_ne ha, p.rd_self] at heq
      exact absurd heq (old a ha)
    · rw [p.rd_self, p.rd_of_ne hb] at heq
      exact absurd heq.symm (old b hb)
    · rfl
  recRd := by
    intro r hr
    have hr' := (p.state_iff (by decide) (by decide) (by decide) r).mp hr
    rw [p.recs, p.isRd]
    exact .inl (h.recRd r hr')
  recCount := by
    intro g hg
    have hiff : ∀ r, (s'.granule r).state = .REC ∧ (s'.recs r).gRd = g ↔
        (s.granule r).state = .REC ∧ (s.recs r).gRd = g := by
      intro r
      rw [p.state_iff (by decide) (by decide) (by decide), p.recs]
    rcases (p.isRd g).mp hg with hg' | rfl
    · obtain ⟨R, hR, hcard⟩ := h.recCount g hg'
      have hne : g ≠ rdAddr := by
        rintro rfl
        rw [p.fresh g (.inl rfl)] at hg'
        cases hg'
      have hnr : g ∉ rootTables ctx := by
        intro hr
        rw [p.fresh g (.inr hr)] at hg'
        cases hg'
      exact ⟨R, fun r => (hR r).trans (hiff r).symm, by rwa [p.granule g hne hnr]⟩
    · -- no REC can name a granule that was not an RD
      refine ⟨∅, fun r => ?_, by rw [p.rdGranule]; rfl⟩
      rw [hiff]
      simp only [Finset.notMem_empty, false_iff]
      rintro ⟨hr, hc⟩
      have := h.recRd r hr
      rw [hc, p.fresh g (.inl rfl)] at this
      cases this

theorem step (h : Wf s F) (p : Planted s rdAddr ctx s') :
    PlantStep s F rdAddr s' (plantTables F rdAddr ctx) where
  fresh := p.fresh rdAddr (.inl rfl)
  isRd := p.isRd
  ctx g hg := by rw [p.rd_of_ne hg]
  nodes t m ht := by
    by_cases hr : t ∈ rootTables ctx
    · obtain ⟨k, hk, rfl⟩ := mem_rootTables.mp hr
      rw [plantTables_root F rdAddr p.few hk] at ht
      cases ht
      exact .inr ⟨rfl, by rw [p.rootGranule _ hr], fun i _ => by rw [p.rd_self]; rfl⟩
    · rw [plantTables_other hr] at ht
      exact .inl ht
  old t m ht := by
    have hst := (h.holds.node ht).1
    have hr : t ∉ rootTables ctx := by
      intro hr
      rw [p.fresh t (.inr hr)] at hst
      cases hst
    refine ⟨by rw [plantTables_other hr, ht], p.granule t ?_ hr⟩
    rintro rfl
    rw [p.fresh t (.inl rfl)] at hst
    cases hst
  data := p.state_iff (by decide) (by decide) (by decide)
  tlb := p.tlb
  vmidFree := by rw [p.rd_self]; exact p.vmidFree
  vmids v hv := by rw [p.vmids, Function.update_apply, hv, ite_self]

end Planted

theorem startingEntry_word (ctx : S2ttContext) (level : ℤ) (x size : ℕ) :
    (if x < size then (if x < size / 2 then s2tteCreateUnassignedEmpty else s2tteCreateUnassignedNs)
      else 0#64) =
      (if x < size ∧ ¬ x < size / 2 then Entry.unassignedNs else .unassigned .EMPTY).word
        ctx level := by
  by_cases h1 : x < size
  · by_cases h2 : x < size / 2
    · rw [if_pos h1, if_pos h2, if_neg (fun h => h.2 h2)]
      rfl
    · rw [if_pos h1, if_neg h2, if_pos ⟨h1, h2⟩]
      rfl
  · rw [if_neg h1, if_neg (fun h => h1 h.1)]
    rfl

/-- The words with which the root tables are filled. -/
theorem startingLevelTable_word {rd : Rd} {rdAddr : Word} (hctx : CtxOk rd.s2Ctx)
    (h16 : rd.s2Ctx.s2StartingLevel = -1 →
      rd.s2Ctx.ipaBits ≤ levelLsb rd.s2Ctx.s2StartingLevel + 4)
    {k i : ℕ} (hk : k < rd.s2Ctx.numRootRtts) (hi : i < 512) :
    startingLevelTable rd (fun _ => 0#64) k i =
      ((rootNode rdAddr rd.s2Ctx k).slot i).word rd.s2Ctx rd.s2Ctx.s2StartingLevel := by
  set ctx := rd.s2Ctx with hc
  have hspan : rttShape.span (3 - ctx.s2StartingLevel).toNat =
      s2tteMapSize ctx.s2StartingLevel := by
    rw [rttShape_span, hctx.levelOf_top]
  have hnext := rttShape.span_succ (3 - ctx.s2StartingLevel).toNat
  have hfan : rttShape.fan = 512 := rfl
  have hbase : (rootNode rdAddr ctx k).slotBase rttShape i =
      (k * 512 + i) * s2tteMapSize ctx.s2StartingLevel := by
    simp only [Node.slotBase, rootNode]
    rw [hnext, hfan, hspan]
    ring
  have hslot : (rootNode rdAddr ctx k).slot i =
      if (k * 512 + i) * s2tteMapSize ctx.s2StartingLevel < 2 ^ ctx.ipaBits ∧
        ¬ (k * 512 + i) * s2tteMapSize ctx.s2StartingLevel < 2 ^ ctx.ipaBits / 2 then
        .unassignedNs else .unassigned .EMPTY := by
    rw [← hbase]
    rfl
  unfold startingLevelTable realmIpaSize realmParSize
  simp only [← hc]
  by_cases hm : ctx.s2StartingLevel = s2ttMinStartingLevelLpa2
  · -- a single root table with sixteen entries
    have hsz := h16 hm
    have hk0 : k = 0 := by
      have h1 := (hctx.roots k).mpr hk
      by_contra hne
      have h2 : 2 ^ ctx.ipaBits ≤ 2 ^ (levelLsb ctx.s2StartingLevel + 9) :=
        Nat.pow_le_pow_right (by omega) (by omega)
      have h3 := Nat.le_mul_of_pos_left (2 ^ (levelLsb ctx.s2StartingLevel + 9))
        (show 0 < k by omega)
      omega
    subst hk0
    rw [if_pos hm, hslot]
    simp only [Nat.zero_mul, Nat.zero_add]
    by_cases hi16 : i < s2ttesPerS2ttLm1
    · simp only [hi16, true_and]
      exact startingEntry_word ctx _ _ _
    · have hbig : ¬ i * s2tteMapSize ctx.s2StartingLevel < 2 ^ ctx.ipaBits := by
        unfold s2ttesPerS2ttLm1 at hi16
        have h1 : 2 ^ ctx.ipaBits ≤ 2 ^ (levelLsb ctx.s2StartingLevel + 4) :=
          Nat.pow_le_pow_right (by omega) hsz
        have h2 : 16 * 2 ^ levelLsb ctx.s2StartingLevel ≤ i * 2 ^ levelLsb ctx.s2StartingLevel :=
          Nat.mul_le_mul_right _ (by omega)
        have h3 : 2 ^ (levelLsb ctx.s2StartingLevel + 4) =
            16 * 2 ^ levelLsb ctx.s2StartingLevel := by
          rw [pow_add]
          ring
        unfold s2tteMapSize
        omega
      rw [if_neg (fun hx => hi16 hx.1), if_neg (fun hx => hbig hx.1)]
      rfl
  · rw [if_neg hm, hslot]
    have hi' : i < s2ttesPerS2tt := hi
    simp only [hi', true_and]
    exact startingEntry_word ctx _ _ _

/-- Reserving a VMID succeeds on a free one. -/
theorem vmidReserve_some {plat : Platform} {s s1 : State} {vmid : ℕ}
    (h : vmidReserve plat s vmid = some s1) :
    vmid < vmidCount plat ∧ s.vmids vmid = false ∧
      s1 = { s with vmids := Function.update s.vmids vmid true } := by
  unfold vmidReserve at h
  split at h
  case isTrue => cases h
  case isFalse hcount =>
    split at h
    case isTrue => cases h
    case isFalse hf =>
      cases h
      exact ⟨Nat.lt_of_not_le hcount, by simpa using hf, rfl⟩

/-- The RD is not one of the root tables. -/
theorem not_mem_rootTables {plat : Platform} {p : RealmParams} {rdAddr : Word}
    (h16 : p.rttNumStart ≤ 16) (hg : ∀ a ∈ rootTables (paramsCtx plat p),
      findGranule plat a = true)
    (hc : addrIsContained p.rttBase (p.rttBase +
      BitVec.ofNat 64 (p.rttNumStart * granuleSize)) rdAddr
      = false) : rdAddr ∉ rootTables (paramsCtx plat p) := by
  intro hm
  obtain ⟨k, hk, rfl⟩ := mem_rootTables.mp hm
  have hk' : k < p.rttNumStart := hk
  have hbase : findGranule plat p.rttBase = true := by
    have := hg (rootTable (paramsCtx plat p) 0) (mem_rootTables.mpr ⟨0, by omega, rfl⟩)
    simpa [rootTable, paramsCtx] using this
  rw [findGranule, Bool.and_eq_true] at hbase
  have hlt := plat.isGranule_lt _ hbase.2
  have hroot : (rootTable (paramsCtx plat p) k).toNat = p.rttBase.toNat + k * 4096 := by
    simp only [rootTable, paramsCtx, BitVec.toNat_add, BitVec.toNat_ofNat, granuleSize]
    omega
  have hend : (p.rttBase + BitVec.ofNat 64 (p.rttNumStart * granuleSize) - 1#64).toNat =
      p.rttBase.toNat + p.rttNumStart * 4096 - 1 := by
    simp only [BitVec.toNat_sub, BitVec.toNat_add, BitVec.toNat_ofNat, granuleSize]
    omega
  unfold addrIsContained at hc
  simp only [BitVec.lt_def, BitVec.le_def, hend, hroot] at hc
  rw [if_neg (by omega), Bool.and_eq_false_iff, decide_eq_false_iff_not,
    decide_eq_false_iff_not] at hc
  omega

theorem planted_mk {plat : Platform} {s : State} {F : Tables} (h : Wf s F) {p : RealmParams}
    {rdAddr : Word} {tbl : Word → ℕ → Word} (hvalid : realmParamsValid plat p = true)
    (hfree : s.vmids p.vmid = false)
    (hlock : ∀ a, a = rdAddr ∨ a ∈ rootTables (paramsCtx plat p) →
    (s.granule a).state = .DELEGATED)
    (hapart : rdAddr ∉ rootTables (paramsCtx plat p))
    (hroot : ∀ k < p.rttNumStart, ∀ i < 512, tbl (rootTable (paramsCtx plat p) k) i =
      ((rootNode rdAddr (paramsCtx plat p) k).slot i).word (paramsCtx plat p) p.rttLevelStart)
    (hother : ∀ g, g ∉ rootTables (paramsCtx plat p) → tbl g = s.rtt g) :
    Planted s rdAddr (paramsCtx plat p) (({ s with
      vmids := Function.update s.vmids p.vmid true
      rd := Function.update s.rd rdAddr ⟨.NEW, 0, paramsCtx plat p, maxRecAuxGranules, 0#64⟩
      rtt := tbl }.setState rdAddr .RD).setStates (rootTables (paramsCtx plat p)) .RTT) := by
  obtain ⟨hctx, h16⟩ := ctxOk_of_valid hvalid
  have hplain := fun a ha => h.plain a (by rw [hlock a ha]; rfl)
  refine ⟨hctx, h16, hapart, hlock, ?_, fun g hg => ?_, fun g hg hr => ?_, rfl, hroot,
    hother, rfl, rfl,
    rfl, rfl, rfl, hfree, rfl⟩
  · show (if rdAddr ∈ rootTables (paramsCtx plat p) then _ else
      Function.update s.granule rdAddr ⟨.RD, (s.granule rdAddr).refcount⟩ rdAddr) = _
    rw [if_neg hapart, Function.update_self, hplain rdAddr (.inl rfl)]
  · have hne : g ≠ rdAddr := by
      rintro rfl
      exact hapart hg
    show (if g ∈ rootTables (paramsCtx plat p) then
      (⟨.RTT, (Function.update s.granule rdAddr _ g).refcount⟩ : Granule) else _) = _
    rw [if_pos hg, Function.update_of_ne hne, hplain g (.inr hg)]
  · show (if g ∈ rootTables (paramsCtx plat p) then _ else
        Function.update s.granule rdAddr _ g) = _
    rw [if_neg hr, Function.update_of_ne hg]

/-- The VMID that was reserved is given back. -/
theorem vmidFree_reserved {plat : Platform} {s s1 : State} {vmid : ℕ}
    (h : vmidReserve plat s vmid = some s1) : vmidFree plat s1 vmid = .ok s := by
  obtain ⟨hlt, hfree, rfl⟩ := vmidReserve_some h
  have hback : Function.update (Function.update s.vmids vmid true) vmid false = s.vmids := by
    rw [Function.update_idem, ← hfree, Function.update_eq_self]
  simp [vmidFree, assertThat, hlt, hback, bind, Except.bind, pure, Except.pure]

/-- What `smc_realm_create` does: nothing, or a new realm with its root tables. -/
def RealmCreated (s : State) (rdAddr : Word) (s' : State) (ret : ReturnCode) : Prop :=
  (s' = s ∧ ret ≠ rmiSuccess) ∨ (ret = rmiSuccess ∧ ∃ ctx, Planted s rdAddr ctx s')

theorem smcRealmCreate_sat {plat : Platform} {s : State} {F : Tables} (h : Wf s F)
    (rdAddr paramsAddr : Word) (nsRead : Option RealmParams) :
    Sat (smcRealmCreate plat s rdAddr paramsAddr nsRead)
      (fun res => RealmCreated s rdAddr res.1 res.2.ret) Benign := by
  have idle : RealmCreated s rdAddr s (smcRet rmiErrorInput).ret := .inl ⟨rfl, by decide⟩
  unfold smcRealmCreate
  refine Sat.ite (fun _ => Sat.pure idle) fun _ => ?_
  cases nsRead with
  | none => exact Sat.pure idle
  | some p =>
    refine Sat.ite (fun _ => Sat.pure idle) fun hvalid => ?_
    have hvalid' : realmParamsValid plat p = true := by simpa using hvalid
    obtain ⟨hctx, h16⟩ := ctxOk_of_valid hvalid'
    cases hres : vmidReserve plat s p.vmid with
    | none => exact Sat.pure idle
    | some s1 =>
      have hback := vmidFree_reserved hres
      obtain ⟨-, hfree, rfl⟩ := vmidReserve_some hres
      refine Sat.ite (fun _ => ?_) fun hok => ?_
      · rw [hback]
        exact Sat.ok_bind (Sat.pure idle)
      · rw [Bool.or_eq_true, not_or, Bool.not_eq_true, Bool.not_eq_true', Bool.not_eq_false,
          List.all_eq_true] at hok
        obtain ⟨hcont, hlocked⟩ := hok
        have hlock : ∀ a, a = rdAddr ∨ a ∈ rootTables (paramsCtx plat p) →
            findGranule plat a = true ∧ (s.granule a).state = .DELEGATED := by
          intro a ha
          have := hlocked a (List.mem_cons.mpr ha)
          simpa [Bool.and_eq_true] using this
        unfold initS2StartingLevel
        simp only [bind_assoc]
        refine assertThat_sat (fun _ => by decide) fun _ => ?_
        have hrd0 : s.rd rdAddr = default := 
          (h.zero rdAddr (by rw [(hlock rdAddr (.inl rfl)).2]; rfl)).1
        simp only [hrd0]
        set rd : Rd := ⟨.NEW, 0, paramsCtx plat p, maxRecAuxGranules, 0#64⟩
        obtain ⟨tbl, htbl, hroot, hother⟩ := startingLevel_foldl
          (({ s with vmids := Function.update s.vmids p.vmid true }).setRd rdAddr rd) rd
          p.rttNumStart h16
        refine granuleUnlockTransition_sat (by decide) (unlockTransitions_sat (by decide) _
          (Sat.pure (.inr ⟨rfl, paramsCtx plat p, ?_⟩)))
        have hpl := @planted_mk plat s F h p rdAddr tbl hvalid' hfree (fun a ha => (hlock a ha).2)
          (not_mem_rootTables h16 (fun a ha => (hlock a (.inr ha)).1) hcont)
          (fun k hk i hi => ?_) fun g hg => hother g fun k hk hc =>
            hg (mem_rootTables.mpr ⟨k, hk, hc.symm⟩)
        · exact (congrArg (fun u : State => Planted s rdAddr (paramsCtx plat p)
            ((u.setState rdAddr .RD).setStates (rootTables (paramsCtx plat p)) .RTT)) htbl).mpr hpl
        · have hz : s.rtt (rootTable (paramsCtx plat p) k) = fun _ => 0#64 :=
            h.scrubbed _ (hlock _ (.inr (mem_rootTables.mpr ⟨k, hk, rfl⟩))).2
          have hrt : tbl (rootTable (paramsCtx plat p) k) =
              startingLevelTable rd (s.rtt (rootTable (paramsCtx plat p) k)) k := hroot k hk
          obtain ⟨hsl, -⟩ := realmParamsValid_geometry hvalid'
          obtain ⟨-, -, -, -, -, h6⟩ := validateIpaBitsAndSl_geometry hsl
          rw [hrt, hz]
          exact startingLevelTable_word hctx h6 hk hi

/-- The geometry of a new realm is the one that the host asked for, and its VMID is in
the supported range. -/
theorem smcRealmCreate_params (plat : Platform) (s : State) (rdAddr paramsAddr : Word)
    (nsRead : Option RealmParams) :
    Sat (smcRealmCreate plat s rdAddr paramsAddr nsRead)
      (fun res => res.1.granule = s.granule ∨
        ∃ p, nsRead = some p ∧ (res.1.rd rdAddr).s2Ctx = paramsCtx plat p ∧
          p.vmid < vmidCount plat) Benign := by
  unfold smcRealmCreate
  refine Sat.ite (fun _ => Sat.pure (.inl rfl)) fun _ => ?_
  cases nsRead with
  | none => exact Sat.pure (.inl rfl)
  | some p =>
    refine Sat.ite (fun _ => Sat.pure (.inl rfl)) fun hvalid => ?_
    obtain ⟨-, h16⟩ := ctxOk_of_valid (by simpa using hvalid : realmParamsValid plat p = true)
    cases hres : vmidReserve plat s p.vmid with
    | none => exact Sat.pure (.inl rfl)
    | some s1 =>
      have hback := vmidFree_reserved hres
      obtain ⟨hcount, -, rfl⟩ := vmidReserve_some hres
      refine Sat.ite (fun _ => ?_) fun _ => ?_
      · rw [hback]
        exact Sat.ok_bind (Sat.pure (.inl rfl))
      · unfold initS2StartingLevel
        simp only [bind_assoc]
        refine assertThat_sat (fun _ => by decide) fun _ => ?_
        refine granuleUnlockTransition_sat (by decide) (unlockTransitions_sat (by decide) _
          (Sat.pure (.inr ⟨p, rfl, ?_, hcount⟩)))
        -- the loop over the root tables writes tables only
        set rd : Rd := { s.rd rdAddr with
          state := .NEW, recCount := 0, s2Ctx := paramsCtx plat p, numRecAux := maxRecAuxGranules }
        obtain ⟨tbl, htbl, -, -⟩ := startingLevel_foldl
          (({ s with vmids := Function.update s.vmids p.vmid true }).setRd rdAddr rd) rd
          p.rttNumStart h16
        have hrd := congrArg (fun u : State => (u.rd rdAddr).s2Ctx) htbl
        refine Eq.trans hrd ?_
        simp [State.setRd, rd]

/-- What `smc_realm_activate` does. -/
def RealmActivated (s : State) (rdAddr : Word) (s' : State) : Prop :=
  s' = s ∨ ((s.granule rdAddr).state = .RD ∧ (s.rd rdAddr).state = .NEW ∧
    s' = s.setRd rdAddr { s.rd rdAddr with state := .ACTIVE })

theorem smcRealmActivate_sat (plat : Platform) (s : State) (rdAddr : Word) :
    Sat (smcRealmActivate plat s rdAddr) (fun res => RealmActivated s rdAddr res.1) Benign := by
  unfold smcRealmActivate
  refine findLockGranule_sat (by decide) ?_
  refine Sat.ite (fun _ => Sat.pure (.inl rfl)) fun hr => ?_
  have hrd := lockable_state (by simpa using hr)
  exact Sat.ite (fun hn => Sat.pure (.inr ⟨hrd, hn, rfl⟩)) fun _ => Sat.pure (.inl rfl)

/-- What destroying a realm leaves behind, in the terms of the state. -/
structure Felled (s : State) (rdAddr : Word) (s' : State) : Prop where
  wasRd : (s.granule rdAddr).state = .RD
  unused : (s.granule rdAddr).refcount = 0
  root : ∀ g ∈ rootTables (s.rd rdAddr).s2Ctx, s.granule g = ⟨.RTT, 0⟩
  freed : ∀ g, g = rdAddr ∨ g ∈ rootTables (s.rd rdAddr).s2Ctx →
    s'.granule g = ⟨.DELEGATED, 0⟩ ∧
    s'.rd g = default ∧ s'.recs g = default ∧ s'.rtt g = (fun _ => 0#64) ∧ s'.apt g = default
  other : ∀ g, g ≠ rdAddr → g ∉ rootTables (s.rd rdAddr).s2Ctx →
    s'.granule g = s.granule g ∧
    s'.rd g = s.rd g ∧ s'.recs g = s.recs g ∧ s'.rtt g = s.rtt g ∧ s'.apt g = s.apt g
  tags : s'.tags = s.tags
  csmIds : s'.csmIds = s.csmIds
  tlb : s'.tlb = s.tlb
  vmids : s'.vmids = Function.update s.vmids (s.rd rdAddr).s2Ctx.vmid false

/-- The forest without the tables of a realm. -/
def fellTables (F : Tables) (rd : Word) : Tables := fun g =>
  (F g).bind fun m => if m.owner = rd then none else some m

theorem fellTables_iff (F : Tables) (rd t : Word) (m : Table) :
    fellTables F rd t = some m ↔ F t = some m ∧ m.owner ≠ rd := by
  unfold fellTables
  cases F t with
  | none => simp
  | some m' =>
    by_cases ho : m'.owner = rd
    · simp only [Option.bind_some, ho, if_true]
      constructor
      · rintro ⟨⟩
      · rintro ⟨⟨⟩, hne⟩
        exact absurd ho hne
    · simp only [Option.bind_some, ho, if_false]
      constructor
      · rintro ⟨⟩
        exact ⟨rfl, ho⟩
      · exact fun h => h.1

namespace Felled

variable {s s' : State} {F : Tables} {rdAddr : Word}

/-- The granules that the destruction frees. -/
def Gone (s : State) (rdAddr g : Word) : Prop := g = rdAddr ∨ g ∈ rootTables (s.rd rdAddr).s2Ctx

theorem same (p : Felled s rdAddr s') {g : Word} (hg : ¬ Gone s rdAddr g) :
    s'.granule g = s.granule g ∧ s'.rd g = s.rd g ∧ s'.recs g = s.recs g ∧
      s'.rtt g = s.rtt g ∧
      s'.apt g = s.apt g :=
  p.other g (fun hc => hg (.inl hc)) fun hc => hg (.inr hc)

theorem gone_state (p : Felled s rdAddr s') {g : Word} (hg : Gone s rdAddr g) :
    (s.granule g).state = .RD ∨ (s.granule g).state = .RTT := by
  rcases hg with rfl | hg
  · exact .inl p.wasRd
  · exact .inr (by rw [p.root g hg])

theorem state_iff (p : Felled s rdAddr s') {st : GranuleState} (h1 : st ≠ .RD) (h2 : st ≠ .RTT)
    (h3 : st ≠ .DELEGATED) (g : Word) : (s'.granule g).state = st ↔
    (s.granule g).state = st := by
  by_cases hg : Gone s rdAddr g
  · rw [(p.freed g hg).1]
    refine ⟨fun h => absurd h.symm h3, fun h => ?_⟩
    rcases p.gone_state hg with hs | hs
    · exact absurd (h.symm.trans hs) h1
    · exact absurd (h.symm.trans hs) h2
  · rw [(p.same hg).1]

theorem gone_of_rd (p : Felled s rdAddr s') {g : Word} (hs : (s.granule g).state = .RD) :
    Gone s rdAddr g ↔ g = rdAddr := by
  refine ⟨fun hg => ?_, .inl⟩
  rcases hg with hg | hg
  · exact hg
  · rw [p.root g hg] at hs
    cases hs

theorem isRd (p : Felled s rdAddr s') (g : Word) :
    (s'.granule g).state = .RD ↔ (s.granule g).state = .RD ∧ g ≠ rdAddr := by
  by_cases hg : Gone s rdAddr g
  · rw [(p.freed g hg).1]
    refine ⟨by rintro ⟨⟩, fun ⟨hs, hne⟩ => absurd ((p.gone_of_rd hs).mp hg) hne⟩
  · rw [(p.same hg).1]
    exact ⟨fun h => ⟨h, fun hc => hg (.inl hc)⟩, fun h => h.1⟩

theorem rd_same (p : Felled s rdAddr s') {g : Word} (hs : (s.granule g).state = .RD)
    (hne : g ≠ rdAddr) : s'.rd g = s.rd g :=
  (p.same (mt (p.gone_of_rd hs).mp hne)).2.1

/-- The root tables hold no live protected entry. -/
theorem root_dead (h : Wf s F) (p : Felled s rdAddr s') {g : Word} {m : Table}
    (hg : g ∈ rootTables (s.rd rdAddr).s2Ctx) (hm : F g = some m) {i : ℕ} (hi : i < 512) :
    (m.slot i).refs = 0 := by
  have := h.counts g m hm
  rw [p.root g hg] at this
  exact liveCount_eq_zero (Nat.le_zero.mp this) hi

/-- The tables of the realm are its root tables. -/
theorem owner_iff (h : Wf s F) (p : Felled s rdAddr s') {g : Word} {m : Table} (hm : F g = some m) :
    m.owner = rdAddr ↔ g ∈ rootTables (s.rd rdAddr).s2Ctx := by
  have hplot := plotOf_of_rd p.wasRd
  have hroots := (h.holds.ctx rdAddr p.wasRd).roots
  constructor
  · intro ho
    obtain ⟨j, hj, rfl, -⟩ := h.holds.ok.root_of_owner hplot (fun j n hj hn i hi => by
      rw [span_top, hroots] at hj
      exact Entry.link_of_refs (p.root_dead h (mem_rootTables.mpr ⟨j, hj, rfl⟩) hn hi)) hm ho
    rw [span_top, hroots] at hj
    exact mem_rootTables.mpr ⟨j, hj, rfl⟩
  · intro hg
    obtain ⟨j, hj, rfl⟩ := mem_rootTables.mp hg
    obtain ⟨n, hn, ho, -⟩ := h.holds.ok.root (j := j) hplot (by rw [span_top, hroots]; exact hj)
    rw [hm] at hn
    cases hn
    exact ho

/-- The tables of other realms stay. -/
theorem not_gone (h : Wf s F) (p : Felled s rdAddr s') {g : Word} {m : Table} (hm : F g = some m)
    (hne : m.owner ≠ rdAddr) : ¬ Gone s rdAddr g := by
  rintro (rfl | hg)
  · have := (h.holds.node hm).1
    rw [p.wasRd] at this
    cases this
  · exact hne ((p.owner_iff h hm).mpr hg)

theorem holds (h : Wf s F) (p : Felled s rdAddr s') : Holds s' (fellTables F rdAddr) := by
  have hplot : plotOf s' = Function.update (plotOf s) rdAddr none := by
    funext g
    by_cases hg : g = rdAddr
    · subst hg
      rw [Function.update_self, plotOf, if_neg]
      rw [p.isRd]
      exact fun hc => hc.2 rfl
    · rw [Function.update_of_ne hg, plotOf, plotOf]
      by_cases hs : (s.granule g).state = .RD
      · rw [if_pos hs, if_pos ((p.isRd g).mpr ⟨hs, hg⟩), p.rd_same hs hg]
      · rw [if_neg hs, if_neg]
        rw [p.isRd]
        exact fun hc => hs hc.1
  refine ⟨?_, ?_, ?_, ?_⟩
  · intro g
    simp only [fellTables_iff]
    by_cases hg : Gone s rdAddr g
    · rw [(p.freed g hg).1]
      refine ⟨by rintro ⟨⟩, ?_⟩
      rintro ⟨m, hm, hne⟩
      rcases hg with rfl | hg
      · have := (h.holds.node hm).1
        rw [p.wasRd] at this
        cases this
      · exact absurd ((p.owner_iff h hm).mpr hg) hne
    · rw [(p.same hg).1, h.holds.rtt_iff]
      constructor
      · rintro ⟨m, hm⟩
        exact ⟨m, hm, fun ho => hg (.inr ((p.owner_iff h hm).mp ho))⟩
      · rintro ⟨m, hm, -⟩
        exact ⟨m, hm⟩
  · rw [hplot]
    exact h.holds.ok.fell (fellTables_iff F rdAddr)
  · intro g hg
    obtain ⟨hs, hne⟩ := (p.isRd g).mp hg
    rw [p.rd_same hs hne]
    exact h.holds.ctx g hs
  · intro t m ht i hi
    obtain ⟨hm, hne⟩ := (fellTables_iff F rdAddr t m).mp ht
    have hown := (h.holds.node hm).2.1
    have hg := p.not_gone h hm hne
    rw [(p.same hg).2.2.2.1, p.rd_same hown hne]
    exact h.holds.word t m hm i hi

theorem wf (h : Wf s F) (p : Felled s rdAddr s') : Wf s' (fellTables F rdAddr) where
  holds := p.holds h
  counts := by
    intro t m ht
    obtain ⟨hm, hne⟩ := (fellTables_iff F rdAddr t m).mp ht
    have hg := p.not_gone h hm hne
    rw [(p.same hg).1]
    exact h.counts t m hm
  plain := by
    intro g hg
    by_cases hgone : Gone s rdAddr g
    · rw [(p.freed g hgone).1]
    · rw [(p.same hgone).1] at hg ⊢
      exact h.plain g hg
  zero := by
    intro g hg
    by_cases hgone : Gone s rdAddr g
    · obtain ⟨-, h2, h3, -, h5⟩ := p.freed g hgone
      exact ⟨h2, h3, h5⟩
    · obtain ⟨h1, h2, h3, -, h5⟩ := p.same hgone
      rw [h1] at hg
      rw [h2, h3, h5]
      exact h.zero g hg
  scrubbed := by
    intro g hg
    by_cases hgone : Gone s rdAddr g
    · exact (p.freed g hgone).2.2.2.1
    · obtain ⟨h1, -, -, h4, -⟩ := p.same hgone
      rw [h1] at hg
      rw [h4]
      exact h.scrubbed g hg
  vmid := by
    intro g hg
    obtain ⟨hs, hne⟩ := (p.isRd g).mp hg
    rw [p.rd_same hs hne, p.vmids, Function.update_of_ne]
    · exact h.vmid g hs
    · exact fun hc => hne (h.vmid_inj g rdAddr hs p.wasRd hc)
  vmid_inj := by
    intro a b ha hb heq
    obtain ⟨hsa, hna⟩ := (p.isRd a).mp ha
    obtain ⟨hsb, hnb⟩ := (p.isRd b).mp hb
    rw [p.rd_same hsa hna, p.rd_same hsb hnb] at heq
    exact h.vmid_inj a b hsa hsb heq
  recRd := by
    intro r hr
    have hr' := (p.state_iff (by decide) (by decide) (by decide) r).mp hr
    have hgone : ¬ Gone s rdAddr r := by
      intro hg
      rcases p.gone_state hg with hs | hs <;> rw [hr'] at hs <;> cases hs
    rw [(p.same hgone).2.2.1, p.isRd]
    refine ⟨h.recRd r hr', fun hc => ?_⟩
    -- a REC of the realm would hold a reference
    obtain ⟨R, hR, hcard⟩ := h.recCount rdAddr p.wasRd
    rw [p.unused, Nat.le_zero, Finset.card_eq_zero] at hcard
    have := (hR r).mpr ⟨hr', hc⟩
    rw [hcard] at this
    simp at this
  recCount := by
    intro g hg
    obtain ⟨hs, hne⟩ := (p.isRd g).mp hg
    obtain ⟨R, hR, hcard⟩ := h.recCount g hs
    refine ⟨R, fun r => ?_, by rwa [(p.same (mt (p.gone_of_rd hs).mp hne)).1]⟩
    rw [hR, p.state_iff (by decide) (by decide) (by decide)]
    refine and_congr_right fun hr => ?_
    have hgone : ¬ Gone s rdAddr r := by
      intro hg
      rcases p.gone_state hg with hs | hs <;> rw [hr] at hs <;> cases hs
    rw [(p.same hgone).2.2.1]

theorem step (h : Wf s F) (p : Felled s rdAddr s') :
    FellStep s F rdAddr s' (fellTables F rdAddr) where
  wasRd := p.wasRd
  isRd := p.isRd
  ctx g hg hne := by rw [p.rd_same hg hne]
  nodes := fellTables_iff F rdAddr
  dead t m hm ho i hi := p.root_dead h ((p.owner_iff h hm).mp ho) hm hi
  count t m ht := by
    obtain ⟨hm, hne⟩ := (fellTables_iff F rdAddr t m).mp ht
    have hg := p.not_gone h hm hne
    rw [(p.same hg).1]
  data := p.state_iff (by decide) (by decide) (by decide)
  tlb := p.tlb
  vmids := p.vmids

end Felled

/-- The references on all root tables add up to zero only if there are none. -/
theorem totalRootRttRefcount_sat {s : State} (roots : List Word) :
    Sat (totalRootRttRefcount s roots) (fun c => ∀ g ∈ roots, (s.granule g).state = .RTT ∧
      (c = 0 → (s.granule g).refcount = 0)) Benign := by
  unfold totalRootRttRefcount
  refine Sat.foldlM (fun done c => ∀ g ∈ done, (s.granule g).state = .RTT ∧
      (c = 0 → (s.granule g).refcount = 0)) roots (by simp) ?_
  intro done root rest c _ hI
  refine assertThat_sat (fun _ => by decide) fun hst => Sat.pure ?_
  intro g hg
  rcases List.mem_append.mp hg with hg | hg
  · exact ⟨(hI g hg).1, fun hc => (hI g hg).2 (by omega)⟩
  · rw [List.mem_singleton] at hg
    rw [hg]
    exact ⟨by simpa using hst, fun hc => by omega⟩

/-- What `smc_realm_destroy` does: nothing, or the realm and its root tables go. -/
def RealmDestroyed (s : State) (rdAddr : Word) (s' : State) (ret : ReturnCode) : Prop :=
  (s' = s ∧ ret ≠ rmiSuccess) ∨ (ret = rmiSuccess ∧ Felled s rdAddr s')

theorem smcRealmDestroy_sat (plat : Platform) (s : State) (rdAddr : Word) :
    Sat (smcRealmDestroy plat s rdAddr) (fun res => RealmDestroyed s rdAddr res.1 res.2.ret)
      Benign := by
  unfold smcRealmDestroy
  refine findLockGranule_sat (by decide) ?_
  refine Sat.ite (fun _ => Sat.pure (.inl ⟨rfl, by simp [smcRet, rmiErrorInput, rmiSuccess]⟩))
    fun hr => ?_
  have hrd := lockable_state (by simpa using hr)
  refine Sat.ite (fun _ => Sat.pure (.inl ⟨rfl, by simp [smcRet, rmiErrorRealm, rmiSuccess]⟩))
    fun hcount => ?_
  rw [not_ne_iff] at hcount
  refine Sat.bind (totalRootRttRefcount_sat _) fun c hroots => ?_
  refine Sat.ite (fun _ => Sat.pure (.inl ⟨rfl, by simp [smcRet, rmiErrorRealm, rmiSuccess]⟩))
    fun hc => ?_
  rw [not_ne_iff] at hc
  have hroot : ∀ g ∈ rootTables (s.rd rdAddr).s2Ctx, s.granule g = ⟨.RTT, 0⟩ := by
    intro g hg
    obtain ⟨h1, h2⟩ := hroots g hg
    rw [← h1, ← h2 hc]
  have hapart : rdAddr ∉ rootTables (s.rd rdAddr).s2Ctx := by
    intro hg
    rw [hroot rdAddr hg] at hrd
    cases hrd
  unfold vmidFree
  rw [bind_assoc]
  refine assertThat_sat (fun _ => by decide) fun _ => ?_
  refine freeGranules_sat (by decide) (by decide) _ fun _ => ?_
  refine granuleUnlockTransition_sat (by decide) (Sat.pure (.inr ⟨rfl, hrd, hcount, hroot, ?_, ?_,
    rfl, rfl, rfl, rfl⟩))
  · intro g hg
    by_cases hrdg : g = rdAddr
    · subst hrdg
      refine ⟨?_, Function.update_self .., Function.update_self .., Function.update_self ..,
        Function.update_self ..⟩
      show Function.update _ g _ g = _
      rw [Function.update_self]
      show (⟨.DELEGATED, (if g ∈ rootTables (s.rd g).s2Ctx then _ else
          s.granule g).refcount⟩ :
        Granule) = _
      rw [if_neg hapart, hcount]
    · have hm : g ∈ rootTables (s.rd rdAddr).s2Ctx := hg.resolve_left hrdg
      refine ⟨(Function.update_of_ne hrdg _ _).trans ((if_pos hm).trans ?_),
        (Function.update_of_ne hrdg _ _).trans (if_pos hm),
        (Function.update_of_ne hrdg _ _).trans (if_pos hm),
        (Function.update_of_ne hrdg _ _).trans (if_pos hm),
        (Function.update_of_ne hrdg _ _).trans (if_pos hm)⟩
      show (⟨.DELEGATED, (s.granule g).refcount⟩ : Granule) = _
      rw [hroot g hm]
  · intro g hg hm
    exact ⟨(Function.update_of_ne hg _ _).trans (if_neg hm),
      (Function.update_of_ne hg _ _).trans (if_neg hm),
      (Function.update_of_ne hg _ _).trans (if_neg hm),
      (Function.update_of_ne hg _ _).trans (if_neg hm),
      (Function.update_of_ne hg _ _).trans (if_neg hm)⟩

end RmmCaec
