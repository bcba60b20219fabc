import RmmCaec.Steps

/-!
# The effects of a step on the tables

Every step goes through a sequence of effects, and each effect can be read off
the call and the state before it. The laws about tables that hold over runs are
proved from this statement alone.
-/
namespace RmmCaec

open RadixForest Outcome Runs

/-- Pages are removed at some of a list of places. -/
def RemoveEffect (places : List (Word × Word)) (l : Effect) : Prop :=
  l = .quiet none none ∨ ∃ p ∈ places, ∃ old, l = .edit p.1 p.2.toNat 0 old .remove

/-- A granule becomes DATA, is assigned to a page and mirrored to the targets. -/
def CreateEffect (plat : Platform) (s : State) (rdAddr dataAddr mapAddr : Word) (measured : Bool)
    (l : Effect) : Prop :=
  l = .quiet none (some dataAddr) ∨
  (∃ r old, l = .edit rdAddr mapAddr.toNat 0 old (.assign r dataAddr) ∧
    CreatedRipas measured old r) ∨
  ∃ p ∈ csmTargets plat s rdAddr mapAddr, ∃ old, l =
    .edit p.1 p.2.toNat 0 old (.mirror dataAddr) ∧
    p.2.toNat < 2 ^ (s.rd p.1).s2Ctx.ipaBits

/-- What holds in the state before a creation that goes through. -/
structure CreateReady (s : State) (rdAddr dataAddr mapAddr : Word) (measured : Bool) : Prop where
  isRd : (s.granule rdAddr).state = .RD
  delegated : (s.granule dataAddr).state = .DELEGATED
  inPar : addrInPar (s.rd rdAddr) mapAddr = true
  isNew : measured = true → (s.rd rdAddr).state = .NEW

/-- A page is removed, its granule freed, and the pages at the targets are removed. -/
def DestroyEffect (plat : Platform) (s : State) (rdAddr mapAddr : Word) (l : Effect) : Prop :=
  (∃ old, l = .edit rdAddr mapAddr.toNat 0 old .remove) ∨
  l = .quiet (some (pageGranule s rdAddr mapAddr)) none ∨
  ∃ p ∈ csmTargets plat s rdAddr mapAddr, ∃ old, l = .edit p.1 p.2.toNat 0 old .remove

/-- Pages of the master are mapped in the caller. -/
def AttachEffect (s : State) (rdAddr : Word) (slave : SlaveMem) (m : MasterMem) (l : Effect) :
    Prop :=
  ∃ p ∈ attachPlaces rdAddr slave (regionPages m), ∃ old pa,
    l = .edit p.1 p.2.toNat 0 old (.mirror pa) ∧ AttachPage s rdAddr slave m p pa ∧
    p.2.toNat < 2 ^ (s.rd p.1).s2Ctx.ipaBits

/-- The region that an attach maps: every page of it is mapped in the master. -/
def attachRegion (plat : Platform) (s : State) (rdAddr x1 : Word) :
    Option (SlaveMem × MasterMem) :=
  (attachEntry plat s rdAddr x1).filter fun sm =>
    sm.1.masterRdPa != rdAddr && (List.range (regionPages sm.2)).all fun j =>
      (ramPage s sm.1.masterRdPa (pageAddr sm.2.ipaStart j)).isSome

/-- The effects of an RSI call of a realm. -/
def RsiEffect (plat : Platform) (s : State) (rdAddr : Word) (call : RsiCall) (l : Effect) : Prop :=
  match call with
  | .csmAttach x1 => ∃ slave m, attachRegion plat s rdAddr x1 = some (slave, m) ∧
      AttachEffect s rdAddr slave m l
  | .csmDetachAndFree x1 => RemoveEffect (detachPlaces plat s rdAddr x1) l
  | .csmRevoke x1 => RemoveEffect (revokePlaces plat s rdAddr x1) l
  | _ => False

def StepEffect (plat : Platform) (s : State) (act : Act) (l : Effect) : Prop :=
  match act with
  | .realmCreate rdAddr _ _ => l = .plant rdAddr
  | .realmDestroy rdAddr => l = .fell rdAddr
  | .aptDestroy rdAddr aptAddr => (s.granule rdAddr).state = .RD ∧
      (s.granule aptAddr).state = .APT ∧
      (s.rd rdAddr).aptPa = aptAddr ∧ RemoveEffect (aptDestroyPlaces plat s rdAddr aptAddr) l
  | .dataCreate rdAddr dataAddr mapAddr srcAddr flags nsCopy =>
      measuredAccepts plat s rdAddr dataAddr mapAddr srcAddr flags nsCopy = true ∧
      CreateReady s rdAddr dataAddr mapAddr true ∧
        CreateEffect plat s rdAddr dataAddr mapAddr true l
  | .dataCreateUnknown rdAddr dataAddr mapAddr =>
      createAccepts plat s rdAddr dataAddr mapAddr false .done = true ∧
      CreateReady s rdAddr dataAddr mapAddr false ∧
      CreateEffect plat s rdAddr dataAddr mapAddr false l
  | .dataDestroy rdAddr mapAddr => destroyAccepts plat s rdAddr mapAddr = true ∧
      DestroyEffect plat s rdAddr mapAddr l
  | .rttCreate rdAddr _ _ _ => ∃ a height, l = .graft rdAddr a height
  | .rttFold rdAddr _ _ => ∃ a height new, l = .fold rdAddr a height new
  | .rttDestroy rdAddr _ _ => ∃ a height, l = .destroy rdAddr a height
  | .rttMapUnprotected rdAddr _ _ _ => NsEffect s rdAddr l
  | .rttUnmapUnprotected rdAddr _ _ => NsEffect s rdAddr l
  | .rttInitRipas rdAddr base top => ∃ height,
      InitRipasEffect rdAddr base.toNat top.toNat height l
  | .rttSetRipas rdAddr recAddr base top => l = .quiet none none ∨
      ((s.granule recAddr).state = .REC ∧ (s.recs recAddr).gRd = rdAddr ∧
        base = (s.recs recAddr).setRipas.addr ∧ top ≤ (s.recs recAddr).setRipas.top ∧
        ∃ height, RipasEffect rdAddr base.toNat top.toNat height
          (s.recs recAddr).setRipas.ripasVal
          (s.recs recAddr).setRipas.changeDestroyed l)
  | .rsi recAddr call => l = .quiet none none ∨
      (recRunning s recAddr = true ∧ RsiEffect plat s (s.recs recAddr).gRd call l)
  | _ => l = .quiet none none

/-- A call creates a page of the granule. -/
def Creates (plat : Platform) (s : State) (g : Word) : Act → Prop
  | .dataCreate rdAddr dataAddr mapAddr srcAddr flags nsCopy => dataAddr = g ∧
    measuredAccepts plat s rdAddr dataAddr mapAddr srcAddr flags nsCopy = true
  | .dataCreateUnknown rdAddr dataAddr mapAddr => dataAddr = g ∧
    createAccepts plat s rdAddr dataAddr mapAddr false .done = true
  | _ => False

/-- The kinds of effects, each with the calls that have it. -/
inductive EffectKind (plat : Platform) (s : State) (act : Act) : Effect → Prop
  | edit {rd a height old e} : EffectKind plat s act (.edit rd a height old e)
  | idle : EffectKind plat s act (.quiet none none)
  | claim {g} (creates : Creates plat s g act) : EffectKind plat s act (.quiet none (some g))
  | free {rdAddr mapAddr} (call : act = .dataDestroy rdAddr mapAddr)
      (accepts : destroyAccepts plat s rdAddr mapAddr = true) :
      EffectKind plat s act (.quiet (some (pageGranule s rdAddr mapAddr)) none)
  | graft {rd a height rttAddr mapAddr ulevel} (call : act = .rttCreate rd rttAddr mapAddr ulevel) :
      EffectKind plat s act (.graft rd a height)
  | fold {rd a height new mapAddr ulevel} (call : act = .rttFold rd mapAddr ulevel) :
      EffectKind plat s act (.fold rd a height new)
  | destroy {rd a height mapAddr ulevel} (call : act = .rttDestroy rd mapAddr ulevel) :
      EffectKind plat s act (.destroy rd a height)
  | plant {rd paramsAddr nsRead} (call : act = .realmCreate rd paramsAddr nsRead) :
      EffectKind plat s act (.plant rd)
  | fell {rd} (call : act = .realmDestroy rd) : EffectKind plat s act (.fell rd)

section

variable {plat : Platform} {s : State} {act : Act} {l : Effect}

theorem RemoveEffect.kind {places : List (Word × Word)} (h : RemoveEffect places l) :
    EffectKind plat s act l := by
  obtain rfl | ⟨p, -, old, rfl⟩ := h
  · exact .idle
  · exact .edit

theorem CreateEffect.kind {rdAddr dataAddr mapAddr : Word} {measured : Bool}
    (h : CreateEffect plat s rdAddr dataAddr mapAddr measured l)
    (hc : Creates plat s dataAddr act) :
    EffectKind plat s act l := by
  obtain rfl | ⟨r, old, rfl, -⟩ | ⟨p, -, old, rfl, -⟩ := h
  · exact .claim hc
  · exact .edit
  · exact .edit

theorem RsiEffect.kind {rdAddr : Word} {call : RsiCall} (h : RsiEffect plat s rdAddr call l) :
    EffectKind plat s act l := by
  cases call with
  | csmAttach x1 =>
    obtain ⟨slave, m, -, p, -, old, pa, rfl, -⟩ := h
    exact .edit
  | csmDetachAndFree x1 => exact RemoveEffect.kind h
  | csmRevoke x1 => exact RemoveEffect.kind h
  | _ => exact h.elim

theorem RipasEffect.kind {rd : Word} {lo top height : ℕ} {r : Ripas} {cd : Bool}
    (h : RipasEffect rd lo top height r cd l) : EffectKind plat s act l := by
  obtain ⟨a, old, e, rfl, -⟩ := h
  exact .edit

theorem InitRipasEffect.kind {rd : Word} {lo top height : ℕ}
    (h : InitRipasEffect rd lo top height l) : EffectKind plat s act l := by
  obtain ⟨a, rfl, -⟩ := h
  exact .edit

theorem NsEffect.kind {rd : Word} (h : NsEffect s rd l) : EffectKind plat s act l := by
  obtain ⟨a, height, old, e, rfl, -⟩ := h
  exact .edit

/-- Which effects which calls have. -/
theorem StepEffect.kind (h : StepEffect plat s act l) : EffectKind plat s act l := by
  cases act with
  | realmCreate rdAddr paramsAddr nsRead =>
    cases h
    exact .plant rfl
  | realmDestroy rdAddr =>
    cases h
    exact .fell rfl
  | aptDestroy rdAddr aptAddr => exact h.2.2.2.kind
  | dataCreate rdAddr dataAddr mapAddr srcAddr flags nsCopy => exact h.2.2.kind ⟨rfl, h.1⟩
  | dataCreateUnknown rdAddr dataAddr mapAddr => exact h.2.2.kind ⟨rfl, h.1⟩
  | dataDestroy rdAddr mapAddr =>
    obtain ⟨hacc, ⟨old, rfl⟩ | rfl | ⟨p, -, old, rfl⟩⟩ := h
    · exact .edit
    · exact .free rfl hacc
    · exact .edit
  | rttCreate rdAddr rttAddr mapAddr ulevel =>
    obtain ⟨a, height, rfl⟩ := h
    exact .graft rfl
  | rttFold rdAddr mapAddr ulevel =>
    obtain ⟨a, height, new, rfl⟩ := h
    exact .fold rfl
  | rttDestroy rdAddr mapAddr ulevel =>
    obtain ⟨a, height, rfl⟩ := h
    exact .destroy rfl
  | rttMapUnprotected rdAddr mapAddr ulevel s2tte => exact NsEffect.kind h
  | rttUnmapUnprotected rdAddr mapAddr ulevel => exact NsEffect.kind h
  | rttInitRipas rdAddr base top =>
    obtain ⟨height, h⟩ := h
    exact h.kind
  | rttSetRipas rdAddr recAddr base top =>
    obtain rfl | ⟨-, -, -, -, height, h⟩ := h
    · exact .idle
    · exact h.kind
  | rsi recAddr call =>
    obtain rfl | ⟨-, h⟩ := h
    · exact .idle
    · exact h.kind
  | _ =>
    cases h
    exact .idle

end

/-- A step through well-formed states, by effects of its action. -/
def Effects (plat : Platform) (s : State) (F : Tables) (act : Act) (s' : State)
    (F' : Tables) : Prop :=
  Wf s' F' ∧ ∃ ls, Micros s F ls s' F' ∧ ∀ l ∈ ls, StepEffect plat s act l

namespace Effects

variable {plat : Platform} {s s1 s' : State} {F F1 F' : Tables} {act : Act}

theorem refl (h : Wf s F) : Effects plat s F act s F := ⟨h, [], .nil, by simp⟩

theorem one (h : Wf s F) (h' : Wf s' F') {l : Effect} (hm : Micro s F l s' F')
    (hl : StepEffect plat s act l) : Effects plat s F act s' F' :=
  ⟨h', [l], .single h hm, by simpa using hl⟩

/-- More effects of the same step. -/
theorem append (h : Effects plat s F act s1 F1) {ls : List Effect} (h' : Wf s' F')
    (hm : Micros s1 F1 ls s' F') (hl : ∀ l ∈ ls, StepEffect plat s act l) :
    Effects plat s F act s' F' := by
  obtain ⟨-, ls0, hm0, hl0⟩ := h
  refine ⟨h', ls0 ++ ls, hm0.append hm, fun l hmem => ?_⟩
  rcases List.mem_append.mp hmem with hmem | hmem
  · exact hl0 l hmem
  · exact hl l hmem

theorem quiet (h : Effects plat s F act s1 F1) (q : Quiet s1 s' none none) (h' : Wf s' F1)
    (hl : StepEffect plat s act (.quiet none none)) : Effects plat s F act s' F1 :=
  h.append h' (.single h.1 (.quiet q)) (by simpa using hl)

end Effects

theorem PlainChange.effects {plat : Platform} {s s' : State} {F : Tables} {act : Act} {g : Word}
    (h : Wf s F) (p : PlainChange s s' g) (h1 : (s.granule g).state ≠ .DATA)
    (h2 : (s'.granule g).state ≠ .DATA) (hl : StepEffect plat s act (.quiet none none)) :
    Effects plat s F act s' F :=
  .one h (p.wf h) (.quiet (p.quiet none none (fun hc => absurd hc h1) fun hc => absurd hc h2)) hl

theorem RecordChange.effects {plat : Platform} {s s' : State} {F : Tables} {act : Act}
    (h : Wf s F) (r : RecordChange s s') (hl : StepEffect plat s act (.quiet none none)) :
    Effects plat s F act s' F :=
  .one h (r.wf h) (.quiet r.quiet) hl

theorem Mirrored.micros_of {s s' : State} {F F' : Tables} {R : Word × Word → Word → Prop}
    {places : List (Word × Word)} {P : Effect → Prop}
    (h : Mirrored s F R places s' F') (s0 : State)
    (hctx : ∀ g, (s.rd g).s2Ctx = (s0.rd g).s2Ctx)
    (hP : ∀ p ∈ places, ∀ old pa, R p pa → p.2.toNat < 2 ^ (s0.rd p.1).s2Ctx.ipaBits →
      P (.edit p.1 p.2.toNat 0 old (.mirror pa))) :
    ∃ ls, Micros s F ls s' F' ∧ ∀ l ∈ ls, P l := by
  obtain ⟨ls, hm, hl⟩ := h.micros
  refine ⟨ls, hm, fun l hmem => ?_⟩
  obtain ⟨p, hp, old, pa, rfl, hR, hlt, -⟩ := hl l hmem
  exact hP p hp old pa hR (by rw [← hctx]; exact hlt)

theorem Assigned.sameCtx {plat : Platform} {s s' : State} {F F' : Tables}
    {rdAddr dataAddr mapAddr : Word} {measured : Bool} {r : Ripas} {old : Entry}
    (h : Assigned plat s F rdAddr dataAddr mapAddr measured s' F' r old) (g : Word) :
    s'.rd g = s.rd g := by
  obtain ⟨t, n, i, st, -⟩ := h.edit
  rw [st.rd]
  rfl

theorem DataCreated.effects {plat : Platform} {s s' : State} {F : Tables} {act : Act}
    {rdAddr dataAddr mapAddr : Word} {measured : Bool} {ret : ReturnCode} (h : Wf s F)
    (hd : DataCreated plat s F rdAddr dataAddr mapAddr measured s' ret)
    (hl : ret = rmiSuccess → CreateReady s rdAddr dataAddr mapAddr measured → ∀ l,
      CreateEffect plat s rdAddr dataAddr mapAddr measured l → StepEffect plat s act l) :
    ∃ F', Effects plat s F act s' F' := by
  rcases hd with ⟨rfl, -⟩ | ⟨hret, s1, F1, r, old, F', has, hw1, hm⟩
  · exact ⟨F, .refl h⟩
  have hready : CreateReady s rdAddr dataAddr mapAddr measured :=
    ⟨has.isRd, has.delegated, has.inPar, has.isNew⟩
  replace hl := hl hret hready
  obtain ⟨t, n, i, st, ho, h0, hold⟩ := has.edit
  have hclaim : Effects plat s F act (s.setState dataAddr .DATA) F :=
    .one h has.claimWf (.quiet has.claim) (hl _ (.inl rfl))
  have hassign : Effects plat s F act s1 F1 := by
    refine hclaim.append hw1 (.single has.claimWf (.edit st ?_)) ?_
    · rintro pa hpa
      cases hpa
      exact .inl (by rw [State.setState_self])
    · intro l hmem
      rw [List.mem_singleton] at hmem
      subst hmem
      refine hl _ (.inr (.inl ⟨r, old, ?_, has.ripas⟩))
      rw [ho, h0, hold]
  obtain ⟨ls, hms, hls⟩ := hm.micros_of s
    (P := CreateEffect plat s rdAddr dataAddr mapAddr measured) (fun g => by rw [has.sameCtx g]) (by
      rintro p hp old pa rfl hlt
      exact .inr (.inr ⟨p, hp, old, rfl, hlt⟩))
  exact ⟨F', hassign.append hm.wf hms fun l hmem => hl l (hls l hmem)⟩

/-- The granule of an assigned page. -/
theorem Holds.pageGranule_eq {s : State} {F : Tables} (h : Holds s F) {rd addr t : Word} {n : Table}
    {i : ℕ} {r : Ripas} {pa : Word} (hl : IsLeaf F rd addr.toNat t n i) (h0 : n.height = 0)
    (he : n.slot i = .assigned r pa) (ha : addr.toNat < 2 ^ (s.rd rd).s2Ctx.ipaBits) :
    pageGranule s rd addr = pa := by
  have hv := (h.word _ n hl.table _ hl.index).1
  rw [hl.owner, he, h0] at hv
  unfold pageGranule
  rw [h.leafOf_of_isLeaf hl ha, he, h0]
  exact Entry.s2ttePa_assigned hv

theorem destroyAccepts_lt {plat : Platform} {s : State} {rdAddr mapAddr : Word}
    (h : destroyAccepts plat s rdAddr mapAddr = true) :
    mapAddr.toNat < 2 ^ (s.rd rdAddr).s2Ctx.ipaBits := by
  simp only [destroyAccepts, validateMapAddr, Bool.and_eq_true, decide_eq_true_eq] at h
  exact h.1.1.2.1

theorem DataDestroyed.effects {plat : Platform} {s s' : State} {F : Tables}
    {rdAddr mapAddr : Word} {ret : ReturnCode} (h : Wf s F)
    (hd : DataDestroyed plat s F rdAddr mapAddr s' ret)
    (hacc : ret = rmiSuccess → destroyAccepts plat s rdAddr mapAddr = true) :
    ∃ F', Effects plat s F (.dataDestroy rdAddr mapAddr) s' F' := by
  rcases hd with ⟨rfl, -⟩ | ⟨hret, t, n, i, r, d, s1, F1, F', ho, h0, he, st,
    hdata, hrd, hrem⟩
  · exact ⟨F, .refl h⟩
  replace hacc := hacc hret
  have hw1 := st.wf h
  have hd0 : pageGranule s rdAddr mapAddr = d :=
    h.holds.pageGranule_eq (ho ▸ st.leaf) h0 he (destroyAccepts_lt hacc)
  have hpc := plainChange_release hw1 d (by rw [hdata]; rfl) (by rw [hdata]; rfl)
  have hq : Quiet s1 (s1.release d) (some d) none :=
    hpc.quiet (some d) none (fun _ => .inl rfl) (fun hc => by simp [State.release] at hc)
  have hremove : Effects plat s F (.dataDestroy rdAddr mapAddr) s1 F1 := by
    refine .one h hw1 (.edit st (by rintro pa ⟨⟩)) ⟨hacc, .inl ⟨n.slot i, ?_⟩⟩
    rw [ho, h0]
  have hfree : Effects plat s F (.dataDestroy rdAddr mapAddr) (s1.release d) F1 := by
    refine hremove.append (hpc.wf hw1) (.single hw1 (.quiet hq)) ?_
    intro l hmem
    rw [List.mem_singleton] at hmem
    subst hmem
    exact ⟨hacc, .inr (.inl (by rw [hd0]))⟩
  obtain ⟨ls, hms, hls⟩ := hrem.micros
  exact ⟨F', hfree.append hrem.wf hms fun l hmem => ⟨hacc, .inr (.inr (hls l hmem))⟩⟩

theorem Cleared.effects {plat : Platform} {s s' : State} {F F' : Tables} {act : Act}
    {places : List (Word × Word)} (hc : Cleared s F places s' F')
    (hl : ∀ l, RemoveEffect places l → StepEffect plat s act l) :
      Effects plat s F act s' F' := by
  obtain ⟨ls, hm, hls⟩ := hc.micros
  exact ⟨hc.wf, ls, hm, fun l hmem => hl l (hls l hmem)⟩

theorem attachRegion_mk {plat : Platform} {s : State} {rdAddr x1 : Word} {slave : SlaveMem}
    {m : MasterMem} (h : attachEntry plat s rdAddr x1 = some (slave, m))
    (hne : slave.masterRdPa ≠ rdAddr) (hall : ∀ j < regionPages m,
      (ramPage s slave.masterRdPa (pageAddr m.ipaStart j)).isSome = true) :
    attachRegion plat s rdAddr x1 = some (slave, m) := by
  rw [attachRegion, h, Option.filter_some, if_pos]
  simp only [Bool.and_eq_true, bne_iff_ne, ne_eq, List.all_eq_true, List.mem_range]
  exact ⟨hne, hall⟩

theorem RsiDone.effects {plat : Platform} {s s1 : State} {F : Tables} (h : Wf s F) {recAddr : Word}
    {res : RsiResult} {call : RsiCall} (hrun : recRunning s recAddr = true)
    (hd : RsiDone plat s F recAddr s1 res call) :
    ∃ F', Effects plat s F (.rsi recAddr call) s1 F' := by
  have hrec := (recRunning_spec hrun).1
  have hrd := h.recRd recAddr hrec
  have record : ∀ s', RecordChange s s' → ∃ F', Effects plat s F (.rsi recAddr call) s' F' :=
    fun s' hr => ⟨F, hr.effects h (.inl rfl)⟩
  cases call with
  | csmCreate x2 x3 =>
    rcases hd with ⟨rfl, -⟩ | ⟨ids, -, rfl, -⟩ | ⟨ids, id, -, rfl, -⟩ |
      ⟨-, -, hapt, -, ids, id, apt', idx, -, -, rfl⟩
    · exact ⟨F, .refl h⟩
    · exact record _ (recordChange_registries s s.tags ids)
    · exact record _ (recordChange_registries s s.tags _)
    · exact record _ (recordChange_setApt ids (lockable_state hapt))
  | csmShare x1 x2 x3 =>
    rcases hd with ⟨rfl, -⟩ | ⟨-, hapt, _, _, _, _, -, -, -, -, rfl⟩
    · exact ⟨F, .refl h⟩
    · exact record _ (recordChange_setApt s.csmIds (lockable_state hapt))
  | csmReserve x1 x2 x3 =>
    rcases hd with rfl | ⟨-, hapt, -, _, _, _, _, -, -, -, -, -, -, -, -, -, rfl⟩
    · exact ⟨F, .refl h⟩
    · exact record _ (recordChange_setApt s.csmIds (lockable_state hapt))
  | csmAttach x1 =>
    rcases hd with ⟨rfl, -⟩ | ⟨-, slave, m, F', hent, hne, -, hall, hm⟩
    · exact ⟨F, .refl h⟩
    · obtain ⟨ls, hms, hls⟩ := hm.micros_of s
        (P := AttachEffect s (s.recs recAddr).gRd slave m) (fun _ => rfl)
        (fun p hp old pa hR hlt => ⟨p, hp, old, pa, rfl, hR, hlt⟩)
      exact ⟨F', hm.wf, ls, hms, fun l hmem =>
        .inr ⟨hrun, slave, m, attachRegion_mk hent hne hall, hls l hmem⟩⟩
  | csmDetachAndFree x1 =>
    rcases hd with ⟨rfl, -⟩ | ⟨-, _, F', -, -, hc⟩
    · exact ⟨F, .refl h⟩
    · exact ⟨F', hc.effects fun l hl => .inr ⟨hrun, hl⟩⟩
  | csmRevoke x1 =>
    rcases hd with ⟨rfl, -⟩ | ⟨-, _, _, F', -, -, hc⟩
    · exact ⟨F, .refl h⟩
    · exact ⟨F', hc.effects fun l hl => .inr ⟨hrun, hl⟩⟩
  | csmDestroy x1 =>
    rcases hd with ⟨rfl, -⟩ | ⟨-, hapt, _, -, -, rfl⟩
    · exact ⟨F, .refl h⟩
    · exact record _ (recordChange_setApt _ (lockable_state hapt))
  | ipaStateSet x1 x2 x3 x4 =>
    have hs : s1 = (handleRsiIpaStateSet s recAddr x1 x2 x3 x4).1 := congrArg Prod.fst hd
    rcases handleRsiIpaStateSet_spec s recAddr x1 x2 x3 x4 with h1 | ⟨req, h1⟩
    · rw [hs, h1]
      exact ⟨F, .refl h⟩
    · rw [hs, h1]
      exact record _ (recordChange_setRec hrec rfl)
  | systemOff =>
    have hs : s1 = s.setRd _ _ := hd
    rw [hs]
    exact record _ (recordChange_setRd hrd rfl)

theorem RealmRsiDone.effects {plat : Platform} {s s' : State} {F : Tables} (h : Wf s F)
    {recAddr : Word} {call : RsiCall} {reply : Reply}
    (hd : RealmRsiDone plat s F recAddr call s' reply) :
    ∃ F', Effects plat s F (.rsi recAddr call) s' F' := by
  rcases hd with ⟨-, rfl, -⟩ | ⟨hrun, s1, res, hdone, -, rfl⟩
  · exact ⟨F, .refl h⟩
  obtain ⟨F', he⟩ := hdone.effects h hrun
  have hrec := (recRunning_spec hrun).1
  have hrec1 : (s1.granule recAddr).state = .REC := by
    rw [hdone.granule (by rw [hrec]; decide), hrec]
  refine ⟨F', ?_⟩
  split
  · exact he.quiet (quiet_recCount hrec1 0) (wf_recCount he.1 hrec1 0) (.inl rfl)
  · exact he

theorem RecEntered.effects {plat : Platform} {s s' : State} {F : Tables} (h : Wf s F)
    {recAddr : Word} {act : Act} (hr : RecEntered s recAddr s')
    (hl : StepEffect plat s act (.quiet none none)) : Effects plat s F act s' F := by
  rcases hr.wf h with rfl | ⟨s1, q1, h1, q2, h2⟩
  · exact .refl h
  · exact (Effects.one h h1 (.quiet q1) hl).quiet q2 h2 hl

theorem TableEdited.effects {plat : Platform} {s s' : State} {F F' : Tables} {act : Act}
    {P : Effect → Prop} (ht : TableEdited s F P s' F')
    (hl : ∀ l, P l → StepEffect plat s act l) :
    Effects plat s F act s' F' := by
  obtain ⟨ls, hm, hls⟩ := ht.micros
  exact ⟨ht.wf, ls, hm, fun l hmem => hl l (hls l hmem)⟩

theorem AptCreated.effects {plat : Platform} {s s' : State} {F : Tables} (h : Wf s F)
    {rdAddr aptAddr : Word} {ret : ReturnCode} (hd : AptCreated plat s rdAddr aptAddr s' ret) :
    Effects plat s F (.aptCreate rdAddr aptAddr) s' F := by
  rcases hd with ⟨rfl, -⟩ | ⟨hne, hapt, hrd, ⟨-, -, rfl⟩ | ⟨-, -, rfl⟩⟩
  · exact .refl h
  · have hdel := lockable_state hapt
    refine (plainChange_setState h aptAddr .APT (by rw [hdel]; rfl) rfl (by decide)
      (.inr rfl)).effects h
      (by rw [hdel]; decide) (by rw [State.setState_self]; simp) rfl
  · have hdel := lockable_state hapt
    have hrc : RecordChange s (s.setRd rdAddr { s.rd rdAddr with aptPa := aptAddr }) :=
      recordChange_setRd (lockable_state hrd) rfl
    have h1 := hrc.wf h
    have hreg := recordChange_registries (s.setRd rdAddr { s.rd rdAddr with aptPa := aptAddr })
      (realmTagAssign s.tags rdAddr) s.csmIds
    have h2 := hreg.wf h1
    have hpc := plainChange_setState h2 aptAddr .APT (by
      change (s.granule aptAddr).state.plain = true
      rw [hdel]
      rfl) rfl (by decide) (.inr rfl)
    have hq : StepEffect plat s (.aptCreate rdAddr aptAddr) (.quiet none none) := rfl
    have he := (hrc.effects h hq).quiet hreg.quiet h2 hq
    refine he.quiet (hpc.quiet none none ?_ ?_) (hpc.wf h2) rfl
    · intro hc
      change (s.granule aptAddr).state = .DATA at hc
      rw [hdel] at hc
      cases hc
    · intro hc
      rw [State.setState_self] at hc
      cases hc

theorem RipasSet.effects {plat : Platform} {s s' : State} {F : Tables} (h : Wf s F)
    {rdAddr recAddr base top : Word} (hr : RipasSet s F rdAddr recAddr base top s') :
    ∃ F', Effects plat s F (.rttSetRipas rdAddr recAddr base top) s' F' := by
  rcases hr with rfl | ⟨hrd, hrec, hg, hbase, htop, s1, F', height, ht, hs⟩
  · exact ⟨F, .refl h⟩
  have he : Effects plat s F (.rttSetRipas rdAddr recAddr base top) s1 F' :=
    ht.effects fun l hl => .inr ⟨hrec, hg, hbase, htop, height, hl⟩
  refine ⟨F', ?_⟩
  rcases hs with rfl | ⟨addr, -, rfl⟩
  · exact he
  · have hrec1 : (s1.granule recAddr).state = .REC := by rw [ht.same.state, hrec]
    have hrc : RecordChange s1 (s1.setRec recAddr { s.recs recAddr with
        setRipas := { (s.recs recAddr).setRipas with addr := addr } }) :=
      recordChange_setRec hrec1 (by rw [ht.same.recs])
    exact he.quiet hrc.quiet (hrc.wf ht.wf) (.inl rfl)

theorem StepDone.effects {plat : Platform} {s s' : State} {F : Tables} {reply : Reply} {act : Act}
    (h : Wf s F) (hd : StepDone plat s F s' reply act) : ∃ F', Effects plat s F act s' F' := by
  have redelegated : ∀ act, Redelegated s s' → StepEffect plat s act (.quiet none none) →
      ∃ F', Effects plat s F act s' F' := by
    intro act hr hl
    rcases hr.plainChange h with rfl | ⟨g, hpc, h1, h2⟩
    · exact ⟨F, .refl h⟩
    · exact ⟨F, hpc.effects h h1 h2 hl⟩
  cases act with
  | granuleDelegate addr el3Ok => exact redelegated _ hd rfl
  | granuleUndelegate addr el3Ok => exact redelegated _ hd rfl
  | realmCreate rdAddr paramsAddr nsRead =>
    obtain ⟨res, -, ⟨rfl, -⟩ | ⟨-, ctx, hp⟩⟩ := hd
    · exact ⟨F, .refl h⟩
    · exact ⟨_, .one h (hp.wf h) (.plant (hp.step h)) rfl⟩
  | realmActivate rdAddr =>
    rcases hd with rfl | ⟨hrd, -, rfl⟩
    · exact ⟨F, .refl h⟩
    · refine ⟨F, RecordChange.effects h ?_ rfl⟩
      exact recordChange_setRd hrd rfl
  | realmDestroy rdAddr =>
    obtain ⟨res, -, ⟨rfl, -⟩ | ⟨-, hp⟩⟩ := hd
    · exact ⟨F, .refl h⟩
    · exact ⟨_, .one h (hp.wf h) (.fell (hp.step h)) rfl⟩
  | recCreate rdAddr recAddr paramsAddr nsRead =>
    obtain ⟨res, -, ⟨rfl, -⟩ | ⟨-, -, aux, hn⟩⟩ := hd
    · exact ⟨F, .refl h⟩
    · exact ⟨F, .one h (hn.wf h) (.quiet hn.quiet) rfl⟩
  | recDestroy recAddr =>
    obtain ⟨res, -, ⟨rfl, -⟩ | ⟨-, hf⟩⟩ := hd
    · exact ⟨F, .refl h⟩
    · exact ⟨F, .one h (hf.wf h) (.quiet (hf.quiet h)) rfl⟩
  | recEnter recAddr runAddr entry reject => exact ⟨F, RecEntered.effects h hd rfl⟩
  | aptCreate rdAddr aptAddr =>
    obtain ⟨res, -, hd⟩ := hd
    exact ⟨F, hd.effects h⟩
  | aptDestroy rdAddr aptAddr =>
    obtain ⟨res, -, ⟨rfl, -⟩ | ⟨-, F', hf⟩⟩ := hd
    · exact ⟨F, .refl h⟩
    · obtain ⟨ls, hm, hls⟩ := hf.micros
      exact ⟨F', hf.wf, ls, hm, fun l hmem => ⟨hf.isRd, hf.isApt, hf.linked, hls l hmem⟩⟩
  | dataCreate rdAddr dataAddr mapAddr srcAddr flags nsCopy =>
    obtain ⟨res, -, hd, hacc⟩ := hd
    exact hd.effects h fun hret hready l hl => ⟨hacc hret, hready, hl⟩
  | dataCreateUnknown rdAddr dataAddr mapAddr =>
    obtain ⟨res, -, hd, hacc⟩ := hd
    exact hd.effects h fun hret hready l hl => ⟨hacc hret, hready, hl⟩
  | dataDestroy rdAddr mapAddr =>
    obtain ⟨res, -, hd, hacc⟩ := hd
    exact hd.effects h hacc
  | rttCreate rdAddr rttAddr mapAddr ulevel =>
    obtain ⟨res, -, ⟨rfl, -⟩ | ⟨-, t, n, i, m, F', hg⟩⟩ := hd
    · exact ⟨F, .refl h⟩
    · exact ⟨F', .one h hg.wf (.graft hg.graft) ⟨_, _, by rw [hg.owner]⟩⟩
  | rttFold rdAddr mapAddr ulevel =>
    obtain ⟨res, -, ⟨rfl, -⟩ |
      ⟨-, t, n, i, k, m, new, pages, F', ho, -, -, st, hw, hs, hpurge, hpos⟩⟩ := hd
    · exact ⟨F, .refl h⟩
    · exact ⟨F', .one h hw (.fold st hs hpurge hpos) ⟨_, _, new, by rw [ho]⟩⟩
  | rttDestroy rdAddr mapAddr ulevel =>
    rcases hd with rfl | ⟨t, n, i, k, m, new, pages, F', ho, st, hw, -, hdead, hlo, hup⟩
    · exact ⟨F, .refl h⟩
    · exact ⟨F', .one h hw (.destroy st hdead hlo hup) ⟨_, _, by rw [ho]⟩⟩
  | rttMapUnprotected rdAddr mapAddr ulevel s2tte =>
    obtain ⟨F', ht⟩ := hd
    exact ⟨F', ht.effects fun l hl => hl⟩
  | rttUnmapUnprotected rdAddr mapAddr ulevel =>
    obtain ⟨F', ht⟩ := hd
    exact ⟨F', ht.effects fun l hl => hl⟩
  | rttInitRipas rdAddr base top =>
    obtain ⟨F', height, ht⟩ := hd
    exact ⟨F', ht.effects fun l hl => ⟨height, hl⟩⟩
  | rttSetRipas rdAddr recAddr base top => exact RipasSet.effects h hd
  | rsi recAddr call => exact RealmRsiDone.effects h hd
  | recExit recAddr =>
    rcases hd with ⟨-, rfl⟩ | ⟨hrun, rfl⟩
    · exact ⟨F, .refl h⟩
    · have hrec := (recRunning_spec hrun).1
      exact ⟨F, .one h (wf_recCount h hrec 0) (.quiet (quiet_recCount hrec 0)) rfl⟩

end RmmCaec
