import RmmCaec.Replay

/-!
# Ownership of VMIDs

The bitmap of used VMIDs changes when a realm is made and when one is destroyed,
and only if the call succeeds: the exits of `smc_realm_create` behind the
reservation give the VMID back. At every call boundary the bitmap holds the VMIDs
of the existing realms and no others.
-/
namespace RmmCaec
open RadixForest Outcome Runs

/-- The realms, their geometries and the VMID bitmap are the same. -/
structure SameRealms (s s' : State) : Prop where
  isRd : ∀ g, (s'.granule g).state = .RD ↔ (s.granule g).state = .RD
  ctx : ∀ g, (s.granule g).state = .RD → (s'.rd g).s2Ctx = (s.rd g).s2Ctx
  vmids : s'.vmids = s.vmids

theorem SameRealms.refl (s : State) : SameRealms s s := ⟨fun _ => .rfl, fun _ _ => rfl, rfl⟩

theorem SameRealms.trans {s s1 s' : State} (h : SameRealms s s1) (h' : SameRealms s1 s') :
    SameRealms s s' where
  isRd g := (h'.isRd g).trans (h.isRd g)
  ctx g hg := (h'.ctx g ((h.isRd g).mpr hg)).trans (h.ctx g hg)
  vmids := h'.vmids.trans h.vmids

/-- Only planting and felling root tables changes the set of realms or the bitmap. -/
theorem Micro.sameRealms {s s' : State} {F F' : Tables} {l : Effect} (h : Holds s F)
    (hm : Micro s F l s' F') (hplant : ∀ rd, l ≠ .plant rd) (hfell : ∀ rd, l ≠ .fell rd) :
    SameRealms s s' := by
  cases hm with
  | edit st hsrc =>
    have hsame := st.sameAll h
    exact ⟨fun g => by rw [hsame.state], fun g _ => by rw [hsame.rd], hsame.vmids⟩
  | quiet q => exact ⟨q.rd, q.ctx, q.vmids⟩
  | graft st =>
    exact ⟨fun g => st.state_iff h g (by decide) (by decide),
      fun g hg => by rw [st.same.rd g hg], st.same.vmids⟩
  | fold st _ _ _ =>
    exact ⟨fun g => st.state_iff h g (by decide) (by decide),
      fun g hg => by rw [st.same.rd g hg], st.same.vmids⟩
  | destroy st _ _ _ =>
    exact ⟨fun g => st.state_iff h g (by decide) (by decide),
      fun g hg => by rw [st.same.rd g hg], st.same.vmids⟩
  | @plant rd _ _ st => exact absurd rfl (hplant rd)
  | @fell rd _ _ st => exact absurd rfl (hfell rd)

/-- The calls that make or destroy a realm. -/
def Act.makesRealms : Act → Bool
  | .realmCreate .. | .realmDestroy .. => true
  | _ => false

/-- Every other call keeps the realms and the bitmap. -/
theorem Effects.sameRealms {plat : Platform} {s s' : State} {F F' : Tables} {act : Act}
    (he : Effects plat s F act s' F') (hact : act.makesRealms = false) : SameRealms s s' := by
  obtain ⟨-, ls, hls, hC⟩ := he
  refine Micros.invariant (fun s1 _ => SameRealms s s1) (StepEffect plat s act) ?_ hls hC
    (SameRealms.refl s)
  intro s1 F1 l s2 F2 hw hl hmic h1
  refine h1.trans (hmic.sameRealms hw.holds ?_ ?_)
  · rintro rd rfl
    cases hl.kind with
    | plant hc => rw [hc] at hact; cases hact
  · rintro rd rfl
    cases hl.kind with
    | fell hc => rw [hc] at hact; cases hact

/-- The set bits are the VMIDs of the realms, each realm has its own, and all of them
are in the supported range. -/
structure VmidsOwned (plat : Platform) (s : State) : Prop where
  used : ∀ v, s.vmids v = true ↔ ∃ rd, (s.granule rd).state = .RD ∧ (s.rd rd).s2Ctx.vmid = v
  distinct : ∀ a b, (s.granule a).state = .RD → (s.granule b).state = .RD →
    (s.rd a).s2Ctx.vmid = (s.rd b).s2Ctx.vmid → a = b
  inRange : ∀ rd, (s.granule rd).state = .RD → (s.rd rd).s2Ctx.vmid < vmidCount plat

namespace VmidsOwned

variable {plat : Platform} {s s' : State}

theorem of_sameRealms (h : VmidsOwned plat s) (hsame : SameRealms s s') : VmidsOwned plat s' where
  used v := by
    rw [hsame.vmids, h.used]
    constructor
    · rintro ⟨rd, hrd, rfl⟩
      exact ⟨rd, (hsame.isRd rd).mpr hrd, by rw [hsame.ctx rd hrd]⟩
    · rintro ⟨rd, hrd, rfl⟩
      have hold := (hsame.isRd rd).mp hrd
      exact ⟨rd, hold, by rw [hsame.ctx rd hold]⟩
  distinct a b ha hb hab := by
    have ha' := (hsame.isRd a).mp ha
    have hb' := (hsame.isRd b).mp hb
    rw [hsame.ctx a ha', hsame.ctx b hb'] at hab
    exact h.distinct a b ha' hb' hab
  inRange rd hrd := by
    have hold := (hsame.isRd rd).mp hrd
    rw [hsame.ctx rd hold]
    exact h.inRange rd hold

/-- A new realm takes a free VMID. -/
theorem plant (h : VmidsOwned plat s) {rdAddr : Word} {ctx : S2ttContext}
    (p : Planted s rdAddr ctx s') (hcount : ctx.vmid < vmidCount plat) : VmidsOwned plat s' := by
  have hself : (s'.rd rdAddr).s2Ctx = ctx := by rw [p.rd_self]
  have hold : ∀ g, (s.granule g).state = .RD → (s'.rd g).s2Ctx = (s.rd g).s2Ctx :=
    fun g hg => by rw [p.rd_of_ne hg]
  have hfree : ∀ g, (s.granule g).state = .RD → (s.rd g).s2Ctx.vmid ≠ ctx.vmid := by
    intro g hg hv
    have hused := (h.used ctx.vmid).mpr ⟨g, hg, hv⟩
    rw [p.vmidFree] at hused
    cases hused
  refine ⟨fun v => ?_, fun a b ha hb hab => ?_, fun rd hrd => ?_⟩
  · rw [p.vmids]
    by_cases hv : v = ctx.vmid
    · subst hv
      simp only [Function.update_self, true_iff]
      exact ⟨rdAddr, (p.isRd rdAddr).mpr (.inr rfl), by rw [hself]⟩
    · rw [Function.update_of_ne hv, h.used]
      constructor
      · rintro ⟨rd, hrd, rfl⟩
        exact ⟨rd, (p.isRd rd).mpr (.inl hrd), by rw [hold rd hrd]⟩
      · rintro ⟨rd, hrd, rfl⟩
        obtain hrd | rfl := (p.isRd rd).mp hrd
        · exact ⟨rd, hrd, by rw [hold rd hrd]⟩
        · rw [hself] at hv
          exact absurd rfl hv
  · obtain ha | rfl := (p.isRd a).mp ha <;> obtain hb | rfl := (p.isRd b).mp hb
    · rw [hold a ha, hold b hb] at hab
      exact h.distinct a b ha hb hab
    · rw [hold a ha, hself] at hab
      exact absurd hab (hfree a ha)
    · rw [hold b hb, hself] at hab
      exact absurd hab.symm (hfree b hb)
    · rfl
  · obtain hrd | rfl := (p.isRd rd).mp hrd
    · rw [hold rd hrd]
      exact h.inRange rd hrd
    · rw [hself]
      exact hcount

/-- A destroyed realm gives its VMID back, and nobody else had it. -/
theorem fell (h : VmidsOwned plat s) {rdAddr : Word} (p : Felled s rdAddr s') :
    VmidsOwned plat s' := by
  have hold : ∀ g, (s.granule g).state = .RD → g ≠ rdAddr →
      (s'.rd g).s2Ctx = (s.rd g).s2Ctx :=
    fun g hg hne => by rw [p.rd_same hg hne]
  refine ⟨fun v => ?_, fun a b ha hb hab => ?_, fun rd hrd => ?_⟩
  · rw [p.vmids]
    by_cases hv : v = (s.rd rdAddr).s2Ctx.vmid
    · subst hv
      simp only [Function.update_self, Bool.false_eq_true, false_iff]
      rintro ⟨rd, hrd, heq⟩
      obtain ⟨hrd, hne⟩ := (p.isRd rd).mp hrd
      rw [hold rd hrd hne] at heq
      exact hne (h.distinct rd rdAddr hrd p.wasRd heq)
    · rw [Function.update_of_ne hv, h.used]
      constructor
      · rintro ⟨rd, hrd, rfl⟩
        have hne : rd ≠ rdAddr := by
          rintro rfl
          exact hv rfl
        exact ⟨rd, (p.isRd rd).mpr ⟨hrd, hne⟩, by rw [hold rd hrd hne]⟩
      · rintro ⟨rd, hrd, rfl⟩
        obtain ⟨hrd, hne⟩ := (p.isRd rd).mp hrd
        exact ⟨rd, hrd, by rw [hold rd hrd hne]⟩
  · obtain ⟨ha, hna⟩ := (p.isRd a).mp ha
    obtain ⟨hb, hnb⟩ := (p.isRd b).mp hb
    rw [hold a ha hna, hold b hb hnb] at hab
    exact h.distinct a b ha hb hab
  · obtain ⟨hrd, hne⟩ := (p.isRd rd).mp hrd
    rw [hold rd hrd hne]
    exact h.inRange rd hrd

end VmidsOwned

/-- One call keeps the ownership of VMIDs. -/
theorem VmidsOwned.next {plat : Platform} {s s' : State} {F : Tables} {act : Act} (hw : Wf s F)
    (h : VmidsOwned plat s) (hn : Next plat s act s') : VmidsOwned plat s' := by
  obtain ⟨⟨reply, hd⟩, F', he⟩ := hn.done hw
  cases hact : act.makesRealms with
  | false => exact h.of_sameRealms (he.sameRealms hact)
  | true =>
    cases act with
    | realmCreate rdAddr paramsAddr nsRead =>
      obtain ⟨res, -, ⟨rfl, -⟩ | ⟨-, ctx, p⟩⟩ := hd
      · exact h
      obtain hold | ⟨-, prm, -, hctx, hcount⟩ :=
        hn.realm_new hw ((p.isRd rdAddr).mpr (.inr rfl))
      · rw [p.fresh rdAddr (.inl rfl)] at hold
        cases hold
      rw [p.rd_self] at hctx
      refine h.plant p ?_
      rw [show ctx = paramsCtx plat prm from hctx]
      exact hcount
    | realmDestroy rdAddr =>
      obtain ⟨res, -, ⟨rfl, -⟩ | ⟨-, p⟩⟩ := hd
      · exact h
      · exact h.fell p
    | _ => cases hact

theorem Reached.vmidsOwned {plat : Platform} {guard : State → Act → Prop} {s : State}
    (h : Reached plat guard s) : VmidsOwned plat s := by
  have hinit : VmidsOwned plat initState :=
    ⟨fun v => by simp [initState], fun a b ha => by simp [initState] at ha,
      fun rd hrd => by simp [initState] at hrd⟩
  refine Reach.invariant hinit ?_ h
  intro s act s' hs hI _ hn
  obtain ⟨F, hF⟩ := Reached.wf hs
  exact hI.next hF hn

/-- A call that returns an error leaves the bitmap as it was. -/
theorem vmids_of_error {plat : Platform} {s s' : State} {F : Tables} {act : Act} (hw : Wf s F)
    {res : SmcResult} (hstep : step plat s act = .ok (s', .smc res))
    (herr : res.ret.status ≠ .SUCCESS) : s'.vmids = s.vmids := by
  have hd : StepDone plat s F s' (.smc res) act := (step_sat hw act).of_ok hstep
  cases hact : act.makesRealms with
  | false =>
    obtain ⟨-, F', he⟩ := Next.done hw ⟨_, hstep⟩
    exact (he.sameRealms hact).vmids
  | true =>
    cases act with
    | realmCreate rdAddr paramsAddr nsRead =>
      obtain ⟨res', hres, ⟨rfl, -⟩ | ⟨hret, -⟩⟩ := hd
      · rfl
      · cases hres
        rw [hret] at herr
        exact absurd rfl herr
    | realmDestroy rdAddr =>
      obtain ⟨res', hres, ⟨rfl, -⟩ | ⟨hret, -⟩⟩ := hd
      · rfl
      · cases hres
        rw [hret] at herr
        exact absurd rfl herr
    | _ => cases hact

/-- VMIDs are exclusive and none is leaked: at every call boundary the bitmap holds
the VMIDs of the existing realms, which are different and in range, and a call
that returns an error does not change it. -/
theorem vmids_exclusive {plat : Platform} {s : State} (h : Reachable plat s) :
    VmidsOwned plat s ∧ ∀ act s' res, step plat s act = .ok (s', .smc res) →
      res.ret.status ≠ .SUCCESS → s'.vmids = s.vmids := by
  obtain ⟨F, hF⟩ := Reached.wf h
  exact ⟨Reached.vmidsOwned h, fun act s' res hstep herr => vmids_of_error hF hstep herr⟩

set_option maxRecDepth 100000 in
/-- A second realm that asks for a VMID in use is refused. -/
theorem vmids_exclusive_demo : ∃ s s' res, Reachable demoPlat s ∧
    step demoPlat s (.realmCreate (gr 64) (gr 0) (some (demoParams 65 1))) = .ok (s', .smc res) ∧
    res.ret.status ≠ .SUCCESS ∧ s.vmids 1 = true ∧ VmidsOwned demoPlat s ∧
    s'.vmids = s.vmids := by
  have hrun : replayEnds (demoKeys [16] [] [0]) demoPlat (fun _ _ => true) (demoRealm 16 1)
      (fun s => s.vmids 1 && (s.granule (gr 0)).state == .NS) = true := by
    decide +kernel
  obtain ⟨s, hs, ht⟩ := replayEnds_reachable hrun
  simp only [Bool.and_eq_true, beq_iff_eq] at ht
  have hres : vmidReserve demoPlat s 1 = none := by simp [vmidReserve, vmidCount, ht.1]
  have hstep : step demoPlat s (.realmCreate (gr 64) (gr 0) (some (demoParams 65 1))) =
      .ok (s, .smc (smcRet rmiErrorInput)) := by
    have hfind : findGranule demoPlat (gr 0) = true := by decide
    have hvalid : realmParamsValid demoPlat (demoParams 65 1) = true := by decide
    simp only [step, smcRealmCreate, smcReply, hfind, ht.2, hvalid]
    rw [show (demoParams 65 1).vmid = 1 from rfl, hres]
    rfl
  have herr : (smcRet rmiErrorInput).ret.status ≠ .SUCCESS := by decide
  obtain ⟨hown, hkeep⟩ := vmids_exclusive hs
  exact ⟨s, s, _, hs, hstep, herr, ht.1, hown, hkeep _ _ _ hstep herr⟩

end RmmCaec
