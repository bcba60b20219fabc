import RmmCaec.RecordSteps

/-!
# Reachable states

The states that calls of the host and of running realms can reach from the start,
with or without a guard on the calls. All of them are well formed, and a law about
the tables is proved by showing that the effects of every allowed step keep it.
-/
namespace RmmCaec

open RadixForest Outcome Runs

/-- A call that returns, with the state it leaves. A call that stops at a fault has
no next state. -/
def Next (plat : Platform) (s : State) (act : Act) (s' : State) : Prop :=
  ∃ reply, step plat s act = .ok (s', reply)

/-- The states reached by calls that all satisfy a guard. -/
abbrev Reached (plat : Platform) (guard : State → Act → Prop) : State → Prop :=
  Reach initState (Next plat) guard

/-- The states reached by any calls. -/
abbrev Reachable (plat : Platform) : State → Prop := Reached plat fun _ _ => True

theorem wf_init : Wf initState fun _ => none where
  holds :=
    { rtt_iff := fun g => by simp [initState]
      ok :=
        { node := fun ht => by cases ht
          root := fun hp => by simp [plotOf, initState] at hp
          top := fun ht => by cases ht
          child := fun ht => by cases ht
          parent := fun ht => by cases ht }
      ctx := fun rd hrd => by simp [initState] at hrd
      word := by rintro t n ⟨⟩ }
  counts := by rintro t n ⟨⟩
  plain := fun _ _ => rfl
  zero := fun _ _ => ⟨rfl, rfl, rfl⟩
  scrubbed := fun _ _ => rfl
  vmid := fun rd hrd => by simp [initState] at hrd
  vmid_inj := fun a b ha => by simp [initState] at ha
  recRd := fun r hr => by simp [initState] at hr
  recCount := fun rd hrd => by simp [initState] at hrd

/-- A step of a well-formed state, as a whole and effect by effect. -/
theorem Next.done {plat : Platform} {s s' : State} {F : Tables} {act : Act} (h : Wf s F)
    (hn : Next plat s act s') : (∃ reply, StepDone plat s F s' reply act) ∧
      ∃ F', Effects plat s F act s' F' := by
  obtain ⟨reply, hs⟩ := hn
  have hd := (step_sat h act).of_ok hs
  exact ⟨⟨reply, hd⟩, hd.effects h⟩

namespace Reached

variable {plat : Platform} {guard : State → Act → Prop} {s : State}

theorem wf (h : Reached plat guard s) : ∃ F, Wf s F := by
  refine Reach.invariant (I := fun s => ∃ F, Wf s F) ⟨_, wf_init⟩ ?_ h
  rintro s act s' - ⟨F, hF⟩ - hn
  obtain ⟨-, F', hw, -⟩ := hn.done hF
  exact ⟨F', hw⟩

theorem reachable (h : Reached plat guard s) : Reachable plat s := h.mono fun _ _ _ => trivial

/-- A law about the tables that the effects of every allowed step keep. -/
theorem tables {J : State → Tables → Prop} (h0 : J initState fun _ => none)
    (hstep : ∀ s F act s' F', Reached plat guard s → Wf s F → J s F → guard s act →
      Effects plat s F act s' F' → J s' F')
    (h : Reached plat guard s) : ∃ F, Wf s F ∧ J s F := by
  have hinv : Reached plat guard s ∧ ∃ F, Wf s F ∧ J s F := by
    refine Reach.invariant (I := fun s => Reached plat guard s ∧ ∃ F, Wf s F ∧ J s F)
      ⟨.init, _, wf_init, h0⟩ ?_ h
    rintro s act s' hs ⟨-, F, hF, hJ⟩ hg hn
    obtain ⟨-, F', he⟩ := hn.done hF
    exact ⟨.step hs hg hn, F', he.1, hstep s F act s' F' hs hF hJ hg he⟩
  exact hinv.2

/-- A law about the records that every allowed step keeps. -/
theorem records {I : State → Prop} (h0 : I initState)
    (hstep : ∀ s F act s' reply, Reached plat guard s → Wf s F → I s → guard s act →
      StepDone plat s F s' reply act → I s')
    (h : Reached plat guard s) : I s := by
  refine Reach.invariant h0 ?_ h
  intro s act s' hs hI hg hn
  obtain ⟨F, hF⟩ := Reached.wf hs
  obtain ⟨⟨reply, hd⟩, -⟩ := hn.done hF
  exact hstep s F act s' reply hs hF hI hg hd

end Reached

/-- Only planting root tables makes a realm. -/
theorem Micro.rd_old {s s' : State} {F F' : Tables} {l : Effect} (h : Holds s F)
    (hm : Micro s F l s' F') {rd : Word} (hrd : (s'.granule rd).state = .RD) :
    (s.granule rd).state = .RD ∨ l = .plant rd := by
  cases hm with
  | edit st hsrc => exact .inl (by rwa [(st.sameAll h).state rd] at hrd)
  | quiet q => exact .inl ((q.rd rd).mp hrd)
  | graft st => exact .inl ((st.state_iff h rd (by decide) (by decide)).mp hrd)
  | fold st _ _ _ => exact .inl ((st.state_iff h rd (by decide) (by decide)).mp hrd)
  | destroy st _ _ _ => exact .inl ((st.state_iff h rd (by decide) (by decide)).mp hrd)
  | plant st => exact ((st.isRd rd).mp hrd).imp id fun he => by rw [he]
  | fell st => exact .inl ((st.isRd rd).mp hrd).1

/-- A realm that was not there before is made by the call that names it. -/
theorem Effects.rd_old {plat : Platform} {s s' : State} {F F' : Tables} {act : Act}
    (he : Effects plat s F act s' F') {rd : Word} (hrd : (s'.granule rd).state = .RD) :
    (s.granule rd).state = .RD ∨ ∃ paramsAddr nsRead, act =
      .realmCreate rd paramsAddr nsRead := by
  obtain ⟨-, ls, hls, hC⟩ := he
  refine Micros.invariant (fun s1 _ => (s1.granule rd).state = .RD →
    (s.granule rd).state = .RD ∨
    ∃ paramsAddr nsRead, act = .realmCreate rd paramsAddr nsRead)
      (StepEffect plat s act) ?_ hls hC
    .inl hrd
  intro s1 F1 l s2 F2 hw hl hmic h1 hrd
  obtain hold | rfl := hmic.rd_old hw.holds hrd
  · exact h1 hold
  · cases hl.kind with
    | plant hact => exact .inr ⟨_, _, hact⟩

/-- A realm that was not there before has the geometry that the host asked for
and a VMID in the supported range. -/
theorem Next.realm_new {plat : Platform} {s s' : State} {F : Tables} {act : Act} (h : Wf s F)
    (hn : Next plat s act s') {rd : Word} (hrd : (s'.granule rd).state = .RD) :
    (s.granule rd).state = .RD ∨ ∃ paramsAddr p, act = .realmCreate rd paramsAddr (some p) ∧
      (s'.rd rd).s2Ctx = paramsCtx plat p ∧ p.vmid < vmidCount plat := by
  obtain ⟨-, F', he⟩ := hn.done h
  obtain hold | ⟨paramsAddr, nsRead, rfl⟩ := he.rd_old hrd
  · exact .inl hold
  obtain ⟨reply, hs⟩ := hn
  obtain ⟨x, -, hsame | ⟨p, rfl, hctx, hcount⟩⟩ :=
    (smcReply_sat (smcRealmCreate_params plat s rd paramsAddr nsRead)).of_ok hs
  · rw [hsame] at hrd
    exact .inl hrd
  · exact .inr ⟨paramsAddr, p, rfl, hctx, hcount⟩

/-- All realms are among those that a run makes. -/
theorem Reached.realm_of_created {plat : Platform} {s : State} {rds : List Word}
    (h : Reached plat (fun _ act => ∀ rd paramsAddr nsRead,
      act = .realmCreate rd paramsAddr nsRead → rd ∈ rds) s) {rd : Word}
    (hrd : (s.granule rd).state = .RD) : rd ∈ rds := by
  obtain ⟨F, -, hJ⟩ := h.tables (J :=
    fun s _ => ∀ rd, (s.granule rd).state = .RD → rd ∈ rds)
    (fun rd hrd => by simp [initState] at hrd) (by
      intro s F act s' F' _ _ hJ hg he rd hrd
      obtain hold | ⟨paramsAddr, nsRead, hact⟩ := he.rd_old hrd
      · exact hJ rd hold
      · exact hg rd paramsAddr nsRead hact)
  exact hJ rd hrd

end RmmCaec
