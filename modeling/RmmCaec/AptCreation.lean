import RmmCaec.AptInvariants
import RmmCaec.RealmTags

/-!
# The creation of attachment tables

The tag registry of a reachable state is well formed. Creating a table resets the
granule before the state of the realm is looked at, ignores whether a tag was
assigned, and forgets the table that the realm had before; when none of this
matters the call is all or nothing.
-/
namespace RmmCaec

open RadixForest Outcome Runs

variable {plat : Platform} {s s' : State} {F : Tables}

theorem RsiDone.tags {recAddr : Word} {res : RsiResult} {call : RsiCall}
    (hd : RsiDone plat s F recAddr s' res call) : s'.tags = s.tags := by
  cases call with
  | csmCreate x2 x3 =>
    rcases hd with ⟨rfl, -⟩ | ⟨ids, -, rfl, -⟩ | ⟨ids, id, -, rfl, -⟩ |
      ⟨-, -, -, -, ids, id, apt', idx, -, -, rfl⟩ <;> rfl
  | csmShare x1 x2 x3 =>
    rcases hd with ⟨rfl, -⟩ | ⟨-, -, _, _, _, _, -, -, -, -, rfl⟩ <;> rfl
  | csmReserve x1 x2 x3 =>
    rcases hd with rfl | ⟨-, -, -, _, _, _, _, -, -, -, -, -, -, -, -, -, rfl⟩ <;> rfl
  | csmAttach x1 =>
    rcases hd with ⟨rfl, -⟩ | ⟨-, _, _, _, -, -, -, -, hm⟩
    · rfl
    · exact hm.same.tags
  | csmDetachAndFree x1 =>
    rcases hd with ⟨rfl, -⟩ | ⟨-, _, _, -, -, hc⟩
    · rfl
    · exact hc.tags
  | csmRevoke x1 =>
    rcases hd with ⟨rfl, -⟩ | ⟨-, _, _, _, -, -, hc⟩
    · rfl
    · exact hc.tags
  | csmDestroy x1 =>
    rcases hd with ⟨rfl, -⟩ | ⟨-, -, _, -, -, rfl⟩ <;> rfl
  | ipaStateSet x1 x2 x3 x4 =>
    have hs : s' = (handleRsiIpaStateSet s recAddr x1 x2 x3 x4).1 := congrArg Prod.fst hd
    rcases handleRsiIpaStateSet_spec s recAddr x1 x2 x3 x4 with h1 | ⟨req, h1⟩
    · rw [hs, h1]
    · rw [hs, h1]
      rfl
  | systemOff =>
    have hs : s' = s.setRd _ _ := hd
    rw [hs]
    rfl

/-- A step leaves the tags alone or makes one call of the registry. -/
theorem StepDone.tags {reply : Reply} {act : Act} (h : Wf s F)
    (hd : StepDone plat s F s' reply act) : ∃ calls : List TagCall,
      s'.tags = calls.foldl tagCall s.tags := by
  cases hact : act.sharing with
  | false => exact ⟨[], (hd.calm h hact).tags⟩
  | true =>
    rcases Act.sharing_cases hact with ⟨rdAddr, aptAddr, rfl⟩ | ⟨rdAddr, aptAddr, rfl⟩ |
      ⟨recAddr, call, rfl⟩
    · obtain ⟨res, -, ⟨rfl, -⟩ | ⟨-, -, -, ⟨-, -, rfl⟩ | ⟨-, -, rfl⟩⟩⟩ := hd
      · exact ⟨[], rfl⟩
      · exact ⟨[], rfl⟩
      · exact ⟨[.assign rdAddr], rfl⟩
    · obtain ⟨res, -, ⟨rfl, -⟩ | ⟨-, F', hf⟩⟩ := hd
      · exact ⟨[], rfl⟩
      · exact ⟨[.remove rdAddr], hf.tags⟩
    · rcases RealmRsiDone.cases hd with rfl | ⟨s1, res, -, hdone, -, hsame⟩
      · exact ⟨[], rfl⟩
      · exact ⟨[], hsame.tags.trans hdone.tags⟩

theorem Reached.tags_ok {guard : State → Act → Prop} (h : Reached plat guard s) :
    s.tags.Ok := by
  refine Reached.records (I := fun s => s.tags.Ok) TagRegistry.ok_default ?_ h
  rintro s F act s' reply - hF hI - hd
  obtain ⟨calls, hcalls⟩ := hd.tags hF
  rw [hcalls]
  exact hI.calls calls

/-- The table is linked to the realm, and the realm asks for a tag. -/
def linkApt (s : State) (rdAddr aptAddr : Word) : State :=
  ({ s.setRd rdAddr { s.rd rdAddr with aptPa := aptAddr } with
    tags := realmTagAssign s.tags rdAddr }).setState aptAddr .APT

variable (plat) in
/-- The call on a well-formed state always returns: after a refused lock nothing has
changed, after a refused realm the granule is an APT all the same. -/
theorem smcAptCreate_cases (h : Wf s F) (rdAddr aptAddr : Word) :
    (findLockTwoGranules plat s aptAddr .DELEGATED rdAddr .RD = false ∧
      smcAptCreate plat s rdAddr aptAddr = .ok (s, smcRet rmiErrorRealm)) ∨
    (findLockTwoGranules plat s aptAddr .DELEGATED rdAddr .RD = true ∧
    (s.rd rdAddr).state ≠ .NEW ∧
      smcAptCreate plat s rdAddr aptAddr = .ok (s.setState aptAddr .APT, smcRet rmiErrorRealm)) ∨
    (findLockTwoGranules plat s aptAddr .DELEGATED rdAddr .RD = true ∧
    (s.rd rdAddr).state = .NEW ∧
      smcAptCreate plat s rdAddr aptAddr = .ok (linkApt s rdAddr aptAddr, smcRet rmiSuccess)) := by
  unfold smcAptCreate
  cases hlock : findLockTwoGranules plat s aptAddr .DELEGATED rdAddr .RD with
  | false => exact .inl ⟨rfl, rfl⟩
  | true =>
    obtain ⟨-, hd, -⟩ := findLockTwoGranules_iff hlock
    have hdel := lockable_state hd
    have hcount : (s.granule aptAddr).refcount = 0 := h.plain aptAddr (by rw [hdel]; rfl)
    have hunlock : ∀ s1 : State, s1.granule = s.granule →
        granuleUnlockTransition s1 aptAddr .APT = .ok (s1.setState aptAddr .APT) := by
      intro s1 hs1
      simp only [granuleUnlockTransition, granuleUnlock, assertThat, State.setState_self, hs1,
        hcount]
      rfl
    simp only [setApt_blank h (by rw [hdel]; rfl : (s.granule aptAddr).state.blank = true),
      Bool.not_true, Bool.false_eq_true, if_false]
    by_cases hnew : (s.rd rdAddr).state = .NEW
    · refine .inr (.inr ⟨trivial, hnew, ?_⟩)
      simp only [if_neg (not_not.mpr hnew)]
      rw [hunlock ({ s.setRd rdAddr _ with tags := _ }) rfl]
      rfl
    · refine .inr (.inl ⟨trivial, hnew, ?_⟩)
      simp only [if_pos hnew]
      rw [hunlock s rfl]
      rfl

/-- All or nothing: after an error the state is the old one, after a success the new
realm has an empty table and a tag, and the table it had before is not orphaned. -/
structure AptCreateClean (s : State) (rdAddr : Word) (s' : State) (ret : ReturnCode) : Prop where
  unchanged : ret ≠ rmiSuccess → s' = s
  isNew : ret = rmiSuccess → (s'.rd rdAddr).state = .NEW
  isApt : ret = rmiSuccess → (s'.granule (s'.rd rdAddr).aptPa).state = .APT
  empty : ret = rmiSuccess → s'.apt (s'.rd rdAddr).aptPa = default
  tagged : ret = rmiSuccess → (realmTagGetByRd s'.tags rdAddr).isSome = true
  linked : ret = rmiSuccess → (s.granule (s.rd rdAddr).aptPa).state = .APT →
    ∃ rd, (s'.granule rd).state = .RD ∧ (s'.rd rd).aptPa = (s.rd rdAddr).aptPa

/-- If the two locks are granted, the realm is new, it has or can get a tag, and a table
that it has already belongs to another realm as well. -/
def AptCreateGuarded (plat : Platform) (s : State) (rdAddr aptAddr : Word) : Prop :=
  findLockTwoGranules plat s aptAddr .DELEGATED rdAddr .RD = true →
    (s.rd rdAddr).state = .NEW ∧
    ((realmTagGetByRd s.tags rdAddr).isSome = true ∨ s.tags.used.card < configMaxRealms) ∧
    ((s.granule (s.rd rdAddr).aptPa).state = .APT → ∃ rd, rd ≠ rdAddr ∧
      (s.granule rd).state = .RD ∧ (s.rd rd).aptPa = (s.rd rdAddr).aptPa)

/-- The realm is found under a tag exactly if it had one or an entry was free. -/
theorem TagRegistry.Ok.tagged_assign_iff {t : TagRegistry} (h : t.Ok) (rdPa : Word) :
    (realmTagGetByRd (realmTagAssign t rdPa) rdPa).isSome = true ↔
      (realmTagGetByRd t rdPa).isSome = true ∨ t.used.card < configMaxRealms := by
  cases hold : realmTagGetByRd t rdPa with
  | some tag =>
    have hfind : (findSlotByRd t rdPa).isSome = true := by
      unfold realmTagGetByRd at hold
      cases hf : findSlotByRd t rdPa with
      | none => rw [hf] at hold; cases hold
      | some i => rfl
    have hsame : realmTagAssign t rdPa = t := by
      unfold realmTagAssign
      rw [if_pos hfind]
    simp [hsame, hold]
  | none =>
    have hiff := h.assign_isSome_iff rdPa
    rw [hold] at hiff
    constructor
    · intro hs
      refine .inr (hiff.mp ?_).2
      by_contra hn
      rcases assign_cases t rdPa with ⟨-, hent⟩ | ⟨slot, tag, -, -, -, -, -, hs', -⟩
      · obtain ⟨tag, htag⟩ := Option.isSome_iff_exists.mp hs
        rw [(h.assign rdPa).getByRd_iff, realmTagAssign_eq, hent, ← h.getByRd_iff, hold] at htag
        cases htag
      · rw [hs'] at hn
        exact hn rfl
    · rintro (hs | hlt)
      · cases hs
      · obtain ⟨tag, htag⟩ := Option.isSome_iff_exists.mp (hiff.mpr ⟨rfl, hlt⟩)
        rw [h.getByRd_assign htag]
        rfl

/-- A table for a new realm, once the locks are granted. -/
theorem aptCreateClean_link_iff (h : Wf s F) (htags : s.tags.Ok) {rdAddr aptAddr : Word}
    (hlock : findLockTwoGranules plat s aptAddr .DELEGATED rdAddr .RD = true)
    (hnew : (s.rd rdAddr).state = .NEW) :
    AptCreateClean s rdAddr (linkApt s rdAddr aptAddr) rmiSuccess ↔
      AptCreateGuarded plat s rdAddr aptAddr := by
  obtain ⟨-, hd, hr⟩ := findLockTwoGranules_iff hlock
  have hdel := lockable_state hd
  have hself : (linkApt s rdAddr aptAddr).rd rdAddr = { s.rd rdAddr with aptPa := aptAddr } :=
    Function.update_self ..
  have hoth : ∀ g, g ≠ rdAddr → (linkApt s rdAddr aptAddr).rd g = s.rd g :=
    fun g hg => Function.update_of_ne hg _ _
  have hapt : ((linkApt s rdAddr aptAddr).granule aptAddr).state = .APT := by
    rw [linkApt, State.setState_self]
  have hgr : ∀ g, g ≠ aptAddr → (linkApt s rdAddr aptAddr).granule g = s.granule g :=
    fun g hg => State.setState_of_ne _ hg _
  constructor
  · intro hc _
    refine ⟨hnew, (htags.tagged_assign_iff rdAddr).mp (hc.tagged rfl), fun hold => ?_⟩
    obtain ⟨rd, hrd, hlink⟩ := hc.linked rfl hold
    have hrda : rd ≠ aptAddr := by
      rintro rfl
      rw [hapt] at hrd
      cases hrd
    have hrdr : rd ≠ rdAddr := by
      rintro rfl
      rw [hself] at hlink
      rw [← hlink, hdel] at hold
      cases hold
    rw [hgr rd hrda] at hrd
    rw [hoth rd hrdr] at hlink
    exact ⟨rd, hrdr, hrd, hlink⟩
  · intro hg
    obtain ⟨-, htag, hold⟩ := hg hlock
    refine ⟨fun hc => absurd rfl hc, fun _ => ?_, fun _ => ?_, fun _ => ?_,
      fun _ => (htags.tagged_assign_iff rdAddr).mpr htag, fun _ hap => ?_⟩
    · rw [hself]
      exact hnew
    · rw [hself]
      exact hapt
    · rw [hself]
      exact (h.zero aptAddr (by rw [hdel]; rfl)).2.2
    · obtain ⟨rd, hrdr, hrd, hlink⟩ := hold hap
      refine ⟨rd, ?_, by rw [hoth rd hrdr, hlink]⟩
      rw [hgr rd, hrd]
      rintro rfl
      rw [hdel] at hrd
      cases hrd

/-- In every reachable state the call returns, and it is all or nothing exactly when it is
guarded. -/
theorem aptCreateClean_iff (hs : Reachable plat s) (rdAddr aptAddr : Word) :
    ∃ s' res, smcAptCreate plat s rdAddr aptAddr = .ok (s', res) ∧
      (AptCreateClean s rdAddr s' res.ret ↔ AptCreateGuarded plat s rdAddr aptAddr) := by
  obtain ⟨F, hF⟩ := Reached.wf hs
  have herr : rmiErrorRealm ≠ rmiSuccess := by decide
  rcases smcAptCreate_cases plat hF rdAddr aptAddr with ⟨hlock, hcall⟩ |
    ⟨hlock, hnew, hcall⟩ | ⟨hlock, hnew, hcall⟩
  · refine ⟨_, _, hcall, fun _ hc => ?_, fun _ => ⟨fun _ => rfl, ?_, ?_, ?_, ?_, ?_⟩⟩
    · rw [hlock] at hc
      cases hc
    all_goals exact fun hc => absurd hc herr
  · refine ⟨_, _, hcall, fun hc => ?_, fun hg => absurd (hg hlock).1 hnew⟩
    have hsame := congrArg (fun s : State => (s.granule aptAddr).state) (hc.unchanged herr)
    obtain ⟨-, hd, -⟩ := findLockTwoGranules_iff hlock
    simp only [State.setState_self, lockable_state hd] at hsame
    cases hsame
  · exact ⟨_, _, hcall, aptCreateClean_link_iff hF (Reached.tags_ok hs) hlock hnew⟩

/-- The first table of the realm at granule 16. -/
theorem aptCreateClean_first : ∃ s, Reachable demoPlat s ∧ ∃ s' res,
    smcAptCreate demoPlat s (gr 16) (gr 21) = .ok (s', res) ∧
      AptCreateClean s (gr 16) s' res.ret := by
  have hrun : replayEnds (demoKeys [16] [] []) demoPlat (fun _ _ => true) ((demoRealm 16 1).take 25)
      (fun s => (s.rd (gr 16)).state == .NEW && decide (s.tags.used.card < configMaxRealms) &&
        (s.granule (s.rd (gr 16)).aptPa).state == .NS) = true := by
    decide +kernel
  obtain ⟨s, hs, ht⟩ := replayEnds_reachable hrun
  simp only [Bool.and_eq_true, beq_iff_eq, decide_eq_true_eq] at ht
  obtain ⟨⟨hnew, hfree⟩, hold⟩ := ht
  obtain ⟨s', res, hcall, hiff⟩ := aptCreateClean_iff hs (gr 16) (gr 21)
  refine ⟨s, hs, s', res, hcall, hiff.mpr fun _ => ⟨hnew, .inr hfree, fun hapt => ?_⟩⟩
  rw [hold] at hapt
  cases hapt

/-- The call is refused for an active realm, and its granule is lost to the host. -/
theorem aptCreate_active_unclean : ∃ s, Reachable demoPlat s ∧ ∃ s' res,
    smcAptCreate demoPlat s (gr 16) (gr 48) = .ok (s', res) ∧ res.ret = rmiErrorRealm ∧
      (s.granule (gr 48)).state = .DELEGATED ∧ (s'.granule (gr 48)).state = .APT ∧
      ¬ AptCreateClean s (gr 16) s' res.ret := by
  have hrun : replayEnds (demoKeys [16] [48] []) demoPlat (fun _ _ => true)
      (demoRealm 16 1 ++ [.granuleDelegate (gr 48) true])
      (fun s => match smcAptCreate demoPlat s (gr 16) (gr 48) with
        | .ok (s', res) => res.ret == rmiErrorRealm && (s.granule (gr 48)).state == .DELEGATED &&
            (s'.granule (gr 48)).state == .APT
        | .error _ => false) = true := by
    decide +kernel
  obtain ⟨s, hs, ht⟩ := replayEnds_reachable hrun
  revert ht
  cases hcall : smcAptCreate demoPlat s (gr 16) (gr 48) with
  | error f => exact fun hc => by cases hc
  | ok p =>
    obtain ⟨s', res⟩ := p
    intro ht
    simp only [Bool.and_eq_true, beq_iff_eq] at ht
    obtain ⟨⟨hret, hdel⟩, hapt⟩ := ht
    refine ⟨s, hs, s', res, hcall, hret, hdel, hapt, fun hc => ?_⟩
    have hsame := hc.unchanged (by rw [hret]; decide)
    rw [hsame, hdel] at hapt
    cases hapt

end RmmCaec
