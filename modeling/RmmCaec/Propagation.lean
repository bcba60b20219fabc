import RmmCaec.PageEdits

/-!
# The partners that a page action is mirrored into

Which realm and which address each part of the propagation visits depends only
on the realm descriptors and the attachment tables, and the page actions change
neither. So the propagation is a fold of the action over a list of targets that
can be read off the state before it starts.
-/
namespace RmmCaec

open RadixForest Outcome

/-- A lookup that locks succeeds. -/
def lockable (plat : Platform) (s : State) (addr : Word) (expected : GranuleState) : Bool :=
  findGranule plat addr && (s.granule addr).state == expected

theorem lockable_state {plat : Platform} {s : State} {addr : Word} {expected : GranuleState}
    (h : lockable plat s addr expected = true) : (s.granule addr).state = expected := by
  simp only [lockable, Bool.and_eq_true, beq_iff_eq] at h
  exact h.2

theorem lockable_congr {plat : Platform} {s s' : State} (h : SameAll s s') (addr : Word)
    (expected : GranuleState) : lockable plat s' addr expected = lockable plat s addr expected := by
  rw [lockable, lockable, h.state]

theorem findLockGranule_sat {plat : Platform} {s : State} {held : List Word} {addr : Word}
    {expected : GranuleState} {α : Type} {k : Bool → Rmm α} {Q : α → Prop}
    {E : Fault → Prop}
    (hE : E .deadlock) (hk : Sat (k (lockable plat s addr expected)) Q E) :
    Sat (findLockGranule plat s held addr expected >>= k) Q E := by
  unfold findLockGranule
  unfold lockable at hk
  cases hf : findGranule plat addr with
  | false =>
    rw [hf] at hk
    exact hk
  | true =>
    rw [hf, Bool.true_and] at hk
    by_cases hm : addr ∈ held
    · simp only [if_true, hm]
      exact Sat.error_bind hE
    · simp only [if_true, hm, if_false]
      exact hk

/-- The realm and the address behind one share slot of a master's region. -/
def slotTarget (plat : Platform) (s : State) (m : MasterMem) (offset : Word) (si : ℕ) :
    Option (Word × Word) :=
  let slaveRdPa := (m.shares si).slaveRdPa
  let aptPa := (s.rd slaveRdPa).aptPa
  if (m.shares si).inUse && lockable plat s slaveRdPa .RD && lockable plat s aptPa .APT then
    (aptFindSlaveByRegionId (s.apt aptPa) m.regionId).map fun sj =>
      (slaveRdPa, ((s.apt aptPa).slaveMemory sj).ipaStart + offset)
  else none

/-- The slaves of the first enabled master region that contains the address. -/
def masterTargets (plat : Platform) (s : State) (apt : Apt) (mapAddr : Word) :
    List (Word × Word) :=
  match (List.range apt.enabledMr.len).find? fun pos =>
      let m := apt.masterMemory (apt.enabledMr.index pos)
      inRegion m.ipaStart m.mapSize mapAddr with
  | none => []
  | some pos =>
    let m := apt.masterMemory (apt.enabledMr.index pos)
    (List.range csmMaxMasterShares).filterMap (slotTarget plat s m (mapAddr - m.ipaStart))

/-- The master of the first enabled slave region that contains the address. -/
def slaveTargets (plat : Platform) (s : State) (apt : Apt) (mapAddr : Word) :
    List (Word × Word) :=
  match (List.range apt.enabledSr.len).find? fun pos =>
      let m := apt.slaveMemory (apt.enabledSr.index pos)
      inRegion m.ipaStart m.mapSize mapAddr with
  | none => []
  | some pos =>
    let m := apt.slaveMemory (apt.enabledSr.index pos)
    let aptPa := (s.rd m.masterRdPa).aptPa
    if lockable plat s m.masterRdPa .RD && lockable plat s aptPa .APT then
      match aptFindMasterByRegionId (s.apt aptPa) m.regionId with
      | none => []
      | some mi =>
        [(m.masterRdPa, ((s.apt aptPa).masterMemory mi).ipaStart + (mapAddr - m.ipaStart))]
    else []

/-- The pages that `csm_propagate_create` and `csm_propagate_destroy` visit. -/
def csmTargets (plat : Platform) (s : State) (rdAddr mapAddr : Word) : List (Word × Word) :=
  let aptPa := (s.rd rdAddr).aptPa
  if lockable plat s rdAddr .RD && aptPa != 0#64 && lockable plat s aptPa .APT then
    masterTargets plat s (s.apt aptPa) mapAddr ++ slaveTargets plat s (s.apt aptPa) mapAddr
  else []

theorem slotTarget_isRd {plat : Platform} {s : State} {m : MasterMem} {offset : Word} {si : ℕ}
    {tgt : Word × Word} (h : slotTarget plat s m offset si = some tgt) :
    (s.granule tgt.1).state = .RD := by
  unfold slotTarget at h
  simp only at h
  split at h
  case isTrue hc =>
    simp only [Bool.and_eq_true] at hc
    obtain ⟨sj, -, rfl⟩ := Option.map_eq_some_iff.mp h
    exact lockable_state hc.1.2
  case isFalse => cases h

theorem csmTargets_isRd {plat : Platform} {s : State} {rdAddr mapAddr : Word} {tgt : Word × Word}
    (h : tgt ∈ csmTargets plat s rdAddr mapAddr) : (s.granule tgt.1).state = .RD := by
  unfold csmTargets at h
  simp only at h
  split at h
  case isFalse => cases h
  rcases List.mem_append.mp h with h | h
  · unfold masterTargets at h
    split at h
    · cases h
    · obtain ⟨si, -, hsi⟩ := List.mem_filterMap.mp h
      exact slotTarget_isRd hsi
  · unfold slaveTargets at h
    split at h
    · cases h
    · simp only at h
      split at h
      case isFalse => cases h
      case isTrue hc =>
        split at h
        · cases h
        · rw [List.mem_singleton] at h
          subst h
          rw [Bool.and_eq_true] at hc
          exact lockable_state hc.1

section

variable {plat : Platform} {action : State → S2ttContext → Word → Rmm State} {s : State}
  {E : Fault → Prop} (I : List (Word × Word) → State → Prop)

/-- One share slot: nothing, or the action at its target. -/
theorem csmPropagateSlot_sat (hE : E .deadlock) {held : List Word} {m : MasterMem} {offset : Word}
    {si : ℕ} {cur : State} {done : List (Word × Word)} (hsame : SameAll s cur)
    (hI : I done cur)
    (hact : ∀ tgt, slotTarget plat s m offset si = some tgt →
      Sat (action cur (s.rd tgt.1).s2Ctx tgt.2) (I (done ++ [tgt])) E) :
    Sat (csmPropagateSlot plat action held m offset cur si)
      (I (done ++ (slotTarget plat s m offset si).toList)) E := by
  unfold csmPropagateSlot
  unfold slotTarget at hact ⊢
  simp only at hact ⊢
  cases huse : (m.shares si).inUse with
  | false => exact Sat.pure (by simpa using hI)
  | true =>
    simp only [Bool.not_true, Bool.false_eq_true, if_false]
    refine findLockGranule_sat hE ?_
    rw [lockable_congr hsame]
    cases hrd : lockable plat s (m.shares si).slaveRdPa .RD with
    | false => exact Sat.pure (by simpa using hI)
    | true =>
      simp only [Bool.not_true, Bool.false_eq_true, if_false]
      rw [hsame.rd]
      refine findLockGranule_sat hE ?_
      rw [lockable_congr hsame]
      cases hapt : lockable plat s (s.rd (m.shares si).slaveRdPa).aptPa .APT with
      | false => exact Sat.pure (by simpa using hI)
      | true =>
        simp only [Bool.not_true, Bool.false_eq_true, if_false, hsame.apt]
        simp only [huse, hrd, hapt, Bool.and_self, if_true] at hact ⊢
        cases hfind : aptFindSlaveByRegionId (s.apt (s.rd (m.shares si).slaveRdPa).aptPa)
            m.regionId with
        | none => exact Sat.pure (by simpa using hI)
        | some sj =>
          rw [hfind] at hact
          exact hact _ rfl

/-- The propagation performs the action at its targets in order. The invariant
speaks about the targets already visited. -/
theorem csmPropagate_sat (hE : E .deadlock) {rdAddr mapAddr : Word} (h0 : I [] s)
    (hsame : ∀ done cur, I done cur → SameAll s cur)
    (hact : ∀ done tgt rest cur, csmTargets plat s rdAddr mapAddr = done ++ tgt :: rest →
      I done cur → Sat (action cur (s.rd tgt.1).s2Ctx tgt.2) (I (done ++ [tgt])) E) :
    Sat (csmPropagate plat action s rdAddr mapAddr) (I (csmTargets plat s rdAddr mapAddr)) E := by
  unfold csmPropagate
  unfold csmTargets at hact ⊢
  simp only at hact ⊢
  refine findLockGranule_sat hE ?_
  cases hrd : lockable plat s rdAddr .RD with
  | false => exact Sat.pure (by simpa using h0)
  | true =>
    simp only [Bool.not_true, Bool.false_eq_true, if_false]
    by_cases hz : (s.rd rdAddr).aptPa = 0#64
    · rw [if_pos hz]
      exact Sat.pure (by simpa [hz] using h0)
    rw [if_neg hz]
    refine findLockGranule_sat hE ?_
    have hzb : ((s.rd rdAddr).aptPa != 0#64) = true := by simpa using hz
    cases hapt : lockable plat s (s.rd rdAddr).aptPa .APT with
    | false => exact Sat.pure (by simpa using h0)
    | true =>
      simp only [hrd, hzb, hapt, Bool.and_self, if_true, Bool.not_true, Bool.false_eq_true,
        if_false] at hact ⊢
      set apt := s.apt (s.rd rdAddr).aptPa
      refine Sat.bind (Q := I (masterTargets plat s apt mapAddr)) ?_ ?_
      · -- the slots of the master's region
        unfold csmPropagateMaster
        unfold masterTargets at hact ⊢
        generalize (List.range apt.enabledMr.len).find? _ = found at hact ⊢
        cases found with
        | none => exact Sat.pure h0
        | some pos =>
          simp only at hact
          refine (Sat.foldlM (fun done cur => I (done.filterMap (slotTarget plat s
            (apt.masterMemory (apt.enabledMr.index pos))
            (mapAddr - (apt.masterMemory (apt.enabledMr.index pos)).ipaStart))) cur)
            _ h0 ?_).imp fun _ h => h
          intro done si rest cur hl hI
          rw [List.filterMap_append]
          have hs : ([si] : List ℕ).filterMap (slotTarget plat s
              (apt.masterMemory (apt.enabledMr.index pos))
              (mapAddr - (apt.masterMemory (apt.enabledMr.index pos)).ipaStart)) =
              (slotTarget plat s (apt.masterMemory (apt.enabledMr.index pos))
                (mapAddr - (apt.masterMemory (apt.enabledMr.index pos)).ipaStart) si).toList := by
            simp only [List.filterMap_cons, List.filterMap_nil]
            cases slotTarget plat s (apt.masterMemory (apt.enabledMr.index pos))
              (mapAddr - (apt.masterMemory (apt.enabledMr.index pos)).ipaStart) si <;> rfl
          rw [hs]
          refine csmPropagateSlot_sat I hE (hsame _ _ hI) hI fun tgt htgt => ?_
          refine hact _ tgt (rest.filterMap (slotTarget plat s
            (apt.masterMemory (apt.enabledMr.index pos))
            (mapAddr - (apt.masterMemory (apt.enabledMr.index pos)).ipaStart)) ++
              slaveTargets plat s apt mapAddr) cur ?_ hI
          rw [hl, List.filterMap_append, List.filterMap_cons, htgt]
          simp
      · -- the master of the slave's region
        intro s1 hI
        have hsm := hsame _ _ hI
        unfold csmPropagateSlave
        have hact' := hact (masterTargets plat s apt mapAddr)
        unfold slaveTargets at hact' ⊢
        generalize (List.range apt.enabledSr.len).find? _ = found at hact' ⊢
        cases found with
        | none => exact Sat.pure (by simpa using hI)
        | some pos =>
          simp only at hact' ⊢
          refine findLockGranule_sat hE ?_
          rw [lockable_congr hsm]
          cases hm : lockable plat s (apt.slaveMemory (apt.enabledSr.index pos)).masterRdPa .RD with
          | false => exact Sat.pure (by simpa using hI)
          | true =>
            simp only [Bool.not_true, Bool.false_eq_true, if_false]
            rw [hsm.rd]
            refine findLockGranule_sat hE ?_
            rw [lockable_congr hsm]
            cases ha : lockable plat s
                (s.rd (apt.slaveMemory (apt.enabledSr.index pos)).masterRdPa).aptPa .APT with
            | false => exact Sat.pure (by simpa using hI)
            | true =>
              simp only [hm, ha, Bool.and_self, if_true, Bool.not_true, Bool.false_eq_true,
                if_false, hsm.apt] at hact' ⊢
              cases hfind : aptFindMasterByRegionId
                  (s.apt (s.rd (apt.slaveMemory (apt.enabledSr.index pos)).masterRdPa).aptPa)
                  (apt.slaveMemory (apt.enabledSr.index pos)).regionId with
              | none => exact Sat.pure (by simpa using hI)
              | some mi =>
                rw [hfind] at hact'
                exact hact' _ [] s1 rfl hI

end

end RmmCaec
