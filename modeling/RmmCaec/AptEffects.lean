import RmmCaec.AttachEffects
import RmmCaec.DataEffects

/-!
# Effects of the attachment table handlers

Creating an attachment table claims a granule and links it to the realm.
Destroying one removes the pages of every region the realm borrowed, frees its
own regions and their identifiers, gives the granule back, and then takes the
regions back from the realms that borrowed them.
-/
namespace RmmCaec

open RadixForest Outcome

/-- What `smc_apt_create` does: nothing, a table that no realm links to, or a table
linked to a new realm together with a tag. -/
def AptCreated (plat : Platform) (s : State) (rdAddr aptAddr : Word) (s' : State)
    (ret : ReturnCode) : Prop :=
  (s' = s ∧ ret ≠ rmiSuccess) ∨
  (aptAddr ≠ rdAddr ∧ lockable plat s aptAddr .DELEGATED = true ∧
    lockable plat s rdAddr .RD = true ∧
    ((ret ≠ rmiSuccess ∧ (s.rd rdAddr).state ≠ .NEW ∧ s' = s.setState aptAddr .APT) ∨
     (ret = rmiSuccess ∧ (s.rd rdAddr).state = .NEW ∧
      s' = ({ s.setRd rdAddr { s.rd rdAddr with aptPa := aptAddr } with
        tags := realmTagAssign s.tags rdAddr }).setState aptAddr .APT)))

theorem setApt_blank {s : State} {F : Tables} (h : Wf s F) {g : Word}
    (hg : (s.granule g).state.blank = true) : s.setApt g default = s := by
  obtain ⟨-, -, ha⟩ := h.zero g hg
  unfold State.setApt
  rw [← ha, Function.update_eq_self]

theorem smcAptCreate_sat {plat : Platform} {s : State} {F : Tables} (h : Wf s F)
    (rdAddr aptAddr : Word) :
    Sat (smcAptCreate plat s rdAddr aptAddr)
      (fun res => AptCreated plat s rdAddr aptAddr res.1 res.2.ret) Benign := by
  unfold smcAptCreate
  refine Sat.ite (fun _ => Sat.pure (.inl ⟨rfl, by simp [smcRet, rmiErrorRealm, rmiSuccess]⟩))
    fun hlock => ?_
  obtain ⟨hne, hd, hr⟩ := findLockTwoGranules_iff (by simpa using hlock)
  simp only
    [setApt_blank h (by rw [lockable_state hd]; rfl : (s.granule aptAddr).state.blank = true)]
  refine Sat.ite (fun hnew => ?_) fun hnew => ?_
  · refine granuleUnlockTransition_sat (by decide) (Sat.pure (.inr ⟨hne, hd, hr, .inl ?_⟩))
    exact ⟨by simp [smcRet, rmiErrorRealm, rmiSuccess], hnew, rfl⟩
  · rw [not_ne_iff] at hnew
    refine granuleUnlockTransition_sat (by decide) (Sat.pure (.inr ⟨hne, hd, hr, .inr ?_⟩))
    exact ⟨rfl, hnew, rfl⟩

/-- The used slave entries of a table below a list of indices. -/
def usedSlaves (a : Apt) (l : List ℕ) : List SlaveMem :=
  (l.filter fun i => a.slaveUsedMask i).map a.slaveMemory

/-- The used master entries of a table. -/
def usedMasters (a : Apt) (l : List ℕ) : List MasterMem :=
  (l.filter fun i => a.masterUsedMask i).map a.masterMemory

/-- The slaves that hold a share of a region. -/
def sharePartners (m : MasterMem) : List (Word × Byte) :=
  ((List.range csmMaxMasterShares).filter fun sk => (m.shares sk).inUse).map
    fun sk => ((m.shares sk).slaveRdPa, m.regionId)

/-- The master part of two tables agrees. -/
def SameMasters (a a' : Apt) : Prop :=
  a'.masterUsedMask = a.masterUsedMask ∧ a'.masterMemory = a.masterMemory

theorem eraseSlave_sameMasters (a : Apt) (i : ℕ) : SameMasters a (aptEraseSlave a i) := by
  unfold SameMasters aptEraseSlave aptReleaseSlave aptDisableSlaveIdx disableSwapPopSlave
  split <;> exact ⟨rfl, rfl⟩

theorem eraseSlave_other (a : Apt) {i j : ℕ} (h : j ≠ i) :
    (aptEraseSlave a i).slaveUsedMask j = a.slaveUsedMask j ∧
      (aptEraseSlave a i).slaveMemory j = a.slaveMemory j := by
  unfold aptEraseSlave aptReleaseSlave aptDisableSlaveIdx disableSwapPopSlave
  split <;> exact ⟨Function.update_of_ne h _ _, Function.update_of_ne h _ _⟩

theorem aptDestroySlaves_sat {s : State} {F : Tables} {aptAddr rdAddr : Word}
    (hrd : (s.granule rdAddr).state = .RD) (hapt : (s.granule aptAddr).state = .APT)
    (l : List ℕ) :
    l.Nodup → ∀ (P : List (Word × Word)) cur F1 saved, Cleared s F P cur F1 →
      (∀ g, g ≠ aptAddr → cur.apt g = s.apt g) →
        SameMasters (s.apt aptAddr) (cur.apt aptAddr) →
      (∀ i ∈ l, (cur.apt aptAddr).slaveUsedMask i = (s.apt aptAddr).slaveUsedMask i ∧
        (cur.apt aptAddr).slaveMemory i = (s.apt aptAddr).slaveMemory i) →
      Sat (aptDestroySlaves aptAddr (s.rd rdAddr).s2Ctx l cur saved) (fun res =>
        res.2 = saved ++ (usedSlaves (s.apt aptAddr) l).map
          (fun m => (m.masterRdPa, m.regionId)) ∧
        (∀ g, g ≠ aptAddr → res.1.apt g = s.apt g) ∧
        SameMasters (s.apt aptAddr) (res.1.apt aptAddr) ∧
        ∃ F', Cleared s F (P ++ (usedSlaves (s.apt aptAddr) l).flatMap (slavePlaces rdAddr))
          res.1 F') Benign := by
  induction l with
  | nil =>
    intro _ P cur F1 saved hc hoth hm _
    exact Sat.ok ⟨by simp [usedSlaves], hoth, hm, F1, by simpa [usedSlaves] using hc⟩
  | cons sj rest ih =>
    intro hnd P cur F1 saved hc hoth hm hsame
    obtain ⟨hnot, hnd'⟩ := List.nodup_cons.mp hnd
    obtain ⟨hu, hmem⟩ := hsame sj (by simp)
    rw [aptDestroySlaves]
    simp only [hu, hmem]
    cases hused : (s.apt aptAddr).slaveUsedMask sj with
    | false =>
      simp only [Bool.not_false, if_true]
      have hl : usedSlaves (s.apt aptAddr) (sj :: rest) = usedSlaves (s.apt aptAddr) rest := by
        simp [usedSlaves, hused]
      rw [hl]
      exact ih hnd' P cur F1 saved hc hoth hm fun i hi => hsame i (List.mem_cons_of_mem _ hi)
    | true =>
      simp only [Bool.not_true, Bool.false_eq_true, if_false]
      have hl : usedSlaves (s.apt aptAddr) (sj :: rest) =
          (s.apt aptAddr).slaveMemory sj :: usedSlaves (s.apt aptAddr) rest := by
        simp [usedSlaves, hused]
      have hset := hc.setApt (g := aptAddr) (by rw [hc.state, hapt])
        (.single (.eraseSlave (cur.apt aptAddr) sj))
      have hun := hset.unmap hrd ((s.apt aptAddr).slaveMemory sj).ipaStart
        ((s.apt aptAddr).slaveMemory sj).mapSize
      refine Sat.bind hun ?_
      rintro s1 ⟨ha, F2, hF2⟩
      have hself : s1.apt aptAddr = aptEraseSlave (cur.apt aptAddr) sj := by
        rw [ha]
        exact Function.update_self ..
      refine (ih hnd' _ s1 F2 _ hF2 ?_ ?_ ?_).imp ?_
      · intro g hg
        rw [ha, ← hoth g hg]
        exact Function.update_of_ne hg _ _
      · obtain ⟨h1, h2⟩ := eraseSlave_sameMasters (cur.apt aptAddr) sj
        rw [hself]
        exact ⟨h1.trans hm.1, h2.trans hm.2⟩
      · intro i hi
        have hne : i ≠ sj := by
          rintro rfl
          exact hnot hi
        obtain ⟨h1, h2⟩ := eraseSlave_other (cur.apt aptAddr) hne
        obtain ⟨h3, h4⟩ := hsame i (List.mem_cons_of_mem _ hi)
        rw [hself]
        exact ⟨h1.trans h3, h2.trans h4⟩
      · rintro ⟨s2, saved2⟩ ⟨h1, h2, h3, F', h4⟩
        refine ⟨?_, h2, h3, F', ?_⟩
        · rw [h1, hl]
          simp
        · rw [hl]
          simpa [slavePlaces] using h4

/-- The registry after the identifiers of some regions are freed. -/
def removeRegions (r : CsmIdRegistry) (l : List MasterMem) : CsmIdRegistry :=
  l.foldl (fun r m => csmRegionIdRemove r m.regionId) r

theorem eraseMaster_other (a : Apt) {i j : ℕ} (h : j ≠ i) :
    (aptEraseMaster a i).masterUsedMask j = a.masterUsedMask j ∧
      (aptEraseMaster a i).masterMemory j = a.masterMemory j := by
  unfold aptEraseMaster aptDisableMasterIdx disableSwapPopMaster
  split <;> exact ⟨Function.update_of_ne h _ _, Function.update_of_ne h _ _⟩

theorem aptDestroyMasters_spec {aptAddr : Word} {a : Apt} (l : List ℕ) :
    l.Nodup → ∀ (s : State) saved,
      (∀ i ∈ l, (s.apt aptAddr).masterUsedMask i = a.masterUsedMask i ∧
        (s.apt aptAddr).masterMemory i = a.masterMemory i) →
      ∃ a', (aptDestroyMasters aptAddr l s saved).1 =
          { s.setApt aptAddr a' with csmIds := removeRegions s.csmIds (usedMasters a l) } ∧
        (aptDestroyMasters aptAddr l s saved).2 =
          saved ++ (usedMasters a l).flatMap sharePartners := by
  induction l with
  | nil =>
    intro _ s saved _
    refine ⟨s.apt aptAddr, ?_, by simp [aptDestroyMasters, usedMasters]⟩
    simp [aptDestroyMasters, usedMasters, removeRegions, State.setApt, Function.update_eq_self]
  | cons mi rest ih =>
    intro hnd s saved hsame
    obtain ⟨hnot, hnd'⟩ := List.nodup_cons.mp hnd
    obtain ⟨hu, hmem⟩ := hsame mi (by simp)
    rw [aptDestroyMasters]
    simp only [hu, hmem]
    cases hused : a.masterUsedMask mi with
    | false =>
      simp only [Bool.not_false, if_true]
      have hl : usedMasters a (mi :: rest) = usedMasters a rest := by simp [usedMasters, hused]
      rw [hl]
      exact ih hnd' s saved fun i hi => hsame i (List.mem_cons_of_mem _ hi)
    | true =>
      simp only [Bool.not_true, Bool.false_eq_true, if_false]
      have hl : usedMasters a (mi :: rest) = a.masterMemory mi :: usedMasters a rest := by
        simp [usedMasters, hused]
      obtain ⟨a', h1, h2⟩ := ih hnd'
        (({ s with csmIds := csmRegionIdRemove s.csmIds (a.masterMemory mi).regionId }).setApt
          aptAddr
          (aptEraseMaster (s.apt aptAddr) mi)) (saved ++ sharePartners (a.masterMemory mi)) (by
          intro i hi
          have hne : i ≠ mi := by
            rintro rfl
            exact hnot hi
          obtain ⟨h1, h2⟩ := eraseMaster_other (s.apt aptAddr) hne
          obtain ⟨h3, h4⟩ := hsame i (List.mem_cons_of_mem _ hi)
          rw [State.setApt_same]
          exact ⟨h1.trans h3, h2.trans h4⟩)
      refine ⟨a', ?_, ?_⟩
      · unfold sharePartners at h1
        rw [h1, hl]
        simp [State.setApt, removeRegions, Function.update_idem]
      · unfold sharePartners at h2 ⊢
        rw [h2, hl]
        simp

/-- The table of a partner, if both of its locks are granted. -/
def partnerTable (plat : Platform) (s : State) (rd : Word) : Option Word :=
  if lockable plat s rd .RD && lockable plat s (s.rd rd).aptPa .APT then
    some (s.rd rd).aptPa else none

/-- The tables after an operation on the table of one partner. -/
def atPartner (table : Word → Option Word) (drop : Apt → Byte → Apt) (apts : Word → Apt)
    (x : Word × Byte) : Word → Apt :=
  match table x.1 with
  | none => apts
  | some g => Function.update apts g (drop (apts g) x.2)

/-- The first share of a realm in the region with an identifier is freed. -/
def dropShareOf (rdAddr : Word) (a : Apt) (id : Byte) : Apt :=
  match aptFindMasterByRegionId a id with
  | none => a
  | some midx =>
    let m := a.masterMemory midx
    match findFirst csmMaxMasterShares fun sk =>
        (m.shares sk).inUse && (m.shares sk).slaveRdPa == rdAddr with
    | none => a
    | some sk => aptMasterDropShare a midx sk

/-- The first slave entry of a region is erased. -/
def dropSlaveOf (a : Apt) (id : Byte) : Apt :=
  match aptFindSlaveByRegionId a id with
  | none => a
  | some sj => aptEraseSlave a sj

theorem revokedApts_eq (plat : Platform) (s : State) (x : Word × Byte) :
    revokedApts plat s x.1 x.2 aptEraseSlave =
      atPartner (partnerTable plat s) dropSlaveOf s.apt x := by
  unfold revokedApts revokedIndex atPartner partnerTable dropSlaveOf
  split_ifs with hc
  · simp only
    cases aptFindSlaveByRegionId (s.apt (s.rd x.1).aptPa) x.2 with
    | none => exact (Function.update_eq_self _ _).symm
    | some sj => rfl
  · rfl

/-- Two states agree on what a revocation reads. -/
structure SameSlaves (s s' : State) : Prop where
  rdState : ∀ g, (s'.granule g).state = .RD ↔ (s.granule g).state = .RD
  aptState : ∀ g, (s'.granule g).state = .APT ↔ (s.granule g).state = .APT
  rd : ∀ g, (s.granule g).state = .RD → (s'.rd g).aptPa = (s.rd g).aptPa
  used : ∀ g, (s.granule g).state = .APT → (s'.apt g).slaveUsedMask = (s.apt g).slaveUsedMask
  memory : ∀ g, (s.granule g).state = .APT → (s'.apt g).slaveMemory = (s.apt g).slaveMemory

namespace SameSlaves

variable {plat : Platform} {s s1 s' : State}

theorem refl (s : State) : SameSlaves s s :=
  ⟨fun _ => Iff.rfl, fun _ => Iff.rfl, fun _ _ => rfl, fun _ _ => rfl, fun _ _ => rfl⟩

theorem trans (h : SameSlaves s s1) (h' : SameSlaves s1 s') : SameSlaves s s' where
  rdState g := (h'.rdState g).trans (h.rdState g)
  aptState g := (h'.aptState g).trans (h.aptState g)
  rd g hg := (h'.rd g ((h.rdState g).mpr hg)).trans (h.rd g hg)
  used g hg := (h'.used g ((h.aptState g).mpr hg)).trans (h.used g hg)
  memory g hg := (h'.memory g ((h.aptState g).mpr hg)).trans (h.memory g hg)

theorem lockable_rd (h : SameSlaves s s') (g : Word) :
    lockable plat s' g .RD = lockable plat s g .RD := by
  unfold lockable
  congr 1
  rw [Bool.eq_iff_iff]
  simpa using h.rdState g

theorem lockable_apt (h : SameSlaves s s') (g : Word) :
    lockable plat s' g .APT = lockable plat s g .APT := by
  unfold lockable
  congr 1
  rw [Bool.eq_iff_iff]
  simpa using h.aptState g

theorem revokedIndex_eq (h : SameSlaves s s') (rd : Word) (id : Byte) :
    revokedIndex plat s' rd id = revokedIndex plat s rd id := by
  unfold revokedIndex
  rw [h.lockable_rd]
  cases hrd : lockable plat s rd .RD with
  | false => rfl
  | true =>
    simp only [Bool.true_and]
    rw [h.rd rd (lockable_state hrd), h.lockable_apt]
    cases hapt : lockable plat s (s.rd rd).aptPa .APT with
    | false => rfl
    | true =>
      simp only [aptFindSlaveByRegionId, h.used _ (lockable_state hapt),
        h.memory _ (lockable_state hapt)]

/-- An index is found only behind locks that are granted. -/
theorem of_revokedIndex {rd : Word} {id : Byte} {sj : ℕ}
    (h : revokedIndex plat s rd id = some sj) :
    (s.granule rd).state = .RD ∧ (s.granule (s.rd rd).aptPa).state = .APT := by
  unfold revokedIndex at h
  split at h
  case isTrue hc =>
    rw [Bool.and_eq_true] at hc
    exact ⟨lockable_state hc.1, lockable_state hc.2⟩
  case isFalse => cases h

theorem revokedPlaces_eq (h : SameSlaves s s') (rd : Word) (id : Byte) :
    revokedPlaces plat s' rd id = revokedPlaces plat s rd id := by
  unfold revokedPlaces
  rw [h.revokedIndex_eq]
  cases hi : revokedIndex plat s rd id with
  | none => rfl
  | some sj =>
    obtain ⟨h1, h2⟩ := of_revokedIndex hi
    simp only [h.rd rd h1, h.memory _ h2]

/-- The same revocation on both sides. -/
theorem revoked (h : SameSlaves s s') (rd : Word) (id : Byte) :
    SameSlaves { s with apt := revokedApts plat s rd id aptEraseSlave }
      { s' with apt := revokedApts plat s' rd id aptEraseSlave } := by
  unfold revokedApts
  rw [h.revokedIndex_eq]
  cases hi : revokedIndex plat s rd id with
  | none => exact ⟨h.rdState, h.aptState, h.rd, h.used, h.memory⟩
  | some sj =>
    obtain ⟨h1, h2⟩ := of_revokedIndex hi
    have herase : ∀ a : Apt, (aptEraseSlave a sj).slaveUsedMask =
        Function.update a.slaveUsedMask sj
        false ∧ (aptEraseSlave a sj).slaveMemory = Function.update a.slaveMemory sj default := by
      intro a
      unfold aptEraseSlave aptReleaseSlave aptDisableSlaveIdx disableSwapPopSlave
      split <;> exact ⟨rfl, rfl⟩
    refine ⟨h.rdState, h.aptState, h.rd, fun g hg => ?_, fun g hg => ?_⟩
    · simp only [h.rd rd h1]
      by_cases hx : g = (s.rd rd).aptPa
      · subst hx
        simp only [Function.update_self, (herase _).1, h.used _ h2]
      · simp only [Function.update_of_ne hx]
        exact h.used g hg
    · simp only [h.rd rd h1]
      by_cases hx : g = (s.rd rd).aptPa
      · subst hx
        simp only [Function.update_self, (herase _).2, h.memory _ h2]
      · simp only [Function.update_of_ne hx]
        exact h.memory g hg

/-- The same partners on both sides. -/
theorem partnerTable_eq (h : SameSlaves s s') : partnerTable plat s' = partnerTable plat s := by
  funext rd
  unfold partnerTable
  rw [h.lockable_rd]
  cases hrd : lockable plat s rd .RD with
  | false => rfl
  | true => rw [h.rd rd (lockable_state hrd), h.lockable_apt]

end SameSlaves

/-- The pages that a list of revocations unmaps, one after the other. -/
def revokeAllPlaces (plat : Platform) : List (Word × Byte) → State → List (Word × Word)
  | [], _ => []
  | x :: rest, s => revokedPlaces plat s x.1 x.2 ++
      revokeAllPlaces plat rest { s with apt := revokedApts plat s x.1 x.2 aptEraseSlave }

theorem SameSlaves.revokeAllPlaces_eq {plat : Platform} (l : List (Word × Byte)) {s s' : State}
    (h : SameSlaves s s') : revokeAllPlaces plat l s' = revokeAllPlaces plat l s := by
  induction l generalizing s s' with
  | nil => rfl
  | cons x rest ih =>
    rw [revokeAllPlaces, revokeAllPlaces, h.revokedPlaces_eq, ih (h.revoked x.1 x.2)]

theorem Cleared.sameSlaves_of_apt {s s1 s' : State} {F F1 F' : Tables} {P Q : List (Word × Word)}
    (h : Cleared s F P s1 F1) (h' : Cleared s F Q s' F') {apts : Word → Apt}
    (ha : s'.apt = apts) :
    SameSlaves { s1 with apt := apts } s' where
  rdState g := by rw [h'.state, ← h.state]
  aptState g := by rw [h'.state, ← h.state]
  rd g _ := by rw [h'.rd, ← h.rd]
  used g _ := by rw [ha]
  memory g _ := by rw [ha]

/-- Dropping a share touches no slave entry. -/
theorem aptDestroyNotifyMaster_sat {plat : Platform} {s s1 : State} {F F1 : Tables}
    {P : List (Word × Word)} (h : Cleared s F P s1 F1) (rdAddr : Word) (saved : Word × Byte) :
    Sat (aptDestroyNotifyMaster plat rdAddr s1 saved) (fun s' => SameSlaves s1 s' ∧
      s'.apt = atPartner (partnerTable plat s1) (dropShareOf rdAddr) s1.apt saved ∧ ∃ F',
      Cleared s F P s' F') Benign := by
  unfold aptDestroyNotifyMaster atPartner partnerTable
  refine findLockGranule_sat (by decide) ?_
  cases hrd : lockable plat s1 saved.1 .RD with
  | false => exact Sat.pure ⟨.refl _, rfl, F1, h⟩
  | true =>
    refine findLockGranule_sat (by decide) ?_
    cases hapt : lockable plat s1 (s1.rd saved.1).aptPa .APT with
    | false => exact Sat.pure ⟨.refl _, rfl, F1, h⟩
    | true =>
      have hapt' := lockable_state hapt
      simp only [Bool.not_true, Bool.false_eq_true, if_false, Bool.and_self, if_true]
      unfold dropShareOf
      cases hm : aptFindMasterByRegionId (s1.apt (s1.rd saved.1).aptPa) saved.2 with
      | none => exact Sat.pure ⟨.refl _, (Function.update_eq_self _ _).symm, F1, h⟩
      | some midx =>
        simp only
        cases hsk : findFirst csmMaxMasterShares (fun sk =>
            (((s1.apt (s1.rd saved.1).aptPa).masterMemory midx).shares sk).inUse &&
              (((s1.apt (s1.rd saved.1).aptPa).masterMemory midx).shares sk).slaveRdPa
                == rdAddr) with
        | none => exact Sat.pure ⟨.refl _, (Function.update_eq_self _ _).symm, F1, h⟩
        | some sk =>
          obtain ⟨hlt, hu⟩ := findFirst_some hsk
          rw [Bool.and_eq_true] at hu
          refine Sat.pure ⟨⟨fun _ => Iff.rfl, fun _ => Iff.rfl, fun _ _ => rfl, fun g _ => ?_,
            fun g _ => ?_⟩, rfl, F1, h.setApt hapt' (.single (.dropShare hlt hu.1))⟩
          · by_cases hg : g = (s1.rd saved.1).aptPa
            · subst hg
              simp [State.setApt, aptMasterDropShare]
            · simp [State.setApt, Function.update_of_ne hg]
          · by_cases hg : g = (s1.rd saved.1).aptPa
            · subst hg
              simp [State.setApt, aptMasterDropShare]
            · simp [State.setApt, Function.update_of_ne hg]

theorem Cleared.partnerTable_eq {plat : Platform} {s s1 s' : State} {F F1 F' : Tables}
    {P Q : List (Word × Word)} (h : Cleared s F P s1 F1) (h' : Cleared s F Q s' F') :
    partnerTable plat s' = partnerTable plat s1 := by
  funext rd
  unfold partnerTable lockable
  rw [h'.state, h'.rd, h'.state, ← h.state, ← h.rd, ← h.state]

theorem revokeAll_sat {plat : Platform} {s : State} {F : Tables} (l : List (Word × Byte)) :
    ∀ (P : List (Word × Word)) s1 F1, Cleared s F P s1 F1 →
      Sat (l.foldlM (fun s share => revokeSlave plat s share.1 share.2 aptEraseSlave) s1)
        (fun s' => s'.apt = l.foldl (atPartner (partnerTable plat s1) dropSlaveOf) s1.apt ∧
          ∃ F', Cleared s F (P ++ revokeAllPlaces plat l s1) s' F') Benign := by
  induction l with
  | nil =>
    intro P s1 F1 h
    exact Sat.pure ⟨rfl, F1, by simpa [revokeAllPlaces] using h⟩
  | cons x rest ih =>
    intro P s1 F1 h
    rw [List.foldlM_cons]
    refine Sat.bind (revokeSlave_sat h x.1 x.2 fun a i => .eraseSlave a i) ?_
    rintro s2 ⟨ha, F2, h2⟩
    refine (ih _ s2 F2 h2).imp ?_
    rintro s' ⟨ha', F', h'⟩
    refine ⟨?_, F', ?_⟩
    · rw [ha', List.foldl_cons, h.partnerTable_eq h2, ha, revokedApts_eq]
    · rw [(h.sameSlaves_of_apt h2 ha).revokeAllPlaces_eq, List.append_assoc] at h'
      exact h'

/-- The pages that `smc_apt_destroy` unmaps: first those of the regions that the
realm borrowed, then those of the regions it had lent. -/
def aptDestroyPlaces (plat : Platform) (s : State) (rdAddr aptAddr : Word) : List (Word × Word) :=
  (usedSlaves (s.apt aptAddr) (List.range maxMemRegions)).flatMap (slavePlaces rdAddr) ++
    revokeAllPlaces plat
      ((usedMasters (s.apt aptAddr) (List.range maxMemRegions)).flatMap sharePartners)
      (s.setState aptAddr .DELEGATED)

/-- The table is gone, its identifiers are free and its pages removed. -/
structure AptFreed (plat : Platform) (s : State) (F : Tables) (rdAddr aptAddr : Word) (s' : State)
    (F' : Tables) : Prop where
  wf : Wf s' F'
  micros : ∃ ls, Micros s F ls s' F' ∧ ∀ l ∈ ls, l = .quiet none none ∨
    ∃ p ∈ aptDestroyPlaces plat s rdAddr aptAddr, ∃ old, l = .edit p.1 p.2.toNat 0 old .remove
  isRd : (s.granule rdAddr).state = .RD
  isApt : (s.granule aptAddr).state = .APT
  linked : (s.rd rdAddr).aptPa = aptAddr
  freed : s'.granule aptAddr = ⟨.DELEGATED, 0⟩
  state : ∀ g, g ≠ aptAddr → (s'.granule g).state = (s.granule g).state
  granule : ∀ g, g ≠ aptAddr → (s.granule g).state ≠ .RTT → s'.granule g = s.granule g
  words : ∀ g, g ≠ aptAddr → (s.granule g).state ≠ .RTT → s'.rtt g = s.rtt g
  rd : ∀ g, g ≠ aptAddr → s'.rd g = s.rd g
  recs : ∀ g, g ≠ aptAddr → s'.recs g = s.recs g
  apt : ∀ g, g ≠ aptAddr → Trim (s.apt g) (s'.apt g)
  tags : s'.tags = realmTagRemove s.tags rdAddr
  csmIds : s'.csmIds = removeRegions s.csmIds
    (usedMasters (s.apt aptAddr) (List.range maxMemRegions))
  vmids : s'.vmids = s.vmids

/-- All tables after a destruction: the own one is zero, the shares of the realm are freed
in the tables of its masters, and then its regions are erased in those of its slaves. -/
def cleanedApts (plat : Platform) (s : State) (rdAddr aptAddr : Word) : Word → Apt :=
  let table := partnerTable plat (s.setState aptAddr .DELEGATED)
  ((usedMasters (s.apt aptAddr) (List.range maxMemRegions)).flatMap sharePartners).foldl
    (atPartner table dropSlaveOf)
    (((usedSlaves (s.apt aptAddr) (List.range maxMemRegions)).map fun m =>
      (m.masterRdPa, m.regionId)).foldl (atPartner table (dropShareOf rdAddr))
      (Function.update s.apt aptAddr default))

/-- The table is gone, with the exact changes to the other tables and the pages. -/
structure AptCleaned (plat : Platform) (s : State) (F : Tables) (rdAddr aptAddr : Word) (s' : State)
    (F' : Tables) : Prop extends AptFreed plat s F rdAddr aptAddr s' F' where
  apts : s'.apt = cleanedApts plat s rdAddr aptAddr
  pages : PagesCleared F (aptDestroyPlaces plat s rdAddr aptAddr) F'

def AptDestroyed (plat : Platform) (s : State) (F : Tables) (rdAddr aptAddr : Word) (s' : State)
    (ret : ReturnCode) : Prop :=
  (s' = s ∧ ret ≠ rmiSuccess) ∨ (ret = rmiSuccess ∧
    ∃ F', AptFreed plat s F rdAddr aptAddr s' F')

/-- The granule of a table is zeroed and given back, with a new registry. -/
def freeApt (s : State) (g : Word) (a : Apt) (ids : CsmIdRegistry) : State :=
  (({ s.setApt g a with csmIds := ids }).memzero g).setState g .DELEGATED

theorem freeApt_self (s : State) (g : Word) (a : Apt) (ids : CsmIdRegistry) :
    (freeApt s g a ids).granule g = ⟨.DELEGATED, (s.granule g).refcount⟩ :=
  State.setState_self ..

theorem plainChange_freeApt {s : State} {F : Tables} (h : Wf s F) {g : Word}
    (hg : (s.granule g).state = .APT) (a : Apt) (ids : CsmIdRegistry) :
    PlainChange s (freeApt s g a ids) g where
  was := by rw [hg]; rfl
  is := by rw [freeApt_self]; rfl
  count := by
    rw [freeApt_self]
    exact h.plain g (by rw [hg]; rfl)
  granule x hx := State.setState_of_ne _ hx _
  rd x hx := Function.update_of_ne hx _ _
  recs x hx := Function.update_of_ne hx _ _
  rtt x hx := Function.update_of_ne hx _ _
  apt x hx := (Function.update_of_ne hx _ _).trans (Function.update_of_ne hx _ _)
  zero _ := ⟨Function.update_self .., Function.update_self .., Function.update_self ..⟩
  scrubbed _ := Function.update_self ..
  tlb := rfl
  vmids := rfl

/-- What the second half of a destruction reads was not changed by the first. -/
theorem Cleared.sameSlaves_freeApt {s s2 : State} {F F2 : Tables} {P : List (Word × Word)}
    (h : Cleared s F P s2 F2) {aptAddr : Word} (hapt : (s.granule aptAddr).state = .APT)
    (hoth : ∀ g, g ≠ aptAddr → s2.apt g = s.apt g) (a : Apt) (ids : CsmIdRegistry) :
    SameSlaves (s.setState aptAddr .DELEGATED) (freeApt s2 aptAddr a ids) := by
  have hfree := plainChange_freeApt h.wf (by rw [h.state, hapt]) a ids
  have hstate : ∀ g, ((freeApt s2 aptAddr a ids).granule g).state =
      ((s.setState aptAddr .DELEGATED).granule g).state := by
    intro g
    by_cases hg : g = aptAddr
    · rw [hg, freeApt_self, State.setState_self]
    · rw [hfree.granule g hg, State.setState_of_ne _ hg, h.state]
  have hne : ∀ g st, ((s.setState aptAddr .DELEGATED).granule g).state = st →
      st ≠ .DELEGATED →
      g ≠ aptAddr := by
    rintro g st hst hd rfl
    rw [State.setState_self] at hst
    exact hd hst.symm
  refine ⟨fun g => by rw [hstate], fun g => by rw [hstate], fun g hg => ?_, fun g hg => ?_,
    fun g hg => ?_⟩
  · rw [hfree.rd g (hne g _ hg (by decide)), h.rd]
    rfl
  · have hg' := hne g _ hg (by decide)
    rw [hfree.apt g hg', hoth g hg']
    rfl
  · have hg' := hne g _ hg (by decide)
    rw [hfree.apt g hg', hoth g hg']
    rfl

theorem smcAptDestroy_cleaned {plat : Platform} {s : State} {F : Tables} (h : Wf s F)
    (rdAddr aptAddr : Word) :
    Sat (smcAptDestroy plat s rdAddr aptAddr)
      (fun res => (res.1 = s ∧ res.2.ret ≠ rmiSuccess) ∨
      (res.2.ret = rmiSuccess ∧ ∃ F', AptCleaned plat s F rdAddr aptAddr res.1 F')) Benign := by
  unfold smcAptDestroy
  refine findLockGranule_sat (by decide) ?_
  refine Sat.ite (fun _ => Sat.pure (.inl ⟨rfl, by simp [smcRet, rmiErrorInput, rmiSuccess]⟩))
    fun hr => ?_
  have hrd := lockable_state (by simpa using hr)
  refine Sat.ite (fun _ => Sat.pure (.inl ⟨rfl, by simp [smcRet, rmiErrorRealm, rmiSuccess]⟩))
    fun hlink => ?_
  rw [not_ne_iff] at hlink
  simp only
  have hreg := recordChange_registries s (realmTagRemove s.tags rdAddr) s.csmIds
  set s1 : State := { s with tags := realmTagRemove s.tags rdAddr } with hs1
  have hw1 : Wf s1 F := hreg.wf h
  refine findLockGranule_sat (by decide) (assertThat_sat (fun _ => by decide) fun ha => ?_)
  have hapt : (s.granule aptAddr).state = .APT := lockable_state ha
  have hnd : (List.range maxMemRegions).Nodup := List.nodup_range
  have hslaves := @aptDestroySlaves_sat s1 F aptAddr rdAddr hrd
    hapt (List.range maxMemRegions) hnd [] s1 F [] (.refl hw1) (fun _ _ => rfl) ⟨rfl, rfl⟩
    fun _ _ => ⟨rfl, rfl⟩
  refine Sat.bind hslaves ?_
  rintro ⟨s2, entries⟩ ⟨hsaved, hoth, hmast, F2, hc2⟩
  rw [List.nil_append] at hc2 hsaved
  simp only at hsaved hoth hmast hc2 ⊢
  subst hsaved
  obtain ⟨a', hm1, hm2⟩ := @aptDestroyMasters_spec aptAddr (s.apt aptAddr)
    (List.range maxMemRegions) hnd s2 [] fun i _ => by rw [hmast.1, hmast.2]; exact ⟨rfl, rfl⟩
  rw [hm1, hm2, List.nil_append]
  have hapt2 : (s2.granule aptAddr).state = .APT := by rw [hc2.state]; exact hapt
  refine granuleUnlockTransition_sat (by decide) ?_
  set ids :=
    removeRegions s2.csmIds (usedMasters (s.apt aptAddr) (List.range maxMemRegions)) with hids
  have hfree := plainChange_freeApt hc2.wf hapt2 a' ids
  set s4 := freeApt s2 aptAddr a' ids with hs4
  set entries := (usedSlaves (s.apt aptAddr) (List.range maxMemRegions)).map fun m =>
    (m.masterRdPa, m.regionId) with hentries
  change Sat (entries.foldlM (aptDestroyNotifyMaster plat rdAddr) s4 >>= _) _ _
  have hw4 : Wf s4 F2 := hfree.wf hc2.wf
  have hnotify : Sat (entries.foldlM (aptDestroyNotifyMaster plat rdAddr) s4)
      (fun cur => cur.apt = entries.foldl (atPartner (partnerTable plat s4) (dropShareOf rdAddr))
        s4.apt ∧ SameSlaves s4 cur ∧ ∃ F', Cleared s4 F2 [] cur F') Benign := by
    refine Sat.foldlM (fun done cur => cur.apt = done.foldl
      (atPartner (partnerTable plat s4) (dropShareOf rdAddr)) s4.apt ∧
        SameSlaves s4 cur ∧ ∃ F',
        Cleared s4 F2 [] cur F') _ ⟨rfl, .refl _, F2, .refl hw4⟩ ?_
    rintro done x rest cur - ⟨ha, hss, F', hc⟩
    refine (aptDestroyNotifyMaster_sat hc rdAddr x).imp ?_
    rintro s' ⟨hss', ha', hc'⟩
    refine ⟨?_, hss.trans hss', hc'⟩
    rw [ha', hss.partnerTable_eq, ha, List.foldl_append]
    rfl
  refine Sat.bind hnotify ?_
  rintro s5 ⟨ha5, hss5, F5, hc5⟩
  refine Sat.bind (revokeAll_sat _ [] s5 F5 hc5) ?_
  rintro s6 ⟨ha6, F6, hc6⟩
  rw [List.nil_append, hss5.revokeAllPlaces_eq] at hc6
  refine Sat.pure (.inr ⟨rfl, F6, ?_⟩)
  have hpre : SameSlaves (s.setState aptAddr .DELEGATED) s4 := by
    have hss := hc2.sameSlaves_freeApt hapt hoth a' ids
    exact ⟨hss.rdState, hss.aptState, hss.rd, hss.used, hss.memory⟩
  rw [hpre.revokeAllPlaces_eq] at hc6
  obtain ⟨ls2, hls2, hlab2⟩ := hc2.micros
  obtain ⟨ls6, hls6, hlab6⟩ := hc6.micros
  have hq4 : Quiet s2 s4 none none := hfree.quiet none none (by rw [hapt2]; rintro ⟨⟩)
    (by rw [hs4, freeApt_self]; rintro ⟨⟩)
  have hapt4 : s4.apt = Function.update s.apt aptAddr default := by
    funext g
    by_cases hg : g = aptAddr
    · rw [hg, Function.update_self]
      exact (hfree.zero (by rw [hs4, freeApt_self]; rfl)).2.2
    · rw [Function.update_of_ne hg, hfree.apt g hg, hoth g hg]
  refine ⟨⟨hc6.wf, ⟨.quiet none none :: (ls2 ++ .quiet none none :: ls6),
    .cons h (.quiet hreg.quiet)
    (hls2.append (.cons hc2.wf (.quiet hq4) hls6)), ?_⟩, hrd, hapt, hlink, ?_, ?_, ?_, ?_, ?_, ?_,
    ?_, ?_, ?_, ?_⟩, ?_, hc2.pages.trans hc6.pages⟩
  · intro l hl
    rcases List.mem_cons.mp hl with rfl | hl
    · exact .inl rfl
    rcases List.mem_append.mp hl with hl | hl
    · refine (hlab2 l hl).imp id ?_
      rintro ⟨p, hp, old, rfl⟩
      exact ⟨p, List.mem_append_left _ hp, old, rfl⟩
    rcases List.mem_cons.mp hl with rfl | hl
    · exact .inl rfl
    · refine (hlab6 l hl).imp id ?_
      rintro ⟨p, hp, old, rfl⟩
      exact ⟨p, List.mem_append_right _ hp, old, rfl⟩
  · have h4 : s4.granule aptAddr = ⟨.DELEGATED, 0⟩ := by
      rw [hs4, freeApt_self]
      congr 1
      exact hc2.wf.plain aptAddr (by rw [hapt2]; rfl)
    rw [hc6.granule aptAddr (by rw [h4]; decide), h4]
  · intro g hg
    rw [hc6.state, hfree.granule g hg, hc2.state]
  · intro g hg hst
    have h2 : s2.granule g = s.granule g := hc2.granule g hst
    rw [hc6.granule g (by rw [hfree.granule g hg, h2]; exact hst), hfree.granule g hg, h2]
  · intro g hg hst
    have h2 : s2.granule g = s.granule g := hc2.granule g hst
    rw [hc6.words g (by rw [hfree.granule g hg, h2]; exact hst), hfree.rtt g hg, hc2.words g hst]
  · intro g hg
    rw [hc6.rd, hfree.rd g hg, hc2.rd]
  · intro g hg
    rw [hc6.recs, hfree.recs g hg, hc2.recs]
  · intro g hg
    have := hc6.apt g
    rwa [hfree.apt g hg, hoth g hg] at this
  · rw [hc6.tags]
    exact hc2.tags
  · rw [hc6.csmIds]
    show ids = _
    rw [hids, hc2.csmIds]
  · rw [hc6.vmids]
    exact hc2.vmids
  · rw [ha6, ha5, hss5.partnerTable_eq, hpre.partnerTable_eq, hapt4]
    rfl

theorem smcAptDestroy_sat {plat : Platform} {s : State} {F : Tables} (h : Wf s F)
    (rdAddr aptAddr : Word) :
    Sat (smcAptDestroy plat s rdAddr aptAddr)
      (fun res => AptDestroyed plat s F rdAddr aptAddr res.1 res.2.ret) Benign :=
  (smcAptDestroy_cleaned h rdAddr aptAddr).imp fun _ hres => hres.imp id fun ⟨hr, F', hc⟩ =>
    ⟨hr, F', hc.toAptFreed⟩

end RmmCaec
