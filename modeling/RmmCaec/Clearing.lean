import RmmCaec.AptOps
import RmmCaec.Propagation

/-!
# Taking shared memory back

Detaching, revoking and destroying an attachment table trim the tables of
several realms and remove pages from theirs. All of this is one kind of change:
assigned pages disappear at a list of places, attachment tables are trimmed, and
nothing else happens.
-/
namespace RmmCaec

open RadixForest Outcome

structure Cleared (s : State) (F : Tables) (places : List (Word × Word)) (s' : State)
    (F' : Tables) : Prop where
  wf : Wf s' F'
  micros : ∃ ls, Micros s F ls s' F' ∧ ∀ l ∈ ls, l = .quiet none none ∨
    ∃ p ∈ places, ∃ old, l = .edit p.1 p.2.toNat 0 old .remove
  state : ∀ g, (s'.granule g).state = (s.granule g).state
  granule : ∀ g, (s.granule g).state ≠ .RTT → s'.granule g = s.granule g
  words : ∀ g, (s.granule g).state ≠ .RTT → s'.rtt g = s.rtt g
  rd : s'.rd = s.rd
  recs : s'.recs = s.recs
  tags : s'.tags = s.tags
  csmIds : s'.csmIds = s.csmIds
  vmids : s'.vmids = s.vmids
  apt : ∀ g, Trim (s.apt g) (s'.apt g)
  cleared : ∀ p ∈ places, PageAt F' p.1 p.2.toNat fun e => ∀ r pa, e ≠ .assigned r pa
  nodes : ∀ t n', F' t = some n' → ∃ n, F t = some n ∧ n'.owner = n.owner ∧
    n'.height = n.height ∧ n'.base = n.base ∧ ∀ i, n'.slot i = n.slot i ∨
      (n.height = 0 ∧ (∃ r pa, n.slot i = .assigned r pa) ∧
        n'.slot i = Edit.remove.apply (n.slot i) ∧
        ∃ p ∈ places, p.1 = n.owner ∧ n.SlotCovers rttShape i p.2.toNat)

/-- A removed entry is not assigned any more. -/
theorem remove_not_assigned (e : Entry) (r : Ripas) (pa : Word) :
    Edit.remove.apply e ≠ .assigned r pa := by
  cases e with
  | assigned r' q => cases r' <;> simp [Edit.apply]
  | _ => simp [Edit.apply]

/-- The pages at some places are not assigned any more, and nothing else changed in the
tables. -/
structure PagesCleared (F : Tables) (places : List (Word × Word)) (F' : Tables) : Prop where
  cleared : ∀ p ∈ places, PageAt F' p.1 p.2.toNat fun e => ∀ r pa, e ≠ .assigned r pa
  nodes : ∀ t n', F' t = some n' → ∃ n, F t = some n ∧ n'.owner = n.owner ∧
    n'.height = n.height ∧ n'.base = n.base ∧ ∀ i, n'.slot i = n.slot i ∨
      (n.height = 0 ∧ (∃ r pa, n.slot i = .assigned r pa) ∧
        n'.slot i = Edit.remove.apply (n.slot i) ∧
        ∃ p ∈ places, p.1 = n.owner ∧ n.SlotCovers rttShape i p.2.toNat)

namespace PagesCleared

variable {F F1 F' : Tables} {P Q : List (Word × Word)}

theorem refl (F : Tables) : PagesCleared F [] F where
  cleared := by simp
  nodes t n hn := ⟨n, hn, rfl, rfl, rfl, fun _ => .inl rfl⟩

/-- A leaf after the removal was a leaf before it, in the same place. -/
theorem leaf (h : PagesCleared F P F') {rd : Word} {a : ℕ} {t : Word} {n' : Table} {i : ℕ}
    (hl : IsLeaf F' rd a t n' i) :
    ∃ n, IsLeaf F rd a t n i ∧ n'.height = n.height ∧ n'.base = n.base ∧
      (n'.slot i = n.slot i ∨ n'.slot i = Edit.remove.apply (n.slot i)) := by
  obtain ⟨n, hn, ho, hh, hb, hs⟩ := h.nodes t n' hl.table
  refine ⟨n, ⟨hn, ho.symm.trans hl.owner, hl.index, ?_, ?_⟩, hh, hb,
    (hs i).imp id fun hr => hr.2.2.1⟩
  · have := hl.covers
    unfold Node.SlotCovers Node.slotBase at this ⊢
    rwa [hb, hh] at this
  · rcases hs i with he | ⟨-, ⟨r, pa, he⟩, -, -⟩
    · rw [← he]
      exact hl.leaf
    · rw [he]
      rfl

theorem trans (h : PagesCleared F P F1) (h' : PagesCleared F1 Q F') :
    PagesCleared F (P ++ Q) F' where
  cleared p hp := by
    rcases List.mem_append.mp hp with hp | hp
    · intro t n' i hl h0
      obtain ⟨n, hl1, hh, -, he⟩ := h'.leaf hl
      rcases he with he | he
      · rw [he]
        exact h.cleared p hp t n i hl1 (hh ▸ h0)
      · rw [he]
        exact remove_not_assigned _
    · exact h'.cleared p hp
  nodes t n' hn' := by
    obtain ⟨n1, hn1, ho1, hh1, hb1, hs1⟩ := h'.nodes t n' hn'
    obtain ⟨n, hn, ho, hh, hb, hs⟩ := h.nodes t n1 hn1
    refine ⟨n, hn, ho1.trans ho, hh1.trans hh, hb1.trans hb, fun i => ?_⟩
    rcases hs1 i with he1 | ⟨h1, ⟨r, pa, hold⟩, hnew, p, hp, hpo, hpc⟩
    · rw [he1]
      refine (hs i).imp id ?_
      rintro ⟨h1, h2, h3, p, hp, h4⟩
      exact ⟨h1, h2, h3, p, List.mem_append_left _ hp, h4⟩
    · -- what is removed now was not removed before
      rcases hs i with he | ⟨-, -, he, -⟩
      · refine .inr ⟨hh ▸ h1, ⟨r, pa, he ▸ hold⟩, by rw [hnew, he], p,
          List.mem_append_right _ hp, hpo.trans ho, ?_⟩
        unfold Node.SlotCovers Node.slotBase at hpc ⊢
        rwa [hb, hh] at hpc
      · rw [he] at hold
        exact absurd hold (remove_not_assigned _ r pa)

end PagesCleared

theorem Removed.pages {s s' : State} {F F' : Tables} {places : List (Word × Word)}
    (h : Removed s F places s' F') : PagesCleared F places F' := ⟨h.cleared, h.nodes⟩

namespace Cleared

variable {s s1 s' : State} {F F1 F' : Tables} {P Q : List (Word × Word)}

theorem pages (h : Cleared s F P s' F') : PagesCleared F P F' := ⟨h.cleared, h.nodes⟩

theorem refl (h : Wf s F) : Cleared s F [] s F where
  wf := h
  micros := ⟨[], .nil, by simp⟩
  state _ := rfl
  granule _ _ := rfl
  words _ _ := rfl
  rd := rfl
  recs := rfl
  tags := rfl
  csmIds := rfl
  vmids := rfl
  apt g := .refl _
  cleared := by simp
  nodes t n hn := ⟨n, hn, rfl, rfl, rfl, fun _ => .inl rfl⟩

/-- One more table is trimmed. -/
theorem setApt (h : Cleared s F P s1 F1) {g : Word} {a : Apt}
    (hg : (s1.granule g).state = .APT) (ha : Trim (s1.apt g) a) :
    Cleared s F P (s1.setApt g a) F1 where
  wf := (recordChange_setApt s1.csmIds hg).wf h.wf
  micros := by
    obtain ⟨ls, hls, hlab⟩ := h.micros
    refine ⟨ls ++ [.quiet none none],
      hls.append (.single h.wf (.quiet (recordChange_setApt s1.csmIds hg).quiet)), ?_⟩
    intro l hl
    rcases List.mem_append.mp hl with hl | hl
    · exact hlab l hl
    · exact .inl (List.mem_singleton.mp hl)
  state := h.state
  granule := h.granule
  words := h.words
  rd := h.rd
  recs := h.recs
  tags := h.tags
  csmIds := h.csmIds
  vmids := h.vmids
  apt x := by
    by_cases hx : x = g
    · subst hx
      rw [show (s1.setApt x a).apt x = a from Function.update_self ..]
      exact (h.apt x).trans ha
    · rw [show (s1.setApt g a).apt x = s1.apt x from Function.update_of_ne hx _ _]
      exact h.apt x
  cleared := h.cleared
  nodes := h.nodes

/-- More pages are removed. -/
theorem removed (h : Cleared s F P s1 F1) (hr : Removed s1 F1 Q s' F') :
    Cleared s F (P ++ Q) s' F' where
  wf := hr.wf
  micros := by
    obtain ⟨ls, hls, hlab⟩ := h.micros
    obtain ⟨ls', hls', hlab'⟩ := hr.micros
    refine ⟨ls ++ ls', hls.append hls', fun l hl => ?_⟩
    rcases List.mem_append.mp hl with hl | hl
    · refine (hlab l hl).imp id ?_
      rintro ⟨p, hp, old, rfl⟩
      exact ⟨p, List.mem_append_left _ hp, old, rfl⟩
    · obtain ⟨p, hp, old, rfl⟩ := hlab' l hl
      exact .inr ⟨p, List.mem_append_right _ hp, old, rfl⟩
  state g := (hr.same.state g).trans (h.state g)
  granule g hg := (hr.same.granule g (by rwa [h.state])).trans (h.granule g hg)
  words g hg := (hr.same.words g (by rwa [h.state])).trans (h.words g hg)
  rd := hr.same.rd.trans h.rd
  recs := hr.same.recs.trans h.recs
  tags := hr.same.tags.trans h.tags
  csmIds := hr.same.csmIds.trans h.csmIds
  vmids := hr.same.vmids.trans h.vmids
  apt g := by
    rw [hr.same.apt]
    exact h.apt g
  cleared := (h.pages.trans hr.pages).cleared
  nodes := (h.pages.trans hr.pages).nodes

/-- A range of one realm is unmapped. -/
theorem unmap (h : Cleared s F P s1 F1) {rd : Word} (hrd : (s.granule rd).state = .RD)
    (start size : Word) :
    Sat (unmapRange s1 (s.rd rd).s2Ctx start size) (fun s' => s'.apt = s1.apt ∧ ∃ F',
      Cleared s F (P ++ (rangePages start size).map fun ipa => (rd, ipa)) s' F') Benign := by
  have hsat := unmapRange_sat h.wf (by rw [h.state, hrd]) start size
  rw [h.rd] at hsat
  refine hsat.imp ?_
  rintro s' ⟨F', hr⟩
  exact ⟨hr.same.apt, F', h.removed hr⟩

end Cleared

/-- The pages of a slave region. -/
def slavePlaces (rd : Word) (m : SlaveMem) : List (Word × Word) :=
  (rangePages m.ipaStart m.mapSize).map fun ipa => (rd, ipa)

/-- The index of the slave region that a revocation finds in a realm. -/
def revokedIndex (plat : Platform) (s : State) (slaveRdPa : Word) (regionId : Byte) : Option ℕ :=
  if lockable plat s slaveRdPa .RD && lockable plat s (s.rd slaveRdPa).aptPa .APT then
    aptFindSlaveByRegionId (s.apt (s.rd slaveRdPa).aptPa) regionId
  else none

/-- The attachment tables after the second half of a revocation. -/
def revokedApts (plat : Platform) (s : State) (slaveRdPa : Word) (regionId : Byte)
    (drop : Apt → ℕ → Apt) : Word → Apt :=
  match revokedIndex plat s slaveRdPa regionId with
  | none => s.apt
  | some sj => Function.update s.apt (s.rd slaveRdPa).aptPa
      (drop (s.apt (s.rd slaveRdPa).aptPa) sj)

/-- The pages that the second half of a revocation unmaps. -/
def revokedPlaces (plat : Platform) (s : State) (slaveRdPa : Word) (regionId : Byte) :
    List (Word × Word) :=
  match revokedIndex plat s slaveRdPa regionId with
  | none => []
  | some sj => slavePlaces slaveRdPa ((s.apt (s.rd slaveRdPa).aptPa).slaveMemory sj)

theorem revokeSlave_sat {plat : Platform} {s s1 : State} {F F1 : Tables} {P : List (Word × Word)}
    (h : Cleared s F P s1 F1) (slaveRdPa : Word) (regionId : Byte) {drop : Apt → ℕ → Apt}
    (hdrop : ∀ a i, TrimOp a (drop a i)) :
    Sat (revokeSlave plat s1 slaveRdPa regionId drop) (fun s' =>
      s'.apt = revokedApts plat s1 slaveRdPa regionId drop ∧ ∃ F',
        Cleared s F (P ++ revokedPlaces plat s1 slaveRdPa regionId) s' F') Benign := by
  unfold revokeSlave revokedApts revokedPlaces revokedIndex
  refine findLockGranule_sat (by decide) ?_
  cases hrd : lockable plat s1 slaveRdPa .RD with
  | false => exact Sat.pure ⟨rfl, F1, by simpa using h⟩
  | true =>
    simp only [Bool.not_true, Bool.false_eq_true, if_false, Bool.true_and]
    refine findLockGranule_sat (by decide) ?_
    cases hapt : lockable plat s1 (s1.rd slaveRdPa).aptPa .APT with
    | false => exact Sat.pure ⟨rfl, F1, by simpa using h⟩
    | true =>
      simp only [Bool.not_true, Bool.false_eq_true, if_false, if_true]
      cases hfind : aptFindSlaveByRegionId (s1.apt (s1.rd slaveRdPa).aptPa) regionId with
      | none => exact Sat.pure ⟨rfl, F1, by simpa using h⟩
      | some sj =>
        have hc := h.setApt (lockable_state hapt) (.single (hdrop _ sj))
        have hr : (s.granule slaveRdPa).state = .RD := by
          rw [← h.state]
          exact lockable_state hrd
        have hsat := hc.unmap hr ((s1.apt (s1.rd slaveRdPa).aptPa).slaveMemory sj).ipaStart
          ((s1.apt (s1.rd slaveRdPa).aptPa).slaveMemory sj).mapSize
        rw [← h.rd] at hsat
        exact hsat

end RmmCaec
