import RmmCaec.Skipping
import RmmCaec.PruneHandlers
import RmmCaec.LeafHandlers
import RmmCaec.DataEffects
import RmmCaec.Replay
import RmmCaec.Acceptance

/-!
# Tearing down a table

A host empties a table by destroying pages, tables or unprotected mappings one after the
other, each time at the address that the last command returned. No command passes over a
live entry, and a command that does not move on stopped at a live entry that it could not
remove. So the host meets every live entry and is done after at most 512 moves.
-/
namespace RmmCaec
open Outcome RadixForest

/-- The entries that the monitor counts as live. -/
def Entry.Live (e : Entry) : Prop :=
  (∃ r pa, e = .assigned r pa) ∨ (∃ desc, e = .assignedNs desc) ∨ ∃ pa, e = .table pa

theorem Holds.live_iff {s : State} {F : Tables} (h : Holds s F) {t : Word} {n : Table}
    (ht : F t = some n) {j : ℕ} (hj : j < 512) :
    s2tteIsLive (s.rtt t j) = true ↔ (n.slot j).Live := by
  obtain ⟨hv, hword⟩ := h.word t n ht j hj
  rw [hword]
  exact Entry.isLive_word hv

/-- A table stays at its place, and none of its entries becomes live. -/
structure Ages (n : Table) (F' : Tables) (t : Word) (n' : Table) : Prop where
  table : F' t = some n'
  owner : n'.owner = n.owner
  height : n'.height = n.height
  base : n'.base = n.base
  live : ∀ j < 512, (n'.slot j).Live → (n.slot j).Live

namespace Ages

variable {s s' : State} {F F1 F' : Tables} {t : Word} {n n1 n' m : Table}

theorem refl (ht : F t = some n) : Ages n F t n := ⟨ht, rfl, rfl, rfl, fun _ _ h => h⟩

theorem trans (h : Ages n F1 t n1) (h' : Ages n1 F' t n') : Ages n F' t n' where
  table := h'.table
  owner := h'.owner.trans h.owner
  height := h'.height.trans h.height
  base := h'.base.trans h.base
  live j hj hl := h.live j hj (h'.live j hj hl)

theorem setSlot {i : ℕ} {e : Entry} (ht : F t = some n) (he : ¬ e.Live) :
    ∃ n', Ages n (F.setSlot t i e) t n' ∧ ¬ (n'.slot i).Live := by
  refine ⟨_, ⟨Forest.setSlot_same ht, rfl, rfl, rfl, fun j _ hl => ?_⟩, ?_⟩
  · dsimp only at hl
    by_cases hji : j = i
    · rw [hji, Function.update_self] at hl
      exact absurd hl he
    · rwa [Function.update_of_ne hji] at hl
  · dsimp only
    rw [Function.update_self]
    exact he

theorem of_removed {places : List (Word × Word)} (h : Wf s F) (hr : Removed s F places s' F')
    (ht : F t = some n) : ∃ n', Ages n F' t n' := by
  have hstate : (s'.granule t).state = .RTT := by
    rw [hr.same.state]
    exact (h.holds.node ht).1
  obtain ⟨n', hn'⟩ := (hr.wf.holds.rtt_iff t).mp hstate
  obtain ⟨m, hm, ho, hh, hb, hslot⟩ := hr.nodes t n' hn'
  obtain rfl : n = m := Option.some.inj (ht.symm.trans hm)
  refine ⟨n', hn', ho, hh, hb, fun j _ hl => ?_⟩
  obtain heq | ⟨-, hold, -⟩ := hslot j
  · rwa [heq] at hl
  · exact .inl hold

end Ages

/-- Removing a mapping leaves an entry that is not live. -/
theorem Edit.dead_apply {e : Edit} {old : Entry} (he : e = .remove ∨ e = .unmapNs)
    (hold : e.Allowed old) : ¬ (e.apply old).Live := by
  obtain rfl | rfl := he
  · obtain ⟨r, pa, rfl⟩ := hold
    cases r <;> simp [Edit.apply, Entry.Live]
  · simp [Edit.apply, Entry.Live]

inductive Teardown
  | dataDestroy
  | rttDestroy (ulevel : Word)
  | unmapUnprotected (ulevel : Word)
  deriving DecidableEq, Repr

namespace Teardown

/-- The level of the last table that the command walks to. -/
def walkLevel : Teardown → ℤ
  | .dataDestroy => s2ttPageLevel
  | .rttDestroy ulevel => ulevel.toInt - 1
  | .unmapUnprotected ulevel => ulevel.toInt

/-- The status and the address that a command returns. -/
def run (plat : Platform) (s : State) (rdAddr mapAddr : Word) :
    Teardown → Rmm (State × ReturnCode × Word)
  | .dataDestroy => do
    let (s', res) ← smcDataDestroy plat s rdAddr mapAddr
    return (s', res.ret, res.x2)
  | .rttDestroy ulevel => do
    let (s', res) ← smcRttDestroy plat s rdAddr mapAddr ulevel
    return (s', res.ret, res.x2)
  | .unmapUnprotected ulevel => do
    let (s', res) ← smcRttUnmapUnprotected plat s rdAddr mapAddr ulevel
    return (s', res.ret, res.x1)

/-- What a command that was not refused for its arguments does. Its address is that of a
skip in the table that its walk ended at. -/
structure Done (s : State) (F : Tables) (rdAddr mapAddr : Word) (cmd : Teardown) (s' : State)
    (ret : ReturnCode) (top : Word) (wi : S2ttWalk) (n : Table) (F' : Tables) (n1 n' : Table) :
    Prop where
  walk : s2ttWalkLockUnlock s (s.rd rdAddr).s2Ctx mapAddr cmd.walkLevel = .ok wi
  walked : Walked F rdAddr mapAddr wi n
  inside : mapAddr.toNat < 2 ^ (s.rd rdAddr).s2Ctx.ipaBits
  wf : Wf s' F'
  ages : Ages n F' wi.gLlt n'
  failed : ret ≠ rmiSuccess → s' = s ∧ n1 = n
  cleared : ret = rmiSuccess → ¬ (n1.slot wi.index).Live
  later : ∀ j < 512, (n'.slot j).Live → (n1.slot j).Live
  skip : ∃ table, top = s2ttSkipNonLiveEntries mapAddr table wi ∧
    ∀ j < 512, s2tteIsLive (table j) = true ↔ (n1.slot j).Live

end Teardown

section
variable {plat : Platform} {s : State} {rdAddr mapAddr : Word}

/-- The address is that of a skip in the table as it is when the locks are released. -/
def ReturnsSkip (s : State) (rdAddr mapAddr : Word) (level : ℤ) (s' : State)
    (top : Word) : Prop :=
  (s.granule rdAddr).state = .RD ∧ ∃ wi,
    s2ttWalkLockUnlock s (s.rd rdAddr).s2Ctx mapAddr level = .ok wi ∧
    top = s2ttSkipNonLiveEntries mapAddr (s'.rtt wi.gLlt) wi

theorem dataDestroySection_skip :
    Sat (dataDestroySection plat s rdAddr mapAddr) (fun res => res.2.ret ≠ rmiErrorInput →
      ReturnsSkip s rdAddr mapAddr s2ttPageLevel res.1 res.2.x2) fun _ => True := by
  unfold dataDestroySection
  refine findLockGranule_sat trivial ?_
  refine Sat.ite (fun _ => Sat.pure fun hne => absurd rfl hne) fun hr => ?_
  have hrd := lockable_state (by simpa using hr)
  refine Sat.ite (fun _ => Sat.pure fun hne => absurd rfl hne) fun _ => ?_
  refine Sat.bind (sat_trivial _).withEq ?_
  rintro wi ⟨hwalk, -⟩
  refine Sat.ite (fun _ => Sat.pure fun _ => ⟨hrd, wi, hwalk, rfl⟩) fun _ => ?_
  cases dataDestroyEntry (s.rtt wi.gLlt wi.index) with
  | none => exact Sat.pure fun _ => ⟨hrd, wi, hwalk, rfl⟩
  | some e =>
    refine Sat.bind (sat_trivial _) fun s3 _ => ?_
    refine Sat.bind (sat_trivial _) fun found _ => ?_
    refine Sat.bind (sat_trivial _) fun _ _ => ?_
    exact Sat.bind (sat_trivial _) fun s4 _ => Sat.pure fun _ => ⟨hrd, wi, hwalk, rfl⟩

/-- A table entry is live. -/
theorem isLive_of_isTable {w : Word} {level : ℤ} (h : s2tteIsTable w level = true) :
    s2tteIsLive w = true := by
  simp only [s2tteIsTable, Bool.and_eq_true, beq_iff_eq] at h
  simp [s2tteIsLive, s2tteHasPa, h.2, descL012Table, descInvalid]

theorem smcRttDestroy_skip (ulevel : Word) :
    Sat (smcRttDestroy plat s rdAddr mapAddr ulevel) (fun res => res.2.ret ≠ rmiErrorInput →
      ReturnsSkip s rdAddr mapAddr (ulevel.toInt - 1) res.1 res.2.x2) fun _ => True := by
  unfold smcRttDestroy
  refine findLockGranule_sat trivial ?_
  refine Sat.ite (fun _ => Sat.pure fun hne => absurd rfl hne) fun hr => ?_
  have hrd := lockable_state (by simpa using hr)
  refine Sat.ite (fun _ => Sat.pure fun hne => absurd rfl hne) fun _ => ?_
  refine Sat.bind (sat_trivial _).withEq ?_
  rintro wi ⟨hwalk, -⟩
  refine Sat.ite (fun _ => Sat.pure fun _ => ⟨hrd, wi, hwalk, rfl⟩) fun htable => ?_
  rw [not_or, Bool.not_eq_false] at htable
  refine Sat.bind (sat_trivial _) fun found _ => ?_
  refine Sat.bind (sat_trivial _) fun _ _ => ?_
  refine Sat.ite (fun _ => Sat.pure fun _ => ⟨hrd, wi, hwalk, ?_⟩) fun _ => ?_
  · exact (skip_of_live (isLive_of_isTable htable.2)).symm
  · refine Sat.bind (sat_trivial _) fun s1 _ => ?_
    refine Sat.bind (sat_trivial _) fun _ _ => ?_
    exact Sat.bind (sat_trivial _) fun _ _ => Sat.pure fun _ => ⟨hrd, wi, hwalk, rfl⟩

theorem unmapNs_skip (level : ℤ) (hostS2tte : Word) :
    Sat (mapUnmapNs plat s rdAddr mapAddr level hostS2tte .UNMAP_NS) (fun res =>
      res.2.ret ≠ rmiErrorInput → ReturnsSkip s rdAddr mapAddr level res.1 res.2.x1)
      fun _ => True := by
  unfold mapUnmapNs
  refine findLockGranule_sat trivial ?_
  refine Sat.ite (fun _ => Sat.pure fun hne => absurd rfl hne) fun hr => ?_
  have hrd := lockable_state (by simpa using hr)
  refine Sat.ite (fun _ => Sat.pure fun hne => absurd rfl hne) fun _ => ?_
  refine Sat.ite (fun _ => Sat.pure fun hne => absurd rfl hne) fun _ => ?_
  refine Sat.ite (fun _ => Sat.pure fun hne => absurd rfl hne) fun _ => ?_
  refine Sat.bind (sat_trivial _).withEq ?_
  rintro wi ⟨hwalk, -⟩
  exact Sat.ite (fun _ => Sat.pure fun _ => ⟨hrd, wi, hwalk, rfl⟩)
    fun _ => Sat.pure fun _ => ⟨hrd, wi, hwalk, rfl⟩

end

section
variable {plat : Platform} {s : State} {F : Tables} {rdAddr mapAddr : Word}

/-- The table at which the walk of a command ends. -/
theorem ReturnsSkip.walked {level : ℤ} {s1 : State} {top : Word} (h : Holds s F)
    (hs : ReturnsSkip s rdAddr mapAddr level s1 top) :
    ∃ wi n, s2ttWalkLockUnlock s (s.rd rdAddr).s2Ctx mapAddr level = .ok wi ∧
      Walked F rdAddr mapAddr wi n ∧ mapAddr.toNat < 2 ^ (s.rd rdAddr).s2Ctx.ipaBits ∧
      ((n.slot wi.index).link = none ∨ wi.lastLevel = level) ∧
      top = s2ttSkipNonLiveEntries mapAddr (s1.rtt wi.gLlt) wi := by
  obtain ⟨hrd, wi, hwalk, htop⟩ := hs
  obtain ⟨n, hw, hin, -, -, hstop⟩ :=
    (h.walk_sat (E := fun _ => True) hrd level trivial).of_ok hwalk
  exact ⟨wi, n, hwalk, hw, hin, hstop, htop⟩

namespace Teardown

/-- A command that fails changes nothing. -/
theorem done_failed (h : Wf s F) {cmd : Teardown} {ret : ReturnCode} {top : Word}
    (hret : ret ≠ rmiSuccess) (hs : ReturnsSkip s rdAddr mapAddr cmd.walkLevel s top) :
    ∃ wi n F' n1 n', Done s F rdAddr mapAddr cmd s ret top wi n F' n1 n' := by
  obtain ⟨wi, n, hwalk, hw, hin, -, htop⟩ := hs.walked h.holds
  exact ⟨wi, n, F, n, n, hwalk, hw, hin, h, .refl hw.table, fun _ => ⟨rfl, rfl⟩,
    fun hc => absurd hc hret, fun _ _ hl => hl,
    ⟨_, htop, fun j hj => h.holds.live_iff hw.table hj⟩⟩

theorem dataDestroy_done (h : Wf s F) :
    Sat (run plat s rdAddr mapAddr .dataDestroy) (fun res => res.2.1 ≠ rmiErrorInput →
      ∃ wi n F' n1 n', Done s F rdAddr mapAddr .dataDestroy res.1 res.2.1 res.2.2 wi n F' n1 n')
      fun _ => True := by
  change Sat (do
    let (s', res) ← smcDataDestroy plat s rdAddr mapAddr
    return (s', res.ret, res.x2)) _ _
  rw [smcDataDestroy_eq, bind_assoc]
  refine Sat.bind (((dataDestroySection_sat h rdAddr mapAddr).and dataDestroySection_skip).mono
    (fun _ hx => hx) fun _ _ => trivial) ?_
  rintro ⟨s1, res⟩ ⟨⟨heq, hret⟩ | ⟨hret, F1, hp⟩, hskip⟩
  · obtain rfl : s1 = s := heq
    dsimp only at hret hskip ⊢
    rw [if_neg hret]
    exact Sat.ok_bind (Sat.pure fun hne => done_failed h hret (hskip hne))
  · dsimp only at hret hskip hp ⊢
    rw [if_pos hret, bind_assoc]
    refine Sat.bind ((csmPropagateDestroy_sat plat (hp.wf h) rdAddr mapAddr).mono
      (fun _ hx => hx) fun _ _ => trivial) ?_
    rintro s' ⟨F', hF'⟩
    refine Sat.ok_bind (Sat.pure fun hne => ?_)
    obtain ⟨wi, n, hwalk, hw, hin, hstop, htop⟩ := (hskip hne).walked h.holds
    have hwf := hp.wf h
    obtain ⟨t, m, i, r, d, s0, rfl, -, -, st, -, -, -⟩ := hp
    -- the page is the entry that the walk ended at
    obtain ⟨rfl, rfl, rfl⟩ := h.holds.leaf_unique (h.holds.walked_isLeaf hw hstop) st.leaf
    obtain ⟨n1, hages, hdead⟩ := Ages.setSlot (i := wi.index) hw.table
      (Edit.dead_apply (.inl rfl) st.allowed)
    rw [← st.forest] at hages
    obtain ⟨n', hages'⟩ := Ages.of_removed hwf hF' hages.table
    exact ⟨wi, n, F', n1, n', hwalk, hw, hin, hF'.wf, hages.trans hages',
      fun hc => absurd hret hc, fun _ => hdead, hages'.live,
      ⟨_, htop, fun j hj => hwf.holds.live_iff hages.table hj⟩⟩

theorem rttDestroy_done (h : Wf s F) (ulevel : Word) :
    Sat (run plat s rdAddr mapAddr (.rttDestroy ulevel)) (fun res => res.2.1 ≠ rmiErrorInput →
      ∃ wi n F' n1 n', Done s F rdAddr mapAddr (.rttDestroy ulevel) res.1 res.2.1 res.2.2 wi n F'
        n1 n') fun _ => True := by
  change Sat (do
    let (s', res) ← smcRttDestroy plat s rdAddr mapAddr ulevel
    return (s', res.ret, res.x2)) _ _
  refine Sat.bind (((smcRttDestroy_walked h rdAddr mapAddr ulevel).and
    (smcRttDestroy_skip ulevel)).mono (fun _ hx => hx) fun _ _ => trivial) ?_
  rintro ⟨s', res⟩ ⟨⟨heq, hret⟩ |
    ⟨hret, wi', m, k, c, new, pages, F', hwalk', hown, st, hwf, -, -,
    hlow, hhigh⟩, hskip⟩
  · obtain rfl : s' = s := heq
    exact Sat.pure fun hne => done_failed h hret (hskip hne)
  · refine Sat.pure fun hne => ?_
    obtain ⟨wi, n, hwalk, hw, hin, -, htop⟩ := (hskip hne).walked h.holds
    obtain rfl : wi' = wi := by
      rw [hwalk] at hwalk'
      exact (Except.ok.inj hwalk').symm
    obtain rfl : n = m := Option.some.inj (hw.table.symm.trans st.table)
    have hnew : ¬ new.Live := by
      by_cases hpar : n.slotBase rttShape wi'.index < 2 ^ (s.rd n.owner).s2Ctx.ipaBits / 2
      · rw [(hlow hpar).1]
        simp [Entry.Live]
      · rw [(hhigh hpar).1]
        simp [Entry.Live]
    have hne' : wi'.gLlt ≠ k := by
      intro hc
      have hstate := st.tableState
      rw [hc, st.freed] at hstate
      cases hstate
    obtain ⟨n', hages, hdead⟩ := Ages.setSlot (i := wi'.index) hw.table hnew
    have hages' : Ages n F' wi'.gLlt n' :=
      { hages with table := by rw [st.forest, Function.update_of_ne hne', hages.table] }
    exact ⟨wi', n, F', n', n', hwalk, hw, hin, hwf, hages', fun hc => absurd hret hc,
      fun _ => hdead, fun _ _ hl => hl,
        ⟨_, htop, fun j hj => hwf.holds.live_iff hages'.table hj⟩⟩

theorem unmapUnprotected_done (h : Wf s F) (ulevel : Word) :
    Sat (run plat s rdAddr mapAddr (.unmapUnprotected ulevel)) (fun res =>
      res.2.1 ≠ rmiErrorInput → ∃ wi n F' n1 n',
        Done s F rdAddr mapAddr (.unmapUnprotected ulevel)
        res.1 res.2.1 res.2.2 wi n F' n1 n') fun _ => True := by
  change Sat (do
    let (s', res) ← smcRttUnmapUnprotected plat s rdAddr mapAddr ulevel
    return (s', res.ret, res.x1)) _ _
  unfold smcRttUnmapUnprotected
  dsimp only
  split
  · exact Sat.ok_bind (Sat.pure fun hne => absurd rfl hne)
  · refine Sat.bind (((unmapNs_walked h rdAddr mapAddr ulevel.toInt 0#64).and
      (unmapNs_skip ulevel.toInt 0#64)).mono (fun _ hx => hx) fun _ _ => trivial) ?_
    rintro ⟨s', res⟩ ⟨⟨heq, hret⟩ | ⟨hret, wi', m, F', hwalk', hown, -, st⟩, hskip⟩
    · obtain rfl : s' = s := heq
      exact Sat.pure fun hne => done_failed h hret (hskip hne)
    · refine Sat.pure fun hne => ?_
      obtain ⟨wi, n, hwalk, hw, hin, -, htop⟩ := (hskip hne).walked h.holds
      obtain rfl : wi' = wi := by
        rw [hwalk] at hwalk'
        exact (Except.ok.inj hwalk').symm
      obtain rfl : n = m := Option.some.inj (hw.table.symm.trans st.leaf.table)
      have hwf := st.wf h
      obtain ⟨n', hages, hdead⟩ := Ages.setSlot (i := wi'.index) hw.table
        (Edit.dead_apply (.inr rfl) st.allowed)
      rw [← st.forest] at hages
      exact ⟨wi', n, F', n', n', hwalk, hw, hin, hwf, hages, fun hc => absurd hret hc,
        fun _ => hdead, fun _ _ hl => hl,
          ⟨_, htop, fun j hj => hwf.holds.live_iff hages.table hj⟩⟩

theorem run_done (h : Wf s F) (cmd : Teardown) :
    Sat (run plat s rdAddr mapAddr cmd) (fun res => res.2.1 ≠ rmiErrorInput →
      ∃ wi n F' n1 n', Done s F rdAddr mapAddr cmd res.1 res.2.1 res.2.2 wi n F' n1 n')
      fun _ => True := by
  cases cmd with
  | dataDestroy => exact dataDestroy_done h
  | rttDestroy ulevel => exact rttDestroy_done h ulevel
  | unmapUnprotected ulevel => exact unmapUnprotected_done h ulevel

end Teardown

end

/-- One command whose walk ends in the table. -/
def Visit (plat : Platform) (rdAddr t : Word) (s : State) (a : Word) (s' : State) (a' : Word) :
    Prop :=
  ∃ cmd ret wi, Teardown.run plat s rdAddr a cmd = .ok (s', ret, a') ∧ ret ≠ rmiErrorInput ∧
    s2ttWalkLockUnlock s (s.rd rdAddr).s2Ctx a cmd.walkLevel = .ok wi ∧ wi.gLlt = t

/-- Commands of a host, each at the address that the last one returned, with the number of
those that moved on. -/
inductive Sweep (plat : Platform) (rdAddr t : Word) (s : State) (a : Word) :
  ℕ → State → Word → Prop
  | start : Sweep plat rdAddr t s a 0 s a
  | visit {k : ℕ} {s1 s' : State} {a1 a' : Word} (before : Sweep plat rdAddr t s a k s1 a1)
      (taken : Visit plat rdAddr t s1 a1 s' a') :
      Sweep plat rdAddr t s a (if a' = a1 then k else k + 1) s' a'

/-- How far a command moved: not at all, from a live entry, or over entries that are not
live. -/
structure Moved (s : State) (a : Word) (n : Table) (s' : State) (n' : Table) (a' : Word) :
    Prop where
  covers : n.Covers rttShape a.toNat
  move : (a' = a ∧ s' = s ∧ (n.slot (n.slotOf rttShape a.toNat)).Live) ∨
    (a < a' ∧ ∃ i, n.slotOf rttShape a.toNat < i ∧ i ≤ 512 ∧
      a'.toNat = n.slotBase rttShape i ∧
      ∀ j, n.slotOf rttShape a.toNat ≤ j → j < i → ¬ (n'.slot j).Live)

section
variable {plat : Platform} {s s' : State} {F : Tables} {rdAddr t a a' : Word} {n : Table}

theorem Teardown.Done.moved {cmd : Teardown} {ret : ReturnCode} {wi : S2ttWalk} {F' : Tables}
    {n1 n' : Table} (h : Holds s F) (hd : Done s F rdAddr a cmd s' ret a' wi n F' n1 n') :
    Moved s a n s' n' a' := by
  obtain ⟨table, htop, htable⟩ := hd.skip
  have hin := hd.walked.inEntry h hd.inside
  have hindex := hd.walked.index
  refine ⟨hd.walked.covers, ?_⟩
  rw [← hindex]
  cases hlive : s2tteIsLive (table wi.index) with
  | true =>
    -- the entry is still live, so the command failed
    have hlive1 := (htable _ hin.index).mp hlive
    have hret : ret ≠ rmiSuccess := fun hc => hd.cleared hc hlive1
    obtain ⟨rfl, rfl⟩ := hd.failed hret
    exact .inl ⟨htop.trans (skip_of_live hlive), rfl, hlive1⟩
  | false =>
    obtain ⟨i, hi, hle, heq, hdead, -⟩ := skip_of_not_live hin hlive
    have hskipped := s2ttSkipNonLiveEntries_skipped hin table
    rw [← htop] at heq hskipped
    refine .inr ⟨hskipped.later hlive, i, hi, hle, ?_, fun j hj1 hj2 hl => ?_⟩
    · rw [heq, hd.walked.level, Node.slotBase, rttShape_span]
    · have hj : j < 512 := lt_of_lt_of_le hj2 hle
      have hlive' := (htable j hj).mpr (hd.later j hj hl)
      rw [hdead j hj1 hj2] at hlive'
      cases hlive'

theorem Visit.moved (h : Wf s F) (ht : F t = some n) (hv : Visit plat rdAddr t s a s' a') :
    ∃ F' n', Wf s' F' ∧ Ages n F' t n' ∧ Moved s a n s' n' a' := by
  obtain ⟨cmd, ret, wi', hrun, hne, hwalk', rfl⟩ := hv
  obtain ⟨wi, m, F', n1, n', hd⟩ := (Teardown.run_done h cmd).of_ok hrun hne
  obtain rfl : wi' = wi := by
    have hwalk := hd.walk
    rw [hwalk'] at hwalk
    exact Except.ok.inj hwalk
  obtain rfl : n = m := Option.some.inj (ht.symm.trans hd.walked.table)
  exact ⟨F', n', hd.wf, hd.ages, hd.moved h.holds⟩

/-- What a sweep has behind it. -/
structure Swept (n0 : Table) (a0 : Word) (k : ℕ) (n : Table) (a : Word) : Prop where
  at_slot : (a = a0 ∧ k = 0) ∨ ∃ i ≤ 512, a.toNat = n0.slotBase rttShape i ∧
    n0.slotOf rttShape a0.toNat + k ≤ i
  dead : ∀ j < 512, EntryMeets n0.base (levelOf n0.height) j a0.toNat a.toNat →
    ¬ (n.slot j).Live

/-- The slot of the first address of a slot. -/
theorem slotOf_slotBase (n : Table) (i : ℕ) : n.slotOf rttShape (n.slotBase rttShape i) = i := by
  rw [Node.slotOf, Node.slotBase, Nat.add_sub_cancel_left]
  exact Nat.mul_div_cancel _ (rttShape.span_pos _)

theorem Swept.visit {n0 n' : Table} {a0 : Word} {k : ℕ} (h : Swept n0 a0 k n a)
    (hplace : n.height = n0.height ∧ n.base = n0.base)
    (hlive : ∀ j < 512, (n'.slot j).Live → (n.slot j).Live) (hm : Moved s a n s' n' a') :
    Swept n0 a0 (if a' = a then k else k + 1) n' a' := by
  obtain ⟨hheight, hbase⟩ := hplace
  obtain ⟨hcovers, ⟨rfl, -, -⟩ | ⟨hlt, i, hi, hle, heq, hdead⟩⟩ := hm
  · rw [if_pos rfl]
    exact ⟨h.at_slot, fun j hj hmeets hl => h.dead j hj hmeets (hlive j hj hl)⟩
  · have hne : a' ≠ a := fun hc => by simp [hc] at hlt
    have hslotBase : n.slotBase rttShape i = n0.slotBase rttShape i := by
      rw [Node.slotBase, Node.slotBase, hheight, hbase]
    rw [if_neg hne]
    refine ⟨.inr ⟨i, hle, heq.trans hslotBase, ?_⟩,
      fun j hj hmeets hl => ?_⟩
    · obtain ⟨rfl, rfl⟩ | ⟨i0, -, heq0, hk⟩ := h.at_slot
      · have hsame : n.slotOf rttShape a.toNat = n0.slotOf rttShape a.toNat := by
          rw [Node.slotOf, Node.slotOf, hheight, hbase]
        omega
      · -- the command was issued at the start of slot `i0`
        have hslot : n.slotOf rttShape a.toNat = i0 := by
          have hsame : n0.slotBase rttShape i0 = n.slotBase rttShape i0 := by
            rw [Node.slotBase, Node.slotBase, hheight, hbase]
          rw [heq0, hsame, slotOf_slotBase]
        omega
    · obtain ⟨x, hlo, hhi, hstart, hend⟩ := hmeets
      by_cases hx : x < a.toNat
      · exact h.dead j hj ⟨x, hlo, hx, hstart, hend⟩ (hlive j hj hl)
      · -- the entry lies between the one of the command and the one it moved to
        have hspan := rttShape_span n0.height
        have hpos := rttShape.span_pos n0.height
        have hslot := hcovers.slotCovers
        unfold Node.SlotCovers Node.slotBase at hslot
        unfold Node.slotBase at heq
        rw [hheight, hbase] at hslot heq
        rw [← hspan] at hstart hend
        have hij : n.slotOf rttShape a.toNat < j + 1 :=
          Nat.lt_of_mul_lt_mul_right (a := rttShape.span n0.height) (by omega)
        have hji : j < i := Nat.lt_of_mul_lt_mul_right (a := rttShape.span n0.height) (by omega)
        exact hdead j (by omega) hji hl

theorem Sweep.swept {n0 : Table} {a0 : Word} {k : ℕ} (h : Wf s F) (ht : F t = some n0)
    (hs : Sweep plat rdAddr t s a0 k s' a) :
    ∃ F' n, Wf s' F' ∧ Ages n0 F' t n ∧ Swept n0 a0 k n a := by
  induction hs with
  | start =>
    refine ⟨F, n0, h, .refl ht, .inl ⟨rfl, rfl⟩, ?_⟩
    rintro j - ⟨x, hlo, hhi, -⟩
    omega
  | visit before taken ih =>
    obtain ⟨F1, n1, hwf, hages, hswept⟩ := ih
    obtain ⟨F', n', hwf', hages', hmoved⟩ := taken.moved hwf hages.table
    exact ⟨F', n', hwf', hages.trans hages',
      hswept.visit ⟨hages.height, hages.base⟩ hages'.live hmoved⟩

end

/-- A skip never passes over a live entry, and a host that goes on from the addresses that
its commands return meets every live entry of the table. It moves on at most once per entry,
and it stays where it is only while the entry there is live. -/
theorem s2ttSkipNonLiveEntries_complete :
    (∀ base addr table wi, InEntry base addr wi →
      Skipped base addr table wi (s2ttSkipNonLiveEntries addr table wi)) ∧
    ∀ plat s0 rdAddr a0 last wi0, Reachable plat s0 → (s0.granule rdAddr).state = .RD →
      s2ttWalkLockUnlock s0 (s0.rd rdAddr).s2Ctx a0 last = .ok wi0 →
      ∃ base, InEntry base a0 wi0 ∧ ∀ k s a, Sweep plat rdAddr wi0.gLlt s0 a0 k s a →
        wi0.index + k ≤ s2ttesPerS2tt ∧
        a.toNat ≤ base + s2ttesPerS2tt * s2tteMapSize wi0.lastLevel ∧
        (∀ j < s2ttesPerS2tt, EntryMeets base wi0.lastLevel j a0.toNat a.toNat →
          s2tteIsLive (s.rtt wi0.gLlt j) = false) ∧
        ∀ s' a', Visit plat rdAddr wi0.gLlt s a s' a' → a < a' ∨ (a' = a ∧ s' = s ∧
          ∃ j < s2ttesPerS2tt, InRange base wi0.lastLevel j a.toNat ∧
            s2tteIsLive (s.rtt wi0.gLlt j) = true) := by
  refine ⟨fun base addr table wi h => s2ttSkipNonLiveEntries_skipped h table, ?_⟩
  intro plat s0 rdAddr a0 last wi0 hreach hrd hwalk
  obtain ⟨F, hF⟩ := hreach.wf
  obtain ⟨n0, hw, hinside, -⟩ :=
    (hF.holds.walk_sat (E := fun _ => True) hrd last trivial).of_ok hwalk
  have hin := hw.inEntry hF.holds hinside
  refine ⟨n0.base, hin, fun k s a hs => ?_⟩
  obtain ⟨F', n, hwf, hages, hswept⟩ := hs.swept hF hw.table
  have hindex := hw.index
  have hspan := rttShape_span n0.height
  have hlt := hin.index
  unfold s2ttesPerS2tt at hlt
  rw [hw.level]
  refine ⟨?_, ?_, fun j hj hmeets => ?_, fun s' a' hv => ?_⟩
  · obtain ⟨-, rfl⟩ | ⟨i, hle, -, hk⟩ := hswept.at_slot
    · exact hlt.le
    · rw [hindex]
      exact hk.trans hle
  · rw [← hspan]
    obtain ⟨rfl, -⟩ | ⟨i, hle, heq, -⟩ := hswept.at_slot
    · have hcovers := hw.covers.2
      rw [Shape.span_succ] at hcovers
      exact hcovers.le
    · rw [heq, Node.slotBase]
      exact Nat.add_le_add_left (Nat.mul_le_mul_right _ hle) _
  · rw [Bool.eq_false_iff, ne_eq, hwf.holds.live_iff hages.table hj]
    exact hswept.dead j hj hmeets
  · obtain ⟨-, -, -, -, hcovers, ⟨heq, hsame, hlive⟩ | ⟨hmove, -⟩⟩ :=
      hv.moved hwf hages.table
    · have hslot := hcovers.slotCovers
      unfold Node.SlotCovers Node.slotBase at hslot
      rw [hages.height, hages.base, hspan] at hslot
      refine .inr ⟨heq, hsame, n.slotOf rttShape a.toNat, hcovers.slotOf_lt,
        ⟨hslot.1, ?_⟩, ?_⟩
      · rw [Nat.add_mul, Nat.one_mul, ← Nat.add_assoc]
        exact hslot.2
      · exact (hwf.holds.live_iff hages.table hcovers.slotOf_lt).mpr hlive
    · exact .inl hmove

/-- The state and the address after a command whose walk ends in the table. -/
def visitOf (plat : Platform) (rdAddr t : Word) (s : State) (a : Word) (cmd : Teardown) :
    Option (State × Word) :=
  match Teardown.run plat s rdAddr a cmd,
      s2ttWalkLockUnlock s (s.rd rdAddr).s2Ctx a cmd.walkLevel with
  | .ok (s', ret, a'), .ok wi => if ret ≠ rmiErrorInput ∧
      wi.gLlt = t then some (s', a') else none
  | _, _ => none

theorem visitOf_visit {plat : Platform} {rdAddr t : Word} {s s' : State} {a a' : Word}
    {cmd : Teardown} (h : visitOf plat rdAddr t s a cmd = some (s', a')) :
    Visit plat rdAddr t s a s' a' := by
  unfold visitOf at h
  split at h
  · next s1 ret a1 wi hrun hwalk =>
    split at h
    · next hok =>
      cases h
      exact ⟨cmd, ret, wi, hrun, hok.1, hwalk, hok.2⟩
    · cases h
  · cases h

set_option maxRecDepth 100000 in
/-- A table with one page at its second entry: the first command moves to the page, the
second destroys it and moves to the end of the table. -/
theorem s2ttSkipNonLiveEntries_complete_page : ∃ s s' : State, Reachable demoPlat s ∧
    Sweep demoPlat (gr 16) (gr 23) s 0 2 s' 0x200000 ∧
    ∃ base, (∀ j < s2ttesPerS2tt, EntryMeets base s2ttPageLevel j 0 0x200000 →
      s2tteIsLive (s'.rtt (gr 23) j) = false) := by
  have hrun : replayEnds (demoKeys [16] [128] [0, 1]) demoPlat (fun _ _ => true)
      (demoRealm 16 1 ++ demoPage 16 128 0x1000) (fun s =>
        decide ((s.granule (gr 16)).state = .RD) &&
        (s2ttWalkLockUnlock s (s.rd (gr 16)).s2Ctx 0 s2ttPageLevel).toOption ==
          some ⟨gr 23, 0, s2ttPageLevel⟩ &&
        (visitOf demoPlat (gr 16) (gr 23) s 0 .dataDestroy).any fun r => r.2 == 0x1000 &&
          (visitOf demoPlat (gr 16) (gr 23) r.1 r.2 .dataDestroy).any fun r' =>
            r'.2 == 0x200000) = true := by
    decide +kernel
  obtain ⟨s, hs, htest⟩ := replayEnds_reachable hrun
  simp only [Bool.and_eq_true, decide_eq_true_eq, beq_iff_eq, Option.any_eq_true] at htest
  obtain ⟨⟨hrd, hwalk⟩, ⟨s1, a1⟩, hv1, rfl, ⟨s2, a2⟩, hv2, rfl⟩ := htest
  have hwalk' : s2ttWalkLockUnlock s (s.rd (gr 16)).s2Ctx 0 s2ttPageLevel =
      .ok ⟨gr 23, 0, s2ttPageLevel⟩ := by
    generalize s2ttWalkLockUnlock s (s.rd (gr 16)).s2Ctx 0 s2ttPageLevel = res at hwalk ⊢
    cases res with
    | ok wi => exact congrArg Except.ok (Option.some.inj hwalk)
    | error e => cases hwalk
  have hsweep : Sweep demoPlat (gr 16) (gr 23) s 0 2 s2 0x200000 :=
    .visit (.visit .start (visitOf_visit hv1)) (visitOf_visit hv2)
  obtain ⟨base, -, hall⟩ := s2ttSkipNonLiveEntries_complete.2 demoPlat s _ _ _ _ hs hrd hwalk'
  exact ⟨s, s2, hs, hsweep, base, (hall 2 s2 _ hsweep).2.2.1⟩

end RmmCaec
