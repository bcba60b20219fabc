import RmmCaec.Replay

/-!
# The kinds of stored entries

The monitor tells the kinds of an entry apart by testing nine predicates on its
word. In every reachable state each entry of each table passes exactly one of
them, so the chains of tests that end in an assertion never reach it.
-/
namespace RmmCaec

open RadixForest Outcome

/-- The nine tests at the level of the table. -/
def s2tteKinds (s2tte : Word) (level : ℤ) : List Bool :=
  [s2tteIsUnassignedEmpty s2tte, s2tteIsUnassignedRam s2tte, s2tteIsUnassignedDestroyed s2tte,
    s2tteIsAssignedEmpty s2tte, s2tteIsAssignedRam s2tte level, s2tteIsAssignedDestroyed s2tte,
    s2tteIsUnassignedNs s2tte, s2tteIsAssignedNs s2tte level, s2tteIsTable s2tte level]

/-- The position of the test that an entry passes. -/
def Entry.kind : Entry → Fin 9
  | .unassigned .EMPTY => 0
  | .unassigned .RAM => 1
  | .unassigned .DESTROYED => 2
  | .assigned .EMPTY _ => 3
  | .assigned .RAM _ => 4
  | .assigned .DESTROYED _ => 5
  | .unassignedNs => 6
  | .assignedNs _ => 7
  | .table _ => 8

section

variable {ctx : S2ttContext} {level : ℤ} {e : Entry}

theorem s2tteKinds_word (he : e.Valid ctx level) :
    s2tteKinds (e.word ctx level) level = (List.finRange 9).map fun k => k == e.kind := by
  have test : ∀ {b : Bool} {k : Fin 9}, (b = true ↔ k = e.kind) → b = (k == e.kind) := by
    intro b k hb
    rw [Bool.eq_iff_iff, hb, beq_iff_eq]
  have hlist : List.finRange 9 = [0, 1, 2, 3, 4, 5, 6, 7, 8] := by decide
  rw [hlist]
  simp only [s2tteKinds, List.map_cons, List.map_nil, List.cons.injEq, and_true]
  refine ⟨test ?_, test ?_, test ?_, test ?_, test ?_, test ?_, test ?_, test ?_, test ?_⟩
  · rw [Entry.isUnassignedEmpty_word he]
    rcases e with (_ | _ | _) | _ | ⟨_ | _ | _, pa⟩ | desc | pa <;> simp [Entry.kind]
  · rw [Entry.isUnassignedRam_word he]
    rcases e with (_ | _ | _) | _ | ⟨_ | _ | _, pa⟩ | desc | pa <;> simp [Entry.kind]
  · rw [Entry.isUnassignedDestroyed_word he]
    rcases e with (_ | _ | _) | _ | ⟨_ | _ | _, pa⟩ | desc | pa <;> simp [Entry.kind]
  · rw [Entry.isAssignedEmpty_word he]
    rcases e with (_ | _ | _) | _ | ⟨_ | _ | _, pa⟩ | desc | pa <;> simp [Entry.kind]
  · rw [Entry.isAssignedRam_word he]
    rcases e with (_ | _ | _) | _ | ⟨_ | _ | _, pa⟩ | desc | pa <;> simp [Entry.kind]
  · rw [Entry.isAssignedDestroyed_word he]
    rcases e with (_ | _ | _) | _ | ⟨_ | _ | _, pa⟩ | desc | pa <;> simp [Entry.kind]
  · rw [Entry.isUnassignedNs_word he]
    rcases e with (_ | _ | _) | _ | ⟨_ | _ | _, pa⟩ | desc | pa <;> simp [Entry.kind]
  · rw [Entry.isAssignedNs_word he]
    rcases e with (_ | _ | _) | _ | ⟨_ | _ | _, pa⟩ | desc | pa <;> simp [Entry.kind]
  · rw [Entry.isTable_word he]
    rcases e with (_ | _ | _) | _ | ⟨_ | _ | _, pa⟩ | desc | pa <;> simp [Entry.kind]

/-- An entry of a table passes exactly one test. -/
theorem s2tteKinds_count (he : e.Valid ctx level) :
    (s2tteKinds (e.word ctx level) level).count true = 1 := by
  rw [s2tteKinds_word he]
  generalize e.kind = k
  revert k
  decide

/-- The first six kinds are the ones that carry a RIPAS. -/
theorem s2tteHasRipas_kinds (he : e.Valid ctx level) :
    s2tteHasRipas (e.word ctx level) level = true ↔
      true ∈ (s2tteKinds (e.word ctx level) level).take 6 := by
  rw [Entry.hasRipas_word he, s2tteKinds_word he]
  rcases e with (_ | _ | _) | _ | ⟨_ | _ | _, pa⟩ | desc | pa <;> simp [Entry.kind] <;> decide

end

theorem rttReadEntry_known {ctx : S2ttContext} {s2tte : Word} {level : ℤ}
    (h : true ∈ s2tteKinds s2tte level) :
    Sat (rttReadEntry ctx s2tte level) (fun _ => True) (· ≠ .unknownEntry) := by
  unfold rttReadEntry
  refine Sat.ite (fun _ => Sat.pure trivial) fun h1 => ?_
  refine Sat.ite (fun _ => Sat.pure trivial) fun h2 => ?_
  refine Sat.ite (fun _ => Sat.pure trivial) fun h3 => ?_
  refine Sat.ite (fun _ => Sat.pure trivial) fun h4 => ?_
  refine Sat.ite (fun _ => Sat.pure trivial) fun h5 => ?_
  refine Sat.ite (fun _ => Sat.pure trivial) fun h6 => ?_
  refine Sat.ite (fun _ => Sat.pure trivial) fun h7 => ?_
  refine Sat.ite (fun _ => ?_) fun h8 => ?_
  · unfold hostNsS2tte
    rw [bind_assoc]
    exact assertThat_sat (fun _ => by decide) fun _ => Sat.ok_bind (Sat.pure trivial)
  refine Sat.ite (fun _ => Sat.pure trivial) fun h9 => ?_
  simp [s2tteKinds, h1, h2, h3, h4, h5, h6, h7, h8, h9] at h

/-- Taking references only fails on an overflow. -/
theorem granuleRefcountInc_known {s : State} {addr : Word} {n : ℕ} :
    Sat (do return some (← granuleRefcountInc s addr n)) (fun _ => True)
      (· ≠ .unknownEntry) := by
  unfold granuleRefcountInc
  rw [bind_assoc]
  exact assertThat_sat (fun _ => by decide) fun _ => Sat.ok_bind (Sat.pure trivial)

theorem rttUnfold_known {s : State} {ctx : S2ttContext} {wi : S2ttWalk} {rtt mapAddr : Word}
    {level : ℤ} (h : true ∈ s2tteKinds (s.rtt wi.gLlt wi.index) (level - 1)) :
    Sat (rttUnfold s ctx wi rtt mapAddr level) (fun _ => True) (· ≠ .unknownEntry) := by
  have blocked : ∀ {k : Unit → Rmm (Option State)},
      Sat (k ()) (fun _ => True) (· ≠ .unknownEntry) →
      Sat (assertThat (decide (s2ttMinBlockLevel < level)) .blockLevel >>= k) (fun _ => True)
        (· ≠ .unknownEntry) := fun hk => assertThat_sat (fun _ => by decide) fun _ => hk
  unfold rttUnfold
  simp only
  refine Sat.ite (fun _ => granuleRefcountInc_known) fun h1 => ?_
  refine Sat.ite (fun _ => granuleRefcountInc_known) fun h2 => ?_
  refine Sat.ite (fun _ => granuleRefcountInc_known) fun h3 => ?_
  refine Sat.ite (fun _ => granuleRefcountInc_known) fun h4 => ?_
  refine Sat.ite (fun _ => blocked granuleRefcountInc_known) fun h5 => ?_
  refine Sat.ite (fun _ => blocked granuleRefcountInc_known) fun h6 => ?_
  refine Sat.ite (fun _ => blocked granuleRefcountInc_known) fun h7 => ?_
  refine Sat.ite (fun _ => blocked granuleRefcountInc_known) fun h8 => ?_
  refine Sat.ite (fun _ => Sat.pure trivial) fun h9 => ?_
  simp [s2tteKinds, h1, h2, h3, h4, h5, h6, h7, h8, h9] at h

theorem Walked.index_lt {F : Tables} {rd addr : Word} {wi : S2ttWalk} {n : Table}
    (hw : Walked F rd addr wi n) : wi.index < s2ttesPerS2tt := by
  rw [hw.index]
  exact hw.covers.slotOf_lt

/-- The entry that a walk ends at passes one of the tests. -/
theorem Walked.known {s : State} {F : Tables} (h : Holds s F) {rd addr : Word} {wi : S2ttWalk}
    {n : Table} (hw : Walked F rd addr wi n) :
    true ∈ s2tteKinds (s.rtt wi.gLlt wi.index) wi.lastLevel := by
  obtain ⟨hv, hword⟩ := h.word _ n hw.table wi.index hw.index_lt
  rw [hword, hw.level]
  exact List.count_pos_iff.mp (by rw [s2tteKinds_count hv]; decide)

theorem smcRttReadEntry_known {s : State} {F : Tables} (h : Holds s F) (plat : Platform)
    (rd mapAddr ulevel : Word) :
    Sat (smcRttReadEntry plat s rd mapAddr ulevel) (fun _ => True) (· ≠ .unknownEntry) := by
  unfold smcRttReadEntry
  simp only
  refine findLockGranule_sat (by decide) ?_
  refine Sat.ite (fun _ => Sat.pure trivial) fun hr => ?_
  have hrd := lockable_state (by simpa using hr)
  refine Sat.ite (fun _ => Sat.pure trivial) fun _ => ?_
  refine Sat.bind (h.walk_sat hrd _ (by decide)) ?_
  rintro wi ⟨n, hw, -⟩
  refine Sat.bind (rttReadEntry_known (hw.known h)) fun _ _ => ?_
  exact granuleUnlock_sat (by decide) (Sat.pure trivial)

theorem smcRttCreate_known {s : State} {F : Tables} (h : Holds s F) (plat : Platform)
    (rd rtt mapAddr ulevel : Word) :
    Sat (smcRttCreate plat s rd rtt mapAddr ulevel) (fun _ => True) (· ≠ .unknownEntry) := by
  unfold smcRttCreate
  simp only
  refine Sat.ite (fun _ => Sat.pure trivial) fun hlock => ?_
  obtain ⟨-, -, hr⟩ := findLockTwoGranules_iff (by simpa using hlock)
  have hrd := lockable_state hr
  refine Sat.ite (fun _ => Sat.pure trivial) fun _ => ?_
  refine Sat.ite (fun _ => Sat.pure trivial) fun _ => ?_
  refine Sat.bind (h.walk_sat hrd _ (by decide)) ?_
  rintro wi ⟨n, hw, -⟩
  refine Sat.ite (fun _ => Sat.pure trivial) fun hl => ?_
  rw [not_ne_iff] at hl
  refine Sat.bind (rttUnfold_known (hl ▸ hw.known h)) ?_
  rintro (_ | s1) -
  · exact Sat.pure trivial
  · exact granuleUnlock_sat (by decide) (granuleUnlock_sat (by decide) (Sat.pure trivial))

/-- In every reachable state each table has one level at which walks read it, and
each of its entries has exactly one kind there. The chains of tests find it, and
the test for a RIPAS agrees with the kinds. -/
theorem storedEntries_one_kind {plat : Platform} {s : State} (h : Reachable plat s) :
    (∀ t, (s.granule t).state = .RTT → ∃ level,
      (∀ rd ipa last wi, (s.granule rd).state = .RD →
        s2ttWalkLockUnlock s (s.rd rd).s2Ctx ipa last = .ok wi → wi.gLlt = t →
          wi.lastLevel = level ∧ wi.index < s2ttesPerS2tt) ∧
      ∀ i < s2ttesPerS2tt, (s2tteKinds (s.rtt t i) level).count true = 1 ∧
        (s2tteHasRipas (s.rtt t i) level = true ↔
          true ∈ (s2tteKinds (s.rtt t i) level).take 6)) ∧
    (∀ rd mapAddr ulevel, smcRttReadEntry plat s rd mapAddr ulevel ≠ .error .unknownEntry) ∧
    (∀ rd rtt mapAddr ulevel, smcRttCreate plat s rd rtt mapAddr ulevel ≠
      .error .unknownEntry) := by
  obtain ⟨F, hF⟩ := h.wf
  refine ⟨fun t ht => ?_, fun rd mapAddr ulevel he => ?_, fun rd rtt mapAddr ulevel he => ?_⟩
  · obtain ⟨n, hn⟩ := (hF.holds.rtt_iff t).mp ht
    refine ⟨levelOf n.height, fun rd ipa last wi hrd hwalk hwt => ?_, fun i hi => ?_⟩
    · obtain ⟨n', hw, -⟩ :=
        (hF.holds.walk_sat (E := fun _ => True) hrd last trivial).of_ok hwalk
      have hn' := hw.table
      rw [hwt, hn] at hn'
      cases hn'
      exact ⟨hw.level, hw.index_lt⟩
    · obtain ⟨hv, hword⟩ := hF.holds.word t n hn i hi
      rw [hword]
      exact ⟨s2tteKinds_count hv, s2tteHasRipas_kinds hv⟩
  · exact (smcRttReadEntry_known hF.holds plat rd mapAddr ulevel).of_error he rfl
  · exact (smcRttCreate_known hF.holds plat rd rtt mapAddr ulevel).of_error he rfl

set_option maxRecDepth 100000 in
/-- A realm with a page, and with a block of the host's memory in the root table of its
unprotected half: three tables, of which one holds a page, one a block and one a table. -/
theorem storedEntries_one_kind_demo : ∃ s, Reachable demoPlat s ∧
    s2tteIsTable (s.rtt (gr 17) 0) 2 = true ∧ s2tteIsAssignedRam (s.rtt (gr 23) 1) 3 = true ∧
    s2tteIsAssignedNs (s.rtt (gr 19) 0) 2 = true ∧
    ∀ t ∈ [gr 17, gr 19, gr 23], ∃ level, ∀ i < s2ttesPerS2tt,
      (s2tteKinds (s.rtt t i) level).count true = 1 := by
  have hrun : replayEnds (demoKeys [16] [128] [0, 1]) demoPlat (fun _ _ => true)
      (demoRealm 16 1 ++ demoPage 16 128 0x1000 ++
        [.rttMapUnprotected (gr 16) 0x80000000 2 0x400000d8])
      (fun s => s2tteIsTable (s.rtt (gr 17) 0) 2 && s2tteIsAssignedRam (s.rtt (gr 23) 1) 3 &&
        s2tteIsAssignedNs (s.rtt (gr 19) 0) 2 &&
        [gr 17, gr 19, gr 23].all fun t => (s.granule t).state == .RTT) = true := by
    decide +kernel
  obtain ⟨s, hs, ht⟩ := replayEnds_reachable hrun
  rw [Bool.and_eq_true, Bool.and_eq_true, Bool.and_eq_true, List.all_eq_true] at ht
  obtain ⟨⟨⟨htable, hpage⟩, hblock⟩, hrtt⟩ := ht
  refine ⟨s, hs, htable, hpage, hblock, fun t hmem => ?_⟩
  obtain ⟨level, -, hall⟩ := (storedEntries_one_kind hs).1 t (beq_iff_eq.mp (hrtt t hmem))
  exact ⟨level, fun i hi => (hall i hi).1⟩

end RmmCaec
