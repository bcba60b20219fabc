import RmmCaec.DataEffects

/-!
# Effects of the RIPAS and unprotected mapping handlers

These handlers rewrite leaves at any level: a loop over the entries of one table
for a RIPAS change, a single entry for an unprotected mapping.
-/
namespace RmmCaec

open RadixForest Outcome

/-- The RIPAS of a protected leaf. -/
def Entry.ripas : Entry → Option Ripas
  | .unassigned r => some r
  | .assigned r _ => some r
  | _ => none

/-- An edit without a change of references, in the form the handlers write it. -/
theorem writeState_step {s : State} {F : Tables} (h : Holds s F) {rd t : Word}
    {n : Table} {i a : ℕ}
    (e : Edit) (purge : Option Word) (hl : IsLeaf F rd a t n i) (hallowed : e.Allowed (n.slot i))
    (hv : (e.apply (n.slot i)).Valid (s.rd rd).s2Ctx (levelOf n.height))
    (hrefs : e.drops = e.adds)
    (hpurge : (n.slot i).output (s.rd rd).s2Ctx (levelOf n.height) ≠ none →
      e.apply (n.slot i) ≠ n.slot i → ∃ addr, purge = some addr)
    (hpa : ∀ addr, purge = some addr → addr.toNat = a) :
    EditStep s F t n i a e
      (writeState s (s.rd rd).s2Ctx t i
        ((e.apply (n.slot i)).word (s.rd rd).s2Ctx (levelOf n.height)) purge)
      (F.setSlot t i (e.apply (n.slot i))) := by
  have hst := editState_step h e purge (s.granule t).refcount hl hallowed hv (by rw [hrefs]) hpurge
    hpa
  unfold editState at hst
  have hself := setRefcount_self (writeState s (s.rd rd).s2Ctx t i
    ((e.apply (n.slot i)).word (s.rd rd).s2Ctx (levelOf n.height)) purge) t
  rw [writeState_granule] at hself
  rwa [hself] at hst

/-- What a RIPAS change writes is an edit of the entry; a DESTROYED entry changes
only if the request allows it, and a valid entry is invalidated. -/
theorem updateRipas_write {ctx : S2ttContext} {level : ℤ} {e : Entry} {r : Ripas} {cd : Bool}
    {w : Word} {tlbi : Bool} (hv : e.Valid ctx level)
    (h : updateRipas ctx (e.word ctx level) level r cd = .write w tlbi) :
    ∃ ed : Edit, ((ed = .keep ∧ r = .DESTROYED) ∨
        (ed = .ripas r ∧ (e.ripas = some .DESTROYED → cd = true))) ∧
      ed.Allowed e ∧ (ed.apply e).Valid ctx level ∧ w = (ed.apply e).word ctx level ∧
      (e.output ctx level ≠ none → ed.apply e ≠ e → tlbi = true) := by
  unfold updateRipas at h
  simp only at h
  split at h
  case isTrue => cases h
  case isFalse hr =>
    rw [Bool.not_eq_true, Bool.not_eq_false', Entry.hasRipas_word hv] at hr
    have hlink : e.link = none := by
      rcases hr with ⟨r', rfl⟩ | ⟨r', pa, rfl⟩ <;> rfl
    cases r with
    | DESTROYED =>
      cases h
      exact ⟨.keep, .inl ⟨rfl, rfl⟩, hlink, hv, rfl, fun _ hne => absurd rfl hne⟩
    | RAM =>
      simp only [Entry.isUnassignedEmpty_word hv, Entry.isUnassignedDestroyed_word hv,
        Entry.isAssignedEmpty_word hv, Entry.isAssignedDestroyed_word hv] at h
      rcases hr with ⟨r', rfl⟩ | ⟨r', pa, rfl⟩
      · cases r' <;> simp at h
        · obtain ⟨rfl, rfl⟩ := h
          exact ⟨.ripas .RAM, .inr ⟨rfl, by rintro ⟨⟩⟩, .inl ⟨_, rfl⟩, trivial, rfl,
            fun ho => absurd rfl ho⟩
        · cases cd <;> simp at h
          obtain ⟨rfl, rfl⟩ := h
          exact ⟨.ripas .RAM, .inr ⟨rfl, fun _ => rfl⟩, .inl ⟨_, rfl⟩, trivial, rfl,
            fun ho => absurd rfl ho⟩
      · cases r' <;> simp at h
        · obtain ⟨hw, rfl⟩ := h
          rw [Entry.s2ttePa_assigned hv] at hw
          exact ⟨.ripas .RAM, .inr ⟨rfl, by rintro ⟨⟩⟩, .inr ⟨_, _, rfl⟩, hv, hw.symm,
            fun ho => absurd rfl ho⟩
        · cases cd <;> simp at h
          obtain ⟨hw, rfl⟩ := h
          rw [Entry.s2ttePa_assigned hv] at hw
          exact ⟨.ripas .RAM, .inr ⟨rfl, fun _ => rfl⟩, .inr ⟨_, _, rfl⟩, hv, hw.symm,
            fun ho => absurd rfl ho⟩
    | EMPTY =>
      simp only [Entry.isUnassignedRam_word hv, Entry.isUnassignedDestroyed_word hv,
        Entry.isAssignedRam_word hv, Entry.isAssignedDestroyed_word hv] at h
      rcases hr with ⟨r', rfl⟩ | ⟨r', pa, rfl⟩
      · cases r' <;> simp at h
        · obtain ⟨rfl, rfl⟩ := h
          exact ⟨.ripas .EMPTY, .inr ⟨rfl, by rintro ⟨⟩⟩, .inl ⟨_, rfl⟩, trivial, rfl,
            fun ho => absurd rfl ho⟩
        · cases cd <;> simp at h
          obtain ⟨rfl, rfl⟩ := h
          exact ⟨.ripas .EMPTY, .inr ⟨rfl, fun _ => rfl⟩, .inl ⟨_, rfl⟩, trivial, rfl,
            fun ho => absurd rfl ho⟩
      · cases r' <;> simp at h
        · obtain ⟨hw, rfl⟩ := h
          rw [Entry.s2ttePa_assigned hv] at hw
          exact ⟨.ripas .EMPTY, .inr ⟨rfl, by rintro ⟨⟩⟩,
            .inr ⟨_, _, rfl⟩, hv, hw.symm,
            fun _ _ => rfl⟩
        · cases cd <;> simp at h
          obtain ⟨hw, rfl⟩ := h
          rw [Entry.s2ttePa_assigned hv] at hw
          exact ⟨.ripas .EMPTY, .inr ⟨rfl, fun _ => rfl⟩, .inr ⟨_, _, rfl⟩, hv, hw.symm,
            fun _ _ => rfl⟩

/-- A run of leaf edits in the table at one height of a realm. -/
structure TableEdited (s : State) (F : Tables) (P : Effect → Prop) (s' : State) (F' : Tables) :
    Prop where
  wf : Wf s' F'
  same : SameAll s s'
  micros : ∃ ls, Micros s F ls s' F' ∧ ∀ l ∈ ls, P l

theorem TableEdited.refl {s : State} {F : Tables} {P : Effect → Prop} (h : Wf s F) :
    TableEdited s F P s F := ⟨h, .refl s, [], .nil, by simp⟩

/-- One edit before a run of edits. -/
theorem TableEdited.cons {s s1 s' : State} {F F1 F' : Tables} {P : Effect → Prop} {t : Word}
    {n : Table} {i a : ℕ} {e : Edit} (hw : Wf s F) (st : EditStep s F t n i a e s1 F1)
    (hpage : e.page = none) (hP : P (.edit n.owner a n.height (n.slot i) e))
    (h : TableEdited s1 F1 P s' F') : TableEdited s F P s' F' := by
  obtain ⟨ls, hls, hlab⟩ := h.micros
  refine ⟨h.wf, (st.sameAll hw.holds).trans h.same, _ :: ls,
    .cons hw (.edit st (by rw [hpage]; rintro pa ⟨⟩)) hls, ?_⟩
  intro l hl
  rcases List.mem_cons.mp hl with rfl | hl
  · exact hP
  · exact hlab l hl

/-- The leaf at index `i` of a table, at the first address of its slot. -/
theorem isLeaf_slotBase {F : Tables} {t : Word} {n : Table} {i : ℕ} (ht : F t = some n)
    (hi : i < 512) (hl : (n.slot i).link = none) :
    IsLeaf F n.owner (n.slotBase rttShape i) t n i :=
  ⟨ht, rfl, hi, ⟨le_rfl, Nat.lt_add_of_pos_right (rttShape.span_pos _)⟩, hl⟩

/-- The effects of a RIPAS loop over a range. -/
def RipasEffect (rd : Word) (lo top height : ℕ) (r : Ripas) (cd : Bool) (l : Effect) : Prop :=
  ∃ a old e, l = .edit rd a height old e ∧ rttShape.span height ∣ a ∧ lo ≤ a ∧
    a + rttShape.span height ≤ top ∧
    (e = .keep ∨ (e = .ripas r ∧ (old.ripas = some .DESTROYED → cd = true)))

/-- The write of a changed entry and the invalidation behind it are one edit. -/
theorem updateRipas_step {s : State} {F : Tables} {t : Word} {n : Table} {index addr : ℕ}
    {r : Ripas} {cd tlbi : Bool} {w : Word} (h : Wf s F) (ht : F t = some n) (hi : index < 512)
    (haddr : addr = n.slotBase rttShape index) (hlt : addr < 2 ^ 64)
    (hup : updateRipas (s.rd n.owner).s2Ctx (s.rtt t index) (levelOf n.height) r cd =
      .write w tlbi) :
    ∃ ed : Edit, ((ed = .keep ∧ r = .DESTROYED) ∨
        (ed = .ripas r ∧ ((n.slot index).ripas = some .DESTROYED → cd = true))) ∧
      EditStep s F t n index addr ed
        (if tlbi then
          if levelOf n.height = s2ttPageLevel then
            s2ttInvalidatePage (s2tteWrite s (s.rd n.owner).s2Ctx t index w) (s.rd n.owner).s2Ctx
              (BitVec.ofNat 64 addr)
          else s2ttInvalidateBlock (s2tteWrite s (s.rd n.owner).s2Ctx t index w)
            (s.rd n.owner).s2Ctx (BitVec.ofNat 64 addr)
        else s2tteWrite s (s.rd n.owner).s2Ctx t index w)
        (F.setSlot t index (ed.apply (n.slot index))) := by
  obtain ⟨hv, hword⟩ := h.holds.word t n ht index hi
  rw [hword] at hup
  obtain ⟨ed, hed, hallowed, hvalid, hw, htlbi⟩ := updateRipas_write hv hup
  have hleaf := isLeaf_slotBase ht hi hallowed.link
  rw [← haddr] at hleaf
  have hst := writeState_step h.holds ed (if tlbi then some (BitVec.ofNat 64 addr) else none)
    hleaf hallowed hvalid
    (by rcases hed with ⟨rfl, _⟩ | ⟨rfl, _⟩ <;> rfl)
    (fun ho hne => ⟨_, by rw [htlbi ho hne]; rfl⟩)
    (fun a ha => by
      cases tlbi with
      | true =>
        cases ha
        rw [BitVec.toNat_ofNat]
        exact Nat.mod_eq_of_lt hlt
      | false => cases ha)
  refine ⟨ed, hed, ?_⟩
  convert hst using 1
  rw [hw]
  cases tlbi with
  | false => rfl
  | true =>
    by_cases hp : levelOf n.height = s2ttPageLevel
    · rw [if_pos rfl, if_pos hp]
      rfl
    · rw [if_pos rfl, if_neg hp]
      rfl

theorem setRipasLoop_spec {t : Word} {top : ℕ} (r : Ripas) (cd : Bool) (htop : top < 2 ^ 64)
    (lo fuel : ℕ) {s : State} {F : Tables} {n : Table} {index addr : ℕ} (h : Wf s F)
    (ht : F t = some n) (hidx : index + fuel ≤ 512) (haddr : addr = n.slotBase rttShape index)
    (hlo : lo ≤ addr) :
    ∃ F', TableEdited s F (RipasEffect n.owner lo top n.height r cd)
      (setRipasLoop (s.rd n.owner).s2Ctx t (levelOf n.height) top r cd fuel s index addr).1 F' := by
  induction fuel generalizing s F n index addr with
  | zero => exact ⟨F, .refl h⟩
  | succ fuel ih =>
    have hi : index < 512 := by omega
    obtain ⟨hv, hword⟩ := h.holds.word t n ht index hi
    have hnext : addr + s2tteMapSize (levelOf n.height) = n.slotBase rttShape (index + 1) := by
      rw [haddr, ← rttShape_span, Node.slotBase, Node.slotBase]
      ring
    unfold setRipasLoop
    by_cases hstop : top < addr + s2tteMapSize (levelOf n.height)
    · rw [if_pos hstop]
      exact ⟨F, .refl h⟩
    rw [if_neg hstop, hword]
    cases hup : updateRipas (s.rd n.owner).s2Ctx
        ((n.slot index).word (s.rd n.owner).s2Ctx (levelOf n.height)) (levelOf n.height) r cd with
    | refused => exact ⟨F, .refl h⟩
    | unchanged => exact ih h ht (by omega) hnext (by omega)
    | write w tlbi =>
      simp only
      have hlt : addr < 2 ^ 64 := by
        have := s2tteMapSize_pos (levelOf n.height)
        omega
      rw [← hword] at hup
      obtain ⟨ed, hed, hst⟩ := updateRipas_step h ht hi haddr hlt hup
      obtain ⟨F', hF'⟩ := ih (hst.wf h) (Forest.setSlot_same ht) (by omega) hnext (by omega)
      rw [hst.rd] at hF'
      refine ⟨F', .cons h hst (by rcases hed with ⟨rfl, _⟩ | ⟨rfl, _⟩ <;> rfl) ?_ hF'⟩
      refine ⟨addr, n.slot index, ed, rfl, haddr ▸ h.holds.span_dvd_slotBase ht index, hlo, ?_,
        hed.imp And.left id⟩
      rw [rttShape_span]
      omega

/-- The loop stops where it began or further on, but not beyond the top. -/
theorem setRipasLoop_addr (ctx : S2ttContext) (t : Word) (level : ℤ) (top : ℕ) (r : Ripas)
    (cd : Bool) (fuel : ℕ) (s : State) (index addr : ℕ) :
    (setRipasLoop ctx t level top r cd fuel s index addr).2 = addr ∨
      (setRipasLoop ctx t level top r cd fuel s index addr).2 ≤ top := by
  induction fuel generalizing s index addr with
  | zero => exact .inl rfl
  | succ fuel ih =>
    unfold setRipasLoop
    by_cases hstop : top < addr + s2tteMapSize level
    · rw [if_pos hstop]
      exact .inl rfl
    have next : ∀ s' : State, (setRipasLoop ctx t level top r cd fuel s' (index + 1)
        (addr + s2tteMapSize level)).2 ≤ top := by
      intro s'
      rcases ih s' (index + 1) (addr + s2tteMapSize level) with he | hle
      · omega
      · exact hle
    rw [if_neg hstop]
    split
    · exact .inl rfl
    · exact .inr (next s)
    · exact .inr (next _)

/-- The effects of the loop that initialises RIPAS: it only turns unassigned_empty
entries into unassigned_ram ones. -/
def InitRipasEffect (rd : Word) (lo top height : ℕ) (l : Effect) : Prop :=
  ∃ a, l = .edit rd a height (.unassigned .EMPTY) (.ripas .RAM) ∧ lo ≤ a ∧
    a + rttShape.span height ≤ top

theorem initRipasLoop_spec {t : Word} (top lo fuel : ℕ) {s : State} {F : Tables}
    {n : Table} {index addr : ℕ} (h : Wf s F) (ht : F t = some n) (hidx : index + fuel ≤ 512)
    (haddr : addr = n.slotBase rttShape index) (hlo : lo ≤ addr) :
    ∃ F', TableEdited s F (InitRipasEffect n.owner lo top n.height)
      (initRipasLoop (s.rd n.owner).s2Ctx t (s2tteMapSize (levelOf n.height)) top fuel s index
        addr).1 F' := by
  induction fuel generalizing s F n index addr with
  | zero => exact ⟨F, .refl h⟩
  | succ fuel ih =>
    have hi : index < 512 := by omega
    obtain ⟨hv, hword⟩ := h.holds.word t n ht index hi
    have hnext : addr + s2tteMapSize (levelOf n.height) = n.slotBase rttShape (index + 1) := by
      rw [haddr, ← rttShape_span, Node.slotBase, Node.slotBase]
      ring
    unfold initRipasLoop
    by_cases hstop : top < addr + s2tteMapSize (levelOf n.height)
    · rw [if_pos hstop]
      exact ⟨F, .refl h⟩
    rw [if_neg hstop, hword]
    by_cases hempty : s2tteIsUnassignedEmpty
        ((n.slot index).word (s.rd n.owner).s2Ctx (levelOf n.height)) = true
    · rw [if_pos hempty]
      have he := (Entry.isUnassignedEmpty_word hv).mp hempty
      have hallowed : (Edit.ripas .RAM).Allowed (n.slot index) := .inl ⟨_, he⟩
      have hleaf := isLeaf_slotBase ht hi hallowed.link
      rw [← haddr] at hleaf
      have happly : (Edit.ripas .RAM).apply (n.slot index) = .unassigned .RAM := by
        rw [he]
        rfl
      have hst := writeState_step h.holds (.ripas .RAM) none hleaf hallowed
        (by rw [happly]; trivial) rfl (fun ho => by rw [he] at ho; exact absurd rfl ho)
        (by rintro a ⟨⟩)
      rw [happly] at hst
      obtain ⟨F', hF'⟩ := ih (hst.wf h) (Forest.setSlot_same ht) (by omega) hnext (by omega)
      rw [hst.rd] at hF'
      refine ⟨F', .cons h hst rfl ⟨addr, by rw [he], hlo, ?_⟩ hF'⟩
      rw [rttShape_span]
      omega
    rw [if_neg hempty]
    split
    · exact ih h ht (by omega) hnext (by omega)
    · exact ⟨F, .refl h⟩

theorem smcRttInitRipas_sat {plat : Platform} {s : State} {F : Tables} (h : Wf s F)
    (rdAddr base top : Word) :
    Sat (smcRttInitRipas plat s rdAddr base top)
      (fun res => ∃ F' height, TableEdited s F
        (InitRipasEffect rdAddr base.toNat top.toNat height) res.1 F') Benign := by
  have idle : ∃ F' height, TableEdited s F
      (InitRipasEffect rdAddr base.toNat top.toNat height) s F' :=
    ⟨F, 0, .refl h⟩
  unfold smcRttInitRipas
  refine Sat.ite (fun _ => Sat.pure idle) fun _ => ?_
  refine findLockGranule_sat (by decide) ?_
  refine Sat.ite (fun _ => Sat.pure idle) fun hr => ?_
  have hrd := lockable_state (by simpa using hr)
  refine Sat.ite (fun _ => Sat.pure idle) fun _ => ?_
  refine Sat.ite (fun _ => Sat.pure idle) fun _ => ?_
  refine Sat.bind (h.holds.walk_sat hrd s2ttPageLevel (by decide)) ?_
  rintro wi ⟨n, hw, -, -, -, hstop⟩
  have hleaf := h.holds.walked_isLeaf hw hstop
  refine Sat.ite (fun _ => Sat.pure idle) fun hmod => ?_
  rw [not_ne_iff, hw.level, ← rttShape_span] at hmod
  have hbase := h.holds.eq_slotBase hleaf.table hleaf.covers (Nat.dvd_of_mod_eq_zero hmod)
  have hfuel : wi.index + ((if wi.lastLevel = s2ttMinStartingLevelLpa2 then s2ttesPerS2ttLm1
      else s2ttesPerS2tt) - wi.index) ≤ 512 := by
    have := hleaf.index
    unfold s2ttesPerS2ttLm1 s2ttesPerS2tt
    split <;> omega
  obtain ⟨F', hF'⟩ := initRipasLoop_spec top.toNat base.toNat _ h hleaf.table hfuel hbase le_rfl
  rw [hw.owner, ← hw.level] at hF'
  simp only
  generalize initRipasLoop (s.rd rdAddr).s2Ctx wi.gLlt (s2tteMapSize wi.lastLevel) top.toNat _ s
    wi.index base.toNat = res at hF' ⊢
  exact Sat.ite (fun _ => Sat.pure ⟨F', _, hF'⟩) fun _ => Sat.pure ⟨F', _, hF'⟩

/-- What `smc_rtt_set_ripas` does: nothing, or the edits that serve the request of
the REC, followed by the record of how far they went. -/
def RipasSet (s : State) (F : Tables) (rdAddr recAddr base top : Word) (s' : State) : Prop :=
  s' = s ∨ ((s.granule rdAddr).state = .RD ∧ (s.granule recAddr).state = .REC ∧
    (s.recs recAddr).gRd = rdAddr ∧ base = (s.recs recAddr).setRipas.addr ∧
    top ≤ (s.recs recAddr).setRipas.top ∧ ∃ s1 F' height, TableEdited s F
      (RipasEffect rdAddr base.toNat top.toNat height (s.recs recAddr).setRipas.ripasVal
        (s.recs recAddr).setRipas.changeDestroyed) s1 F' ∧
      (s' = s1 ∨ ∃ addr, base < addr ∧ s' = s1.setRec recAddr { s.recs recAddr with
        setRipas := { (s.recs recAddr).setRipas with addr := addr } }))

theorem smcRttSetRipas_sat {plat : Platform} {s : State} {F : Tables} (h : Wf s F)
    (rdAddr recAddr base top : Word) :
    Sat (smcRttSetRipas plat s rdAddr recAddr base top)
      (fun res => RipasSet s F rdAddr recAddr base top res.1) Benign := by
  unfold smcRttSetRipas
  refine Sat.ite (fun _ => Sat.pure (.inl rfl)) fun _ => ?_
  refine Sat.ite (fun _ => Sat.pure (.inl rfl)) fun hlock => ?_
  obtain ⟨-, hr, hrec⟩ := findLockTwoGranules_iff (by simpa using hlock)
  have hrd := lockable_state hr
  refine Sat.ite (fun _ => Sat.pure (.inl rfl)) fun _ => ?_
  refine Sat.ite (fun _ => Sat.pure (.inl rfl)) fun hown => ?_
  rw [not_ne_iff] at hown
  refine Sat.ite (fun _ => Sat.pure (.inl rfl)) fun hreq => ?_
  rw [not_or, not_ne_iff, BitVec.not_lt] at hreq
  refine assertThat_sat (fun _ => by decide) fun _ => ?_
  refine Sat.bind (h.holds.walk_sat hrd s2ttPageLevel (by decide)) ?_
  rintro wi ⟨n, hw, -, -, -, hstop⟩
  have hleaf := h.holds.walked_isLeaf hw hstop
  refine Sat.ite (fun _ => Sat.pure (.inl rfl)) fun _ => ?_
  refine Sat.ite (fun _ => Sat.pure (.inl rfl)) fun hmod => ?_
  rw [not_ne_iff, hw.level, ← rttShape_span] at hmod
  have hbase := h.holds.eq_slotBase hleaf.table hleaf.covers (Nat.dvd_of_mod_eq_zero hmod)
  have hfuel : wi.index + (s2ttesPerS2tt - wi.index) ≤ 512 := by
    have := hleaf.index
    unfold s2ttesPerS2tt
    omega
  obtain ⟨F', hF'⟩ := setRipasLoop_spec (s.recs recAddr).setRipas.ripasVal
    (s.recs recAddr).setRipas.changeDestroyed top.isLt base.toNat _ h hleaf.table hfuel hbase le_rfl
  rw [hw.owner, ← hw.level] at hF'
  have hend := setRipasLoop_addr (s.rd rdAddr).s2Ctx wi.gLlt wi.lastLevel top.toNat
    (s.recs recAddr).setRipas.ripasVal (s.recs recAddr).setRipas.changeDestroyed
    (s2ttesPerS2tt - wi.index) s wi.index base.toNat
  simp only
  generalize setRipasLoop (s.rd rdAddr).s2Ctx wi.gLlt wi.lastLevel top.toNat _ _ _ s wi.index
    base.toNat = res at hF' hend ⊢
  refine Sat.ite (fun hlt => Sat.pure (.inr ⟨hrd, lockable_state hrec, hown.symm, hreq.1, hreq.2,
    res.1, F', _, hF', .inr ⟨BitVec.ofNat 64 res.2, ?_, rfl⟩⟩)) fun _ =>
      Sat.pure (.inr ⟨hrd,
    lockable_state hrec, hown.symm, hreq.1, hreq.2, res.1, F', _, hF', .inl rfl⟩)
  rw [BitVec.lt_def, BitVec.toNat_ofNat, Nat.mod_eq_of_lt (by omega)]
  exact hlt

theorem hostDesc_of_valid {ctx : S2ttContext} {level : ℤ} {desc : Word}
    (h : hostNsS2tteIsValid ctx desc level = true) :
    Entry.HostDesc ctx level (Entry.keptDesc ctx.opencca desc) := by
  simp only [hostNsS2tteIsValid, Bool.and_eq_true, beq_iff_eq] at h
  exact Entry.hostDesc_keptDesc h.1

/-- The effects of mapping and unmapping unprotected memory. -/
def NsEffect (s : State) (rd : Word) (l : Effect) : Prop :=
  ∃ a height old e, l = .edit rd a height old e ∧ ¬ a < 2 ^ (s.rd rd).s2Ctx.ipaBits / 2 ∧
    ((∃ desc, e = .mapNs desc) ∨ e = .unmapNs)

/-- Unmapping does nothing or removes the unprotected leaf at the walked entry. -/
theorem unmapNs_walked {plat : Platform} {s : State} {F : Tables} (h : Wf s F)
    (rdAddr mapAddr : Word) (level : ℤ) (hostS2tte : Word) :
    Sat (mapUnmapNs plat s rdAddr mapAddr level hostS2tte .UNMAP_NS)
      (fun res => (res.1 = s ∧ res.2.ret ≠ rmiSuccess) ∨ (res.2.ret = rmiSuccess ∧
        ∃ wi n F', s2ttWalkLockUnlock s (s.rd rdAddr).s2Ctx mapAddr level = .ok wi ∧
          n.owner = rdAddr ∧ ¬ mapAddr.toNat < 2 ^ (s.rd rdAddr).s2Ctx.ipaBits / 2 ∧
          EditStep s F wi.gLlt n wi.index mapAddr.toNat .unmapNs res.1 F')) Benign := by
  have refused : ∀ {ret : ReturnCode} {x1 x2 : Word}, ret ≠ rmiSuccess →
      Sat (pure (s, ⟨ret, x1, x2⟩) : Rmm (State × SmcResult))
        (fun res => (res.1 = s ∧ res.2.ret ≠ rmiSuccess) ∨ (res.2.ret = rmiSuccess ∧
          ∃ wi n F', s2ttWalkLockUnlock s (s.rd rdAddr).s2Ctx mapAddr level = .ok wi ∧
            n.owner = rdAddr ∧ ¬ mapAddr.toNat < 2 ^ (s.rd rdAddr).s2Ctx.ipaBits / 2 ∧
            EditStep s F wi.gLlt n wi.index mapAddr.toNat .unmapNs res.1 F')) Benign :=
    fun hret => Sat.pure (.inl ⟨rfl, hret⟩)
  unfold mapUnmapNs
  refine findLockGranule_sat (by decide) ?_
  refine Sat.ite (fun _ => refused (by decide)) fun hr => ?_
  have hrd := lockable_state (by simpa using hr)
  refine Sat.ite (fun _ => refused (by decide)) fun _ => ?_
  refine Sat.ite (fun _ => refused (by decide)) fun _ => ?_
  refine Sat.ite (fun _ => refused (by decide)) fun hpar => ?_
  have hpar' : ¬ mapAddr.toNat < 2 ^ (s.rd rdAddr).s2Ctx.ipaBits / 2 := fun hc =>
    hpar (decide_eq_true hc)
  refine Sat.bind (h.holds.walk_sat hrd level (by decide)).withEq ?_
  rintro wi ⟨hwalk, n, hw, -, -, -, -⟩
  have hi : wi.index < 512 := by
    rw [hw.index]
    exact hw.covers.slotOf_lt
  obtain ⟨hv, hword⟩ := h.holds.word _ n hw.table _ hi
  rw [hw.owner, ← hw.level] at hv hword
  simp only
  refine Sat.ite (fun _ => refused (by simp [rmiErrorRtt, rmiSuccess])) fun hl => ?_
  rw [not_or, not_ne_iff, Bool.not_eq_false, hword] at hl
  obtain ⟨hl, hns⟩ := hl
  obtain ⟨desc, he⟩ := (Entry.isAssignedNs_word hv).mp hns
  have hleaf := h.holds.walked_isLeaf hw (.inl (by rw [he]; rfl))
  have hst := writeState_step h.holds .unmapNs (some mapAddr) hleaf ⟨desc, he⟩ trivial rfl
    (fun _ _ => ⟨mapAddr, rfl⟩) (by rintro a ⟨⟩; rfl)
  have hs2 : (if level = s2ttPageLevel then s2ttInvalidatePage
      (s2tteWrite s (s.rd rdAddr).s2Ctx wi.gLlt wi.index s2tteCreateUnassignedNs)
      (s.rd rdAddr).s2Ctx mapAddr else s2ttInvalidateBlock
      (s2tteWrite s (s.rd rdAddr).s2Ctx wi.gLlt wi.index s2tteCreateUnassignedNs)
      (s.rd rdAddr).s2Ctx mapAddr) =
      writeState s (s.rd rdAddr).s2Ctx wi.gLlt wi.index
        ((Edit.unmapNs.apply (n.slot wi.index)).word (s.rd rdAddr).s2Ctx (levelOf n.height))
        (some mapAddr) := by
    split <;> rfl
  rw [hs2]
  exact Sat.pure (.inr ⟨rfl, wi, n, _, hwalk, hw.owner, hpar', hst⟩)

/-- A call has mapped the host's descriptor at an unassigned entry. -/
structure NsMapped (plat : Platform) (s : State) (F : Tables) (rdAddr mapAddr : Word) (level : ℤ)
    (desc : Word) (s' : State) (t : Word) (n : Table) (i : ℕ) (F' : Tables) : Prop where
  rdLock : lockable plat s rdAddr .RD = true
  host : Entry.HostDesc (s.rd rdAddr).s2Ctx level desc
  args : validateRttMapCmds mapAddr level (s.rd rdAddr) = true
  upper : ¬ mapAddr.toNat < 2 ^ (s.rd rdAddr).s2Ctx.ipaBits / 2
  owner : n.owner = rdAddr
  level : levelOf n.height = level
  edit : EditStep s F t n i mapAddr.toNat (.mapNs desc) s' F'

/-- Mapping does nothing or writes the descriptor at the walked entry. -/
theorem mapNs_walked {plat : Platform} {s : State} {F : Tables} (h : Wf s F)
    (rdAddr mapAddr : Word) {level : ℤ} (hlevel : 1 ≤ level ∧ level ≤ 3)
    (hostS2tte : Word) :
    Sat (mapUnmapNs plat s rdAddr mapAddr level hostS2tte .MAP_NS)
      (fun res => (res.1 = s ∧ res.2.ret ≠ rmiSuccess) ∨ (res.2.ret = rmiSuccess ∧
        ∃ t n i F', NsMapped plat s F rdAddr mapAddr level
          (Entry.keptDesc (s.rd rdAddr).s2Ctx.opencca hostS2tte) res.1 t n i F')) Benign := by
  have refused : ∀ {ret : ReturnCode} {x1 x2 : Word}, ret ≠ rmiSuccess →
      Sat (pure (s, ⟨ret, x1, x2⟩) : Rmm (State × SmcResult))
        (fun res => (res.1 = s ∧ res.2.ret ≠ rmiSuccess) ∨ (res.2.ret = rmiSuccess ∧
          ∃ t n i F', NsMapped plat s F rdAddr mapAddr level
            (Entry.keptDesc (s.rd rdAddr).s2Ctx.opencca hostS2tte) res.1 t n i F')) Benign :=
    fun hret => Sat.pure (.inl ⟨rfl, hret⟩)
  unfold mapUnmapNs
  refine findLockGranule_sat (by decide) ?_
  refine Sat.ite (fun _ => refused (by decide)) fun hr => ?_
  have hlock : lockable plat s rdAddr .RD = true := by simpa using hr
  have hrd := lockable_state hlock
  refine Sat.ite (fun _ => refused (by decide)) fun hhost => ?_
  refine Sat.ite (fun _ => refused (by decide)) fun hargs => ?_
  refine Sat.ite (fun _ => refused (by decide)) fun hpar => ?_
  have hpar' : ¬ mapAddr.toNat < 2 ^ (s.rd rdAddr).s2Ctx.ipaBits / 2 := fun hc =>
    hpar (decide_eq_true hc)
  refine Sat.bind (h.holds.walk_sat hrd level (by decide)) ?_
  rintro wi ⟨n, hw, -, -, -, -⟩
  have hi : wi.index < 512 := by
    rw [hw.index]
    exact hw.covers.slotOf_lt
  obtain ⟨hv, hword⟩ := h.holds.word _ n hw.table _ hi
  rw [hw.owner, ← hw.level] at hv hword
  simp only
  refine Sat.ite (fun _ => refused (by simp [rmiErrorRtt, rmiSuccess])) fun hl => ?_
  rw [not_ne_iff] at hl
  refine Sat.ite (fun _ => refused (by simp [rmiErrorRtt, rmiSuccess])) fun hun => ?_
  rw [hword] at hun
  have he := (Entry.isUnassignedNs_word hv).mp (by simpa using hun)
  have hleaf := h.holds.walked_isLeaf hw (.inl (by rw [he]; rfl))
  have hdesc : Entry.HostDesc (s.rd rdAddr).s2Ctx level
      (Entry.keptDesc (s.rd rdAddr).s2Ctx.opencca hostS2tte) := by
    apply hostDesc_of_valid
    simpa using hhost
  rw [hw.level] at hl
  have hst :=
    writeState_step h.holds (.mapNs (Entry.keptDesc (s.rd rdAddr).s2Ctx.opencca hostS2tte)) none
    hleaf he
    (by rw [hl]; exact ⟨hlevel.1, hlevel.2, hdesc⟩) rfl
    (fun ho => by rw [he] at ho; exact absurd rfl ho) (by rintro a ⟨⟩)
  have hword : Entry.word (s.rd rdAddr).s2Ctx level
      (.assignedNs (Entry.keptDesc (s.rd rdAddr).s2Ctx.opencca hostS2tte)) =
        s2tteCreateAssignedNs (s.rd rdAddr).s2Ctx hostS2tte level :=
    Entry.createAssignedNs_keptDesc _ _ _
  rw [hl, Edit.apply, hword] at hst
  exact Sat.pure (.inr ⟨rfl, _, _, _, _,
    { rdLock := hlock
      host := hdesc
      args := by simpa using hargs
      upper := hpar'
      owner := hw.owner
      level := hl
      edit := hst }⟩)

theorem mapUnmapNs_sat {plat : Platform} {s : State} {F : Tables} (h : Wf s F)
    (rdAddr mapAddr : Word) {level : ℤ} (hlevel : 1 ≤ level ∧ level ≤ 3) (hostS2tte : Word)
    (op : MapUnmapNsOp) :
    Sat (mapUnmapNs plat s rdAddr mapAddr level hostS2tte op)
      (fun res => ∃ F', TableEdited s F (NsEffect s rdAddr) res.1 F') Benign := by
  have idle : ∃ F', TableEdited s F (NsEffect s rdAddr) s F' := ⟨F, .refl h⟩
  cases op with
  | UNMAP_NS =>
    refine (unmapNs_walked h rdAddr mapAddr level hostS2tte).imp ?_
    rintro res (⟨heq, -⟩ | ⟨-, wi, n, F', -, hown, hpar, hst⟩)
    · rw [heq]
      exact idle
    · refine ⟨_, .cons h hst rfl ?_ (.refl (hst.wf h))⟩
      rw [hown]
      exact ⟨_, _, _, _, rfl, hpar, .inr rfl⟩
  | MAP_NS =>
    refine (mapNs_walked h rdAddr mapAddr hlevel hostS2tte).imp ?_
    rintro res (⟨heq, -⟩ | ⟨-, t, n, i, F', m⟩)
    · rw [heq]
      exact idle
    · refine ⟨_, .cons h m.edit rfl ?_ (.refl (m.edit.wf h))⟩
      rw [m.owner]
      exact ⟨_, _, _, _, rfl, m.upper, .inl ⟨_, rfl⟩⟩

end RmmCaec
