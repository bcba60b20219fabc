import RmmCaec.StoredEntries

/-!
# Round trips of stage 2 descriptors

What a constructor packs into a word comes out of it again: the address, the kind and
the RIPAS. The address may use every bit of the output address size, also those that
FEAT_LPA2 moves into the shareability field.
-/
namespace RmmCaec

/-- A word from which an address is read, and which is of the kind of an abstract entry and
of no other. -/
structure ReadsBack (ctx : S2ttContext) (level : ℤ) (w : Word) (e : Entry)
    (pa : Word) : Prop where
  hasPa : s2tteHasPa w = true
  pa : s2ttePa ctx w level = pa
  kind : s2tteKinds w level = (List.finRange 9).map fun k => k == e.kind

/-- A word from which an address and a RIPAS are read, of the assigned kind with this RIPAS. -/
structure ReadsAssigned (ctx : S2ttContext) (level : ℤ) (w : Word) (r : Ripas) (pa : Word) : Prop
    extends ReadsBack ctx level w (.assigned r pa) pa where
  hasRipas : s2tteHasRipas w level = true
  ripas : s2tteGetRipas w = some r

section
variable {ctx : S2ttContext} {level : ℤ} {pa : Word}

theorem readsAssigned_word {r : Ripas} (he : (Entry.assigned r pa).Valid ctx level) :
    ReadsAssigned ctx level (Entry.word ctx level (.assigned r pa)) r pa := by
  have hr : s2tteHasRipas (Entry.word ctx level (.assigned r pa)) level = true :=
    (Entry.hasRipas_word he).mpr (.inr ⟨r, pa, rfl⟩)
  have hlive : s2tteIsLive (Entry.word ctx level (.assigned r pa)) = true :=
    (Entry.isLive_word he).mpr (.inl ⟨r, pa, rfl⟩)
  exact ⟨⟨hlive, Entry.s2ttePa_assigned he, s2tteKinds_word he⟩, hr,
    (Entry.getRipas_word he hr r).mpr (.inr ⟨pa, rfl⟩)⟩

/-- The kind of a valid descriptor depends on its type and its security bit alone. -/
theorem s2tteKinds_of_valid {w w' : Word} (hvalid : w &&& descTypeMask ≠ descInvalid)
    (htype : w' &&& descTypeMask = w &&& descTypeMask) (hns : w' &&& s2tteNs = w &&& s2tteNs) :
    s2tteKinds w' level = s2tteKinds w level := by
  have hipas : ∀ {v : Word} (h : Word), v &&& descTypeMask = w &&& descTypeMask →
      s2tteHasHipas v h = false := by
    intro v h hv
    rw [s2tteHasHipas, hv, beq_eq_false_iff_ne.mpr hvalid, Bool.false_and]
  simp only [s2tteKinds, s2tteIsUnassignedEmpty, s2tteIsUnassignedRam, s2tteIsUnassignedDestroyed,
    s2tteIsAssignedEmpty, s2tteIsAssignedRam, s2tteIsAssignedDestroyed, s2tteIsUnassignedNs,
    s2tteIsAssignedNs, s2tteIsTable, s2tteHasUnassignedRipas, s2tteHasAssignedRipas, s2tteCheck,
    hipas _ rfl, hipas _ htype, htype, hns, Bool.and_false]

/-- The attributes of a read-only page or block. -/
def readOnlyAttrs (opencca lpa2 page : Bool) : Word :=
  if page then s2ttePage opencca lpa2 true else s2tteBlock opencca lpa2 true

theorem createAssignedRamReadOnly_eq :
    s2tteCreateAssignedRamReadOnly ctx pa level =
      paToS2tte pa ctx.enableLpa2 |||
        readOnlyAttrs ctx.opencca ctx.enableLpa2 (decide (level = 3)) := by
  have hram : (invalidRipas .RAM ||| s2tteCreateFlagRo) &&& invalidRipasMask =
      invalidRipas .RAM := by
    decide
  have hro : ((invalidRipas .RAM ||| s2tteCreateFlagRo) &&& s2tteCreateFlagRo != 0#64) = true := by
    decide
  by_cases hl : level = 3 <;>
    simp [s2tteCreateAssignedRamReadOnly, s2tteCreateAssigned, hram, hro, hl, s2ttPageLevel,
      readOnlyAttrs]

theorem attrBits_readOnly (opencca lpa2 page : Bool) :
    AttrBits lpa2 (readOnlyAttrs opencca lpa2 page) := by
  have key : ∀ i < 64, (readOnlyAttrs opencca lpa2 page).getLsbD i = true →
      (i < 12 ∨ 52 ≤ i) ∧ (lpa2 = true → i < 8 ∨ 10 ≤ i) := by
    cases opencca <;> cases lpa2 <;> cases page <;> decide
  exact fun i hi => key i (BitVec.lt_of_getLsbD hi) hi

theorem readsAssigned_readOnly (he : (Entry.assigned .RAM pa).Valid ctx level) :
    ReadsAssigned ctx level (s2tteCreateAssignedRamReadOnly ctx pa level) .RAM pa := by
  have hfield : ∀ {m : Word}, FieldBits m →
      s2tteCreateAssignedRamReadOnly ctx pa level &&& m =
        readOnlyAttrs ctx.opencca ctx.enableLpa2 (decide (level = 3)) &&& m := by
    intro m hm
    rw [createAssignedRamReadOnly_eq, paToS2tte_or_and_field he.2.2 hm]
  -- a read-only mapping differs from a writable one in the access permissions only
  have htype : s2tteCreateAssignedRamReadOnly ctx pa level &&& descTypeMask =
      Entry.word ctx level (.assigned .RAM pa) &&& descTypeMask := by
    rw [hfield (by decide), Entry.word_and_descType he]
    by_cases hl : level = 3 <;> cases ctx.opencca <;> cases ctx.enableLpa2 <;>
      simp only [Entry.descType, hl] <;> decide
  have hns : s2tteCreateAssignedRamReadOnly ctx pa level &&& s2tteNs =
      Entry.word ctx level (.assigned .RAM pa) &&& s2tteNs := by
    rw [hfield (by decide), Entry.word_and_ns he]
    by_cases hl : level = 3 <;> cases ctx.opencca <;> cases ctx.enableLpa2 <;>
      simp only [Entry.nsBit, hl] <;> decide
  have hword := readsAssigned_word he
  have hvalid : Entry.word ctx level (.assigned .RAM pa) &&& descTypeMask ≠ descInvalid := by
    rw [Entry.word_and_descType he]
    by_cases hl : level = 3 <;> simp [Entry.descType, hl, descInvalid]
  have htable : s2tteIsTable (s2tteCreateAssignedRamReadOnly ctx pa level) level =
      s2tteIsTable (Entry.word ctx level (.assigned .RAM pa)) level := by
    rw [s2tteIsTable, htype, s2tteIsTable]
  have hnot : s2tteIsTable (Entry.word ctx level (.assigned .RAM pa)) level = false := by
    rw [Bool.eq_false_iff]
    simp [Entry.isTable_word he]
  refine ⟨⟨?_, ?_, ?_⟩, ?_, ?_⟩
  · simp [s2tteHasPa, htype, hvalid]
  · rw [s2ttePa, htable, hnot, createAssignedRamReadOnly_eq]
    exact s2tteToPa_paToS2tte_or he.2.2 (attrBits_readOnly _ _ _)
  · rw [s2tteKinds_of_valid hvalid htype hns]
    exact hword.kind
  · have hr := hword.hasRipas
    rw [s2tteHasRipas] at hr ⊢
    rw [htable, hns]
    exact hr
  · have hr := hword.ripas
    unfold s2tteGetRipas at hr ⊢
    dsimp only at hr ⊢
    rw [if_pos hvalid] at hr
    rw [htype, if_pos hvalid]
    exact hr

/-- The RIPAS of an unassigned entry is its RIPAS field. -/
theorem getRipas_unassigned {w : Word} {r : Ripas} (hw : s2tteIsUnassigned w = true)
    (hr : s2tteGetRipas w = some r) : w &&& invalidRipasMask = invalidRipas r := by
  simp only [s2tteIsUnassigned, s2tteHasHipas, Bool.and_eq_true, beq_iff_eq] at hw
  unfold s2tteGetRipas at hr
  dsimp only at hr
  rw [if_neg (not_ne_iff.mpr hw.1)] at hr
  split at hr
  · simpa using List.find?_some hr
  · cases hr

/-- Every constructor of an entry with an address. An assigned entry made from an unassigned
one takes over its RIPAS; a table may stand for any granule. -/
theorem s2tteCreate_readsBack (ctx : S2ttContext) (level : ℤ) (pa : Word) :
    (s2tteCreateAssignedOk ctx pa level = true →
      ReadsAssigned ctx level (s2tteCreateAssignedEmpty ctx pa level) .EMPTY pa ∧
      ReadsAssigned ctx level (s2tteCreateAssignedRam ctx pa level) .RAM pa ∧
      ReadsAssigned ctx level (s2tteCreateAssignedRamReadOnly ctx pa level) .RAM pa ∧
      ReadsAssigned ctx level (s2tteCreateAssignedDestroyed ctx pa level) .DESTROYED pa ∧
      ∀ w r, s2tteIsUnassigned w = true → s2tteGetRipas w = some r →
        ReadsAssigned ctx level (s2tteCreateAssignedUnchanged ctx w pa level) r pa) ∧
    (level < s2ttPageLevel → s2tteIsAddrLvlAligned ctx pa s2ttPageLevel = true →
      ReadsBack ctx level (s2tteCreateTable ctx pa) (.table pa) pa) := by
  refine ⟨fun hok => ?_, fun hl ha => ?_⟩
  · simp only [s2tteCreateAssignedOk, Bool.and_eq_true, decide_eq_true_eq] at hok
    have he : ∀ r, (Entry.assigned r pa).Valid ctx level := fun r => ⟨hok.1.1, hok.1.2, hok.2⟩
    refine ⟨readsAssigned_word (he .EMPTY), readsAssigned_word (he .RAM),
      readsAssigned_readOnly (he .RAM), readsAssigned_word (he .DESTROYED), fun w r hw hr => ?_⟩
    rw [s2tteCreateAssignedUnchanged, getRipas_unassigned hw hr]
    exact readsAssigned_word (he r)
  · have he : (Entry.table pa).Valid ctx level := ⟨hl, ha⟩
    have hlive : s2tteIsLive (Entry.word ctx level (.table pa)) = true :=
      (Entry.isLive_word he).mpr (.inr (.inr ⟨pa, rfl⟩))
    exact ⟨hlive, Entry.s2ttePa_table he, s2tteKinds_word he⟩

end

/-- A block whose address has the two top bits, which are stored in the shareability field. -/
theorem s2tteCreate_readsBack_lpa2 : ∃ ctx : S2ttContext, ctx.enableLpa2 = true ∧
    ReadsAssigned ctx 2 (s2tteCreateAssignedRamReadOnly ctx 0xFFFFFFFE00000#64 2) .RAM
      0xFFFFFFFE00000#64 ∧
    ReadsAssigned ctx 2 (s2tteCreateAssignedUnchanged ctx s2tteCreateUnassignedDestroyed
      0xFFFFFFFE00000#64 2) .DESTROYED 0xFFFFFFFE00000#64 ∧
    ReadsBack ctx 2 (s2tteCreateTable ctx 0xFFFFFFFE00000#64) (.table 0xFFFFFFFE00000#64)
      0xFFFFFFFE00000#64 := by
  have h := s2tteCreate_readsBack ⟨52, -1, 1, 0#64, 0, true, false⟩ 2 0xFFFFFFFE00000#64
  obtain ⟨-, -, hro, -, hsame⟩ := h.1 (by decide)
  exact ⟨_, rfl, hro, hsame _ _ (by decide) (by decide), h.2 (by decide) (by decide)⟩

end RmmCaec
