import RmmCaec.DescriptorBits

/-!
# The kinds of stage 2 entries

An entry that the monitor stores is the word of one abstract entry. The
constructors produce such words, and on them every predicate and field reader
of the descriptor library answers by the abstract kind alone. Later modules
reason about abstract entries and never about bits.
-/
namespace RmmCaec

/-- What a stage 2 entry means. An unprotected mapping keeps the part of the
descriptor that the host supplied. -/
inductive Entry
  | unassigned (r : Ripas)
  | unassignedNs
  | assigned (r : Ripas) (pa : Word)
  | assignedNs (desc : Word)
  | table (pa : Word)
  deriving DecidableEq, Repr

namespace Entry

/-- The word that stores an abstract entry in a table at `level`. -/
def word (ctx : S2ttContext) (level : ℤ) : Entry → Word
  | .unassigned r => s2tteCreateUnassigned r
  | .unassignedNs => s2tteCreateUnassignedNs
  | .assigned r pa => s2tteCreateAssigned ctx pa level (invalidRipas r)
  | .assignedNs desc => s2tteCreateAssignedNs ctx desc level
  | .table pa => s2tteCreateTable ctx pa

/-- The host part of an unprotected descriptor fits its level; where the build sets all bits
of MemAttr, they are set. -/
def HostDesc (ctx : S2ttContext) (level : ℤ) (desc : Word) : Prop :=
  desc &&& ~~~(s2tteLvlMask level ctx.enableLpa2 ||| s2tteNsAttrMask) = 0#64 ∧
    (ctx.opencca = true → desc &&& s2tteMemattrMask = s2tteMemattrMask)

/-- The abstract entries that may stand in a table at `level`. -/
def Valid (ctx : S2ttContext) (level : ℤ) : Entry → Prop
  | .unassigned _ => True
  | .unassignedNs => True
  | .assigned _ pa => 1 ≤ level ∧ level ≤ 3 ∧ s2tteIsAddrLvlAligned ctx pa level = true
  | .assignedNs desc => 1 ≤ level ∧ level ≤ 3 ∧ HostDesc ctx level desc
  | .table pa => level < 3 ∧ s2tteIsAddrLvlAligned ctx pa 3 = true

end Entry

/-- A field outside the host part of a descriptor is not supplied by the host. -/
theorem hostDesc_and {ctx : S2ttContext} {level : ℤ} {desc m : Word}
    (hd : Entry.HostDesc ctx level desc)
    (hm : (s2tteLvlMask level ctx.enableLpa2 ||| s2tteNsAttrMask) &&& m = 0#64) :
    desc &&& m = 0#64 := by
  apply BitVec.eq_of_getLsbD_eq
  intro i hi
  have h1 := congrArg (fun w : Word => w.getLsbD i) hd.1
  have h2 := congrArg (fun w : Word => w.getLsbD i) hm
  simp only [BitVec.getLsbD_and, BitVec.getLsbD_not, BitVec.getLsbD_or, hi, decide_true,
    Bool.true_and, BitVec.getLsbD_zero] at h1 h2 ⊢
  cases hdb : desc.getLsbD i <;> cases hmb : m.getLsbD i <;> simp_all

namespace Entry

variable {ctx : S2ttContext} {level : ℤ}

/-- The part of a stored word that carries an address. -/
def addrPart (lpa2 : Bool) : Entry → Word
  | .assigned _ pa => paToS2tte pa lpa2
  | .assignedNs desc => desc
  | .table pa => paToS2tte pa lpa2
  | _ => 0#64

/-- The part of a stored word that the monitor chooses. -/
def attrs (opencca lpa2 page : Bool) : Entry → Word
  | .unassigned r => s2tteCreateUnassigned r
  | .unassignedNs => s2tteCreateUnassignedNs
  | .assigned .RAM _ => if page then s2ttePage opencca lpa2 false else s2tteBlock opencca lpa2 false
  | .assigned r _ => invalidHipasAssigned ||| invalidRipas r
  | .assignedNs _ =>
      ((if lpa2 then 0#64 else s2tteShIs) |||
        (if page then s2ttePageNs opencca else s2tteBlockNs opencca)) &&& ~~~s2tteNsAttrMask
  | .table _ => descL012Table

theorem hostDesc_and_field {desc m : Word} (hd : HostDesc ctx level desc) (hm : FieldBits m)
    (hattr : s2tteNsAttrMask &&& m = 0#64) : desc &&& m = 0#64 := by
  apply hostDesc_and hd
  rw [BitVec.and_comm, BitVec.and_or_distrib_left, BitVec.and_comm m, BitVec.and_comm m,
    lvlMask_and_field _ _ hm, hattr, BitVec.zero_or]

/-- Of the host's attributes the monitor sets none, or all bits of MemAttr. -/
theorem nsAttrs_and_mask (opencca lpa2 page : Bool) :
    ((if lpa2 then 0#64 else s2tteShIs) |||
      (if page then s2ttePageNs opencca else s2tteBlockNs opencca)) &&& s2tteNsAttrMask =
        if opencca then s2tteMemattrMask else 0#64 := by
  cases opencca <;> cases lpa2 <;> cases page <;> decide

/-- What a word has already does not have to be added. -/
theorem or_of_covered {w a m : Word} (h : a &&& m &&& ~~~w = 0#64) :
    w ||| a = w ||| (a &&& ~~~m) := by
  apply BitVec.eq_of_getLsbD_eq
  intro i hi
  have hbit := congrArg (fun w : Word => w.getLsbD i) h
  simp only [BitVec.getLsbD_and, BitVec.getLsbD_not, BitVec.getLsbD_or, hi, decide_true,
    Bool.true_and, BitVec.getLsbD_zero] at hbit ⊢
  cases hw : w.getLsbD i <;> cases ha : a.getLsbD i <;> cases hm : m.getLsbD i <;> simp_all

theorem word_eq {e : Entry} (he : e.Valid ctx level) :
    e.word ctx level =
      e.addrPart ctx.enableLpa2 ||| e.attrs ctx.opencca ctx.enableLpa2 (decide (level = 3)) := by
  match e, he with
  | .unassigned r, _ => simp [word, addrPart, attrs]
  | .unassignedNs, _ => simp [word, addrPart, attrs]
  | .assigned r pa, _ =>
    have h1 : invalidRipas r &&& invalidRipasMask = invalidRipas r := by cases r <;> decide
    have h2 : (invalidRipas .RAM &&& s2tteCreateFlagRo != 0#64) = false := by decide
    cases r with
    | RAM => by_cases hl : level = 3 <;>
        simp [word, addrPart, attrs, s2tteCreateAssigned, h1, h2, hl, s2ttPageLevel]
    | EMPTY => simp [word, addrPart, attrs, s2tteCreateAssigned, h1, BitVec.or_assoc,
        show invalidRipas .EMPTY ≠ invalidRipas .RAM by decide]
    | DESTROYED => simp [word, addrPart, attrs, s2tteCreateAssigned, h1, BitVec.or_assoc,
        show invalidRipas .DESTROYED ≠ invalidRipas .RAM by decide]
  | .assignedNs desc, he =>
    have h3 : desc &&& descTypeMask = 0#64 :=
      hostDesc_and_field he.2.2 (by decide) (by decide)
    have h4 : desc &&& ~~~descTypeMask = desc := by
      have hall : desc &&& (descTypeMask ||| ~~~descTypeMask) = desc := by
        rw [show descTypeMask ||| ~~~descTypeMask = BitVec.allOnes 64 by decide,
          BitVec.and_allOnes]
      rwa [BitVec.and_or_distrib_left, h3, BitVec.zero_or] at hall
    have h5 : ∀ page : Bool, ((if ctx.enableLpa2 then 0#64 else s2tteShIs) |||
        (if page then s2ttePageNs ctx.opencca else s2tteBlockNs ctx.opencca)) &&&
          s2tteNsAttrMask &&& ~~~desc = 0#64 := by
      intro page
      rw [nsAttrs_and_mask]
      cases ho : ctx.opencca
      · simp
      · have hmem := he.2.2.2 ho
        rw [if_pos rfl, ← hmem, BitVec.and_comm desc, BitVec.and_assoc]
        simp
    rw [addrPart, attrs, ← or_of_covered (h5 _)]
    by_cases hl : level = 3 <;> cases hlpa : ctx.enableLpa2 <;>
      simp [word, s2tteCreateAssignedNs, h4, hl, hlpa, s2ttPageLevel, BitVec.or_assoc]
  | .table pa, _ => rfl

/-- Fields outside the address are read from the attributes alone. -/
theorem word_and_field {e : Entry} {m : Word} (he : e.Valid ctx level) (hm : FieldBits m)
    (hns : (∃ d, e = .assignedNs d) → s2tteNsAttrMask &&& m = 0#64) :
    e.word ctx level &&& m = e.attrs ctx.opencca ctx.enableLpa2 (decide (level = 3)) &&& m := by
  have haddr : e.addrPart ctx.enableLpa2 &&& m = 0#64 := by
    match e, he with
    | .unassigned r, _ => simp [addrPart]
    | .unassignedNs, _ => simp [addrPart]
    | .assigned r pa, he => exact paToS2tte_and_field he.2.2 hm
    | .assignedNs desc, he => exact hostDesc_and_field he.2.2 hm (hns ⟨desc, rfl⟩)
    | .table pa, he => exact paToS2tte_and_field he.2 hm
  rw [word_eq he, BitVec.and_comm, BitVec.and_or_distrib_left, BitVec.and_comm m,
    BitVec.and_comm m, haddr, BitVec.zero_or]

/-- The descriptor type of a stored entry. -/
def descType (level : ℤ) : Entry → Word
  | .assigned .RAM _ => if level = 3 then 3#64 else 1#64
  | .assignedNs _ => if level = 3 then 3#64 else 1#64
  | .table _ => 3#64
  | _ => 0#64

/-- The security bit of a stored entry. -/
def nsBit : Entry → Word
  | .unassignedNs => s2tteNs
  | .assignedNs _ => s2tteNs
  | _ => 0#64

theorem word_and_descType {e : Entry} (he : e.Valid ctx level) :
    e.word ctx level &&& descTypeMask = e.descType level := by
  rw [word_and_field he (by decide) (fun _ => by decide)]
  rcases e with r | _ | ⟨r, pa⟩ | desc | pa
  · cases r <;> simp only [attrs, descType] <;> decide
  · simp only [attrs, descType]; decide
  · cases r <;> by_cases hl : level = 3 <;> cases ctx.opencca <;> cases ctx.enableLpa2 <;>
      simp only [attrs, descType, hl] <;> decide
  · by_cases hl : level = 3 <;> cases ctx.opencca <;> cases ctx.enableLpa2 <;>
      simp only [attrs, descType, hl] <;> decide
  · simp only [attrs, descType]; decide

theorem word_and_ns {e : Entry} (he : e.Valid ctx level) :
    e.word ctx level &&& s2tteNs = e.nsBit := by
  rw [word_and_field he (by decide) (fun _ => by decide)]
  rcases e with r | _ | ⟨r, pa⟩ | desc | pa
  · cases r <;> simp only [attrs, nsBit] <;> decide
  · simp only [attrs, nsBit]; decide
  · cases r <;> by_cases hl : level = 3 <;> cases ctx.opencca <;> cases ctx.enableLpa2 <;>
      simp only [attrs, nsBit, hl] <;> decide
  · by_cases hl : level = 3 <;> cases ctx.opencca <;> cases ctx.enableLpa2 <;>
      simp only [attrs, nsBit, hl] <;> decide
  · simp only [attrs, nsBit]; decide

/-- The HIPAS field of an entry whose descriptor is invalid. -/
def hipas : Entry → Word
  | .assigned _ _ => invalidHipasAssigned
  | _ => invalidHipasUnassigned

/-- The RIPAS field of an entry whose descriptor is invalid. -/
def ripasField : Entry → Word
  | .unassigned r => invalidRipas r
  | .assigned r _ => invalidRipas r
  | _ => 0#64

theorem word_and_hipas {e : Entry} (he : e.Valid ctx level) (ht : e.descType level = 0#64) :
    e.word ctx level &&& invalidHipasMask = e.hipas := by
  rcases e with r | _ | ⟨r, pa⟩ | desc | pa
  · rw [word_and_field he (by decide) (by rintro ⟨d, hd⟩; cases hd)]
    cases r <;> simp only [attrs, hipas] <;> decide
  · rw [word_and_field he (by decide) (by rintro ⟨d, hd⟩; cases hd)]
    simp only [attrs, hipas]; decide
  · rw [word_and_field he (by decide) (by rintro ⟨d, hd⟩; cases hd)]
    cases r with
    | RAM => by_cases hl : level = 3 <;> simp [descType, hl] at ht
    | EMPTY => simp only [attrs, hipas]; decide
    | DESTROYED => simp only [attrs, hipas]; decide
  · by_cases hl : level = 3 <;> simp [descType, hl] at ht
  · simp [descType] at ht

theorem word_and_ripas {e : Entry} (he : e.Valid ctx level) (ht : e.descType level = 0#64) :
    e.word ctx level &&& invalidRipasMask = e.ripasField := by
  rcases e with r | _ | ⟨r, pa⟩ | desc | pa
  · rw [word_and_field he (by decide) (by rintro ⟨d, hd⟩; cases hd)]
    cases r <;> simp only [attrs, ripasField] <;> decide
  · rw [word_and_field he (by decide) (by rintro ⟨d, hd⟩; cases hd)]
    simp only [attrs, ripasField]; decide
  · rw [word_and_field he (by decide) (by rintro ⟨d, hd⟩; cases hd)]
    cases r with
    | RAM => by_cases hl : level = 3 <;> simp [descType, hl] at ht
    | EMPTY => simp only [attrs, ripasField]; decide
    | DESTROYED => simp only [attrs, ripasField]; decide
  · by_cases hl : level = 3 <;> simp [descType, hl] at ht
  · simp [descType] at ht

theorem hasHipas_word {e : Entry} (he : e.Valid ctx level) (h : Word) :
    s2tteHasHipas (e.word ctx level) h = (e.descType level == 0#64 && e.hipas == h) := by
  unfold s2tteHasHipas
  rw [word_and_descType he]
  by_cases ht : e.descType level = 0#64
  · rw [word_and_hipas he ht]; rfl
  · have hb : (e.descType level == descInvalid) = false := by simpa [descInvalid] using ht
    have hb' : (e.descType level == 0#64) = false := by simpa using ht
    rw [hb, hb', Bool.false_and, Bool.false_and]

theorem hasUnassignedRipas_word {e : Entry} (he : e.Valid ctx level) (r : Ripas) :
    s2tteHasUnassignedRipas (e.word ctx level) r = true ↔
      e = .unassigned r ∨ (e = .unassignedNs ∧ r = .EMPTY) := by
  unfold s2tteHasUnassignedRipas
  rw [hasHipas_word he]
  by_cases ht : e.descType level = 0#64
  · rw [word_and_ripas he ht]
    rcases e with r' | _ | ⟨r', pa⟩ | desc | pa
    · cases r <;> cases r' <;> simp [hipas, ripasField, descType, invalidRipas,
        invalidHipasUnassigned]
    · cases r <;> simp [hipas, ripasField, descType, invalidRipas, invalidHipasUnassigned]
    · simp [hipas, invalidHipasUnassigned, invalidHipasAssigned]
    · by_cases hl : level = 3 <;> simp [descType, hl] at ht
    · simp [descType] at ht
  · have hne : (e.descType level == 0#64) = false := by simpa using ht
    simp only [hne, Bool.false_and, Bool.and_false, Bool.false_eq_true, false_iff, not_or, not_and]
    constructor
    · rintro rfl
      exact ht rfl
    · rintro rfl
      exact absurd rfl ht

theorem hasAssignedRipas_word {e : Entry} (he : e.Valid ctx level) {r : Ripas} (hr : r ≠ .RAM) :
    s2tteHasAssignedRipas (e.word ctx level) r = true ↔ ∃ pa, e = .assigned r pa := by
  unfold s2tteHasAssignedRipas
  rw [hasHipas_word he]
  by_cases ht : e.descType level = 0#64
  · rw [word_and_ripas he ht]
    rcases e with r' | _ | ⟨r', pa⟩ | desc | pa
    · simp [hipas, invalidHipasUnassigned, invalidHipasAssigned]
    · simp [hipas, invalidHipasUnassigned, invalidHipasAssigned]
    · cases r <;> cases r' <;>
        simp_all [hipas, ripasField, invalidRipas, invalidHipasAssigned]
    · by_cases hl : level = 3 <;> simp [descType, hl] at ht
    · simp [descType] at ht
  · have hne : (e.descType level == 0#64) = false := by simpa using ht
    simp only [hne, Bool.false_and, Bool.and_false, Bool.false_eq_true, false_iff, not_exists]
    rintro pa rfl
    cases r <;> first | exact hr rfl | exact ht rfl

@[simp] theorem isUnassigned_word {e : Entry} (he : e.Valid ctx level) :
    s2tteIsUnassigned (e.word ctx level) = true ↔
      (∃ r, e = .unassigned r) ∨ e = .unassignedNs := by
  unfold s2tteIsUnassigned
  rw [hasHipas_word he]
  rcases e with r' | _ | ⟨r', pa⟩ | desc | pa
  · simp [descType, hipas]
  · simp [descType, hipas]
  · simp [hipas, invalidHipasUnassigned, invalidHipasAssigned]
  · by_cases hl : level = 3 <;> simp [descType, hl]
  · simp [descType]

@[simp] theorem isUnassignedEmpty_word {e : Entry} (he : e.Valid ctx level) :
    s2tteIsUnassignedEmpty (e.word ctx level) = true ↔ e = .unassigned .EMPTY := by
  unfold s2tteIsUnassignedEmpty
  rw [Bool.and_eq_true, hasUnassignedRipas_word he, word_and_ns he]
  rcases e with r' | _ | ⟨r', pa⟩ | desc | pa <;> simp [nsBit, s2tteNs]

@[simp] theorem isUnassignedRam_word {e : Entry} (he : e.Valid ctx level) :
    s2tteIsUnassignedRam (e.word ctx level) = true ↔ e = .unassigned .RAM := by
  simp [s2tteIsUnassignedRam, hasUnassignedRipas_word he]

@[simp] theorem isUnassignedDestroyed_word {e : Entry} (he : e.Valid ctx level) :
    s2tteIsUnassignedDestroyed (e.word ctx level) = true ↔ e = .unassigned .DESTROYED := by
  simp [s2tteIsUnassignedDestroyed, hasUnassignedRipas_word he]

@[simp] theorem isUnassignedNs_word {e : Entry} (he : e.Valid ctx level) :
    s2tteIsUnassignedNs (e.word ctx level) = true ↔ e = .unassignedNs := by
  unfold s2tteIsUnassignedNs
  rw [Bool.and_eq_true, hasHipas_word he, word_and_ns he]
  rcases e with r' | _ | ⟨r', pa⟩ | desc | pa
  · simp [nsBit]
  · simp [nsBit, s2tteNs, descType, hipas]
  · simp [nsBit]
  · by_cases hl : level = 3 <;> simp [descType, hl]
  · simp [descType]

@[simp] theorem isAssignedEmpty_word {e : Entry} (he : e.Valid ctx level) :
    s2tteIsAssignedEmpty (e.word ctx level) = true ↔ ∃ pa, e = .assigned .EMPTY pa :=
  hasAssignedRipas_word he (by decide)

@[simp] theorem isAssignedDestroyed_word {e : Entry} (he : e.Valid ctx level) :
    s2tteIsAssignedDestroyed (e.word ctx level) = true ↔ ∃ pa, e = .assigned .DESTROYED pa :=
  hasAssignedRipas_word he (by decide)

@[simp] theorem isAssignedRam_word {e : Entry} (he : e.Valid ctx level) :
    s2tteIsAssignedRam (e.word ctx level) level = true ↔ ∃ pa, e = .assigned .RAM pa := by
  unfold s2tteIsAssignedRam s2tteCheck
  rw [word_and_ns he, word_and_descType he]
  rcases e with r' | _ | ⟨r', pa⟩ | desc | pa
  · by_cases hl : level = 3 <;> simp [nsBit, descType, descL3Page, descL012Block,
      s2ttPageLevel, hl]
  · simp [nsBit, s2tteNs]
  · have hmin : s2ttMinBlockLevel ≤ level := he.1
    cases r' <;> by_cases hl : level = 3 <;>
      simp [nsBit, descType, descL3Page, descL012Block, s2ttPageLevel, hl, hmin]
  · simp [nsBit, s2tteNs]
  · have hl : level ≠ 3 := by have := he.1; omega
    simp [nsBit, descType, descL012Block, s2ttPageLevel, hl]

@[simp] theorem isAssignedNs_word {e : Entry} (he : e.Valid ctx level) :
    s2tteIsAssignedNs (e.word ctx level) level = true ↔ ∃ desc, e = .assignedNs desc := by
  unfold s2tteIsAssignedNs s2tteCheck
  rw [word_and_ns he, word_and_descType he]
  rcases e with r' | _ | ⟨r', pa⟩ | desc | pa
  · simp [nsBit, s2tteNs]
  · by_cases hl : level = 3 <;> simp [nsBit, descType, descL3Page, descL012Block,
      s2ttPageLevel, hl]
  · simp [nsBit, s2tteNs]
  · have hmin : s2ttMinBlockLevel ≤ level := he.1
    by_cases hl : level = 3 <;>
      simp [nsBit, descType, descL3Page, descL012Block, s2ttPageLevel, hl, hmin]
  · simp [nsBit, s2tteNs]

@[simp] theorem isTable_word {e : Entry} (he : e.Valid ctx level) :
    s2tteIsTable (e.word ctx level) level = true ↔ ∃ pa, e = .table pa := by
  unfold s2tteIsTable
  rw [Bool.and_eq_true, word_and_descType he]
  rcases e with r' | _ | ⟨r', pa⟩ | desc | pa
  · simp [descType, descL012Table]
  · simp [descType, descL012Table]
  · cases r' <;> by_cases hl : level = 3 <;> simp [descType, descL012Table, s2ttPageLevel, hl]
  · by_cases hl : level = 3 <;> simp [descType, descL012Table, s2ttPageLevel, hl]
  · simp [descType, descL012Table, s2ttPageLevel, he.1]

theorem attrBits_attrs (opencca lpa2 page : Bool) (e : Entry) (h : ∀ d, e ≠ .assignedNs d)
    (h2 : e ≠ .unassignedNs) : AttrBits lpa2 (e.attrs opencca lpa2 page) := by
  have key : ∀ a : Word, (∀ i < 64, a.getLsbD i = true → (i < 12 ∨ 52 ≤ i) ∧
      (lpa2 = true → i < 8 ∨ 10 ≤ i)) → AttrBits lpa2 a :=
    fun a ha i hi => ha i (BitVec.lt_of_getLsbD hi) hi
  apply key
  rcases e with r | _ | ⟨r, pa⟩ | desc | pa
  · cases r <;> cases lpa2 <;> simp only [attrs] <;> decide
  · exact absurd rfl h2
  · cases r <;> cases opencca <;> cases lpa2 <;> cases page <;> simp only [attrs] <;> decide
  · exact absurd rfl (h desc)
  · cases lpa2 <;> simp only [attrs] <;> decide

@[simp] theorem s2ttePa_assigned {r : Ripas} {pa : Word} (he : (assigned r pa).Valid ctx level) :
    s2ttePa ctx (word ctx level (.assigned r pa)) level = pa := by
  have ht : s2tteIsTable (word ctx level (.assigned r pa)) level = false := by
    rw [Bool.eq_false_iff]
    simp [isTable_word he]
  rw [s2ttePa, ht, word_eq he]
  exact s2tteToPa_paToS2tte_or he.2.2 (attrBits_attrs _ _ _ (.assigned r pa) (by simp) (by simp))

@[simp] theorem s2ttePa_table {pa : Word} (he : (table pa).Valid ctx level) :
    s2ttePa ctx (word ctx level (.table pa)) level = pa := by
  have ht : s2tteIsTable (word ctx level (.table pa)) level = true := by
    simp [isTable_word he]
  rw [s2ttePa, if_pos ht, word_eq he]
  exact s2tteToPa_paToS2tte_or he.2 (attrBits_attrs _ _ _ (.table pa) (by simp) (by simp))

/-- The output address of an unprotected mapping. -/
def nsPa (ctx : S2ttContext) (level : ℤ) (desc : Word) : Word :=
  s2tteToPa desc level ctx.enableLpa2

theorem s2tteToPa_or_of_disjoint (w a : Word) (lpa2 : Bool)
    (ha : s2tteLvlMask level lpa2 &&& a = 0#64) :
    s2tteToPa (w ||| a) level lpa2 = s2tteToPa w level lpa2 := by
  have hbit : ∀ i < 64, (s2tteLvlMask level lpa2).getLsbD i = true → a.getLsbD i = false := by
    intro i hi hm
    have := congrArg (fun w : Word => w.getLsbD i) ha
    simpa [BitVec.getLsbD_and, hm] using this
  apply BitVec.eq_of_getLsbD_eq
  intro i hi
  simp only [getLsbD_s2tteToPa, BitVec.getLsbD_or]
  have h1 := hbit i hi
  have h2 := hbit (i - 42) (by omega)
  simp only [getLsbD_s2tteLvlMask] at h1 h2
  rw [Bool.eq_iff_iff]
  simp only [Bool.or_eq_true, Bool.and_eq_true, decide_eq_true_eq] at *
  grind

@[simp] theorem hasRipas_word {e : Entry} (he : e.Valid ctx level) :
    s2tteHasRipas (e.word ctx level) level = true ↔
      (∃ r, e = .unassigned r) ∨ ∃ r pa, e = .assigned r pa := by
  unfold s2tteHasRipas
  rw [Bool.and_eq_true, word_and_ns he, Bool.not_eq_true', Bool.eq_false_iff, ne_eq,
    isTable_word he]
  rcases e with r' | _ | ⟨r', pa⟩ | desc | pa <;> simp [nsBit, s2tteNs]

@[simp] theorem getRipas_word {e : Entry} (he : e.Valid ctx level)
    (hr : s2tteHasRipas (e.word ctx level) level = true) (r : Ripas) :
    s2tteGetRipas (e.word ctx level) = some r ↔
      e = .unassigned r ∨ ∃ pa, e = .assigned r pa := by
  have hkinds := (hasRipas_word he).mp hr
  unfold s2tteGetRipas
  dsimp only
  rw [word_and_descType he]
  by_cases ht : e.descType level = descInvalid
  · rw [word_and_hipas he ht, word_and_ripas he ht, if_neg (not_ne_iff.mpr ht)]
    obtain ⟨r', rfl⟩ | ⟨r', pa, rfl⟩ := hkinds
    · cases r' <;> cases r <;> simp [hipas, ripasField] <;> decide
    · cases r' <;> cases r <;> simp [hipas, ripasField] <;> decide
  · rw [if_pos ht]
    obtain ⟨r', rfl⟩ | ⟨r', pa, rfl⟩ := hkinds
    · exact absurd rfl ht
    · cases r' with
      | RAM => by_cases hl : level = 3 <;> cases r <;>
          simp [descType, hl, descL012Block, descL3Page]
      | EMPTY | DESTROYED => exact absurd rfl ht

@[simp] theorem entryIsTable_word {e : Entry} (he : e.Valid ctx level) (hl : level < 3) :
    entryIsTable (e.word ctx level) = true ↔ ∃ pa, e = .table pa := by
  rw [← isTable_word he]
  simp [entryIsTable, s2tteIsTable, s2ttPageLevel, hl]

@[simp] theorem isLive_word {e : Entry} (he : e.Valid ctx level) :
    s2tteIsLive (e.word ctx level) = true ↔
      (∃ r pa, e = .assigned r pa) ∨ (∃ desc, e = .assignedNs desc) ∨
        ∃ pa, e = .table pa := by
  simp only [s2tteIsLive, s2tteHasPa, Bool.or_eq_true, isAssignedEmpty_word he,
    isAssignedDestroyed_word he, word_and_descType he]
  rcases e with r' | _ | ⟨r', pa⟩ | desc | pa
  · simp [descType, descInvalid]
  · simp [descType, descInvalid]
  · cases r' <;> by_cases h3 : level = 3 <;> simp [descType, descInvalid, h3]
  · by_cases h3 : level = 3 <;> simp [descType, descInvalid, h3]
  · simp [descType, descInvalid]

theorem createAssignedUnchanged_word {r : Ripas} {pa : Word} :
    s2tteCreateAssignedUnchanged ctx (word ctx level (.unassigned r)) pa level =
      word ctx level (.assigned r pa) := by
  have h : s2tteCreateUnassigned r &&& invalidRipasMask = invalidRipas r := by
    cases r <;> decide
  simp only [s2tteCreateAssignedUnchanged, word, h]

/-- The bits that the monitor adds to a host descriptor. -/
theorem attrs_assignedNs_bit {desc : Word} {opencca lpa2 page : Bool} {i : ℕ} (hi : i < 64)
    (h : (attrs opencca lpa2 page (.assignedNs desc)).getLsbD i = true) :
    (i < 2 ∨ i = 5 ∨ (8 ≤ i ∧ i < 12) ∨ 52 ≤ i) ∧
    (lpa2 = true → i < 8 ∨ 10 ≤ i) := by
  have key : ∀ i < 64, (attrs opencca lpa2 page (.assignedNs desc)).getLsbD i = true →
      (i < 2 ∨ i = 5 ∨ (8 ≤ i ∧ i < 12) ∨ 52 ≤ i) ∧
      (lpa2 = true → i < 8 ∨ 10 ≤ i) := by
    cases opencca <;> cases lpa2 <;> cases page <;> simp only [attrs] <;> decide
  exact key i hi h

theorem getLsbD_nsAttrMask {i : ℕ} (hi : i < 64) :
    s2tteNsAttrMask.getLsbD i = true ↔ (2 ≤ i ∧ i ≤ 4) ∨ (6 ≤ i ∧ i ≤ 7) := by
  have key : ∀ i < 64, s2tteNsAttrMask.getLsbD i = true ↔
      (2 ≤ i ∧ i ≤ 4) ∨ (6 ≤ i ∧ i ≤ 7) := by
    decide
  exact key i hi

theorem attrs_assignedNs_and_host {desc : Word} {opencca lpa2 page : Bool} :
    (s2tteLvlMask level lpa2 ||| s2tteNsAttrMask) &&&
      attrs opencca lpa2 page (.assignedNs desc) = 0#64 := by
  have hl := levelLsb_ge level
  apply BitVec.eq_of_getLsbD_eq
  intro i hi
  have h1 := @attrs_assignedNs_bit desc opencca lpa2 page i hi
  have h2 := getLsbD_nsAttrMask hi
  simp only [BitVec.getLsbD_and, BitVec.getLsbD_or, getLsbD_s2tteLvlMask, BitVec.getLsbD_zero]
  rw [Bool.eq_false_iff]
  intro h
  simp only [Bool.or_eq_true, Bool.and_eq_true, decide_eq_true_eq] at *
  grind

@[simp] theorem s2ttePa_assignedNs {desc : Word} (he : (assignedNs desc).Valid ctx level) :
    s2ttePa ctx (word ctx level (.assignedNs desc)) level = nsPa ctx level desc := by
  have ht : s2tteIsTable (word ctx level (.assignedNs desc)) level = false := by
    rw [Bool.eq_false_iff]
    simp [isTable_word he]
  rw [s2ttePa, ht, word_eq he]
  apply s2tteToPa_or_of_disjoint
  have h := @attrs_assignedNs_and_host level desc ctx.opencca ctx.enableLpa2 (decide (level = 3))
  rw [BitVec.and_comm, BitVec.and_or_distrib_left] at h
  have h' := (BitVec.or_eq_zero_iff.mp h).1
  rwa [BitVec.and_comm]

/-- A host descriptor read back from the word that stores it. -/
theorem word_assignedNs_and_host {desc : Word} (he : (assignedNs desc).Valid ctx level) :
    word ctx level (.assignedNs desc) &&& (s2tteLvlMask level ctx.enableLpa2 ||| s2tteNsAttrMask) =
      desc := by
  have hdesc : desc &&& (s2tteLvlMask level ctx.enableLpa2 ||| s2tteNsAttrMask) = desc := by
    have hall : desc &&& ((s2tteLvlMask level ctx.enableLpa2 ||| s2tteNsAttrMask) |||
        ~~~(s2tteLvlMask level ctx.enableLpa2 ||| s2tteNsAttrMask)) = desc := by
      rw [BitVec.or_not_self, BitVec.and_allOnes]
    rw [BitVec.and_or_distrib_left] at hall
    rwa [he.2.2.1, BitVec.or_zero] at hall
  rw [word_eq he, BitVec.and_comm, BitVec.and_or_distrib_left, attrs_assignedNs_and_host,
    BitVec.or_zero, BitVec.and_comm]
  exact hdesc

/-- The host's attributes read back from the word that stores them. -/
theorem word_assignedNs_and_attrs {desc : Word} (he : (assignedNs desc).Valid ctx level) :
    word ctx level (.assignedNs desc) &&& s2tteNsAttrMask = desc &&& s2tteNsAttrMask := by
  have hself : (s2tteLvlMask level ctx.enableLpa2 ||| s2tteNsAttrMask) &&& s2tteNsAttrMask =
      s2tteNsAttrMask := by
    rw [BitVec.and_comm]
    apply BitVec.eq_of_getLsbD_eq
    intro i hi
    simp only [BitVec.getLsbD_and, BitVec.getLsbD_or]
    cases s2tteNsAttrMask.getLsbD i <;> simp
  have h := congrArg (· &&& s2tteNsAttrMask) (word_assignedNs_and_host he)
  simpa only [BitVec.and_assoc, hself] using h

/-- The abstract entry that a stored word stands for. -/
def ofWord (ctx : S2ttContext) (level : ℤ) (w : Word) : Entry :=
  if s2tteIsTable w level then .table (s2ttePa ctx w level)
  else if s2tteIsAssignedNs w level then
    .assignedNs (w &&& (s2tteLvlMask level ctx.enableLpa2 ||| s2tteNsAttrMask))
  else if s2tteIsAssignedRam w level then .assigned .RAM (s2ttePa ctx w level)
  else if s2tteIsAssignedEmpty w then .assigned .EMPTY (s2ttePa ctx w level)
  else if s2tteIsAssignedDestroyed w then .assigned .DESTROYED (s2ttePa ctx w level)
  else if s2tteIsUnassignedNs w then .unassignedNs
  else if s2tteIsUnassignedRam w then .unassigned .RAM
  else if s2tteIsUnassignedDestroyed w then .unassigned .DESTROYED
  else .unassigned .EMPTY

@[simp] theorem ofWord_word {e : Entry} (he : e.Valid ctx level) :
    ofWord ctx level (e.word ctx level) = e := by
  unfold ofWord
  simp only [isTable_word he, isAssignedNs_word he, isAssignedRam_word he, isAssignedEmpty_word he,
    isAssignedDestroyed_word he, isUnassignedNs_word he, isUnassignedRam_word he,
    isUnassignedDestroyed_word he]
  rcases e with r | _ | ⟨r, pa⟩ | desc | pa
  · cases r <;> simp
  · simp
  · cases r <;> simp [s2ttePa_assigned he]
  · simp [word_assignedNs_and_host he]
  · simp [s2ttePa_table he]

theorem word_injective {e e' : Entry} (he : e.Valid ctx level) (he' : e'.Valid ctx level)
    (h : e.word ctx level = e'.word ctx level) : e = e' := by
  rw [← ofWord_word he, h, ofWord_word he']

/-- A stored word: the word of an abstract entry that its level allows. -/
def Stored (ctx : S2ttContext) (level : ℤ) (w : Word) : Prop :=
  ∃ e : Entry, e.Valid ctx level ∧ w = e.word ctx level

/-- A descriptor whose address fits the level above is a host descriptor there. -/
theorem hostDesc_pred {desc : Word} (hd : HostDesc ctx level desc)
    (ha : s2tteIsAddrLvlAligned ctx (nsPa ctx level desc) (level - 1) = true)
    (h1 : 1 ≤ level - 1) :
    HostDesc ctx (level - 1) desc := by
  have hl := levelLsb_ge (level - 1)
  have hlt : levelLsb (level - 1) ≤ 47 := by unfold levelLsb; omega
  refine ⟨?_, hd.2⟩
  apply BitVec.eq_of_getLsbD_eq
  intro i hi
  have hz := congrArg (fun w : Word => w.getLsbD i) hd.1
  have hb := bit_of_addrLvlAligned (i := i) ha
  rw [nsPa, getLsbD_s2tteToPa] at hb
  simp only [BitVec.getLsbD_and, BitVec.getLsbD_not, BitVec.getLsbD_or, hi, decide_true,
    Bool.true_and, BitVec.getLsbD_zero, getLsbD_s2tteLvlMask] at hz ⊢
  have h2 := getLsbD_nsAttrMask hi
  rw [Bool.eq_false_iff] at hz ⊢
  simp only [Bool.or_eq_true, Bool.and_eq_true, decide_eq_true_eq, ne_eq, Bool.not_eq_true',
    Bool.or_eq_false_iff, Bool.and_eq_false_iff, decide_eq_false_iff_not] at *
  grind

/-- Moving an unprotected leaf to another level keeps its descriptor. -/
theorem createAssignedNs_word {desc : Word} (level' : ℤ) :
    s2tteCreateAssignedNs ctx (word ctx level (.assignedNs desc)) level' =
      word ctx level' (.assignedNs desc) := by
  have hkey : ∀ opencca : Bool, ∀ i < 64,
      (s2tteShIs.getLsbD i = true → descTypeMask.getLsbD i = false) ∧
      ((s2ttePageNs opencca).getLsbD i = true → descTypeMask.getLsbD i = false →
        (s2tteBlockNs opencca).getLsbD i = true) ∧
      ((s2tteBlockNs opencca).getLsbD i = true → descTypeMask.getLsbD i = false →
        (s2ttePageNs opencca).getLsbD i = true) := by
    intro opencca
    cases opencca <;> decide
  apply BitVec.eq_of_getLsbD_eq
  intro i hi
  obtain ⟨h1, h2, h3⟩ := hkey ctx.opencca i hi
  rw [Bool.eq_iff_iff]
  simp only [word, s2tteCreateAssignedNs]
  cases ctx.enableLpa2 <;> split <;> split <;>
    simp only [BitVec.getLsbD_or, BitVec.getLsbD_and, BitVec.getLsbD_not, hi, decide_true,
      Bool.true_and, Bool.or_eq_true, Bool.and_eq_true, Bool.not_eq_true'] <;>
    grind

/-- The address of a descriptor that fits the level above is the same there. -/
theorem nsPa_pred {desc : Word}
    (ha : s2tteIsAddrLvlAligned ctx (nsPa ctx level desc) (level - 1) = true)
    (h1 : 1 ≤ level - 1) :
    nsPa ctx (level - 1) desc = nsPa ctx level desc := by
  have hlt : levelLsb level ≤ levelLsb (level - 1) ∧ levelLsb (level - 1) ≤ 47 := by
    unfold levelLsb
    omega
  apply BitVec.eq_of_getLsbD_eq
  intro i hi
  have hb := bit_of_addrLvlAligned (i := i) ha
  rw [nsPa, getLsbD_s2tteToPa] at hb
  rw [nsPa, nsPa, getLsbD_s2tteToPa, getLsbD_s2tteToPa, Bool.eq_iff_iff]
  cases hlpa : ctx.enableLpa2 <;> simp only [hlpa, s2tteOaBits] at hb ⊢ <;>
    simp only [Bool.or_eq_true, Bool.and_eq_true, decide_eq_true_eq, Bool.false_eq_true, if_false,
      if_true, false_and, or_false, true_and] at hb ⊢ <;>
    grind

/-- The descriptor that unfolding an unprotected block gives to one entry. -/
def nsChild (ctx : S2ttContext) (attrs pa : Word) : Word :=
  (attrs &&& s2tteNsAttrMask) ||| paToS2tte pa ctx.enableLpa2

/-- An unfolded entry has the attributes of the block. -/
theorem nsChild_and_attrs {a pa : Word} (ha : s2tteIsAddrLvlAligned ctx pa level = true) :
    nsChild ctx a pa &&& s2tteNsAttrMask = a &&& s2tteNsAttrMask := by
  have hl := levelLsb_ge level
  apply BitVec.eq_of_getLsbD_eq
  intro i hi
  have hb := bit_of_addrLvlAligned (i := i) ha
  have h2 := getLsbD_nsAttrMask hi
  simp only [nsChild, BitVec.getLsbD_and, BitVec.getLsbD_or, getLsbD_paToS2tte]
  rw [Bool.eq_iff_iff]
  cases hlpa : ctx.enableLpa2 <;> simp only [hlpa, s2tteOaBits] at hb <;>
    simp only [Bool.or_eq_true, Bool.and_eq_true, decide_eq_true_eq, Bool.false_eq_true, if_false,
      if_true] at hb ⊢ <;>
    grind

/-- MemAttr is a part of the host's attributes. -/
theorem memattr_of_attrs {a b : Word} (h : a &&& s2tteNsAttrMask = b &&& s2tteNsAttrMask) :
    a &&& s2tteMemattrMask = b &&& s2tteMemattrMask := by
  have hmask : s2tteNsAttrMask &&& s2tteMemattrMask = s2tteMemattrMask := by decide
  rw [← hmask, ← BitVec.and_assoc, h, BitVec.and_assoc]

theorem hostDesc_nsChild {a pa : Word} (ha : s2tteIsAddrLvlAligned ctx pa level = true)
    (hmem : ctx.opencca = true → a &&& s2tteMemattrMask = s2tteMemattrMask) :
    HostDesc ctx level (nsChild ctx a pa) := by
  have hl := levelLsb_ge level
  refine ⟨?_, fun ho => (memattr_of_attrs (nsChild_and_attrs ha)).trans (hmem ho)⟩
  apply BitVec.eq_of_getLsbD_eq
  intro i hi
  have hb := bit_of_addrLvlAligned (i := i) ha
  have hb2 := bit_of_addrLvlAligned (i := i + 42) ha
  have h2 := getLsbD_nsAttrMask hi
  simp only [nsChild, BitVec.getLsbD_and, BitVec.getLsbD_not, BitVec.getLsbD_or, hi, decide_true,
    Bool.true_and, BitVec.getLsbD_zero, getLsbD_s2tteLvlMask, getLsbD_paToS2tte]
  rw [Bool.eq_false_iff]
  intro h
  cases hlpa : ctx.enableLpa2 <;> simp only [hlpa, s2tteOaBits] at hb hb2 h <;>
  simp only [Bool.or_eq_true, Bool.and_eq_true, decide_eq_true_eq, Bool.not_eq_true',
    Bool.or_eq_false_iff, Bool.and_eq_false_iff, decide_eq_false_iff_not, if_true, if_false,
    Bool.false_eq_true] at * <;>
  grind

theorem nsPa_nsChild {a pa : Word} (ha : s2tteIsAddrLvlAligned ctx pa level = true) :
    nsPa ctx level (nsChild ctx a pa) = pa := by
  rw [nsPa, nsChild, BitVec.or_comm]
  apply s2tteToPa_paToS2tte_or ha
  intro i hi
  have hlt := BitVec.lt_of_getLsbD hi
  rw [BitVec.getLsbD_and, Bool.and_eq_true, getLsbD_nsAttrMask hlt] at hi
  omega

/-- What an entry keeps of the host's descriptor: not its MemAttr, where the build sets all
bits of it. -/
def keptDesc (opencca : Bool) (desc : Word) : Word :=
  if opencca then desc ||| s2tteMemattrMask else desc

theorem hostDesc_keptDesc {desc : Word}
    (hd : desc &&& ~~~(s2tteLvlMask level ctx.enableLpa2 ||| s2tteNsAttrMask) = 0#64) :
    HostDesc ctx level (keptDesc ctx.opencca desc) := by
  unfold keptDesc
  cases ho : ctx.opencca
  · exact ⟨hd, by simp [ho]⟩
  · refine ⟨?_, fun _ => ?_⟩
    · have hmask : s2tteMemattrMask &&&
          ~~~(s2tteLvlMask level ctx.enableLpa2 ||| s2tteNsAttrMask) = 0#64 := by
        have hself : s2tteMemattrMask &&& ~~~s2tteNsAttrMask = 0#64 := by decide
        rw [BitVec.not_or, BitVec.and_comm (~~~_), ← BitVec.and_assoc, hself, BitVec.zero_and]
      rw [if_pos rfl, BitVec.and_comm, BitVec.and_or_distrib_left, BitVec.and_comm _ desc, hd,
        BitVec.zero_or, BitVec.and_comm, hmask]
    · rw [if_pos rfl, BitVec.and_comm, BitVec.and_or_distrib_left, BitVec.and_self]
      apply BitVec.eq_of_getLsbD_eq
      intro i hi
      simp only [BitVec.getLsbD_or, BitVec.getLsbD_and]
      cases s2tteMemattrMask.getLsbD i <;> simp

/-- The build sets the bits of MemAttr whether the host does or not. -/
theorem createAssignedNs_keptDesc (ctx : S2ttContext) (desc : Word) (level : ℤ) :
    s2tteCreateAssignedNs ctx (keptDesc ctx.opencca desc) level =
      s2tteCreateAssignedNs ctx desc level := by
  unfold keptDesc
  cases ho : ctx.opencca
  · rfl
  · have hkey : ∀ i < 64, s2tteMemattrMask.getLsbD i = true →
        (s2ttePageNs true).getLsbD i = true ∧ (s2tteBlockNs true).getLsbD i = true := by decide
    apply BitVec.eq_of_getLsbD_eq
    intro i hi
    have hi' := hkey i hi
    rw [Bool.eq_iff_iff]
    simp only [s2tteCreateAssignedNs, ho, if_true]
    cases ctx.enableLpa2 <;> split <;>
      simp only [BitVec.getLsbD_or, Bool.or_eq_true] <;> grind

theorem nsPa_keptDesc (ctx : S2ttContext) (level : ℤ) (opencca : Bool) (desc : Word) :
    nsPa ctx level (keptDesc opencca desc) = nsPa ctx level desc := by
  unfold keptDesc
  cases opencca
  · rfl
  · rw [if_pos rfl, nsPa]
    apply s2tteToPa_or_of_disjoint
    exact lvlMask_and_field _ _ (by decide)

/-- A host descriptor is determined by its address and its attributes. -/
theorem hostDesc_ext {d d' : Word} (hd : HostDesc ctx level d) (hd' : HostDesc ctx level d')
    (hpa : nsPa ctx level d = nsPa ctx level d')
    (hat : d &&& s2tteNsAttrMask = d' &&& s2tteNsAttrMask) : d = d' := by
  apply BitVec.eq_of_getLsbD_eq
  intro i hi
  have h1 := congrArg (fun w : Word => w.getLsbD i) hd.1
  have h2 := congrArg (fun w : Word => w.getLsbD i) hd'.1
  have h3 := congrArg (fun w : Word => w.getLsbD i) hat
  have h4 := congrArg (fun w : Word => w.getLsbD i) hpa
  have h5 := congrArg (fun w : Word => w.getLsbD (i + 42)) hpa
  have h6 := getLsbD_nsAttrMask hi
  have hl := levelLsb_ge level
  simp only [nsPa, getLsbD_s2tteToPa, BitVec.getLsbD_and, BitVec.getLsbD_not, BitVec.getLsbD_or, hi,
    decide_true, Bool.true_and, BitVec.getLsbD_zero, getLsbD_s2tteLvlMask, Nat.add_sub_cancel]
    at h1 h2 h3 h4 h5
  -- an attribute bit, a bit of the address field, or zero in both
  cases hat : s2tteNsAttrMask.getLsbD i with
  | true => simpa [hat] using h3
  | false =>
    rw [hat] at h1 h2
    cases hlpa : ctx.enableLpa2 <;> rw [hlpa] at h1 h2 h4 h5 <;>
      cases hb : d.getLsbD i <;> cases hb' : d'.getLsbD i <;>
      rw [hb] at h1 h4 h5 <;> rw [hb'] at h2 h4 h5 <;>
      simp at h1 h2 h4 h5 ⊢ <;> grind

theorem nsPa_aligned (ctx : S2ttContext) (level : ℤ) (desc : Word) (h1 : 1 ≤ level) :
    s2tteIsAddrLvlAligned ctx (nsPa ctx level desc) level = true := by
  have hl : levelLsb level ≤ 30 := by unfold levelLsb; omega
  have hoa : s2tteOaBits ctx.enableLpa2 - 1 ≤ 63 := by
    unfold s2tteOaBits
    split <;> omega
  simp only [s2tteIsAddrLvlAligned, beq_iff_eq]
  apply BitVec.eq_of_getLsbD_eq
  intro i hi
  rw [BitVec.getLsbD_and, getLsbD_bitMaskUll _ _ _ hoa, nsPa, getLsbD_s2tteToPa, Bool.eq_iff_iff]
  cases hlpa : ctx.enableLpa2 <;> simp only [s2tteOaBits] <;>
    simp only [Bool.or_eq_true, Bool.and_eq_true, decide_eq_true_eq, Bool.false_eq_true, if_false,
      if_true, false_and, or_false, true_and] <;>
    grind

end Entry

/-- The parts of an aligned block do not wrap and are aligned themselves. -/
theorem blockPa_spec {ctx : S2ttContext} {pa : Word} {level : ℤ} {j : ℕ} (hl : 2 ≤ level)
    (hl3 : level ≤ 3) (ha : s2tteIsAddrLvlAligned ctx pa (level - 1) = true) (hj : j < 512) :
    (pa + BitVec.ofNat 64 (j * s2tteMapSize level)).toNat = pa.toNat + j * s2tteMapSize level ∧
      s2tteIsAddrLvlAligned ctx (pa + BitVec.ofNat 64 (j * s2tteMapSize level)) level = true := by
  rw [addrLvlAligned_iff] at ha ⊢
  obtain ⟨hmod, hlt⟩ := ha
  have hsucc := @s2tteMapSize_succ (level - 1) (by omega)
  rw [sub_add_cancel] at hsucc
  have hpos := s2tteMapSize_pos level
  -- the block ends at or below the largest output address
  have hoa : s2tteMapSize (level - 1) ∣ 2 ^ s2tteOaBits ctx.enableLpa2 := by
    apply Nat.pow_dvd_pow
    unfold levelLsb s2tteOaBits
    split <;> omega
  have hend : pa.toNat + s2tteMapSize (level - 1) ≤ 2 ^ s2tteOaBits ctx.enableLpa2 := by
    obtain ⟨a, ha⟩ := Nat.dvd_of_mod_eq_zero hmod
    obtain ⟨b, hb⟩ := hoa
    rw [hb, ha] at hlt ⊢
    have : a < b := Nat.lt_of_mul_lt_mul_left hlt
    calc s2tteMapSize (level - 1) * a + s2tteMapSize (level - 1)
        = s2tteMapSize (level - 1) * (a + 1) := by ring
      _ ≤ s2tteMapSize (level - 1) * b := Nat.mul_le_mul_left _ this
  have h52 : 2 ^ s2tteOaBits ctx.enableLpa2 ≤ 2 ^ 52 := by
    apply Nat.pow_le_pow_right (by omega)
    unfold s2tteOaBits
    split <;> omega
  have hj' : (j + 1) * s2tteMapSize level ≤ s2tteMapSize (level - 1) := by
    rw [hsucc]
    exact Nat.mul_le_mul_right _ hj
  rw [Nat.add_mul, Nat.one_mul] at hj'
  have htn : (pa + BitVec.ofNat 64 (j * s2tteMapSize level)).toNat =
      pa.toNat + j * s2tteMapSize level := by
    have h1 : pa.toNat + j * s2tteMapSize level < 2 ^ 64 := by omega
    have h2 : j * s2tteMapSize level < 2 ^ 64 := by omega
    rw [BitVec.toNat_add, BitVec.toNat_ofNat, Nat.mod_eq_of_lt h2, Nat.mod_eq_of_lt h1]
  refine ⟨htn, ?_, by omega⟩
  rw [htn, Nat.add_mul_mod_self_right]
  obtain ⟨a, ha⟩ := Nat.dvd_of_mod_eq_zero hmod
  rw [ha, hsucc, Nat.mul_comm 512, Nat.mul_assoc]
  exact Nat.mul_mod_right _ _

end RmmCaec
