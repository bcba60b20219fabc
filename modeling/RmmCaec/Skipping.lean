import RmmCaec.WellFormed

/-!
# Skipping entries that are not live

The address that a destroying command returns. It is the address it was given while the
entry there is live; else it is the start of the next live entry of the table, or the end
of the table, so that no live entry is passed over.
-/
namespace RmmCaec
open Outcome RadixForest

/-- The leading elements of a range that pass a test. -/
theorem takeWhile_range_spec (n : ℕ) (p : ℕ → Bool) :
    ∃ k, ((List.range n).takeWhile p).length = k ∧ k ≤ n ∧ (∀ j < k, p j = true) ∧
      (k < n → p k = false) := by
  rw [List.takeWhile_eq_take_findIdx_not, List.length_take, List.length_range]
  have hle : (List.range n).findIdx (fun a => !p a) ≤ n := by
    simpa using @List.findIdx_le_length ℕ (fun a => !p a) (List.range n)
  refine ⟨_, rfl, Nat.min_le_right _ _, fun j hj => ?_, fun hk => ?_⟩
  · have hlt : j < (List.range n).findIdx (fun a => !p a) := by omega
    simpa using List.not_of_lt_findIdx hlt
  · rw [Nat.min_eq_left hle] at hk ⊢
    have hlen : (List.range n).findIdx (fun a => !p a) < (List.range n).length := by simpa using hk
    have hidx := @List.findIdx_getElem ℕ (fun a => !p a) (List.range n) hlen
    simpa using hidx

/-- An address inside the entry that a walk ended at, in a table whose range starts at
`base`. -/
structure InEntry (base : ℕ) (addr : Word) (wi : S2ttWalk) : Prop where
  index : wi.index < s2ttesPerS2tt
  aligned : s2tteMapSize wi.lastLevel ∣ base
  lower : base + wi.index * s2tteMapSize wi.lastLevel ≤ addr.toNat
  upper : addr.toNat < base + (wi.index + 1) * s2tteMapSize wi.lastLevel
  fits : base + s2ttesPerS2tt * s2tteMapSize wi.lastLevel < 2 ^ 64

/-- An address of entry `j` in a table that starts at `base`. -/
def InRange (base : ℕ) (level : ℤ) (j x : ℕ) : Prop :=
  base + j * s2tteMapSize level ≤ x ∧ x < base + (j + 1) * s2tteMapSize level

/-- The range of an entry meets the addresses from `lo` up to `hi`. -/
def EntryMeets (base : ℕ) (level : ℤ) (j lo hi : ℕ) : Prop :=
  ∃ x, lo ≤ x ∧ x < hi ∧ InRange base level j x

section
variable {base : ℕ} {addr : Word} {table : ℕ → Word} {wi : S2ttWalk}

/-- Aligning the address down gives the start of its entry. -/
theorem InEntry.alignDown (h : InEntry base addr wi) :
    addr.toNat / s2tteMapSize wi.lastLevel * s2tteMapSize wi.lastLevel =
      base + wi.index * s2tteMapSize wi.lastLevel := by
  have hpos := s2tteMapSize_pos wi.lastLevel
  obtain ⟨b, hb⟩ := h.aligned
  have hlower := h.lower
  have hupper := h.upper
  have hquot : addr.toNat / s2tteMapSize wi.lastLevel = b + wi.index := by
    rw [Nat.div_eq_iff hpos]
    rw [hb] at hlower hupper
    constructor
    · calc (b + wi.index) * s2tteMapSize wi.lastLevel
          = s2tteMapSize wi.lastLevel * b + wi.index * s2tteMapSize wi.lastLevel := by ring
        _ ≤ addr.toNat := hlower
    · have hsum : s2tteMapSize wi.lastLevel * b + (wi.index + 1) * s2tteMapSize wi.lastLevel =
          (b + wi.index) * s2tteMapSize wi.lastLevel + s2tteMapSize wi.lastLevel := by ring
      omega
  rw [hquot, hb]
  ring

theorem skip_of_live (hlive : s2tteIsLive (table wi.index) = true) :
    s2ttSkipNonLiveEntries addr table wi = addr := if_pos hlive

/-- The scan ends at an index behind the walked one. -/
theorem skip_of_not_live (h : InEntry base addr wi)
    (hlive : s2tteIsLive (table wi.index) = false) :
    ∃ i, wi.index < i ∧ i ≤ s2ttesPerS2tt ∧
      (s2ttSkipNonLiveEntries addr table wi).toNat = base + i * s2tteMapSize wi.lastLevel ∧
      (∀ j, wi.index ≤ j → j < i → s2tteIsLive (table j) = false) ∧
      (i < s2ttesPerS2tt → s2tteIsLive (table i) = true) := by
  obtain ⟨k, hk, hle, hdead, hstop⟩ := takeWhile_range_spec (s2ttesPerS2tt - (wi.index + 1))
    fun k => !s2tteIsLive (table (wi.index + 1 + k))
  have hindex := h.index
  have hpos := s2tteMapSize_pos wi.lastLevel
  have hdown := h.alignDown
  have hend : base + (wi.index + 1 + k) * s2tteMapSize wi.lastLevel < 2 ^ 64 := by
    have hmul : (wi.index + 1 + k) * s2tteMapSize wi.lastLevel ≤
        s2ttesPerS2tt * s2tteMapSize wi.lastLevel := Nat.mul_le_mul_right _ (by omega)
    have hfits := h.fits
    omega
  refine ⟨wi.index + 1 + k, by omega, by omega, ?_, fun j hj1 hj2 => ?_, fun hi => ?_⟩
  · have hnot : ¬ s2tteIsLive (table wi.index) = true := by simp [hlive]
    rw [s2ttSkipNonLiveEntries, if_neg hnot]
    dsimp only
    rw [hk, hdown, BitVec.toNat_ofNat]
    have hsum : base + wi.index * s2tteMapSize wi.lastLevel + (k + 1) * s2tteMapSize wi.lastLevel =
        base + (wi.index + 1 + k) * s2tteMapSize wi.lastLevel := by ring
    rw [hsum, Nat.mod_eq_of_lt hend]
  · by_cases hji : j = wi.index
    · rw [hji]
      exact hlive
    · have hdead' := hdead (j - (wi.index + 1)) (by omega)
      rw [Nat.add_sub_cancel' (by omega)] at hdead'
      simpa using hdead'
  · simpa using hstop (by omega)

/-- Where the skip ends, for an address inside the walked entry. -/
structure Skipped (base : ℕ) (addr : Word) (table : ℕ → Word) (wi : S2ttWalk) (top : Word) :
    Prop where
  live : s2tteIsLive (table wi.index) = true → top = addr
  later : s2tteIsLive (table wi.index) = false → addr < top
  stop : s2tteIsLive (table wi.index) = false → ∃ i, wi.index < i ∧ i ≤ s2ttesPerS2tt ∧
    top.toNat = base + i * s2tteMapSize wi.lastLevel ∧
      (i < s2ttesPerS2tt → s2tteIsLive (table i) = true)
  dead : s2tteIsLive (table wi.index) = false → ∀ j < s2ttesPerS2tt,
    EntryMeets base wi.lastLevel j addr.toNat top.toNat → s2tteIsLive (table j) = false

theorem s2ttSkipNonLiveEntries_skipped (h : InEntry base addr wi) (table : ℕ → Word) :
    Skipped base addr table wi (s2ttSkipNonLiveEntries addr table wi) := by
  have hpos := s2tteMapSize_pos wi.lastLevel
  refine ⟨skip_of_live, fun hlive => ?_, fun hlive => ?_, fun hlive j hj hmeets => ?_⟩
  · obtain ⟨i, hi, -, heq, -⟩ := skip_of_not_live h hlive
    have hmul : (wi.index + 1) * s2tteMapSize wi.lastLevel ≤ i * s2tteMapSize wi.lastLevel :=
      Nat.mul_le_mul_right _ hi
    have hupper := h.upper
    rw [BitVec.lt_def, heq]
    omega
  · obtain ⟨i, hi, hle, heq, -, hstop⟩ := skip_of_not_live h hlive
    exact ⟨i, hi, hle, heq, hstop⟩
  · obtain ⟨i, hi, -, heq, hdead, -⟩ := skip_of_not_live h hlive
    obtain ⟨x, hlo, hhi, hstart, hend⟩ := hmeets
    have hlower := h.lower
    rw [heq] at hhi
    -- the entries between the walked one and the end of the scan
    have hji : j < i := Nat.lt_of_mul_lt_mul_right (a := s2tteMapSize wi.lastLevel) (by omega)
    have hij : wi.index < j + 1 :=
      Nat.lt_of_mul_lt_mul_right (a := s2tteMapSize wi.lastLevel) (by omega)
    exact hdead j (by omega) hji

end

section
variable {s : State} {F : Tables} {rd addr : Word} {wi : S2ttWalk} {n : Table}

/-- A walk ends at the entry that the address is in. -/
theorem Walked.inEntry (h : Holds s F) (hw : Walked F rd addr wi n)
    (ha : addr.toNat < 2 ^ (s.rd rd).s2Ctx.ipaBits) : InEntry n.base addr wi := by
  obtain ⟨-, -, hctx, -, hdvd, -⟩ := h.node hw.table
  have hindex := hw.covers.slotOf_lt
  have hslot := hw.covers.slotCovers
  have hspan := rttShape_span n.height
  rw [← hw.index] at hindex hslot
  unfold Node.SlotCovers Node.slotBase at hslot
  rw [hspan] at hslot
  have h52 : addr.toNat < 2 ^ 52 := by
    rw [hw.owner] at hctx
    exact lt_of_lt_of_le ha (Nat.pow_le_pow_right (by omega) hctx.bits_le_52)
  have hsize : 512 * s2tteMapSize wi.lastLevel ≤ 2 ^ 57 := by
    rw [hw.level, ← hspan, ← rttShape_fan, ← Shape.span_succ, rttShape_span_pow]
    have hh := h.height_le hw.table
    exact Nat.pow_le_pow_right (by omega) (by omega)
  have hbase := hw.covers.1
  refine ⟨hindex, ?_, ?_, ?_, ?_⟩
  · rw [hw.level, ← hspan]
    exact (rttShape.span_dvd (Nat.le_succ _)).trans hdvd
  · rw [hw.level]
    exact hslot.1
  · rw [hw.level, Nat.add_mul, Nat.one_mul]
    omega
  · unfold s2ttesPerS2tt
    omega

end

end RmmCaec
