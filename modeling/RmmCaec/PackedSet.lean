import Mathlib.Tactic

/-!
# Packed sets with an inverse map

A set of indices below a capacity is kept as the first `len` cells of an array,
together with the position of each member and a bit mask. Adding writes one cell
at the end; removing moves the last cell into the freed one. Both keep the two
arrays mutually inverse and the mask equal to the set.
-/
namespace PackedSet

/-- The first `len` cells of `index` hold the members, `pos` is the inverse and
`mask` is the set. -/
structure Packed (cap len : ℕ) (index pos : ℕ → ℕ) (mask : ℕ → Bool) : Prop where
  bound : ∀ p < len, index p < cap
  inverse : ∀ p < len, pos (index p) = p
  mem : ∀ i, mask i = true ↔ ∃ p < len, index p = i

namespace Packed

variable {cap len : ℕ} {index pos : ℕ → ℕ} {mask : ℕ → Bool}

theorem empty (cap : ℕ) (index pos : ℕ → ℕ) : Packed cap 0 index pos fun _ => false where
  bound p hp := absurd hp (Nat.not_lt_zero p)
  inverse p hp := absurd hp (Nat.not_lt_zero p)
  mem i := by simp

/-- Two cells with one member are the same cell. -/
theorem distinct (h : Packed cap len index pos mask) {p q : ℕ} (hp : p < len) (hq : q < len)
    (he : index p = index q) : p = q := by
  rw [← h.inverse p hp, he, h.inverse q hq]

theorem len_le (h : Packed cap len index pos mask) : len ≤ cap := by
  have hmaps : ∀ p ∈ Finset.range len, index p ∈ Finset.range cap := fun p hp =>
    Finset.mem_range.mpr (h.bound p (Finset.mem_range.mp hp))
  have hinj : Set.InjOn index (Finset.range len) := fun p hp q hq he =>
    h.distinct (Finset.mem_range.mp (Finset.mem_coe.mp hp))
      (Finset.mem_range.mp (Finset.mem_coe.mp hq)) he
  simpa using Finset.card_le_card_of_injOn index hmaps hinj

/-- There is room for an index that is not a member. -/
theorem len_lt (h : Packed cap len index pos mask) {i : ℕ} (hi : i < cap)
    (hm : mask i = false) : len < cap := by
  have hmaps : ∀ p ∈ Finset.range len, index p ∈ (Finset.range cap).erase i := by
    intro p hp
    have hp' := Finset.mem_range.mp hp
    refine Finset.mem_erase.mpr ⟨?_, Finset.mem_range.mpr (h.bound p hp')⟩
    rintro rfl
    rw [(h.mem _).mpr ⟨p, hp', rfl⟩] at hm
    cases hm
  have hinj : Set.InjOn index (Finset.range len) := fun p hp q hq he =>
    h.distinct (Finset.mem_range.mp (Finset.mem_coe.mp hp))
      (Finset.mem_range.mp (Finset.mem_coe.mp hq)) he
  have hcard := Finset.card_le_card_of_injOn index hmaps hinj
  rw [Finset.card_range, Finset.card_erase_of_mem (Finset.mem_range.mpr hi),
    Finset.card_range] at hcard
  omega

theorem mask_lt (h : Packed cap len index pos mask) {i : ℕ} (hm : mask i = true) : i < cap := by
  obtain ⟨p, hp, rfl⟩ := (h.mem i).mp hm
  exact h.bound p hp

/-- The recorded position of a member. -/
theorem pos_spec (h : Packed cap len index pos mask) {i : ℕ} (hm : mask i = true) :
    pos i < len ∧ index (pos i) = i := by
  obtain ⟨p, hp, rfl⟩ := (h.mem i).mp hm
  rw [h.inverse p hp]
  exact ⟨hp, rfl⟩

theorem push (h : Packed cap len index pos mask) {i : ℕ} (hi : i < cap) (hm : mask i = false) :
    Packed cap (len + 1) (Function.update index len i) (Function.update pos i len)
      (Function.update mask i true) := by
  have hne : ∀ p < len, index p ≠ i := by
    rintro p hp rfl
    rw [(h.mem _).mpr ⟨p, hp, rfl⟩] at hm
    cases hm
  refine ⟨fun p hp => ?_, fun p hp => ?_, fun j => ?_⟩
  · by_cases hl : p = len
    · rw [hl, Function.update_self]
      exact hi
    · rw [Function.update_of_ne hl]
      exact h.bound p (by omega)
  · by_cases hl : p = len
    · rw [hl, Function.update_self, Function.update_self]
    · have hp' : p < len := by omega
      rw [Function.update_of_ne hl, Function.update_of_ne (hne p hp')]
      exact h.inverse p hp'
  · by_cases hj : j = i
    · subst hj
      rw [Function.update_self]
      exact ⟨fun _ => ⟨len, Nat.lt_succ_self len, Function.update_self ..⟩, fun _ => rfl⟩
    · rw [Function.update_of_ne hj, h.mem]
      constructor
      · rintro ⟨p, hp, rfl⟩
        exact ⟨p, by omega, Function.update_of_ne (by omega) ..⟩
      · rintro ⟨p, hp, hpj⟩
        have hl : p ≠ len := by
          rintro rfl
          rw [Function.update_self] at hpj
          exact hj hpj.symm
        rw [Function.update_of_ne hl] at hpj
        exact ⟨p, by omega, hpj⟩

/-- Removing the last cell. -/
theorem pop (h : Packed cap (len + 1) index pos mask) :
    Packed cap len index pos (Function.update mask (index len) false) := by
  refine ⟨fun p hp => h.bound p (by omega), fun p hp => h.inverse p (by omega), fun j => ?_⟩
  by_cases hj : j = index len
  · subst hj
    rw [Function.update_self]
    refine ⟨by rintro ⟨⟩, ?_⟩
    rintro ⟨p, hp, he⟩
    have := h.distinct (by omega) (Nat.lt_succ_self len) he
    omega
  · rw [Function.update_of_ne hj, h.mem]
    constructor
    · rintro ⟨p, hp, rfl⟩
      exact ⟨p, by rcases Nat.lt_succ_iff_lt_or_eq.mp hp with h1 | rfl
                   · exact h1
                   · exact absurd rfl hj, rfl⟩
    · rintro ⟨p, hp, rfl⟩
      exact ⟨p, by omega, rfl⟩

/-- Removing a cell before the last one, which takes its place. -/
theorem swapPop (h : Packed cap (len + 1) index pos mask) {i : ℕ} (hm : mask i = true)
    (hp : pos i ≠ len) :
    Packed cap len (Function.update index (pos i) (index len))
      (Function.update pos (index len) (pos i)) (Function.update mask i false) := by
  obtain ⟨hlt, hidx⟩ := h.pos_spec hm
  have hlast : len < len + 1 := Nat.lt_succ_self len
  refine ⟨fun p hpl => ?_, fun p hpl => ?_, fun j => ?_⟩
  · by_cases he : p = pos i
    · rw [he, Function.update_self]
      exact h.bound len hlast
    · rw [Function.update_of_ne he]
      exact h.bound p (by omega)
  · by_cases he : p = pos i
    · rw [he, Function.update_self, Function.update_self]
    · rw [Function.update_of_ne he, Function.update_of_ne]
      · exact h.inverse p (by omega)
      · intro hc
        have := h.distinct (by omega) hlast hc
        omega
  · by_cases hj : j = i
    · subst hj
      rw [Function.update_self]
      refine ⟨by rintro ⟨⟩, ?_⟩
      rintro ⟨p, hpl, he⟩
      by_cases hpe : p = pos j
      · rw [hpe, Function.update_self, ← hidx] at he
        have := h.distinct hlast hlt he
        omega
      · rw [Function.update_of_ne hpe, ← hidx] at he
        exact absurd (h.distinct (by omega) hlt he) hpe
    · rw [Function.update_of_ne hj, h.mem]
      constructor
      · rintro ⟨p, hpl, rfl⟩
        by_cases hlast' : p = len
        · subst hlast'
          exact ⟨pos i, by omega, Function.update_self ..⟩
        · refine ⟨p, by omega, Function.update_of_ne ?_ ..⟩
          rintro rfl
          exact hj hidx
      · rintro ⟨p, hpl, rfl⟩
        by_cases hpe : p = pos i
        · rw [hpe, Function.update_self]
          exact ⟨len, hlast, rfl⟩
        · rw [Function.update_of_ne hpe]
          exact ⟨p, by omega, rfl⟩

end Packed

end PackedSet
