import Mathlib.Algebra.Group.Nat.Defs
import Mathlib.Data.List.Basic
import Mathlib.Data.List.Range

/-!
# Layouts by offset

A record in memory is told by the offsets of its fields: a cell holds what the field over
it says, and what no field covers is padding. Fields in the order of their offsets lie one
behind the other, each with its padding.
-/
namespace ByteLayout

variable {α : Type*} (pad : α)

/-- A field is the offset of its first cell with what the cells hold. -/
abbrev Fields (α : Type*) := List (ℕ × List α)

/-- The cell at an offset. -/
def cell (fields : Fields α) (i : ℕ) : α :=
  (fields.findSome? fun f => if f.1 ≤ i then f.2[i - f.1]? else none).getD pad

/-- The `n` cells from `start` on. -/
def cells (fields : Fields α) (start n : ℕ) : List α :=
  (List.range' start n).map (cell pad fields)

/-- A record of `n` cells. -/
def layout (n : ℕ) (fields : Fields α) : List α := cells pad fields 0 n

/-- The bytes of a number, the lowest first. -/
def leBytes (n v : ℕ) : List (BitVec 8) :=
    (List.range n).map fun i => BitVec.ofNat 8 (v / 256 ^ i)

theorem length_leBytes (n v : ℕ) : (leBytes n v).length = n := by simp [leBytes]

variable {pad} {fields : Fields α} {start m n : ℕ}

@[simp] theorem length_cells : (cells pad fields start n).length = n := by simp [cells]

@[simp] theorem length_layout : (layout pad n fields).length = n := length_cells

theorem cells_add :
    cells pad fields start (m + n) =
      cells pad fields start m ++ cells pad fields (start + m) n := by
  unfold cells
  rw [← List.map_append]
  congr 1
  simp

/-- In front of every field lies padding. -/
theorem cell_of_lt {i : ℕ} (hi : ∀ f ∈ fields, i < f.1) : cell pad fields i = pad := by
  have hnone : (fields.findSome? fun f => if f.1 ≤ i then f.2[i - f.1]? else none) = none := by
    rw [List.findSome?_eq_none_iff]
    intro f hf
    rw [if_neg (Nat.not_le_of_lt (hi f hf))]
  rw [cell, hnone, Option.getD_none]

/-- A field does not reach behind its last cell. -/
theorem cell_cons_of_le {f : ℕ × List α} {i : ℕ} (hi : f.1 + f.2.length ≤ i) :
    cell pad (f :: fields) i = cell pad fields i := by
  have hnone : f.2[i - f.1]? = none := List.getElem?_eq_none (by omega)
  simp [cell, hnone]

theorem cell_cons_of_lt {member : List α} {i : ℕ} (hi : i < member.length) :
    cell pad ((start, member) :: fields) (start + i) = member[i] := by
  simp [cell, hi]

/-- The cells before the first field. -/
theorem cells_of_le (hf : ∀ f ∈ fields, start + n ≤ f.1) :
    cells pad fields start n = List.replicate n pad := by
  refine List.eq_replicate_iff.mpr ⟨length_cells, fun x hx => ?_⟩
  obtain ⟨i, hi, rfl⟩ := List.mem_map.mp hx
  have hlt := (List.mem_range'_1.mp hi).2
  exact cell_of_lt fun f hmem => hlt.trans_le (hf f hmem)

/-- A field with its padding up to the next one. -/
theorem cells_member {member : List α} (hlen : member.length ≤ n)
    (hf : ∀ f ∈ fields, start + n ≤ f.1) :
    cells pad ((start, member) :: fields) start n =
      member ++ List.replicate (n - member.length) pad := by
  refine List.ext_getElem (by simp [hlen]) fun i hi hi' => ?_
  rw [length_cells] at hi
  simp only [cells, List.getElem_map, List.getElem_range', Nat.one_mul]
  by_cases him : i < member.length
  · rw [cell_cons_of_lt him, List.getElem_append_left him]
  · rw [cell_cons_of_le (by simpa using him), List.getElem_append_right (by omega),
      List.getElem_replicate]
    exact cell_of_lt fun f hmem => (Nat.add_lt_add_left hi start).trans_le (hf f hmem)

/-- The first field, its padding, and the record behind it. -/
theorem cells_cons {member : List α} (hlen : member.length ≤ m)
    (hf : ∀ f ∈ fields, start + m ≤ f.1) :
    cells pad ((start, member) :: fields) start (m + n) =
      member ++ List.replicate (m - member.length) pad ++ cells pad fields (start + m) n := by
  rw [cells_add, cells_member hlen hf]
  congr 1
  refine List.map_congr_left fun i hi => cell_cons_of_le ?_
  have := (List.mem_range'_1.mp hi).1
  simp only
  omega

end ByteLayout
