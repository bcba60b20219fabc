import Mathlib.Tactic

/-!
# Doubly linked lists

Cells hold the address of the next and of the previous cell. A segment is a list of cells
that are linked both ways; what stands before its first and behind its last cell are
parameters, so that a segment can be cut anywhere. An edit rewrites a few links, and the
rest of the segment keeps them.
-/
namespace LinkedCells

variable {α : Type*} {next prev next' prev' : α → α} {p q : α} {l l₁ l₂ : List α}

def Linked (next prev : α → α) (p : α) : List α → α → Prop
  | [], _ => True
  | x :: l, q => prev x = p ∧ next x = l.headD q ∧ Linked next prev x l q

@[simp] theorem linked_nil : Linked next prev p [] q := trivial

@[simp] theorem linked_cons {x : α} :
    Linked next prev p (x :: l) q ↔
      prev x = p ∧ next x = l.headD q ∧ Linked next prev x l q := Iff.rfl

theorem headD_append (l₁ l₂ : List α) (q : α) :
    (l₁ ++ l₂).headD q = l₁.headD (l₂.headD q) := by
  cases l₁ <;> simp

theorem getLastD_mem {x : α} (h : l ≠ []) : l.getLastD x ∈ l := by
  rw [List.getLastD_eq_getLast?, List.getLast?_eq_some_getLast h]
  exact List.getLast_mem h

/-- A segment is cut between two cells, or at one of its ends. -/
theorem linked_append : Linked next prev p (l₁ ++ l₂) q ↔
    Linked next prev p l₁ (l₂.headD q) ∧ Linked next prev (l₁.getLastD p) l₂ q := by
  induction l₁ generalizing p with
  | nil => simp
  | cons x l₁ ih =>
    simp only [List.cons_append, linked_cons, headD_append, ih, List.getLastD_cons, and_assoc]

/-- Only the links of the cells of a segment matter. -/
theorem Linked.congr (h : Linked next prev p l q) (hn : ∀ x ∈ l, next' x = next x)
    (hp : ∀ x ∈ l, prev' x = prev x) : Linked next' prev' p l q := by
  induction l generalizing p with
  | nil => trivial
  | cons x l ih =>
    obtain ⟨h1, h2, h3⟩ := h
    refine ⟨(hp x (by simp)).trans h1, (hn x (by simp)).trans h2, ih h3 ?_ ?_⟩
    · exact fun y hy => hn y (by simp [hy])
    · exact fun y hy => hp y (by simp [hy])

theorem Linked.prev_eq {x : α} (h : Linked next prev p (l₁ ++ x :: l₂) q) :
    prev x = l₁.getLastD p :=
  (linked_append.mp h).2.1

theorem Linked.next_eq {x : α} (h : Linked next prev p (l₁ ++ x :: l₂) q) :
    next x = l₂.headD q :=
  (linked_append.mp h).2.2.1

theorem prev_mem {null x : α} (h : Linked next prev null (l₁ ++ x :: l₂) q) :
    prev x = null ∧ l₁ = [] ∨ prev x ∈ l₁ := by
  rw [h.prev_eq]
  by_cases hl : l₁ = []
  · exact .inl ⟨by simp [hl], hl⟩
  · exact .inr (getLastD_mem hl)

theorem next_mem {null x : α} (h : Linked next prev p (l₁ ++ x :: l₂) null) :
    next x = null ∧ l₂ = [] ∨ next x ∈ l₂ := by
  rw [h.next_eq]
  cases l₂ with
  | nil => exact .inl ⟨rfl, rfl⟩
  | cons y l₂ => exact .inr (by simp)

/-- No cell lies on both sides of another one. -/
theorem Linked.prev_ne_next {null x : α} (h : Linked next prev null (l₁ ++ x :: l₂) null)
    (hl : (l₁ ++ x :: l₂).Nodup) (hx : prev x ≠ null) : prev x ≠ next x := by
  intro he
  rcases prev_mem h with ⟨h0, -⟩ | hp
  · exact hx h0
  · rcases next_mem h with ⟨h0, -⟩ | hn
    · exact hx (he.trans h0)
    · exact (List.nodup_append.mp hl).2.2 _ hp _ (List.mem_cons_of_mem _ hn) he

variable [DecidableEq α]

/-- Another cell follows the last one. -/
theorem Linked.setEnd {q' : α} (h : Linked next prev p l q) (hl : l.Nodup)
    (hn : ∀ x ∈ l, next' x = if x = l.getLastD p then q' else next x)
    (hp : ∀ x ∈ l, prev' x = prev x) : Linked next' prev' p l q' := by
  induction l generalizing p with
  | nil => trivial
  | cons x l ih =>
    obtain ⟨h1, h2, h3⟩ := h
    obtain ⟨hx, hl⟩ := List.nodup_cons.mp hl
    refine ⟨(hp x (by simp)).trans h1, ?_, ih h3 hl ?_ ?_⟩
    · rw [hn x (by simp), List.getLastD_cons]
      cases l with
      | nil => simp
      | cons y l =>
        have hne : x ≠ (y :: l).getLastD x := fun he => hx (he ▸ getLastD_mem (by simp))
        rw [if_neg hne, h2]
        rfl
    · intro y hy
      rw [hn y (by simp [hy]), List.getLastD_cons]
    · exact fun y hy => hp y (by simp [hy])

/-- The first cell follows another one. -/
theorem Linked.setStart {p' : α} (h : Linked next prev p l q) (hl : l.Nodup)
    (hn : ∀ x ∈ l, next' x = next x)
    (hp : ∀ x ∈ l, prev' x = if x = l.headD q then p' else prev x) :
    Linked next' prev' p' l q := by
  cases l with
  | nil => trivial
  | cons x l =>
    obtain ⟨h1, h2, h3⟩ := h
    obtain ⟨hx, hl⟩ := List.nodup_cons.mp hl
    refine ⟨by simpa using hp x (by simp), (hn x (by simp)).trans h2, ?_⟩
    refine h3.congr (fun y hy => hn y (by simp [hy])) fun y hy => ?_
    have hne : y ≠ x := fun he => hx (he ▸ hy)
    simpa [hne] using hp y (by simp [hy])

section

variable {null x y : α}

/-- The cell before the hole is the one that the removed cell names. -/
theorem Linked.unlink (h : Linked next prev null (l₁ ++ x :: l₂) null)
    (hl : (l₁ ++ x :: l₂).Nodup) (hnull : null ∉ l₁ ++ x :: l₂)
    (hn : ∀ y ∈ l₁ ++ l₂, next' y = if y = prev x then next x else next y)
    (hp : ∀ y ∈ l₁ ++ l₂, prev' y = if y = next x then prev x else prev y) :
    Linked next' prev' null (l₁ ++ l₂) null := by
  have hprev := h.prev_eq
  have hnext := h.next_eq
  obtain ⟨h1, -, -, h2⟩ := linked_append.mp h
  obtain ⟨hl1, hl2, hdis⟩ := List.nodup_append.mp hl
  obtain ⟨-, hl2⟩ := List.nodup_cons.mp hl2
  simp only [List.mem_append, List.mem_cons, not_or] at hnull
  rw [linked_append]
  constructor
  · refine h1.setEnd hl1 (fun y hy => ?_) fun y hy => ?_
    · rw [hn y (by simp [hy]), hprev, hnext]
    · rw [hp y (by simp [hy]), if_neg]
      rintro rfl
      rcases next_mem h with ⟨he, -⟩ | hm
      · exact hnull.1 (he ▸ hy)
      · exact hdis _ hy _ (by simp [hm]) rfl
  · refine h2.setStart hl2 (fun y hy => ?_) fun y hy => ?_
    · rw [hn y (by simp [hy]), if_neg]
      rintro rfl
      rcases prev_mem h with ⟨he, -⟩ | hm
      · exact hnull.2.2 (he ▸ hy)
      · exact hdis _ hm _ (by simp [hy]) rfl
    · rw [hp y (by simp [hy]), hprev, hnext]

/-- A new cell takes the place of `x`. -/
theorem Linked.replace (h : Linked next prev null (l₁ ++ x :: l₂) null)
    (hl : (l₁ ++ x :: l₂).Nodup) (hnull : null ∉ l₁ ++ x :: l₂)
    (hny : next' y = next x) (hpy : prev' y = prev x)
    (hn : ∀ z ∈ l₁ ++ l₂, next' z = if z = prev x then y else next z)
    (hp : ∀ z ∈ l₁ ++ l₂, prev' z = if z = next x then y else prev z) :
    Linked next' prev' null (l₁ ++ y :: l₂) null := by
  have hprev := h.prev_eq
  have hnext := h.next_eq
  obtain ⟨h1, -, -, h2⟩ := linked_append.mp h
  obtain ⟨hl1, hl2, hdis⟩ := List.nodup_append.mp hl
  obtain ⟨-, hl2⟩ := List.nodup_cons.mp hl2
  simp only [List.mem_append, List.mem_cons, not_or] at hnull
  refine linked_append.mpr ⟨?_, hpy.trans hprev, hny.trans hnext, ?_⟩
  · refine h1.setEnd hl1 (fun z hz => ?_) fun z hz => ?_
    · rw [hn z (by simp [hz]), hprev]
      rfl
    · rw [hp z (by simp [hz]), if_neg]
      rintro rfl
      rcases next_mem h with ⟨he, -⟩ | hm
      · exact hnull.1 (he ▸ hz)
      · exact hdis _ hz _ (by simp [hm]) rfl
  · refine h2.setStart hl2 (fun z hz => ?_) fun z hz => ?_
    · rw [hn z (by simp [hz]), if_neg]
      rintro rfl
      rcases prev_mem h with ⟨he, -⟩ | hm
      · exact hnull.2.2 (he ▸ hz)
      · exact hdis _ hm _ (by simp [hz]) rfl
    · rw [hp z (by simp [hz]), hnext]

/-- A new cell goes in behind `x`. -/
theorem Linked.insertAfter (h : Linked next prev null (l₁ ++ x :: l₂) null)
    (hl : (l₁ ++ x :: l₂).Nodup) (hnull : null ∉ l₁ ++ x :: l₂)
    (hnx : next' x = y) (hpx : prev' x = prev x) (hny : next' y = next x) (hpy : prev' y = x)
    (hn : ∀ z ∈ l₁ ++ l₂, next' z = next z)
    (hp : ∀ z ∈ l₁ ++ l₂, prev' z = if z = next x then y else prev z) :
    Linked next' prev' null (l₁ ++ x :: y :: l₂) null := by
  have hprev := h.prev_eq
  have hnext := h.next_eq
  obtain ⟨h1, -, -, h2⟩ := linked_append.mp h
  obtain ⟨hl1, hl2, hdis⟩ := List.nodup_append.mp hl
  obtain ⟨-, hl2⟩ := List.nodup_cons.mp hl2
  simp only [List.mem_append, List.mem_cons, not_or] at hnull
  refine linked_append.mpr ⟨?_, hpx.trans hprev, hnx, hpy, hny.trans hnext, ?_⟩
  · refine h1.congr (fun z hz => hn z (by simp [hz])) fun z hz => ?_
    rw [hp z (by simp [hz]), if_neg]
    rintro rfl
    rcases next_mem h with ⟨he, -⟩ | hm
    · exact hnull.1 (he ▸ hz)
    · exact hdis _ hz _ (by simp [hm]) rfl
  · refine h2.setStart hl2 (fun z hz => hn z (by simp [hz])) fun z hz => ?_
    rw [hp z (by simp [hz]), hnext]

/-- A new cell goes in front. -/
theorem Linked.push (h : Linked next prev null l null) (hl : l.Nodup)
    (hny : next' y = l.headD null) (hpy : prev' y = null) (hn : ∀ z ∈ l, next' z = next z)
    (hp : ∀ z ∈ l, prev' z = if z = l.headD null then y else prev z) :
    Linked next' prev' null (y :: l) null :=
  ⟨hpy, hny, h.setStart hl hn hp⟩

end

end LinkedCells
