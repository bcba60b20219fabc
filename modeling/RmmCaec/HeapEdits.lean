import RmmCaec.HeapBlocks

/-!
# Edits of a heap

An allocation takes a block out of the free list and marks it as held, or cuts it in two. A
release marks a block as free, joins it with free neighbours and puts what results into the
free list. Between these steps at most one free block is in no list.
-/
namespace RmmCaec

open LinkedCells

namespace HeapShape

variable {ctx : BufferAllocCtx} {c c' : Cells} {bs l r : List HeapBlock} {a b d : HeapBlock}
  {free free' f₁ f₂ : List ℕ} {loose loose' : Option ℕ} {p : ℕ}

/-- Another free list over the same blocks. -/
theorem relist {ff : ℕ} (h : HeapShape ctx c bs free loose)
    (hc : ∀ p f, f ≠ .prevFree → f ≠ .nextFree → c' p f = c p f)
    (hmem : ∀ p, p ∈ free' ↔ loose' ≠ some p ∧ ∃ b ∈ bs, b.start = p ∧
      b.held = none)
    (hnodup : free'.Nodup) (hlinked : Linked (c' · .nextFree) (c' · .prevFree) 0 free' 0)
    (hfirst : ff = free'.headD 0)
    (hheld : ∀ b ∈ bs, b.held.isSome → c' b.start .prevFree = 0 ∧
      c' b.start .nextFree = 0) :
    HeapShape { ctx with firstFree := ff } c' bs free' loose' where
  tiles := h.tiles
  first := h.first
  some_block := h.some_block
  buf_pos := h.buf_pos
  buf_end := h.buf_end
  aligned := h.aligned
  room := h.room
  magic b hb := by
    rw [hc _ _ (by decide) (by decide), hc _ _ (by decide) (by decide)]
    exact h.magic b hb
  size b hb := (hc _ _ (by decide) (by decide)).trans (h.size b hb)
  alloc b hb := (hc _ _ (by decide) (by decide)).trans (h.alloc b hb)
  linked := h.linked.congr (fun p _ => hc p _ (by decide) (by decide))
    fun p _ => hc p _ (by decide) (by decide)
  mem_free := hmem
  free_nodup := hnodup
  free_linked := hlinked
  first_free := hfirst
  held_links := hheld

theorem held_not_mem (h : HeapShape ctx c bs free loose) (hb : b ∈ bs) (hheld : b.held.isSome) :
    b.start ∉ free := by
  intro hm
  obtain ⟨-, b', hb', he, hnone⟩ := (h.mem_free _).mp hm
  rw [h.tiles.start_inj hb' hb he] at hnone
  simp [hnone] at hheld

theorem nextFree_mem (h : HeapShape ctx c bs (f₁ ++ p :: f₂) loose) :
    c p .nextFree = 0 ∨ c p .nextFree ∈ f₁ ++ p :: f₂ := by
  rcases next_mem h.free_linked with ⟨he, -⟩ | hm
  · exact .inl he
  · exact .inr (by simp [hm])

theorem prevFree_mem (h : HeapShape ctx c bs (f₁ ++ p :: f₂) loose) :
    c p .prevFree = 0 ∨ c p .prevFree ∈ f₁ ++ p :: f₂ := by
  rcases prev_mem h.free_linked with ⟨he, -⟩ | hm
  · exact .inl he
  · exact .inr (by simp [hm])

/-- A held block is no neighbour in the free list. -/
theorem held_ne (h : HeapShape ctx c bs free loose) (hb : b ∈ bs) (hheld : b.held.isSome)
    {q : ℕ} (hq : q = 0 ∨ q ∈ free) : b.start ≠ q := by
  rintro rfl
  rcases hq with h0 | hm
  · exact h.spaced.pos (h0 ▸ List.mem_map_of_mem hb)
  · exact h.held_not_mem hb hheld hm

/-- Only the first block of the free list has none before it. -/
theorem firstFree_edit (h : HeapShape ctx c bs (f₁ ++ p :: f₂) loose) (f : List ℕ) :
    (if c p .prevFree = 0 then f.headD 0 else ctx.firstFree) = (f₁ ++ f).headD 0 := by
  have hprev : c p .prevFree = f₁.getLastD 0 := h.free_linked.prev_eq
  rw [hprev, h.first_free]
  cases f₁ with
  | nil => simp
  | cons q f₁ =>
    have hlast : (q :: f₁).getLastD 0 ≠ 0 := by
      intro he
      have hm : (q :: f₁).getLastD 0 ∈ q :: f₁ := getLastD_mem (by simp)
      exact h.zero_not_mem_free (List.mem_append_left _ (he ▸ hm))
    rw [if_neg hlast]
    rfl

/-- A block leaves the free list. -/
theorem unlink (h : HeapShape ctx c bs (f₁ ++ p :: f₂) none) :
    HeapShape { ctx with firstFree := if c p .prevFree = 0 then c p .nextFree else ctx.firstFree }
      ((c.set (c p .prevFree) .nextFree (c p .nextFree)).set (c p .nextFree) .prevFree
        (c p .prevFree)) bs (f₁ ++ f₂) (some p) := by
  have hnodup := h.free_nodup
  have hnodup' : p ∉ f₁ ++ f₂ ∧ (f₁ ++ f₂).Nodup := by
    have := List.nodup_middle.mp hnodup
    exact List.nodup_cons.mp this
  have hnext : c p .nextFree = f₂.headD 0 := h.free_linked.next_eq
  refine h.relist ?_ ?_ hnodup'.2 ?_ (by rw [hnext]; exact h.firstFree_edit f₂) ?_
  · intro q f h1 h2
    simp [Cells.set, h1, h2]
  · intro q
    have hq := h.mem_free q
    by_cases hqp : q = p
    · subst hqp
      simp [hnodup'.1]
    · simpa [hqp, Ne.symm hqp] using hq
  · refine h.free_linked.unlink hnodup h.zero_not_mem_free ?_ ?_ <;> intro q _ <;>
      simp [Cells.set]
  · intro b hb hheld
    have h1 := h.held_ne hb hheld h.nextFree_mem
    have h2 := h.held_ne hb hheld h.prevFree_mem
    simpa [Cells.set, h1, h2] using h.held_links b hb hheld

/-- A loose block goes in front of the free ones. -/
theorem push (h : HeapShape ctx c bs free (some b.start)) (hb : b ∈ bs) (hfree : b.held = none)
    (hprev : c b.start .prevFree = 0) :
    HeapShape { ctx with firstFree := b.start }
      ((c.set b.start .nextFree ctx.firstFree).set ctx.firstFree .prevFree b.start) bs
      (b.start :: free) none := by
  have hnot : b.start ∉ free := fun hm => ((h.mem_free _).mp hm).1 rfl
  have hfirst : ctx.firstFree = 0 ∨ ctx.firstFree ∈ free := by
    rw [h.first_free]
    cases free with
    | nil => exact .inl rfl
    | cons q free => exact .inr (by simp)
  have hne : b.start ≠ ctx.firstFree := by
    rintro he
    rcases hfirst with h1 | h1
    · exact h.spaced.pos (h1 ▸ he ▸ List.mem_map_of_mem hb)
    · exact hnot (he ▸ h1)
  refine h.relist ?_ ?_ (List.nodup_cons.mpr ⟨hnot, h.free_nodup⟩) ?_ rfl ?_
  · intro q f h1 h2
    simp [Cells.set, h1, h2]
  · intro q
    have hq := h.mem_free q
    by_cases hqb : q = b.start
    · subst hqb
      simpa using ⟨b, hb, rfl, hfree⟩
    · simpa [hqb, Ne.symm hqb] using hq
  · refine h.free_linked.push h.free_nodup ?_ ?_ ?_ ?_
    · simp [Cells.set, h.first_free]
    · simp [Cells.set, hne, hprev]
    · intro q hq
      have hqb : q ≠ b.start := fun he => hnot (he ▸ hq)
      simp [Cells.set, hqb]
    · intro q hq
      rw [← h.first_free]
      simp [Cells.set]
  · intro b' hb' hheld
    have h1 := h.held_ne hb' hheld hfirst
    have h2 : b'.start ≠ b.start := by
      intro he
      rw [h.tiles.start_inj hb' hb he, hfree] at hheld
      simp at hheld
    simpa [Cells.set, h1, h2] using h.held_links b' hb' hheld

theorem other_start (h : HeapShape ctx c (l ++ b :: r) free loose) {x : HeapBlock}
    (hx : x ∈ l ++ r) : x.start ≠ b.start := by
  have hnodup := h.nodup
  rw [List.map_append, List.map_cons, List.nodup_middle, ← List.map_append] at hnodup
  exact fun he => (List.nodup_cons.mp hnodup).1 (he ▸ List.mem_map_of_mem hx)

theorem forall_mem_middle {P : HeapBlock → Prop} :
    (∀ x ∈ l ++ b :: r, P x) ↔ P b ∧ ∀ x ∈ l ++ r, P x := by
  simp only [List.mem_append, List.mem_cons]
  grind

theorem exists_mem_middle {P : HeapBlock → Prop} :
    (∃ x ∈ l ++ b :: r, P x) ↔ P b ∨ ∃ x ∈ l ++ r, P x := by
  simp only [List.mem_append, List.mem_cons]
  grind

/-- A block that is not in the free list becomes held, or free and loose. -/
theorem mark (held : Option ℕ) (h : HeapShape ctx c (l ++ b :: r) free loose)
    (hb : b.start ∉ free) (hl : ∀ p, loose = some p → p = b.start)
    (hheld : ∀ n, held = some n → 0 < n ∧ n ≤ b.size)
    (hc : ∀ p f, p ≠ b.start → c' p f = c p f)
    (hcb : ∀ f, f ≠ .alloc → f ≠ .prevFree → f ≠ .nextFree →
      c' b.start f = c b.start f)
    (halloc : c' b.start .alloc = if held.isSome then 1 else 0)
    (hlinks : held.isSome → c' b.start .prevFree = 0 ∧ c' b.start .nextFree = 0) :
    HeapShape ctx c' (l ++ { b with held := held } :: r) free
      (if held.isSome then none else some b.start) := by
  have hstarts : (l ++ { b with held := held } :: r).map HeapBlock.start =
      (l ++ b :: r).map HeapBlock.start := by simp
  have hroom := forall_mem_middle.mp h.room
  have hmagic := forall_mem_middle.mp h.magic
  have hsize := forall_mem_middle.mp h.size
  have halloc0 := forall_mem_middle.mp h.alloc
  have hlinks0 := forall_mem_middle.mp h.held_links
  have hfield : ∀ p f, f ≠ .alloc → f ≠ .prevFree → f ≠ .nextFree →
      c' p f = c p f := by
    intro p f h1 h2 h3
    by_cases hp : p = b.start
    · subst hp
      exact hcb f h1 h2 h3
    · exact hc p f hp
  refine
    { tiles := ?_, first := h.first, some_block := by simp, buf_pos := h.buf_pos,
      buf_end := h.buf_end, aligned := ?_, room := ?_, magic := ?_, size := ?_, alloc := ?_,
      linked := ?_, mem_free := ?_, free_nodup := h.free_nodup, free_linked := ?_,
      first_free := h.first_free, held_links := ?_ }
  · obtain ⟨y, h1, h2⟩ := tiles_append.mp h.tiles
    exact tiles_append.mpr ⟨y, h1, h2⟩
  · exact forall_mem_middle.mpr (forall_mem_middle.mp h.aligned)
  · exact forall_mem_middle.mpr ⟨⟨hroom.1.1, hheld⟩, hroom.2⟩
  · refine forall_mem_middle.mpr ⟨?_, fun x hx => ?_⟩
    · simpa [hfield] using hmagic.1
    · simpa [hfield] using hmagic.2 x hx
  · refine forall_mem_middle.mpr ⟨?_, fun x hx => ?_⟩
    · simpa [hfield] using hsize.1
    · simpa [hfield] using hsize.2 x hx
  · refine forall_mem_middle.mpr ⟨halloc, fun x hx => ?_⟩
    rw [hc _ _ (h.other_start hx)]
    exact halloc0.2 x hx
  · rw [hstarts]
    exact h.linked.congr (fun p _ => hfield p _ (by decide) (by decide) (by decide))
      fun p _ => hfield p _ (by decide) (by decide) (by decide)
  · intro p
    by_cases hp : p = b.start
    · subst hp
      have hr : ¬ ∃ x ∈ l ++ r, x.start = b.start ∧ x.held = none := by
        rintro ⟨x, hx, he, -⟩
        exact h.other_start hx he
      rw [exists_mem_middle]
      cases held with
      | none => simp [hb]
      | some n =>
        refine iff_of_false hb ?_
        rintro ⟨-, ⟨-, he⟩ | he⟩
        · cases he
        · exact hr he
    · have hl' : loose ≠ some p := fun he => hp (hl p he)
      have hl2 : (if held.isSome then none else some b.start) ≠ some p := by
        cases held <;> simp [Ne.symm hp]
      rw [h.mem_free, exists_mem_middle, exists_mem_middle]
      simp only [ne_eq, hl', hl2, not_false_eq_true, true_and, Ne.symm hp, false_and, false_or]
  · refine h.free_linked.congr (fun p hp => hc p _ ?_) fun p hp => hc p _ ?_ <;>
      exact fun he => hb (he ▸ hp)
  · refine forall_mem_middle.mpr ⟨hlinks, fun x hx hs => ?_⟩
    rw [hc _ _ (h.other_start hx), hc _ _ (h.other_start hx)]
    exact hlinks0.2 x hx hs

/-- The block `a` takes in the one behind it; the free list is a new one. -/
theorem join {ff : ℕ} (h : HeapShape ctx c (l ++ a :: d :: r) free loose) (ha : a.held = none)
    (hc : ∀ x ∈ l ++ r, c' x.start .magic1 = c x.start .magic1 ∧
      c' x.start .magic2 = c x.start .magic2 ∧ c' x.start .size = c x.start .size ∧
      c' x.start .alloc = c x.start .alloc)
    (hca : c' a.start .magic1 = c a.start .magic1 ∧ c' a.start .magic2 = c a.start .magic2 ∧
      c' a.start .size = a.size + (headerSize + d.size) ∧ c' a.start .alloc = c a.start .alloc)
    (hnext : ∀ x ∈ l ++ a :: r, c' x.start .next =
      if x.start = c d.start .prev then c d.start .next else c x.start .next)
    (hprev : ∀ x ∈ l ++ a :: r, c' x.start .prev =
      if x.start = c d.start .next then c d.start .prev else c x.start .prev)
    (hmem : ∀ p, p ∈ free' ↔ ∃ b ∈ l ++ a :: r, b.start = p ∧ b.held = none)
    (hnodup : free'.Nodup) (hlinked : Linked (c' · .nextFree) (c' · .prevFree) 0 free' 0)
    (hfirst : ff = free'.headD 0)
    (hlinks : ∀ x ∈ l ++ r, x.held.isSome → c' x.start .prevFree = 0 ∧
      c' x.start .nextFree = 0) :
    HeapShape { ctx with firstFree := ff } c'
      (l ++ { a with size := a.size + (headerSize + d.size) } :: r) free' none := by
  have hsplit : ∀ {P : HeapBlock → Prop}, (∀ x ∈ l ++ a :: d :: r, P x) →
      P a ∧ P d ∧ ∀ x ∈ l ++ r, P x := by
    intro P hP
    exact ⟨hP a (by simp), hP d (by simp), fun x hx => hP x (by
      rcases List.mem_append.mp hx with hx | hx <;> simp [hx])⟩
  have hroom := hsplit h.room
  have hmagic := hsplit h.magic
  have hsize := hsplit h.size
  have halloc := hsplit h.alloc
  refine
    { tiles := ?_, first := h.first, some_block := by simp, buf_pos := h.buf_pos,
      buf_end := h.buf_end, aligned := ?_, room := ?_, magic := ?_, size := ?_, alloc := ?_,
      linked := ?_, mem_free := ?_, free_nodup := hnodup, free_linked := hlinked,
      first_free := hfirst, held_links := ?_ }
  · obtain ⟨y, h1, rfl, h2, h3⟩ := tiles_append.mp h.tiles
    refine tiles_append.mpr ⟨a.start, h1, rfl, ?_⟩
    have hstop : ({ a with size := a.size + (headerSize + d.size) } : HeapBlock).stop = d.stop := by
      simp only [HeapBlock.stop, h2]
      omega
    rw [hstop]
    exact h3
  · exact forall_mem_middle.mpr ⟨(hsplit h.aligned).1, (hsplit h.aligned).2.2⟩
  · refine forall_mem_middle.mpr ⟨⟨?_, ?_⟩, hroom.2.2⟩
    · exact Nat.lt_of_lt_of_le hroom.1.1 (Nat.le_add_right _ _)
    · intro n hn
      simp [ha] at hn
  · refine forall_mem_middle.mpr ⟨?_, fun x hx => ?_⟩
    · rw [hca.1, hca.2.1]
      exact hmagic.1
    · rw [(hc x hx).1, (hc x hx).2.1]
      exact hmagic.2.2 x hx
  · exact forall_mem_middle.mpr ⟨hca.2.2.1, fun x hx => (hc x hx).2.2.1.trans (hsize.2.2 x hx)⟩
  · exact forall_mem_middle.mpr ⟨hca.2.2.2.trans halloc.1,
      fun x hx => (hc x hx).2.2.2.trans (halloc.2.2 x hx)⟩
  · have hl : (l ++ a :: d :: r).map HeapBlock.start =
        (l ++ [a]).map HeapBlock.start ++ d.start :: r.map HeapBlock.start := by simp
    have hl' : (l ++ { a with size := a.size + (headerSize + d.size) } :: r).map HeapBlock.start =
        (l ++ [a]).map HeapBlock.start ++ r.map HeapBlock.start := by simp
    have hof : ∀ {p : ℕ}, p ∈ (l ++ [a]).map HeapBlock.start ++ r.map HeapBlock.start →
        ∃ x ∈ l ++ a :: r, x.start = p := by
      intro p hp
      rw [← List.map_append] at hp
      obtain ⟨x, hx, rfl⟩ := List.mem_map.mp hp
      exact ⟨x, by simpa using hx, rfl⟩
    have hlin := h.linked
    have hnd := h.nodup
    have hpos := h.spaced.pos
    rw [hl] at hlin hnd hpos
    rw [hl']
    refine hlin.unlink hnd hpos (fun p hp => ?_) fun p hp => ?_
    · obtain ⟨x, hx, rfl⟩ := hof hp
      exact hnext x hx
    · obtain ⟨x, hx, rfl⟩ := hof hp
      exact hprev x hx
  · intro p
    rw [hmem p, exists_mem_middle, exists_mem_middle]
    simp
  · refine forall_mem_middle.mpr ⟨fun hs => ?_, hlinks⟩
    simp [ha] at hs

theorem mem_middle {x : HeapBlock} (hx : x ∈ l ++ r) : x ∈ l ++ b :: r := by
  rcases List.mem_append.mp hx with hx | hx <;> simp [hx]

/-- What is known of two blocks that stand one behind the other. -/
theorem pair_spec (h : HeapShape ctx c (l ++ a :: d :: r) free loose) :
    (∀ x ∈ l ++ a :: r, x.start ≠ d.start) ∧ (∀ x ∈ l ++ r, x.start ≠ a.start) ∧
      c d.start .prev = a.start := by
  refine ⟨fun x hx => ?_, fun x hx he => ?_, ?_⟩
  · have hsplit : l ++ a :: d :: r = (l ++ [a]) ++ d :: r := by simp
    rw [hsplit] at h
    exact h.other_start (by simpa using hx)
  · refine h.other_start (b := a) (r := d :: r) (x := x) ?_ he
    rcases List.mem_append.mp hx with hx | hx <;> simp [hx]
  · have hlinked := h.linked
    rw [List.map_append, List.map_cons, List.map_cons] at hlinked
    exact (linked_append.mp hlinked).2.2.2.1

/-- A free block that is in no list takes in its free neighbour, whose place in the list it
takes over. -/
theorem joinAfter (h : HeapShape ctx c (l ++ a :: d :: r) (f₁ ++ d.start :: f₂) (some a.start))
    (ha : a.held = none)
    (hc : ∀ p f, f ≠ .prev → f ≠ .next → f ≠ .prevFree →
      f ≠ .nextFree → p ≠ d.start →
      c' p f = if p = a.start ∧ f = .size then a.size + (headerSize + d.size) else c p f)
    (hnext : ∀ p, p ≠ d.start → c' p .next = if p = a.start then
      c d.start .next else c p .next)
    (hprev : ∀ p, p ≠ d.start → c' p .prev =
      if p = c d.start .next then a.start else c p .prev)
    (hprevFree : ∀ p, p ≠ d.start → c' p .prevFree = if p = c d.start .nextFree then a.start
      else if p = a.start then c d.start .prevFree else c p .prevFree)
    (hnextFree : ∀ p, p ≠ d.start → c' p .nextFree = if p = c d.start .prevFree then a.start
      else if p = a.start then c d.start .nextFree else c p .nextFree) :
    HeapShape { ctx with
        firstFree := if c d.start .prevFree = 0 then a.start else ctx.firstFree } c'
      (l ++ { a with size := a.size + (headerSize + d.size) } :: r) (f₁ ++ a.start :: f₂)
      none := by
  obtain ⟨hother, hother', hdprev⟩ := h.pair_spec
  have hane : a.start ≠ d.start := hother a (by simp)
  have hlr : ∀ x ∈ l ++ r, x ∈ l ++ a :: r := fun x hx => mem_middle hx
  have ha_not : a.start ∉ f₁ ++ d.start :: f₂ := fun hm => ((h.mem_free _).mp hm).1 rfl
  have hd_free : d.start ∉ f₁ ++ f₂ :=
    (List.nodup_cons.mp (List.nodup_middle.mp h.free_nodup)).1
  have hP : c d.start .prevFree ≠ a.start := by
    rintro he
    rcases h.prevFree_mem with h0 | hm
    · exact h.spaced.pos (h0.symm.trans he ▸ List.mem_map_of_mem (by simp))
    · exact ha_not (he ▸ hm)
  have hQ : c d.start .nextFree ≠ a.start := by
    rintro he
    rcases h.nextFree_mem with h0 | hm
    · exact h.spaced.pos (h0.symm.trans he ▸ List.mem_map_of_mem (by simp))
    · exact ha_not (he ▸ hm)
  refine h.join ha (fun x hx => ?_) ?_ (fun x hx => ?_) (fun x hx => ?_) (fun p => ?_) ?_ ?_ ?_
    fun x hx hs => ?_
  · have h1 := hother x (hlr x hx)
    simp [hc, h1, hother' x hx]
  · simp [hc, hane]
  · rw [hnext _ (hother x hx), hdprev]
  · rw [hprev _ (hother x hx), hdprev]
  · have hp := h.mem_free p
    by_cases hpa : p = a.start
    · subst hpa
      simpa using ⟨a, by simp, rfl, ha⟩
    · by_cases hpd : p = d.start
      · subst hpd
        have hno : ¬ ∃ b ∈ l ++ a :: r, b.start = d.start ∧ b.held = none := by
          rintro ⟨x, hx, he, -⟩
          exact hother x hx he
        refine iff_of_false (fun hm => ?_) hno
        simp only [List.mem_append, List.mem_cons, Ne.symm hane, false_or] at hm hd_free
        exact hd_free hm
      · have hmem : p ∈ f₁ ++ a.start :: f₂ ↔
            p ∈ f₁ ++ d.start :: f₂ := by simp [hpa, hpd]
        rw [hmem, hp]
        simp only [List.mem_append, List.mem_cons]
        grind
  · have hnd := List.nodup_cons.mp (List.nodup_middle.mp h.free_nodup)
    refine List.nodup_middle.mpr (List.nodup_cons.mpr ⟨fun hm => ha_not ?_, hnd.2⟩)
    rcases List.mem_append.mp hm with hm | hm <;> simp [hm]
  · refine h.free_linked.replace h.free_nodup h.zero_not_mem_free ?_ ?_ (fun p hp => ?_)
      fun p hp => ?_
    · simp [hnextFree, hane, Ne.symm hP]
    · simp [hprevFree, hane, Ne.symm hQ]
    all_goals
      have hpd : p ≠ d.start := fun he => hd_free (he ▸ hp)
      have hpa : p ≠ a.start := by
        rintro rfl
        refine ha_not ?_
        rcases List.mem_append.mp hp with hp | hp <;> simp [hp]
    · simp [hnextFree, hpd, hpa]
    · simp [hprevFree, hpd, hpa]
  · exact h.firstFree_edit (a.start :: f₂)
  · have hx' : x ∈ l ++ a :: d :: r := by
      rcases List.mem_append.mp hx with hx | hx <;> simp [hx]
    have h1 := hother x (hlr x hx)
    have h2 := h.held_ne hx' hs h.prevFree_mem
    have h3 := h.held_ne hx' hs h.nextFree_mem
    rw [hprevFree _ h1, hnextFree _ h1, if_neg h3, if_neg h2, if_neg (hother' x hx),
      if_neg (hother' x hx)]
    exact h.held_links x hx' hs

/-- A free block in the list takes in the free block behind it that is in no list. -/
theorem joinBefore (h : HeapShape ctx c (l ++ a :: d :: r) free (some d.start))
    (ha : a.held = none)
    (hc : ∀ p f, f ≠ .prev → f ≠ .next → p ≠ d.start →
      c' p f = if p = a.start ∧ f = .size then a.size + (headerSize + d.size) else c p f)
    (hnext : ∀ p, p ≠ d.start → c' p .next = if p = a.start then
      c d.start .next else c p .next)
    (hprev : ∀ p, p ≠ d.start → c' p .prev =
      if p = c d.start .next then a.start else c p .prev) :
    HeapShape ctx c' (l ++ { a with size := a.size + (headerSize + d.size) } :: r) free none := by
  obtain ⟨hother, hother', hdprev⟩ := h.pair_spec
  have hane : a.start ≠ d.start := hother a (by simp)
  have hlr : ∀ x ∈ l ++ r, x ∈ l ++ a :: r := fun x hx => mem_middle hx
  have hd_not : d.start ∉ free := fun hm => ((h.mem_free _).mp hm).1 rfl
  refine h.join ha (fun x hx => ?_) ?_ (fun x hx => ?_) (fun x hx => ?_) (fun p => ?_)
    h.free_nodup ?_ h.first_free fun x hx hs => ?_
  · simp [hc, hother x (hlr x hx), hother' x hx]
  · simp [hc, hane]
  · rw [hnext _ (hother x hx), hdprev]
  · rw [hprev _ (hother x hx), hdprev]
  · by_cases hpd : p = d.start
    · subst hpd
      refine iff_of_false hd_not ?_
      rintro ⟨x, hx, he, -⟩
      exact hother x hx he
    · rw [h.mem_free]
      simp only [List.mem_append, List.mem_cons]
      grind
  · refine h.free_linked.congr (fun p hp => ?_) fun p hp => ?_ <;>
      simp [hc, show p ≠ d.start from fun he => hd_not (he ▸ hp)]
  · have hx' : x ∈ l ++ a :: d :: r := by
      rcases List.mem_append.mp hx with hx | hx <;> simp [hx]
    simpa [hc, hother x (hlr x hx)] using h.held_links x hx' hs

theorem cut_tiles {x z len new : ℕ} {held : Option ℕ} (h : Tiles x (l ++ b :: r) z)
    (hlen : len + (headerSize + alignMultiple) ≤ b.size)
    (hnew : new = b.start + headerSize + len) :
    Tiles x (l ++ ⟨b.start, len, held⟩ ::
      ⟨new, b.size - len - headerSize, none⟩ :: r) z := by
  obtain ⟨y, h1, rfl, h2⟩ := tiles_append.mp h
  refine tiles_append.mpr ⟨b.start, h1, rfl, hnew, ?_⟩
  have hstop : (⟨new, b.size - len - headerSize, none⟩ : HeapBlock).stop = b.stop := by
    simp only [HeapBlock.stop, headerSize, alignMultiple] at hlen hnew ⊢
    omega
  rw [hstop]
  exact h2

/-- The front of a free block becomes held; the rest is a block that takes over its place in
the free list. -/
theorem cut {len n new : ℕ} (h : HeapShape ctx c (l ++ b :: r) (f₁ ++ b.start :: f₂) none)
    (hb : b.held = none) (hlen : len + (headerSize + alignMultiple) ≤ b.size)
    (hdvd : alignMultiple ∣ len) (hn : 0 < n ∧ n ≤ len)
    (hnew : new = b.start + headerSize + len)
    (hcb : c' b.start .alloc = 1 ∧ c' b.start .size = len ∧ c' b.start .prevFree = 0 ∧
      c' b.start .nextFree = 0 ∧ c' b.start .magic1 = c b.start .magic1 ∧
      c' b.start .magic2 = c b.start .magic2)
    (hcn : c' new .alloc = 0 ∧ c' new .size = b.size - len - headerSize ∧
      c' new .prevFree = c b.start .prevFree ∧ c' new .nextFree = c b.start .nextFree ∧
      c' new .magic1 = headerMagic1 ∧ c' new .magic2 = headerMagic2)
    (hc : ∀ p f, f ≠ .prev → f ≠ .next → f ≠ .prevFree → f ≠ .nextFree →
      p ≠ b.start → p ≠ new →
      c' p f = c p f)
    (hnext : ∀ p, c' p .next = if p = b.start then new else if p = new then c b.start .next
      else c p .next)
    (hprev : ∀ p, c' p .prev = if p = new then b.start else if p = c b.start .next then new
      else c p .prev)
    (hprevFree : ∀ p, p ≠ b.start → p ≠ new →
      c' p .prevFree = if p = c b.start .nextFree then new else c p .prevFree)
    (hnextFree : ∀ p, p ≠ b.start → p ≠ new →
      c' p .nextFree = if p = c b.start .prevFree then new else c p .nextFree) :
    HeapShape { ctx with
        firstFree := if c b.start .prevFree = 0 then new else ctx.firstFree } c'
      (l ++ ⟨b.start, len, some n⟩ :: ⟨new, b.size - len - headerSize, none⟩ :: r)
      (f₁ ++ new :: f₂) none := by
  have hroom := forall_mem_middle.mp h.room
  have hbmem : b ∈ l ++ b :: r := by simp
  have hnew_bounds : b.start + headerSize ≤ new ∧ new + headerSize ≤ b.stop := by
    simp only [HeapBlock.stop, headerSize, alignMultiple] at hlen hnew ⊢
    omega
  have hother : ∀ x ∈ l ++ r, x.start ≠ b.start := fun x hx => h.other_start hx
  -- the new header lies inside the old block
  have hnew_ne : ∀ x ∈ l ++ b :: r, x.start ≠ new := by
    intro x hx he
    by_cases hxb : x = b
    · subst hxb
      simp only [headerSize] at hnew_bounds
      omega
    · have hapart := h.tiles.apart hx hbmem hxb
      simp only [HeapBlock.stop, headerSize] at hapart hnew_bounds
      omega
  have hnew_ne' : ∀ x ∈ l ++ r, x.start ≠ new := fun x hx => hnew_ne x (mem_middle hx)
  have hb_ne : b.start ≠ new := hnew_ne b hbmem
  have hnew0 : new ≠ 0 := by
    simp only [headerSize] at hnew_bounds
    omega
  have hnew_free : new ∉ f₁ ++ b.start :: f₂ := by
    intro hm
    obtain ⟨-, x, hx, he, -⟩ := (h.mem_free new).mp hm
    exact hnew_ne x hx he
  have hb_free := List.nodup_cons.mp (List.nodup_middle.mp h.free_nodup)
  have hlr : ∀ {P : HeapBlock → Prop}, P ⟨b.start, len, some n⟩ →
      P ⟨new, b.size - len - headerSize, none⟩ → (∀ x ∈ l ++ r, P x) →
      ∀ x ∈ l ++ ⟨b.start, len, some n⟩ ::
        ⟨new, b.size - len - headerSize, none⟩ :: r, P x :=
    fun h1 h2 h3 => forall_mem_middle.mpr ⟨h1, forall_mem_middle.mpr ⟨h2, h3⟩⟩
  refine
    { tiles := ?_, first := h.first, some_block := by simp, buf_pos := h.buf_pos,
      buf_end := h.buf_end, aligned := ?_, room := ?_, magic := ?_, size := ?_, alloc := ?_,
      linked := ?_, mem_free := ?_, free_nodup := ?_, free_linked := ?_,
      first_free := h.firstFree_edit (new :: f₂), held_links := ?_ }
  · exact cut_tiles h.tiles hlen hnew
  · have haligned := forall_mem_middle.mp h.aligned
    refine hlr haligned.1 ?_ haligned.2
    rw [hnew]
    exact Nat.dvd_add (Nat.dvd_add haligned.1 (by decide)) hdvd
  · refine hlr ⟨by show 0 < len; omega, ?_⟩ ⟨?_, ?_⟩ hroom.2
    · rintro k ⟨⟩
      exact hn
    · show 0 < b.size - len - headerSize
      simp only [headerSize, alignMultiple] at hlen ⊢
      omega
    · rintro k ⟨⟩
  · have hmagic := forall_mem_middle.mp h.magic
    refine hlr ?_ hcn.2.2.2.2 fun x hx => ?_
    · rw [hcb.2.2.2.2.1, hcb.2.2.2.2.2]
      exact hmagic.1
    · simpa [hc, hother x hx, hnew_ne' x hx] using hmagic.2 x hx
  · refine hlr hcb.2.1 hcn.2.1 fun x hx => ?_
    simpa [hc, hother x hx, hnew_ne' x hx] using (forall_mem_middle.mp h.size).2 x hx
  · refine hlr hcb.1 hcn.1 fun x hx => ?_
    simpa [hc, hother x hx, hnew_ne' x hx] using (forall_mem_middle.mp h.alloc).2 x hx
  · have hlin := h.linked
    have hnd := h.nodup
    have hpos := h.spaced.pos
    simp only [List.map_append, List.map_cons] at hlin hnd hpos ⊢
    refine hlin.insertAfter hnd hpos ?_ ?_ ?_ ?_ (fun p hp => ?_) fun p hp => ?_
    · simp [hnext]
    · have hbn : b.start ≠ c b.start .next := by
        intro he
        rcases next_mem hlin with ⟨h0, -⟩ | hm
        · exact hpos (h0 ▸ he ▸ by simp)
        · rw [← he] at hm
          have := (List.nodup_cons.mp (List.nodup_middle.mp hnd)).1
          exact this (List.mem_append_right _ hm)
      simp [hprev, hb_ne, hbn]
    · simp [hnext, Ne.symm hb_ne]
    · simp [hprev]
    all_goals
      rw [← List.map_append] at hp
      obtain ⟨x, hx, rfl⟩ := List.mem_map.mp hp
    · simp [hnext, hother x hx, hnew_ne' x hx]
    · simp [hprev, hnew_ne' x hx]
  · intro p
    have hp := h.mem_free p
    rw [exists_mem_middle] at hp
    rw [exists_mem_middle, exists_mem_middle]
    by_cases hpn : p = new
    · subst hpn
      simp
    · by_cases hpb : p = b.start
      · subst hpb
        have hno : ¬ ∃ x ∈ l ++ r, x.start = b.start ∧ x.held = none := by
          rintro ⟨x, hx, he, -⟩
          exact hother x hx he
        refine iff_of_false (fun hm => ?_) ?_
        · simp only [List.mem_append, List.mem_cons, hpn, false_or] at hm
          exact hb_free.1 (List.mem_append.mpr hm)
        · rintro ⟨-, ⟨-, he⟩ | ⟨he, -⟩ | he⟩
          · cases he
          · exact hpn he.symm
          · exact hno he
      · simp only [List.mem_append, List.mem_cons, hpn, hpb, false_or] at hp ⊢
        rw [hp]
        simp [Ne.symm hpb, Ne.symm hpn]
  · refine List.nodup_middle.mpr (List.nodup_cons.mpr ⟨fun hm => hnew_free ?_, hb_free.2⟩)
    rcases List.mem_append.mp hm with hm | hm <;> simp [hm]
  · refine h.free_linked.replace h.free_nodup h.zero_not_mem_free hcn.2.2.2.1 hcn.2.2.1
      (fun p hp => ?_) fun p hp => ?_
    all_goals
      have hpb : p ≠ b.start := fun he => hb_free.1 (he ▸ hp)
      have hpn : p ≠ new := by
        rintro rfl
        refine hnew_free ?_
        rcases List.mem_append.mp hp with hp | hp <;> simp [hp]
    · exact hnextFree p hpb hpn
    · exact hprevFree p hpb hpn
  · refine hlr (fun _ => ⟨hcb.2.2.1, hcb.2.2.2.1⟩) (fun hs => by cases hs) fun x hx hs => ?_
    have hx' : x ∈ l ++ b :: r := mem_middle hx
    have h2 := h.held_ne hx' hs h.prevFree_mem
    have h3 := h.held_ne hx' hs h.nextFree_mem
    rw [hprevFree _ (hother x hx) (hnew_ne' x hx), hnextFree _ (hother x hx) (hnew_ne' x hx),
      if_neg h3, if_neg h2]
    exact h.held_links x hx' hs

end HeapShape

end RmmCaec
