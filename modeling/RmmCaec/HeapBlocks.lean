import RmmCaec.HeapAlloc
import RmmCaec.LinkedCells

/-!
# The blocks of a heap

A heap is described by the list of its blocks in the order of their addresses and by the
list of the free ones in the order in which they are tried. The fields of the headers are a
table beside the memory: a write to a field changes one cell of the table and no byte
outside the headers.
-/
namespace RmmCaec

open ByteMemory LinkedCells

abbrev Cells := ℕ → HeaderField → ℕ

def Cells.set (c : Cells) (p : ℕ) (f : HeaderField) (v : ℕ) : Cells := fun q g =>
  if q = p ∧ g = f then v else c q g

def Cells.clear (c : Cells) (p : ℕ) : Cells := fun q g => if q = p then 0 else c q g

theorem Cells.set_comm {f g : HeaderField} (h : f ≠ g) (c : Cells) (p q v w : ℕ) :
    (c.set p f v).set q g w = (c.set q g w).set p f v := by
  funext x e
  by_cases hf : e = f
  · subst hf
    simp [Cells.set, h]
  · simp [Cells.set, hf]

/-- Addresses that leave room for a header each. -/
structure Spaced (ps : List ℕ) : Prop where
  apart : ∀ p ∈ ps, ∀ q ∈ ps, p ≠ q → p + headerSize ≤ q ∨ q + headerSize ≤ p
  pos : 0 ∉ ps
  lt : ∀ p ∈ ps, p < 2 ^ 64

/-- The headers at the given addresses hold the cells, and all other bytes are as before. -/
structure Sees (ps : List ℕ) (m0 m : Bytes) (c : Cells) : Prop where
  fields : ∀ p ∈ ps, ∀ f, getField m p f = c p f
  outside : ∀ x, (∀ p ∈ ps, x < p ∨ p + headerSize ≤ x) → m x = m0 x

theorem HeaderField.offset_add_le (f : HeaderField) : f.offset + 8 ≤ headerSize := by
  cases f <;> decide

theorem HeaderField.offset_apart {f g : HeaderField} (h : f ≠ g) :
    f.offset + 8 ≤ g.offset ∨ g.offset + 8 ≤ f.offset := by
  cases f <;> cases g <;> first | exact absurd rfl h | decide

theorem getField_lt (m : Bytes) (p : ℕ) (f : HeaderField) : getField m p f < 2 ^ 64 :=
  loadLe_lt m 8 _

namespace Sees

variable {ps : List ℕ} {m0 m : Bytes} {c : Cells} {p v : ℕ} {f : HeaderField}

theorem refl (ps : List ℕ) (m : Bytes) : Sees ps m m (getField m) :=
  ⟨fun _ _ _ => rfl, fun _ _ => rfl⟩

theorem lt (h : Sees ps m0 m c) (hp : p ∈ ps) : c p f < 2 ^ 64 := by
  rw [← h.fields p hp f]
  exact getField_lt m p f

theorem set (h : Sees ps m0 m c) (hs : Spaced ps) (hp : p ∈ ps) (hv : v < 2 ^ 64) :
    Sees ps m0 (setField m p f v) (c.set p f v) := by
  constructor
  · intro q hq g
    by_cases hpq : q = p
    · subst hpq
      by_cases hfg : g = f
      · subst hfg
        simp only [getField, setField, loadLe_storeLe, Cells.set, and_self, if_true]
        exact Nat.mod_eq_of_lt hv
      · have hoff := HeaderField.offset_apart hfg
        have hkeep : getField (setField m q f v) q g = getField m q g :=
          loadLe_storeLe_of_apart (by omega)
        simp only [hkeep, h.fields q hq g, Cells.set, hfg, and_false, if_false]
    · have hapart := hs.apart q hq p hp hpq
      have hf := f.offset_add_le
      have hg := g.offset_add_le
      have hkeep : getField (setField m p f v) q g = getField m q g :=
        loadLe_storeLe_of_apart (by omega)
      simp only [hkeep, h.fields q hq g, Cells.set, hpq, false_and, if_false]
  · intro x hx
    have hf := f.offset_add_le
    have hxp := hx p hp
    rw [setField, storeLe_of_not_mem (by omega), h.outside x hx]

theorem setIf (h : Sees ps m0 m c) (hs : Spaced ps) (hp : p = 0 ∨ p ∈ ps) (hv : v < 2 ^ 64) :
    Sees ps m0 (setFieldIf m p f v) (c.set p f v) := by
  unfold setFieldIf
  by_cases h0 : p = 0
  · rw [if_pos h0]
    refine ⟨fun q hq g => ?_, h.outside⟩
    have hq0 : q ≠ p := by
      rintro rfl
      exact hs.pos (h0 ▸ hq)
    simp only [h.fields q hq g, Cells.set, hq0, false_and, if_false]
  · rw [if_neg h0]
    exact h.set hs (hp.resolve_left h0) hv

theorem clear (h : Sees ps m0 m c) (hs : Spaced ps) (hp : p ∈ ps) :
    Sees ps m0 (fill m p headerSize 0) (c.clear p) := by
  constructor
  · intro q hq g
    have hg := g.offset_add_le
    by_cases hpq : q = p
    · subst hpq
      have hzero : getField (fill m q headerSize 0) q g = 0 :=
        loadLe_fill_zero (by omega) (by omega)
      simp only [hzero, Cells.clear, if_true]
    · have hapart := hs.apart q hq p hp hpq
      have hkeep : getField (fill m p headerSize 0) q g = getField m q g :=
        loadLe_fill_of_apart (by omega)
      simp only [hkeep, h.fields q hq g, Cells.clear, hpq, if_false]
  · intro x hx
    have hxp := hx p hp
    rw [fill_of_not_mem (by omega), h.outside x hx]

/-- Bytes between the headers may be written at will. -/
theorem fill_between {a n : ℕ} {b : BitVec 8} (h : Sees ps m0 m c)
    (ha : ∀ p ∈ ps, a + n ≤ p ∨ p + headerSize ≤ a) : ∀ p ∈ ps, ∀ f,
    getField (fill m a n b) p f = c p f := by
  intro p hp f
  have hf := f.offset_add_le
  have hap := ha p hp
  rw [← h.fields p hp f]
  exact loadLe_fill_of_apart (by omega)

end Sees

section

variable {ps : List ℕ} {m0 : Bytes} {h : Heap} {c : Cells} {cur new : ℕ}

theorem unlinkFree_sees (hs : Spaced ps) (hc : Sees ps m0 h.mem c) (hcur : cur ∈ ps)
    (hprev : c cur .prevFree = 0 ∨ c cur .prevFree ∈ ps)
    (hnext : c cur .nextFree = 0 ∨ c cur .nextFree ∈ ps) :
    Sees ps m0 (unlinkFree h cur).mem
      ((c.set (c cur .prevFree) .nextFree (c cur .nextFree)).set (c cur .nextFree) .prevFree
        (c cur .prevFree)) ∧
    (unlinkFree h cur).ctx = { h.ctx with
      firstFree := if c cur .prevFree = 0 then c cur .nextFree else h.ctx.firstFree } := by
  have h1 := hc.setIf hs (f := .nextFree) hprev (hc.lt (f := .nextFree) hcur)
  have hn : (c.set (c cur .prevFree) .nextFree (c cur .nextFree)) cur .nextFree =
      c cur .nextFree := by
    unfold Cells.set
    split <;> rfl
  have hp : (c.set (c cur .prevFree) .nextFree (c cur .nextFree)) cur .prevFree =
      c cur .prevFree := by simp [Cells.set]
  simp only [unlinkFree, hc.fields cur hcur, h1.fields cur hcur, hn, hp]
  exact ⟨h1.setIf hs hnext (hc.lt hcur), trivial⟩

theorem replaceFree_sees (hs : Spaced ps) (hc : Sees ps m0 h.mem c) (hcur : cur ∈ ps)
    (hnew : new ∈ ps)
    (hprev : c cur .prevFree = 0 ∨ c cur .prevFree ∈ ps) (hprev_ne : c cur .prevFree ≠ new)
    (hnext : c cur .nextFree = 0 ∨ c cur .nextFree ∈ ps) :
    Sees ps m0 (replaceFree h new cur).mem
      ((((c.set new .prevFree (c cur .prevFree)).set new .nextFree (c cur .nextFree)).set
        (c cur .prevFree) .nextFree new).set (c cur .nextFree) .prevFree new) ∧
    (replaceFree h new cur).ctx = { h.ctx with
      firstFree := if c cur .prevFree = 0 then new else h.ctx.firstFree } := by
  have h1 := hc.set hs (f := .prevFree) hnew (hc.lt (f := .prevFree) hcur)
  have hn1 : (c.set new .prevFree (c cur .prevFree)) cur .nextFree = c cur .nextFree := by
    simp [Cells.set]
  have h2 := h1.set hs (f := .nextFree) hnew (hc.lt (f := .nextFree) hcur)
  have hp2 : ((c.set new .prevFree (c cur .prevFree)).set new .nextFree (c cur .nextFree)) new
      .prevFree = c cur .prevFree := by simp [Cells.set]
  have h3 := h2.setIf hs (f := .nextFree) hprev (hs.lt new hnew)
  have hn3 : (((c.set new .prevFree (c cur .prevFree)).set new .nextFree (c cur .nextFree)).set
      (c cur .prevFree) .nextFree new) new .nextFree = c cur .nextFree := by
    simp [Cells.set, Ne.symm hprev_ne]
  simp only [replaceFree, hc.fields cur hcur, h1.fields cur hcur, hn1, h2.fields new hnew, hp2,
    h3.fields new hnew, hn3]
  exact ⟨h3.setIf hs hnext (hs.lt new hnew), trivial⟩

/-- The cells after a header was written behind `cur`. -/
theorem writeHeader_sees {m : Bytes} {size : ℕ} (hs : Spaced ps) (hc : Sees ps m0 m c)
    (hcur : cur ∈ ps) (hnew : new ∈ ps) (hne : cur ≠ new) (hsize : size < 2 ^ 64)
    (hnext : c cur .next = 0 ∨ c cur .next ∈ ps) (hnext_ne : c cur .next ≠ new) :
    ∃ c', Sees ps m0 (writeHeader m cur new size) c' ∧
      (∀ p f, p ≠ new → f ≠ .prev → c' p f = c p f) ∧
      (∀ p, p ≠ new → c' p .prev = if p = c cur .next then new else c p .prev) ∧
      c' new .size = size ∧ c' new .alloc = 0 ∧ c' new .prev = cur ∧
      c' new .next = c cur .next ∧ c' new .magic1 = headerMagic1 ∧
      c' new .magic2 = headerMagic2 := by
  have h1 := ((hc.set hs (f := .size) hnew hsize).set hs (f := .alloc) hnew (v := 0)
    (by omega)).set hs (f := .prev) hnew (hs.lt cur hcur)
  have e1 := h1.fields cur hcur .next
  simp only [Cells.set, hne, false_and, if_false] at e1
  have h2 := ((h1.set hs (f := .next) hnew (hc.lt (f := .next) hcur)).set hs (f := .magic1) hnew
    (v := headerMagic1) (by decide)).set hs (f := .magic2) hnew (v := headerMagic2) (by decide)
  have e2 := h2.fields new hnew .next
  simp only [Cells.set, true_and, reduceCtorEq, if_false, if_true] at e2
  have h3 := h2.setIf hs (f := .prev) hnext (hs.lt new hnew)
  refine ⟨((((((c.set new .size size).set new .alloc 0).set new .prev cur).set new .next
    (c cur .next)).set new .magic1 headerMagic1).set new .magic2 headerMagic2).set (c cur .next)
    .prev new, ?_, fun p f hp hf => ?_, fun p hp => ?_, ?_⟩
  · unfold writeHeader
    simp only [e1, e2]
    exact h3
  · simp [Cells.set, hp, hf]
  · simp [Cells.set, hp]
  · simp [Cells.set, Ne.symm hnext_ne]

end

/-- A block with its header at `start` and `size` bytes behind it; `held` is the number of
bytes that were asked for. -/
structure HeapBlock where
  start : ℕ
  size : ℕ
  held : Option ℕ
  deriving DecidableEq, Repr

def HeapBlock.payload (b : HeapBlock) : ℕ := b.start + headerSize
def HeapBlock.stop (b : HeapBlock) : ℕ := b.start + headerSize + b.size

/-- The blocks fill the addresses from `a` to `z`. -/
def Tiles : ℕ → List HeapBlock → ℕ → Prop
  | a, [], z => a = z
  | a, b :: bs, z => b.start = a ∧ Tiles b.stop bs z

theorem tiles_append {a z : ℕ} {l r : List HeapBlock} :
    Tiles a (l ++ r) z ↔ ∃ y, Tiles a l y ∧ Tiles y r z := by
  induction l generalizing a with
  | nil => simp [Tiles]
  | cons b l ih =>
    simp only [List.cons_append, Tiles, ih]
    constructor
    · rintro ⟨h1, y, h2, h3⟩
      exact ⟨y, ⟨h1, h2⟩, h3⟩
    · rintro ⟨y, ⟨h1, h2⟩, h3⟩
      exact ⟨h1, y, h2, h3⟩

namespace Tiles

variable {a z : ℕ} {bs : List HeapBlock}

theorem le_length (h : Tiles a bs z) : a + headerSize * bs.length ≤ z := by
  induction bs generalizing a with
  | nil => simpa [Tiles] using h.le
  | cons b bs ih =>
    obtain ⟨rfl, h⟩ := h
    have := ih h
    simp only [HeapBlock.stop, List.length_cons, headerSize] at *
    omega

theorem bounds (h : Tiles a bs z) {b : HeapBlock} (hb : b ∈ bs) :
    a ≤ b.start ∧ b.stop ≤ z := by
  induction bs generalizing a with
  | nil => simp at hb
  | cons d bs ih =>
    obtain ⟨rfl, h⟩ := h
    have hlen := le_length h
    rcases List.mem_cons.mp hb with rfl | hb
    · exact ⟨le_rfl, by omega⟩
    · have := ih h hb
      simp only [HeapBlock.stop] at *
      omega

theorem ascending (h : Tiles a bs z) : bs.Pairwise fun b d => b.stop ≤ d.start := by
  induction bs generalizing a with
  | nil => exact List.Pairwise.nil
  | cons b bs ih =>
    obtain ⟨rfl, h⟩ := h
    exact List.Pairwise.cons (fun d hd => (h.bounds hd).1) (ih h)

theorem covers (h : Tiles a bs z) {x : ℕ} (h1 : a ≤ x) (h2 : x < z) :
    ∃ b ∈ bs, b.start ≤ x ∧ x < b.stop := by
  induction bs generalizing a with
  | nil =>
    simp only [Tiles] at h
    omega
  | cons b bs ih =>
    obtain ⟨rfl, h⟩ := h
    by_cases hx : x < b.stop
    · exact ⟨b, by simp, h1, hx⟩
    · obtain ⟨d, hd, hdx⟩ := ih h (by omega)
      exact ⟨d, by simp [hd], hdx⟩

/-- Two different blocks do not overlap. -/
theorem apart (h : Tiles a bs z) {b d : HeapBlock} (hb : b ∈ bs) (hd : d ∈ bs) (hne : b ≠ d) :
    b.stop ≤ d.start ∨ d.stop ≤ b.start := by
  induction bs generalizing a with
  | nil => simp at hb
  | cons e bs ih =>
    obtain ⟨rfl, h⟩ := h
    rcases List.mem_cons.mp hb with rfl | hb' <;> rcases List.mem_cons.mp hd with rfl | hd'
    · exact absurd rfl hne
    · exact .inl (h.bounds hd').1
    · exact .inr (h.bounds hb').1
    · exact ih h hb' hd'

theorem start_inj (h : Tiles a bs z) {b d : HeapBlock} (hb : b ∈ bs) (hd : d ∈ bs)
    (he : b.start = d.start) : b = d := by
  by_contra hne
  have := h.apart hb hd hne
  simp only [HeapBlock.stop, headerSize] at this
  omega

theorem nodup (h : Tiles a bs z) : (bs.map HeapBlock.start).Nodup := by
  refine List.Pairwise.map _ (fun b d hbd => ?_) h.ascending
  simp only [HeapBlock.stop, headerSize] at hbd
  omega

theorem spaced (h : Tiles a bs z) (ha : 0 < a) (hz : z ≤ 2 ^ 64) :
    Spaced (bs.map HeapBlock.start) := by
  constructor
  · intro p hp q hq hne
    obtain ⟨b, hb, rfl⟩ := List.mem_map.mp hp
    obtain ⟨d, hd, rfl⟩ := List.mem_map.mp hq
    have := h.apart hb hd fun he => hne (congrArg _ he)
    simp only [HeapBlock.stop] at this
    omega
  · intro h0
    obtain ⟨b, hb, h0⟩ := List.mem_map.mp h0
    have := (h.bounds hb).1
    omega
  · intro p hp
    obtain ⟨b, hb, rfl⟩ := List.mem_map.mp hp
    have := (h.bounds hb).2
    simp only [HeapBlock.stop, headerSize] at this
    omega

end Tiles

/-- The cells describe the blocks `bs` and the free list `free`. At most one block is neither
held nor in the list: it is `loose`. -/
structure HeapShape (ctx : BufferAllocCtx) (c : Cells) (bs : List HeapBlock) (free : List ℕ)
    (loose : Option ℕ) : Prop where
  tiles : Tiles ctx.buf bs (ctx.buf + ctx.len)
  first : ctx.first = ctx.buf
  some_block : bs ≠ []
  buf_pos : 0 < ctx.buf
  buf_end : ctx.buf + ctx.len < 2 ^ 64
  aligned : ∀ b ∈ bs, alignMultiple ∣ b.start
  room : ∀ b ∈ bs, 0 < b.size ∧ ∀ n, b.held = some n → 0 < n ∧ n ≤ b.size
  magic : ∀ b ∈ bs, c b.start .magic1 = headerMagic1 ∧ c b.start .magic2 = headerMagic2
  size : ∀ b ∈ bs, c b.start .size = b.size
  alloc : ∀ b ∈ bs, c b.start .alloc = if b.held.isSome then 1 else 0
  linked : Linked (c · .next) (c · .prev) 0 (bs.map HeapBlock.start) 0
  mem_free : ∀ p, p ∈ free ↔ loose ≠ some p ∧ ∃ b ∈ bs, b.start = p ∧ b.held = none
  free_nodup : free.Nodup
  free_linked : Linked (c · .nextFree) (c · .prevFree) 0 free 0
  first_free : ctx.firstFree = free.headD 0
  held_links : ∀ b ∈ bs, b.held.isSome → c b.start .prevFree = 0 ∧ c b.start .nextFree = 0

namespace HeapShape

variable {ctx : BufferAllocCtx} {c c' : Cells} {bs l r : List HeapBlock} {b d : HeapBlock}
  {free f₁ f₂ : List ℕ} {loose : Option ℕ}

theorem nodup (h : HeapShape ctx c bs free loose) : (bs.map HeapBlock.start).Nodup :=
  h.tiles.nodup

theorem spaced (h : HeapShape ctx c bs free loose) : Spaced (bs.map HeapBlock.start) :=
  h.tiles.spaced h.buf_pos h.buf_end.le

theorem free_sub (h : HeapShape ctx c bs free loose) {p : ℕ} (hp : p ∈ free) :
    p ∈ bs.map HeapBlock.start := by
  obtain ⟨-, b, hb, rfl, -⟩ := (h.mem_free p).mp hp
  exact List.mem_map_of_mem hb

theorem zero_not_mem_free (h : HeapShape ctx c bs free loose) : 0 ∉ free := fun h0 =>
  h.spaced.pos (h.free_sub h0)

/-- Only the cells of headers matter. -/
theorem congr (h : HeapShape ctx c bs free loose)
    (hc : ∀ p ∈ bs.map HeapBlock.start, ∀ f, c' p f = c p f) :
      HeapShape ctx c' bs free loose where
  tiles := h.tiles
  first := h.first
  some_block := h.some_block
  buf_pos := h.buf_pos
  buf_end := h.buf_end
  aligned := h.aligned
  room := h.room
  magic b hb := by
    simp only [hc b.start (List.mem_map_of_mem hb)]
    exact h.magic b hb
  size b hb := (hc b.start (List.mem_map_of_mem hb) _).trans (h.size b hb)
  alloc b hb := (hc b.start (List.mem_map_of_mem hb) _).trans (h.alloc b hb)
  linked := h.linked.congr (fun p hp => hc p hp _) fun p hp => hc p hp _
  mem_free := h.mem_free
  free_nodup := h.free_nodup
  free_linked := h.free_linked.congr (fun p hp => hc p (h.free_sub hp) _) fun p hp =>
    hc p (h.free_sub hp) _
  first_free := h.first_free
  held_links b hb hheld := by
    simp only [hc b.start (List.mem_map_of_mem hb)]
    exact h.held_links b hb hheld

end HeapShape

end RmmCaec
