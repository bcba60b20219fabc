import RmmCaec.HeapChecks

/-!
# Allocation and release on a heap

No two free blocks stand one behind the other. An allocation and a release keep this and the
shape of the heap, and they touch no byte that is held by somebody else.
-/
namespace RmmCaec

open ByteMemory LinkedCells

theorem overflow_iff {n s : ℕ} (hn : 0 < n) :
    n * s % 2 ^ 64 / n = s ↔ n * s < 2 ^ 64 := by
  constructor
  · intro h
    by_contra hge
    have hlt : n * s % 2 ^ 64 < n * s := by
      have := Nat.mod_lt (n * s) (show 0 < 2 ^ 64 by decide)
      omega
    have := Nat.div_lt_of_lt_mul hlt
    omega
  · intro h
    rw [Nat.mod_eq_of_lt h, Nat.mul_div_cancel_left _ hn]

/-- The length is the product, rounded up, unless one cannot count that far. -/
theorem requestLen_eq (n size : BitVec 64) :
    requestLen n size =
      if 0 < n.toNat * size.toNat ∧ n.toNat * size.toNat ≤ 2 ^ 64 - alignMultiple then
        some ((n.toNat * size.toNat + (alignMultiple - 1)) / alignMultiple * alignMultiple)
      else none := by
  have hmul : (n * size).toNat = n.toNat * size.toNat % 2 ^ 64 := BitVec.toNat_mul _ _
  by_cases h0 : n = 0 ∨ size = 0
  · have hzero : n.toNat * size.toNat = 0 := by rcases h0 with rfl | rfl <;> simp
    rw [requestLen, if_pos (by tauto), if_neg (by omega)]
  · have hn : 0 < n.toNat := by
      by_contra hz
      exact h0 (.inl (BitVec.eq_of_toNat_eq (by simpa using hz)))
    have hs : 0 < size.toNat := by
      by_contra hz
      exact h0 (.inr (BitVec.eq_of_toNat_eq (by simpa using hz)))
    have hpos : 0 < n.toNat * size.toNat := Nat.mul_pos hn hs
    have hover : (n * size) / n ≠ size ↔ ¬ n.toNat * size.toNat < 2 ^ 64 := by
      rw [← overflow_iff hn, ← hmul, ← BitVec.toNat_udiv, ne_eq, BitVec.toNat_inj]
    rw [not_or] at h0
    by_cases hlt : n.toNat * size.toNat < 2 ^ 64
    · rw [Nat.mod_eq_of_lt hlt] at hmul
      rw [requestLen, if_neg (by tauto), hmul]
      by_cases hfit : n.toNat * size.toNat ≤ 2 ^ 64 - alignMultiple
      · rw [if_neg (Nat.not_lt.mpr hfit)]
        by_cases hmod : n.toNat * size.toNat % alignMultiple = 0
        · rw [if_neg (not_not.mpr hmod), if_pos ⟨hpos, hfit⟩, Option.some_inj]
          simp only [alignMultiple] at hmod ⊢
          omega
        · rw [if_pos hmod, if_pos ⟨hpos, hfit⟩, Option.some_inj]
          simp only [alignMultiple] at hmod ⊢
          omega
      · rw [if_pos (Nat.lt_of_not_le hfit), if_neg fun hc => hfit hc.2]
    · rw [requestLen, if_pos (by tauto), if_neg (by simp only [alignMultiple]; omega)]

theorem requestLen_some {n size : BitVec 64} {len : ℕ} (h : requestLen n size = some len) :
    (n * size).toNat = n.toNat * size.toNat ∧ 0 < (n * size).toNat ∧
    (n * size).toNat ≤ len ∧
      alignMultiple ∣ len := by
  rw [requestLen_eq] at h
  split_ifs at h with hc
  obtain rfl := Option.some_inj.mp h
  have hmul : (n * size).toNat = n.toNat * size.toNat := by
    rw [BitVec.toNat_mul]
    refine Nat.mod_eq_of_lt ?_
    have := hc.2
    simp only [alignMultiple] at this
    omega
  refine ⟨hmul, by omega, ?_, Nat.dvd_mul_left _ _⟩
  rw [hmul]
  simp only [alignMultiple]
  omega

def heldBlocks (bs : List HeapBlock) : List HeapBlock := bs.filter fun b => b.held.isSome

theorem mem_heldBlocks {bs : List HeapBlock} {b : HeapBlock} :
    b ∈ heldBlocks bs ↔ b ∈ bs ∧ b.held.isSome := by simp [heldBlocks]

theorem heldBlocks_append (l r : List HeapBlock) :
    heldBlocks (l ++ r) = heldBlocks l ++ heldBlocks r := List.filter_append _ _

theorem heldBlocks_cons_held {b : HeapBlock} (hb : b.held.isSome) (r : List HeapBlock) :
    heldBlocks (b :: r) = b :: heldBlocks r := List.filter_cons_of_pos hb

theorem heldBlocks_cons_free {b : HeapBlock} (hb : b.held = none) (r : List HeapBlock) :
    heldBlocks (b :: r) = heldBlocks r := List.filter_cons_of_neg (by simp [hb])

/-- No two free blocks stand one behind the other. -/
def Coalesced (bs : List HeapBlock) : Prop :=
  bs.IsChain fun a b => a.held.isSome ∨ b.held.isSome

theorem coalesced_middle {l r : List HeapBlock} {b : HeapBlock} :
    Coalesced (l ++ b :: r) ↔ Coalesced l ∧ Coalesced r ∧
      (b.held = none → (∀ a ∈ l.getLast?, a.held.isSome) ∧
        ∀ d ∈ r.head?, d.held.isSome) := by
  simp only [Coalesced, List.isChain_append, List.isChain_cons, List.head?_cons,
    Option.mem_some_iff]
  cases hb : b.held <;> simp [hb]
  tauto

/-- A heap in its shape. -/
structure HeapInv (h : Heap) (bs : List HeapBlock) (free : List ℕ) : Prop where
  shaped : h.Shaped bs free none
  coalesced : Coalesced bs

/-- A byte that lies behind the header of a block, or outside the buffer. -/
theorem Tiles.between {a z x : ℕ} {bs : List HeapBlock} (h : Tiles a bs z)
    (hx : x < a ∨ z ≤ x ∨ ∃ b ∈ bs, b.payload ≤ x ∧ x < b.stop) :
    ∀ p ∈ bs.map HeapBlock.start, x < p ∨ p + headerSize ≤ x := by
  intro p hp
  obtain ⟨d, hd, rfl⟩ := List.mem_map.mp hp
  have hbounds := h.bounds hd
  rcases hx with hx | hx | ⟨b, hb, hx1, hx2⟩
  · exact .inl (by omega)
  · simp only [HeapBlock.stop] at hbounds
    exact .inr (by omega)
  · simp only [HeapBlock.payload] at hx1
    by_cases hbd : b = d
    · subst hbd
      exact .inr hx1
    · have hapart := h.apart hb hd hbd
      simp only [HeapBlock.stop] at hapart hx2
      omega

/-- The bytes of a block, or some of them, meet no header. -/
theorem Tiles.payload_apart {a z k : ℕ} {bs : List HeapBlock} {b : HeapBlock} (h : Tiles a bs z)
    (hb : b ∈ bs) (hk : k ≤ b.size) :
    ∀ p ∈ bs.map HeapBlock.start, b.payload + k ≤ p ∨ p + headerSize ≤ b.payload := by
  intro p hp
  obtain ⟨d, hd, rfl⟩ := List.mem_map.mp hp
  simp only [HeapBlock.payload]
  by_cases hbd : b = d
  · subst hbd
    exact .inr le_rfl
  · have hapart := h.apart hb hd hbd
    simp only [HeapBlock.stop] at hapart
    omega

theorem SameBetween.mono {ps qs : List ℕ} {m m' : Bytes} (h : SameBetween ps m m')
    (hsub : ps ⊆ qs) : SameBetween qs m m' := fun x hx => h x fun p hp => hx p (hsub hp)

theorem SameBetween.trans {ps : List ℕ} {m m' m'' : Bytes} (h : SameBetween ps m m')
    (h' : SameBetween ps m' m'') : SameBetween ps m m'' := fun x hx => (h' x hx).trans (h x hx)

/-- Nothing but the first free block changes in the context. -/
def SameBuffer (h h' : Heap) : Prop := h'.ctx = { h.ctx with firstFree := h'.ctx.firstFree }

/-- The bytes that are held and those outside the buffer are the same. -/
def SameHeld (c : BufferAllocCtx) (bs : List HeapBlock) (m m' : Bytes) : Prop :=
  ∀ x, (x < c.buf ∨ c.buf + c.len ≤ x ∨ ∃ b ∈ heldBlocks bs, b.payload ≤
    x ∧ x < b.stop) →
    m' x = m x

variable {h : Heap} {bs : List HeapBlock} {b : HeapBlock} {free : List ℕ}

theorem assertChain_ok {kind : ℕ} {expected : ℕ → Bool} (hs : h.Shaped bs free none)
    (he : h.ctx.verifies kind → expected 0) : assertChain h kind expected = .ok () := by
  unfold assertChain
  split
  · rename_i hv
    rw [hs.verifyChain]
    simp [bind, Except.bind, he hv, pure, Except.pure]
  · rfl

theorem assertChain_error {kind : ℕ} {expected : ℕ → Bool} (hs : h.Shaped bs free none)
    (hv : h.ctx.verifies kind = true) (he : expected 0 = false) :
    assertChain h kind expected = .error .assertion := by
  rw [assertChain, if_pos hv, hs.verifyChain]
  simp [bind, Except.bind, he]

/-- The last part of an allocation: the check and the zeroes. -/
theorem hand_out {g : HeapBlock} {k : ℕ} (hs : h.Shaped bs free none) (hg : g ∈ bs)
    (hk : k ≤ g.size) :
    assertChain h memoryVerifyAlloc (· == 0) = .ok () ∧
      Heap.Shaped { h with mem := fill h.mem g.payload k 0 } bs free none := by
  refine ⟨assertChain_ok hs fun _ => rfl, HeapShape.congr hs fun p hp f => ?_⟩
  exact (Sees.refl _ h.mem).fill_between (hs.tiles.payload_apart hg hk) p hp f

/-- What an allocation that finds a block makes of the heap. -/
structure Grants (h : Heap) (bs : List HeapBlock) (k len : ℕ) (g : HeapBlock) (h' : Heap)
    (bs' : List HeapBlock) (free' : List ℕ) : Prop where
  inv : HeapInv h' bs' free'
  held : ∃ l r, heldBlocks bs = l ++ r ∧ heldBlocks bs' = l ++ g :: r
  asked : g.held = some k
  size : len ≤ g.size ∧ g.size < len + (headerSize + alignMultiple)
  buffer : SameBuffer h h'
  zeroed : ∀ x, g.payload ≤ x → x < g.payload + k → h'.mem x = 0
  frame : SameHeld h.ctx bs h.mem h'.mem

theorem Grants.of_take {h1 : Heap} {l r r' : List HeapBlock} {g : HeapBlock} {k len : ℕ}
    {free' : List ℕ} (hi : HeapInv h (l ++ b :: r) free) (hb : b.held = none)
    (hs : h1.Shaped (l ++ g :: r') free' none)
    (hsame : SameBetween ((l ++ g :: r').map HeapBlock.start) h.mem h1.mem)
    (hbuffer : SameBuffer h h1) (hg : g.held = some k) (hk : k ≤ len)
    (hsize : len ≤ g.size ∧ g.size < len + (headerSize + alignMultiple))
    (hr' : heldBlocks r' = heldBlocks r) (hcoalesced : Coalesced r') :
    Grants h (l ++ b :: r) k len g { h1 with mem := fill h1.mem g.payload k 0 } (l ++ g :: r')
      free' := by
  have hgmem : g ∈ l ++ g :: r' := by simp
  have hheld : heldBlocks (l ++ b :: r) = heldBlocks l ++ heldBlocks r := by
    rw [heldBlocks_append, heldBlocks_cons_free hb]
  have hheld' : heldBlocks (l ++ g :: r') = heldBlocks l ++ g :: heldBlocks r := by
    rw [heldBlocks_append, heldBlocks_cons_held (by simp [hg]), hr']
  refine ⟨⟨(hand_out hs hgmem (hk.trans hsize.1)).2, ?_⟩, ⟨_, _, hheld, hheld'⟩, hg,
    hsize, hbuffer,
    fun x h1 h2 => fill_of_mem h1 h2, fun x hx => ?_⟩
  · refine coalesced_middle.mpr ⟨(coalesced_middle.mp hi.coalesced).1, hcoalesced,
      fun hno => ?_⟩
    simp [hg] at hno
  · have htiles : Tiles h.ctx.buf (l ++ g :: r') (h.ctx.buf + h.ctx.len) := by
      have ht := hs.tiles
      rw [hbuffer] at ht
      exact ht
    -- what was held is held by another block
    have hother : x < h.ctx.buf ∨ h.ctx.buf + h.ctx.len ≤ x ∨
        ∃ d ∈ l ++ g :: r', d ≠ g ∧ d.payload ≤ x ∧ x < d.stop := by
      refine hx.imp_right (Or.imp_right ?_)
      rintro ⟨d, hd, hxd⟩
      have hd' : d ∈ heldBlocks (l ++ g :: r') := by
        rw [hheld] at hd
        rw [hheld']
        exact List.mem_append.mpr ((List.mem_append.mp hd).imp_right (List.mem_cons_of_mem _))
      refine ⟨d, (mem_heldBlocks.mp hd').1, ?_, hxd⟩
      rintro rfl
      have hnodup : (heldBlocks (l ++ d :: r')).Nodup :=
        List.Nodup.filter _ (List.Nodup.of_map _ hs.nodup)
      rw [hheld', List.nodup_middle] at hnodup
      rw [hheld] at hd
      exact (List.nodup_cons.mp hnodup).1 hd
    have hfill : ¬ (g.payload ≤ x ∧ x < g.payload + k) := by
      have hb := htiles.bounds hgmem
      simp only [HeapBlock.payload, HeapBlock.stop] at hb ⊢
      rcases hother with h1 | h1 | ⟨d, hd, hne, h1⟩
      · omega
      · omega
      · have hapart := htiles.apart hd hgmem hne
        simp only [HeapBlock.payload, HeapBlock.stop] at h1 hapart
        omega
    show fill h1.mem g.payload k 0 x = h.mem x
    rw [fill_of_not_mem hfill]
    refine hsame x (htiles.between (hother.imp_right (Or.imp_right ?_)))
    rintro ⟨d, hd, -, hxd⟩
    exact ⟨d, hd, hxd⟩

theorem takeWhole_buffer (h : Heap) (cur : ℕ) : SameBuffer h (takeWhole h cur) := by
  simp only [SameBuffer, takeWhole, unlinkFree]

theorem takeSplit_buffer (h : Heap) (cur len : ℕ) : SameBuffer h (takeSplit h cur len) := by
  simp only [SameBuffer, takeSplit, replaceFree]

/-- The block that is found is given away, whole or cut. -/
theorem calloc_found {n size : BitVec 64} {len : ℕ} (hi : HeapInv h bs free)
    (hlen : requestLen n size = some len)
    (hfind : findFit h.mem len headerBound h.ctx.firstFree = .ok b.start) (hb : b ∈ bs)
    (hfree : b.held = none) (hfit : len ≤ b.size) :
    ∃ h' bs' free' g, bufferAllocCallocWithHeap h n size = .ok (h', g.payload) ∧
      Grants h bs (n * size).toNat len g h' bs' free' := by
  obtain ⟨-, hpos, hle, hdvd⟩ := requestLen_some hlen
  have hs := hi.shaped
  have hstart : b.start ≠ 0 := fun h0 => hs.spaced.pos (h0 ▸ List.mem_map_of_mem hb)
  have hfirst : ¬ (h.ctx.buf = 0 ∨ h.ctx.first = 0) := by
    have := hs.buf_pos
    rw [hs.first]
    omega
  have halloc : getField h.mem b.start .alloc = 0 := by
    rw [hs.alloc b hb]
    simp [hfree]
  have hsize : getField h.mem b.start .size = b.size := hs.size b hb
  have hmem : b.start ∈ free := (hs.mem_free _).mpr ⟨by simp, b, hb, rfl, hfree⟩
  obtain ⟨f₁, f₂, rfl⟩ := List.append_of_mem hmem
  obtain ⟨l, r, rfl⟩ := List.append_of_mem hb
  obtain ⟨k, hk⟩ : ∃ k, k = (n * size).toNat := ⟨_, rfl⟩
  rw [← hk] at hpos hle ⊢
  have hcall : ∀ (h1 : Heap) {bs1 : List HeapBlock} {free1 : List ℕ} {g : HeapBlock},
      (if b.size - len < headerSize + alignMultiple then takeWhole h b.start
        else takeSplit h b.start len) = h1 →
      h1.Shaped bs1 free1 none → g ∈ bs1 → k ≤ g.size → g.start = b.start →
      bufferAllocCallocWithHeap h n size =
        .ok ({ h1 with mem := fill h1.mem g.payload k 0 }, g.payload) := by
    intro h1 bs1 free1 g hh1 hs1 hg hkg hgb
    have hcheck := (hand_out hs1 hg hkg).1
    simp only [bufferAllocCallocWithHeap, if_neg hfirst, hlen, hfind, halloc, hsize, hh1, hstart,
      bind, Except.bind, hcheck, HeapBlock.payload, hgb, ← hk, if_false, ne_eq, not_true_eq_false,
      pure, Except.pure]
  by_cases hwhole : b.size - len < headerSize + alignMultiple
  · have htake := takeWhole_spec hs (n := k) ⟨hpos, hle.trans hfit⟩
    have hbuffer := takeWhole_buffer h b.start
    have hsize' : b.size < len + (headerSize + alignMultiple) := by omega
    obtain ⟨g, hg⟩ : ∃ g : HeapBlock, g = { b with held := some k } := ⟨_, rfl⟩
    obtain ⟨h1, hh1⟩ : ∃ h1, h1 = takeWhole h b.start := ⟨_, rfl⟩
    have hgsize : g.size = b.size := by rw [hg]
    have hstarts : (l ++ b :: r).map HeapBlock.start = (l ++ g :: r).map HeapBlock.start := by
      simp [hg]
    rw [← hg, ← hh1, hstarts] at htake
    rw [← hh1] at hbuffer
    have hc := hcall h1 (g := g) (by rw [if_pos hwhole, hh1]) htake.1 (by simp)
      (hgsize ▸ hle.trans hfit) (by rw [hg])
    exact ⟨_, _, _, g, hc, Grants.of_take hi hfree htake.1 htake.2 hbuffer (by rw [hg]) hle
      (hgsize ▸ ⟨hfit, hsize'⟩) rfl (coalesced_middle.mp hi.coalesced).2.1⟩
  · have hlen' : len + (headerSize + alignMultiple) ≤ b.size := by omega
    have htake := takeSplit_spec hs hfree hlen' hdvd (n := k) ⟨hpos, hle⟩
    have hbuffer := takeSplit_buffer h b.start len
    have hsize' : len < len + (headerSize + alignMultiple) := by simp [headerSize]
    obtain ⟨g, hg⟩ : ∃ g : HeapBlock, g = ⟨b.start, len, some k⟩ := ⟨_, rfl⟩
    obtain ⟨h1, hh1⟩ : ∃ h1, h1 = takeSplit h b.start len := ⟨_, rfl⟩
    have hgsize : g.size = len := by rw [hg]
    rw [← hg, ← hh1] at htake
    rw [← hh1] at hbuffer
    have hc := hcall h1 (g := g) (by rw [if_neg hwhole, hh1]) htake.1 (by simp)
      (hgsize ▸ hle) (by rw [hg])
    refine ⟨_, _, _, g, hc, Grants.of_take hi hfree htake.1 htake.2 hbuffer (by rw [hg]) hle
      (by rw [hgsize]; exact ⟨le_rfl, hsize'⟩) (heldBlocks_cons_free rfl r) ?_⟩
    have hc := coalesced_middle.mp hi.coalesced
    exact List.isChain_cons.mpr ⟨fun d hd => .inr ((hc.2.2 hfree).2 d hd), hc.2.1⟩

/-- An allocation finds a block or answers NULL, and then no free block is large enough. -/
theorem calloc_spec {n size : BitVec 64} {len : ℕ} (hi : HeapInv h bs free)
    (hlen : requestLen n size = some len) :
    (bufferAllocCallocWithHeap h n size = .ok (h, 0) ∧
        ¬ ∃ b ∈ bs, b.held = none ∧ len ≤ b.size) ∨
    ((∃ b ∈ bs, b.held = none ∧ len ≤ b.size) ∧ ∃ h' bs' free' g,
        bufferAllocCallocWithHeap h n size = .ok (h', g.payload) ∧
          Grants h bs (n * size).toNat len g h' bs' free') := by
  obtain ⟨cur, hfind, ⟨rfl, hno⟩ | ⟨b, hb, rfl, hfree, hfit⟩⟩ := hi.shaped.findFit len
  · refine .inl ⟨?_, fun ⟨b, hb, hfree, hfit⟩ => Nat.not_le.mpr (hno b hb hfree) hfit⟩
    have hfirst : ¬ (h.ctx.buf = 0 ∨ h.ctx.first = 0) := by
      have := hi.shaped.buf_pos
      rw [hi.shaped.first]
      omega
    simp only [bufferAllocCallocWithHeap, if_neg hfirst, hlen, hfind, bind, Except.bind, if_true,
      pure, Except.pure]
  · exact .inr ⟨⟨b, hb, hfree, hfit⟩, calloc_found hi hlen hfind hb hfree hfit⟩

theorem calloc_refused {n size : BitVec 64} (hlen : requestLen n size = none) :
    bufferAllocCallocWithHeap h n size = .ok (h, 0) := by
  simp [bufferAllocCallocWithHeap, hlen]

section

variable {ctx : BufferAllocCtx} {m : Bytes} {l r : List HeapBlock} {loose : Option ℕ}

theorem freeNeighbour_iff (hs : HeapShape ctx (getField m) bs free loose) (hb : b ∈ bs) :
    freeNeighbour m b.start = b.held.isNone := by
  have h0 : b.start ≠ 0 := fun h0 => hs.spaced.pos (h0 ▸ List.mem_map_of_mem hb)
  rw [freeNeighbour, hs.alloc b hb]
  cases b.held <;> simp [h0]

theorem freeNeighbour_prev (hs : HeapShape ctx (getField m) (l ++ b :: r) free loose) :
    freeNeighbour m (getField m b.start .prev) = l.getLast?.any (·.held.isNone) := by
  have hlinked := hs.linked
  rw [List.map_append, List.map_cons] at hlinked
  rw [hlinked.prev_eq]
  rcases List.eq_nil_or_concat l with rfl | ⟨l', a, rfl⟩
  · rfl
  · simpa using freeNeighbour_iff hs (b := a) (by simp)

theorem freeNeighbour_next (hs : HeapShape ctx (getField m) (l ++ b :: r) free loose) :
    freeNeighbour m (getField m b.start .next) = r.head?.any (·.held.isNone) := by
  have hlinked := hs.linked
  rw [List.map_append, List.map_cons] at hlinked
  rw [hlinked.next_eq]
  cases r with
  | nil => rfl
  | cons d r => simpa using freeNeighbour_iff hs (b := d) (by simp)

/-- A header without links into the free list. -/
def Unlinked (m : Bytes) (p : ℕ) : Prop :=
  getField m p .prevFree = 0 ∧ getField m p .nextFree = 0

theorem release_mark {k : ℕ} (hs : HeapShape ctx (getField m) (l ++ b :: r) free none)
    (hb : b.held = some k) :
    HeapShape ctx (getField (setField m b.start .alloc 0)) (l ++ { b with held := none } :: r) free
        (some b.start) ∧
      SameBetween ((l ++ b :: r).map HeapBlock.start) m (setField m b.start .alloc 0) ∧
      Unlinked (setField m b.start .alloc 0) b.start := by
  have hbmem : b ∈ l ++ b :: r := by simp
  have hmem : b.start ∈ (l ++ b :: r).map HeapBlock.start := List.mem_map_of_mem hbmem
  have hset := (Sees.refl _ m).set hs.spaced (f := .alloc) hmem (v := 0) (by decide)
  have hlinks := hs.held_links b hbmem (by simp [hb])
  refine ⟨HeapShape.congr (c := Cells.set (getField m) b.start .alloc 0) ?_ fun p hp f => ?_,
    hset.outside, ?_, ?_⟩
  · refine hs.mark none (hs.held_not_mem hbmem (by simp [hb])) (by simp) (by simp)
      (fun p f hp => ?_) (fun f hf _ _ => ?_) ?_ (by simp)
    · simp [Cells.set, hp]
    · simp [Cells.set, hf]
    · simp [Cells.set]
  · refine hset.fields p ?_ f
    simpa using hp
  · simpa [hset.fields _ hmem, Cells.set] using hlinks.1
  · simpa [hset.fields _ hmem, Cells.set] using hlinks.2

/-- Regrouping with the block before, or not. -/
theorem release_before (hs : HeapShape ctx (getField m) (l ++ b :: r) free (some b.start))
    (hb : b.held = none) (hlinks : Unlinked m b.start) (hl : Coalesced l) :
    ∃ m' l' b' loose, (if freeNeighbour m (getField m b.start .prev) then regroupBefore m b.start
        else (m, b.start)) = (m', b'.start) ∧
      HeapShape ctx (getField m') (l' ++ b' :: r) free loose ∧ b'.held = none ∧
      heldBlocks l' = heldBlocks l ∧ Coalesced l' ∧ (∀ a ∈ l'.getLast?, a.held.isSome) ∧
      (∀ p ∈ (l' ++ b' :: r).map HeapBlock.start, p ∈ (l ++ b :: r).map HeapBlock.start) ∧
      SameBetween ((l ++ b :: r).map HeapBlock.start) m m' ∧
      (freeNeighbour m (getField m b.start .prev) = true ∧ loose = none ∧
          b'.payload ≤ b.start ∧ b.start + headerSize ≤ b'.stop ∧
          (∀ x, b.start ≤ x → x < b.start + headerSize → m' x = 0) ∨
        freeNeighbour m (getField m b.start .prev) = false ∧ loose = some b'.start ∧
          b'.start = b.start ∧ Unlinked m' b'.start) := by
  have hprev := freeNeighbour_prev hs
  rw [hprev]
  rcases List.eq_nil_or_concat l with rfl | ⟨l', a, rfl⟩
  · exact ⟨m, [], b, _, rfl, hs, hb, rfl, hl, by simp, fun p hp => hp, fun _ _ => rfl,
      .inr ⟨rfl, rfl, rfl, hlinks⟩⟩
  · cases ha : a.held with
    | some k =>
      refine ⟨m, l' ++ [a], b, _, by simp [ha], by simpa using hs, hb, by simp, by simpa using hl,
        by simp [ha], fun p hp => by simpa using hp, fun _ _ => rfl,
        .inr ⟨by simp [ha], rfl, rfl, hlinks⟩⟩
    | none =>
      have hs' : HeapShape ctx (getField m) (l' ++ a :: b :: r) free (some b.start) := by
        simpa using hs
      obtain ⟨m', hregroup, hshape, hsame, hzero⟩ := regroupBefore_spec hs' ha
      obtain ⟨-, -, -, hstart, -⟩ := tiles_append.mp hs'.tiles
      rw [List.concat_eq_append] at hl
      have hc := coalesced_middle.mp hl
      refine ⟨m', l', _,
        none, by simpa [ha] using hregroup, hshape, ha, ?_, hc.1, (hc.2.2 ha).1, ?_,
        by simpa using hsame, .inl ⟨by simp [ha], rfl, ?_, ?_, hzero⟩⟩
      · simp [heldBlocks, ha]
      · intro p hp
        simp only [List.concat_eq_append, List.map_append, List.map_cons, List.mem_append,
          List.mem_cons] at hp ⊢
        rcases hp with hp | hp | hp
        · exact .inl (.inl hp)
        · exact .inl (.inr (.inl hp))
        · exact .inr (.inr hp)
      · simp only [HeapBlock.payload, HeapBlock.stop] at hstart ⊢
        omega
      · simp only [HeapBlock.stop] at hstart ⊢
        omega

theorem regroupAfter_buffer (h : Heap) (hdr : ℕ) : SameBuffer h (regroupAfter h hdr) := by
  simp only [SameBuffer, regroupAfter, replaceFree, unlinkFree]
  split <;> rfl

/-- Regrouping with the block behind, or not. -/
theorem release_after (hs : h.Shaped (l ++ b :: r) free loose) (hb : b.held = none)
    (hloose : loose = none ∨ loose = some b.start ∧ Unlinked h.mem b.start) (hr : Coalesced r) :
    ∃ h' r' b' free' loose', (if freeNeighbour h.mem (getField h.mem b.start .next) then
        regroupAfter h b.start else h) = h' ∧
      h'.Shaped (l ++ b' :: r') free' loose' ∧ b'.start = b.start ∧ b'.held = none ∧
      heldBlocks r' = heldBlocks r ∧ Coalesced r' ∧ (∀ d ∈ r'.head?, d.held.isSome) ∧
      (∀ p ∈ (l ++ b' :: r').map HeapBlock.start, p ∈ (l ++ b :: r).map HeapBlock.start) ∧
      SameBetween ((l ++ b :: r).map HeapBlock.start) h.mem h'.mem ∧ SameBuffer h h' ∧
      (freeNeighbour h.mem (getField h.mem b.start .next) = true ∧ loose' = none ∨
        freeNeighbour h.mem (getField h.mem b.start .next) = false ∧
          loose' = loose ∧ h' = h) := by
  have hnext := freeNeighbour_next hs
  rw [hnext]
  cases r with
  | nil =>
    exact ⟨h, [], b, free, loose, rfl, hs, rfl, hb, rfl, hr, by simp, fun p hp => hp,
      fun _ _ => rfl, rfl, .inr ⟨rfl, rfl, rfl⟩⟩
  | cons d r =>
    cases hd : d.held with
    | some k =>
      exact ⟨h, d :: r, b, free, loose, by simp [hd], hs, rfl, hb, rfl, hr, by simp [hd],
        fun p hp => hp, fun _ _ => rfl, rfl, .inr ⟨by simp [hd], rfl, rfl⟩⟩
    | none =>
      obtain ⟨free', hshape, hsame⟩ := regroupAfter_spec hs hb hd hloose
      have hc := List.isChain_cons.mp hr
      refine ⟨_, r, _, free', none, by simp [hd], hshape, rfl, hb, ?_, hc.2, fun x hx => ?_,
        fun p hp => ?_, hsame, regroupAfter_buffer h b.start, .inl ⟨by simp [hd], rfl⟩⟩
      · rw [heldBlocks_cons_free hd]
      · simpa [hd] using hc.1 x hx
      · simp only [List.map_append, List.map_cons, List.mem_append, List.mem_cons] at hp ⊢
        rcases hp with hp | hp | hp
        · exact .inl hp
        · exact .inr (.inl hp)
        · exact .inr (.inr (.inr hp))

end

/-- What the release of a block makes of the heap. -/
structure Releases (h : Heap) (bs : List HeapBlock) (b : HeapBlock) (h' : Heap)
    (bs' : List HeapBlock) (free' : List ℕ) : Prop where
  inv : HeapInv h' bs' free'
  held : ∃ l r, heldBlocks bs = l ++ b :: r ∧ heldBlocks bs' = l ++ r
  buffer : SameBuffer h h'
  frame : SameBetween (bs.map HeapBlock.start) h.mem h'.mem
  caught : verifyHeader h'.mem b.start ≠ 0 ∨ getField h'.mem b.start .alloc ≠ 1

theorem releaseBlock_spec {k : ℕ} (hi : HeapInv h bs free) (hb : b ∈ bs)
    (hheld : b.held = some k) :
    ∃ bs' free', Releases h bs b (releaseBlock h b.start) bs' free' := by
  obtain ⟨l, r, rfl⟩ := List.append_of_mem hb
  obtain ⟨hmark, hsame0, hlinks⟩ := release_mark hi.shaped hheld
  have hc := coalesced_middle.mp hi.coalesced
  obtain ⟨m0, hm0⟩ : ∃ m0, m0 = setField h.mem b.start .alloc 0 := ⟨_, rfl⟩
  obtain ⟨b0, hb0⟩ : ∃ b0 : HeapBlock, b0 = { b with held := none } := ⟨_, rfl⟩
  have hstart0 : b0.start = b.start := by rw [hb0]
  rw [← hm0] at hmark hsame0 hlinks
  rw [← hb0, ← hstart0] at hmark
  obtain ⟨m1, l1, b1, loose1, he1, hs1, hb1, hheld1, hcl1, hlast1, hsub1, hsame1, hstate1⟩ :=
    release_before hmark (by rw [hb0]) (hstart0 ▸ hlinks) hc.1
  rw [hstart0] at he1 hstate1
  obtain ⟨h1, hh1⟩ : ∃ h1 : Heap, h1 = { h with mem := m1 } := ⟨_, rfl⟩
  have hm1 : h1.mem = m1 := by rw [hh1]
  have hc1 : h1.ctx = h.ctx := by rw [hh1]
  rw [← hc1, ← hm1] at hs1
  rw [← hm1] at hsame1 hstate1
  obtain ⟨h2, r2, b2, free2, loose2, he2, hs2, hstart2, hb2, hheld2, hcr2, hhead2, hsub2, hsame2,
    hbuffer2, hstate2⟩ := release_after (b := b1) (r := r) hs1 hb1
      (hstate1.imp (fun hst => hst.2.1) fun hst => ⟨hst.2.1, hst.2.2.2⟩) hc.2.1
  have hrelease : releaseBlock h b.start =
      if freeNeighbour m0 (getField m0 b.start .prev) ||
        freeNeighbour h1.mem (getField h1.mem b1.start .next) then h2 else
          pushFree h2 b1.start := by
    rw [hm1] at he2 ⊢
    simp only [releaseBlock, ← hm0, he1, ← hh1, he2]
  have hcoalesced : Coalesced (l1 ++ b2 :: r2) :=
    coalesced_middle.mpr ⟨hcl1, hcr2, fun _ => ⟨hlast1, hhead2⟩⟩
  have hheld' : ∃ l' r', heldBlocks (l ++ b :: r) = l' ++ b :: r' ∧
      heldBlocks (l1 ++ b2 :: r2) = l' ++ r' := by
    refine ⟨heldBlocks l, heldBlocks r, ?_, ?_⟩
    · rw [heldBlocks_append, heldBlocks_cons_held (by simp [hheld])]
    · rw [heldBlocks_append, heldBlocks_cons_free hb2, hheld1, hheld2]
  have hstarts : (l ++ b0 :: r).map HeapBlock.start = (l ++ b :: r).map HeapBlock.start := by
    simp [hstart0]
  rw [hstarts] at hsub1 hsame1
  have hframe : SameBetween ((l ++ b :: r).map HeapBlock.start) h.mem h2.mem :=
    (hsame0.trans hsame1).trans (hsame2.mono fun p hp => hsub1 p hp)
  have hbuffer : SameBuffer h h2 := by
    rw [SameBuffer, hc1] at hbuffer2
    exact hbuffer2
  -- the old header is that of a free block, or zero
  have hcaught_start : ∀ {h' : Heap} {free' : List ℕ}, h'.Shaped (l1 ++ b2 :: r2) free' none →
      b1.start = b.start → getField h'.mem b.start .alloc ≠ 1 := by
    intro h' free' hs' hbs
    rw [← hbs, ← hstart2, hs'.alloc b2 (by simp)]
    simp [hb2]
  have hcaught_zero : (b1.payload ≤ b.start ∧ b.start + headerSize ≤ b1.stop ∧
      ∀ x, b.start ≤ x → x < b.start + headerSize → h1.mem x = 0) →
      verifyHeader h2.mem b.start ≠ 0 := by
    rintro ⟨hp1, hp2, hzero⟩
    have hmagic : getField h2.mem b.start .magic1 = 0 := by
      have hload : getField h2.mem b.start .magic1 =
          getField (fill h2.mem b.start headerSize 0) b.start .magic1 := by
        refine loadLe_congr fun x hx1 hx2 => ?_
        simp only [HeaderField.offset] at hx1 hx2
        rw [fill_of_mem (by omega) (by simp only [headerSize]; omega)]
        rw [hsame2 x (hs1.tiles.between (.inr (.inr ⟨b1, by simp, by omega, ?_⟩)))]
        · exact hzero x (by omega) (by simp only [headerSize]; omega)
        · simp only [headerSize] at hp2
          omega
      rw [hload]
      exact loadLe_fill_zero (by omega) (by simp only [HeaderField.offset, headerSize]; omega)
    simp [verifyHeader, hmagic, headerMagic1]
  rw [hrelease]
  rcases hstate2 with ⟨hn2, rfl⟩ | ⟨hn2, rfl, rfl⟩
  · rw [hn2, Bool.or_true, if_pos rfl]
    refine ⟨_, _, ⟨hs2, hcoalesced⟩, hheld', hbuffer, hframe, ?_⟩
    rcases hstate1 with ⟨-, -, hz⟩ | ⟨-, -, hbs, -⟩
    · exact .inl (hcaught_zero hz)
    · exact .inr (hcaught_start hs2 hbs)
  · rcases hstate1 with ⟨hp1, rfl, hz⟩ | ⟨hp1, rfl, hbs, hlinks1⟩
    · rw [hp1, Bool.true_or, if_pos rfl]
      exact ⟨_, _, ⟨hs2, hcoalesced⟩, hheld', hbuffer, hframe, .inl (hcaught_zero hz)⟩
    · rw [hp1, hn2, Bool.or_false, if_neg Bool.false_ne_true, ← hstart2]
      rw [← hstart2] at hs2 hlinks1
      obtain ⟨hpush, hsame3⟩ := pushFree_spec hs2 hb2 hlinks1.1
      refine ⟨_, _, ⟨hpush, hcoalesced⟩, hheld', ?_,
        hframe.trans (hsame3.mono fun p hp => ?_),
        .inr (hcaught_start hpush hbs)⟩
      · rw [SameBuffer, ← hc1]
        rfl
      · exact hsub1 p (hsub2 p hp)

/-- A release behind an address in the buffer looks at the header there. -/
theorem free_at {q : ℕ} (hbuf : 0 < h.ctx.buf) (hfirst : h.ctx.first = h.ctx.buf)
    (hend : h.ctx.buf + h.ctx.len < 2 ^ 64) (h1 : h.ctx.buf ≤ q)
    (h2 : q + headerSize < h.ctx.buf + h.ctx.len) :
    bufferAllocFreeWithHeap h (q + headerSize) =
      if verifyHeader h.mem q ≠ 0 then .error .assertion
      else if getField h.mem q .alloc ≠ 1 then .error .assertion
      else do
        assertChain (releaseBlock h q) memoryVerifyFree (· != 0)
        return releaseBlock h q := by
  have hnull : ¬ (q + headerSize = 0 ∨ h.ctx.buf = 0 ∨ h.ctx.first = 0) := by omega
  have hrange : ¬ (q + headerSize < h.ctx.buf ∨
      q + headerSize ≥ (h.ctx.buf + h.ctx.len) % 2 ^ 64) := by
    rw [Nat.mod_eq_of_lt hend]
    omega
  have hhdr : (q + headerSize + 2 ^ 64 - headerSize) % 2 ^ 64 = q := by
    simp only [headerSize]
    omega
  rw [bufferAllocFreeWithHeap, if_neg hnull, if_neg hrange, hhdr]

/-- A held block is released, unless the check at the end is on: it expects an error. -/
theorem free_spec {k : ℕ} (hi : HeapInv h bs free) (hb : b ∈ bs) (hheld : b.held = some k) :
    (h.ctx.verifies memoryVerifyFree = true ∧
        bufferAllocFreeWithHeap h b.payload = .error .assertion) ∨
    (h.ctx.verifies memoryVerifyFree = false ∧ ∃ h' bs' free',
        bufferAllocFreeWithHeap h b.payload = .ok h' ∧ Releases h bs b h' bs' free') := by
  have hs := hi.shaped
  have hbounds := hs.tiles.bounds hb
  have hroom := hs.room b hb
  have hverify := hs.verifyHeader hb
  have halloc : getField h.mem b.start .alloc = 1 := by
    rw [hs.alloc b hb]
    simp [hheld]
  obtain ⟨bs', free', hrel⟩ := releaseBlock_spec hi hb hheld
  have hcall : bufferAllocFreeWithHeap h b.payload = (do
      assertChain (releaseBlock h b.start) memoryVerifyFree (· != 0)
      return releaseBlock h b.start) := by
    simp only [HeapBlock.stop] at hbounds
    rw [HeapBlock.payload, free_at hs.buf_pos hs.first hs.buf_end hbounds.1 (by omega),
      if_neg (not_not.mpr hverify), if_neg (not_not.mpr halloc)]
  obtain ⟨h3, hh3⟩ : ∃ h3, h3 = releaseBlock h b.start := ⟨_, rfl⟩
  rw [← hh3] at hrel hcall
  have hverifies : h3.ctx.verifies memoryVerifyFree = h.ctx.verifies memoryVerifyFree := by
    rw [hrel.buffer]
    rfl
  rw [hcall]
  cases hv : h.ctx.verifies memoryVerifyFree with
  | true =>
    refine .inl ⟨rfl, ?_⟩
    rw [hv] at hverifies
    rw [assertChain_error hrel.inv.shaped hverifies rfl]
    rfl
  | false =>
    refine .inr ⟨rfl, h3, bs', free', ?_, hrel⟩
    rw [hv] at hverifies
    rw [assertChain_ok hrel.inv.shaped (by simp [hverifies])]
    rfl

/-- A block that has been released is not released again. -/
theorem Releases.free_again {h' : Heap} {bs' : List HeapBlock} {free' : List ℕ}
    (hi : HeapInv h bs free) (hb : b ∈ bs) (hr : Releases h bs b h' bs' free') :
    bufferAllocFreeWithHeap h' b.payload = .error .assertion := by
  have hs := hi.shaped
  have hbounds := hs.tiles.bounds hb
  have hroom := hs.room b hb
  have hctx : h'.ctx.buf = h.ctx.buf ∧ h'.ctx.len = h.ctx.len := by
    rw [hr.buffer]
    exact ⟨rfl, rfl⟩
  rw [← hctx.1, ← hctx.2, HeapBlock.stop] at hbounds
  have hs' := hr.inv.shaped
  rw [HeapBlock.payload, free_at hs'.buf_pos hs'.first hs'.buf_end hbounds.1 (by omega)]
  rcases hr.caught with hc | hc
  · rw [if_pos hc]
  · rw [if_pos hc, ite_self]

/-- NULL is released without effect. -/
theorem free_null : bufferAllocFreeWithHeap h 0 = .ok h := by
  simp [bufferAllocFreeWithHeap, pure, Except.pure]

end RmmCaec
