import RmmCaec.HeapClients

/-!
# Laws of the heap

What holds of a heap over every run of its clients: nobody is disturbed, no request is
refused while there is room for it, nothing is lost when everything has been given back, and
the checks find what they are there for.
-/
namespace RmmCaec

open ByteMemory

variable {m : Bytes} {buf len : ℕ} {h : Heap} {s : Holdings}

/-- An orderly client always gets an answer: memory that is aligned, inside the buffer, apart
from all that is held, and zero. What is held keeps its bytes, and the heap never writes
outside its buffer. -/
theorem heap_serves_clients (hbuf : 0 < buf) (hend : buf + len < 2 ^ 64)
    (hlen : headerSize + alignMultiple ≤ len) (hr : HeapReach m buf len (h, s)) :
    (∀ c, s.Allows c → ∃ h' r s', h.call c = .ok (h', r) ∧ s.Next buf (buf + len) c r s' ∧
      HeapReach m buf len (h', s')) ∧
    (∀ p k x, s.held p = some k → p ≤ x → x < p + k → h.mem x = s.data x) ∧
    ∀ x, x < buf ∨ buf + len ≤ x → h.mem x = m x := by
  obtain ⟨bs, free, hs⟩ := hr.serves hbuf hend hlen
  obtain ⟨hlo, hhi⟩ := init_range m buf hlen
  refine ⟨fun c hallow => hr.call hbuf hend hlen hallow, hs.data, fun x hx => ?_⟩
  rw [hs.outside x (by omega), init_outside hlen hx]

/-- A heap of 256 bytes at 0x1000 from which 16 bytes have been taken. -/
theorem heap_serves_clients_small : ∃ (h : Heap) (s : Holdings), s.held ≠ (fun _ => none) ∧
    (∀ c, s.Allows c → ∃ h' r s', h.call c = .ok (h', r) ∧
      s.Next 0x1000 (0x1000 + 256) c r s' ∧
      HeapReach (fun _ => 0) 0x1000 256 (h', s')) ∧
    (∀ p k x, s.held p = some k → p ≤ x → x < p + k → h.mem x = s.data x) ∧
    ∀ x, x < 0x1000 ∨ 0x1000 + 256 ≤ x → h.mem x = 0 := by
  obtain ⟨h, s, p, hr, -, -, hheld⟩ := @HeapReach.first_grant (fun _ => 0) 0x1000 256 1 16 16
    (by decide) (by decide) (by decide) (by decide)
  refine ⟨h, s, fun hno => ?_, heap_serves_clients (by decide) (by decide) (by decide) hr⟩
  have hp := congrFun (hheld.symm.trans hno) p
  simp at hp

/-- A request for no bytes, or for more than can be counted, is refused. Any other is refused
just when every stretch that has room for it and a header meets a block in use, and such a
block is at most 79 bytes longer than what was asked for. -/
theorem heap_refuses_iff (hbuf : 0 < buf) (hend : buf + len < 2 ^ 64)
    (hlen : headerSize + alignMultiple ≤ len) (hr : HeapReach m buf len (h, s)) :
    ∃ used : List HeapBlock,
      (∀ p k, s.held p = some k → ∃ b ∈ used, b.payload = p ∧ k ≤ b.size ∧
        b.size < k + 79) ∧
      (∀ b ∈ used, ∃ k, s.held b.payload = some k) ∧
      ∀ n size, h.call (.calloc n size) = .ok (h, 0) ↔
        ∀ need, requestLen n size = some need → ∀ a, buf + initSkip buf ≤ a →
          a + (headerSize + need) ≤ buf + len →
          ∃ b ∈ used, a < b.stop ∧ b.start < a + (headerSize + need) := by
  obtain ⟨bs, free, hs⟩ := hr.serves hbuf hend hlen
  obtain ⟨hskip, -⟩ := initSkip_spec buf
  have hctx := init_ctx m buf hlen
  obtain ⟨hcbuf, hclen, -⟩ := hs.buf
  rw [hctx] at hcbuf hclen
  simp only at hcbuf hclen
  refine ⟨heldBlocks bs, fun p k hp => ?_, fun b hb => ?_, fun n size => ?_⟩
  · obtain ⟨b, hb, he, hk, -⟩ := hs.block hp
    have hsnug := hs.snug b hb k hk
    simp only [headerSize, alignMultiple] at hsnug
    exact ⟨b, mem_heldBlocks.mpr ⟨hb, by simp [hk]⟩, he,
      ((hs.inv.shaped.room b hb).2 k hk).2, hsnug⟩
  · obtain ⟨hb, hheld⟩ := mem_heldBlocks.mp hb
    obtain ⟨k, hk⟩ := Option.isSome_iff_exists.mp hheld
    exact ⟨k, (hs.held _ k).mpr ⟨b, hb, rfl, hk⟩⟩
  · cases hneed : requestLen n size with
    | none => simp [Heap.call, calloc_refused hneed]
    | some need =>
      have hend' : buf + initSkip buf + (len - initSkip buf) = buf + len := by
        simp only [headerSize, alignMultiple] at hlen hskip
        omega
      have hroom := hs.inv.room_iff need
      rw [hcbuf, hclen, hend'] at hroom
      have hcalloc : h.call (.calloc n size) = .ok (h, 0) ↔
          ¬ ∃ b ∈ bs, b.held = none ∧ need ≤ b.size := by
        rcases calloc_spec hs.inv hneed with ⟨hcall, hno⟩ |
          ⟨hfits, h', bs', free', g, hcall, -⟩
        · exact iff_of_true hcall hno
        · refine iff_of_false (fun he => ?_) (not_not.mpr hfits)
          clear hroom hfits
          obtain ⟨-, hp⟩ := Prod.mk.inj (Except.ok.inj (hcall.symm.trans he))
          simp only [HeapBlock.payload, headerSize] at hp
          omega
      rw [hcalloc, hroom]
      clear hcalloc hroom
      constructor
      · rintro hno _ ⟨rfl⟩ a h1 h2
        by_contra hclear
        refine hno ⟨a, h1, h2, fun b hb => ?_⟩
        by_contra hb'
        exact hclear ⟨b, hb, by omega, by omega⟩
      · rintro hall ⟨a, h1, h2, hclear⟩
        obtain ⟨b, hb, h3, h4⟩ := hall need rfl a h1 h2
        have := hclear b hb
        omega

/-- With 16 of 256 bytes taken, 112 more bytes are refused just when each stretch that could
take them meets a block in use. -/
theorem heap_refuses_iff_small : ∃ (h : Heap) (s : Holdings) (used : List HeapBlock),
    s.held ≠ (fun _ => none) ∧
      (∀ p k, s.held p = some k → ∃ b ∈ used, b.payload = p ∧ k ≤ b.size ∧
        b.size < k + 79) ∧
      (∀ b ∈ used, ∃ k, s.held b.payload = some k) ∧
      (h.call (.calloc 1 112) = .ok (h, 0) ↔
        ∀ a, 0x1000 ≤ a → a + (headerSize + 112) ≤ 0x1100 →
        ∃ b ∈ used, a < b.stop ∧ b.start < a + (headerSize + 112)) := by
  obtain ⟨h, s, p, hr, -, -, hheld⟩ := @HeapReach.first_grant (fun _ => 0) 0x1000 256 1 16 16
    (by decide) (by decide) (by decide) (by decide)
  obtain ⟨used, h1, h2, h3⟩ := heap_refuses_iff (by decide) (by decide) (by decide) hr
  refine ⟨h, s, used, fun hno => ?_, h1, h2, (h3 1 112).trans ?_⟩
  · have hp := congrFun (hheld.symm.trans hno) p
    simp at hp
  · have hneed : requestLen 1 112 = some 112 := by decide
    have hskip : initSkip 0x1000 = 0 := by decide
    rw [hneed, hskip]
    simp only [Option.some_inj, forall_eq', Nat.add_zero, Nat.reduceAdd]

theorem single_of_free {bs : List HeapBlock} (hc : Coalesced bs) (hne : bs ≠ [])
    (hfree : ∀ b ∈ bs, b.held = none) : ∃ b, bs = [b] := by
  obtain ⟨b, r, rfl⟩ := List.exists_cons_of_ne_nil hne
  cases r with
  | nil => exact ⟨b, rfl⟩
  | cons d r =>
    have hpair := (List.isChain_cons.mp hc).1 d (by simp)
    simp [hfree b, hfree d] at hpair

/-- The one free block of a heap leaves nothing open in its header. -/
theorem HeapShape.single {ctx : BufferAllocCtx} {c : Cells} {b : HeapBlock} {free : List ℕ}
    (hs : HeapShape ctx c [b] free none) (hb : b.held = none) :
    ctx.firstFree = ctx.buf ∧ b.start = ctx.buf ∧ ∀ f, c b.start f =
      match f with
      | .magic1 => headerMagic1
      | .magic2 => headerMagic2
      | .size => ctx.len - headerSize
      | _ => 0 := by
  obtain ⟨hstart, hstop⟩ := hs.tiles
  have hmem : ∀ p, p ∈ free ↔ p = b.start := by
    intro p
    rw [hs.mem_free]
    simp [hb, eq_comm]
  have hfree : free = [b.start] := by
    have hperm := (List.perm_ext_iff_of_nodup hs.free_nodup (List.nodup_singleton b.start)).mpr
      (by simpa using hmem)
    exact List.perm_singleton.mp hperm
  have hfirst := hs.first_free
  have hlinks := hs.free_linked
  rw [hfree] at hfirst hlinks
  refine ⟨hfirst.trans hstart, hstart, fun f => ?_⟩
  have hmagic := hs.magic b (by simp)
  have hsize := hs.size b (by simp)
  have halloc := hs.alloc b (by simp)
  simp only [Tiles, HeapBlock.stop] at hstop
  cases f with
  | magic1 => exact hmagic.1
  | magic2 => exact hmagic.2
  | size =>
    rw [hsize]
    show b.size = ctx.len - headerSize
    omega
  | alloc => simpa [hb] using halloc
  | prev => exact hs.linked.1
  | next => exact hs.linked.2.1
  | prevFree => exact hlinks.1
  | nextFree => exact hlinks.2.1

/-- When everything has been given back, in whatever order, the heap is as it was set up: its
context and its one header are the same. -/
theorem heap_all_released (hbuf : 0 < buf) (hend : buf + len < 2 ^ 64)
    (hlen : headerSize + alignMultiple ≤ len) (hr : HeapReach m buf len (h, s))
    (hnone : ∀ p, s.held p = none) :
    h.ctx = { (mbedtlsMemoryBufferAllocInit m buf len).ctx with verify := s.verify } ∧
      ∀ f, getField h.mem h.ctx.first f =
        getField (mbedtlsMemoryBufferAllocInit m buf len).mem h.ctx.first f := by
  obtain ⟨bs, free, hs⟩ := hr.serves hbuf hend hlen
  have hfree : ∀ b ∈ bs, b.held = none := by
    intro b hb
    by_contra hheld
    obtain ⟨k, hk⟩ := Option.ne_none_iff_exists'.mp hheld
    have := (hs.held b.payload k).mpr ⟨b, hb, rfl, hk⟩
    simp [hnone] at this
  obtain ⟨b, rfl⟩ := single_of_free hs.inv.coalesced hs.inv.shaped.some_block hfree
  obtain ⟨hff, hstart, hfields⟩ := HeapShape.single hs.inv.shaped (hfree b (by simp))
  have hinit := (init_inv (m := m) hbuf hend hlen).shaped
  obtain ⟨hff0, hstart0, hfields0⟩ := HeapShape.single hinit rfl
  have hctx := init_ctx m buf hlen
  obtain ⟨hb1, hb2, -⟩ := hs.buf
  have hfirst := hs.inv.shaped.first
  constructor
  · rw [hs.ctx, hff, hb1, hctx]
  · intro f
    rw [hfirst, ← hstart, hfields f, hb2]
    rw [hstart, hb1, ← hstart0, hfields0 f]

/-- After 16 bytes have been taken and given back. -/
theorem heap_all_released_small : ∃ (h : Heap) (s : Holdings), s.verify = 0 ∧
    h.ctx = { (mbedtlsMemoryBufferAllocInit (fun _ => 0) 0x1000
      256).ctx with verify := s.verify } ∧
      ∀ f, getField h.mem h.ctx.first f =
        getField (mbedtlsMemoryBufferAllocInit (fun _ => 0) 0x1000 256).mem h.ctx.first f := by
  obtain ⟨h, s, p, hr, hv, -, hheld⟩ := @HeapReach.first_grant (fun _ => 0) 0x1000 256 1 16 16
    (by decide) (by decide) (by decide) (by decide)
  have hallow : s.Allows (.free p) := by
    refine .inr ⟨by simp [hheld], ?_⟩
    rw [hv]
    rfl
  obtain ⟨h', r, s', -, hnext, hr'⟩ := hr.call (by decide) (by decide) (by decide) hallow
  cases hnext
  have hnone : ∀ q, Function.update s.held p none q = none := by
    intro q
    by_cases hq : q = p <;> simp [hheld, hq]
  exact ⟨h', { s with held := Function.update s.held p none }, hv,
    heap_all_released (by decide) (by decide) (by decide) hr' hnone⟩

/-- The check of the chain never finds anything. With the check on release switched on, the
release of what is held fails therefore always, and without it never. -/
theorem heap_free_fails_iff {p : ℕ} (hbuf : 0 < buf) (hend : buf + len < 2 ^ 64)
    (hlen : headerSize + alignMultiple ≤ len) (hr : HeapReach m buf len (h, s))
    (hp : s.held p ≠ none) :
    h.call .verify = .ok (h, 0) ∧
      (h.call (.free p) = .error .assertion ↔ s.verify &&& memoryVerifyFree ≠ 0) := by
  obtain ⟨bs, free, hs⟩ := hr.serves hbuf hend hlen
  obtain ⟨k, hk⟩ := Option.ne_none_iff_exists'.mp hp
  obtain ⟨b, hb, rfl, hbk, -⟩ := hs.block hk
  have hverifies : h.ctx.verifies memoryVerifyFree = true ↔
      s.verify &&& memoryVerifyFree ≠ 0 := by
    simp [BufferAllocCtx.verifies, hs.buf.2.2]
  constructor
  · rw [Heap.call, hs.inv.shaped.verifyChain]
    rfl
  · rw [← hverifies]
    rcases free_spec hs.inv hb hbk with ⟨hv, hcall⟩ | ⟨hv, h', bs', free', hcall, -⟩
    · refine iff_of_true ?_ hv
      rw [Heap.call, hcall]
      rfl
    · refine iff_of_false ?_ (by simp [hv])
      rw [Heap.call, hcall]
      simp [Except.map]

/-- One area of 16 bytes, the check switched on or not. -/
theorem heap_free_fails_iff_small : ∃ (h : Heap) (s : Holdings) (p : ℕ), s.held p = some 16 ∧
    h.call .verify = .ok (h, 0) ∧
      (h.call (.free p) = .error .assertion ↔ s.verify &&& memoryVerifyFree ≠ 0) := by
  obtain ⟨h, s, p, hr, hv, -, hheld⟩ := @HeapReach.first_grant (fun _ => 0) 0x1000 256 1 16 16
    (by decide) (by decide) (by decide) (by decide)
  have hp : s.held p = some 16 := by simp [hheld]
  exact ⟨h, s, p, hp, heap_free_fails_iff (by decide) (by decide) (by decide) hr (by simp [hp])⟩

/-- Memory that has just been given back cannot be given back once more. -/
theorem heap_double_free {p : ℕ} {h' : Heap} (hbuf : 0 < buf) (hend : buf + len < 2 ^ 64)
    (hlen : headerSize + alignMultiple ≤ len) (hr : HeapReach m buf len (h, s))
    (hp : s.held p ≠ none) (hfree : h.call (.free p) = .ok (h', 0)) :
    h'.call (.free p) = .error .assertion := by
  obtain ⟨bs, free, hs⟩ := hr.serves hbuf hend hlen
  obtain ⟨k, hk⟩ := Option.ne_none_iff_exists'.mp hp
  obtain ⟨b, hb, rfl, hbk, -⟩ := hs.block hk
  rcases free_spec hs.inv hb hbk with ⟨-, hcall⟩ | ⟨-, h₂, bs', free', hcall, hrel⟩
  · rw [Heap.call, hcall] at hfree
    cases hfree
  · rw [Heap.call, hcall] at hfree
    obtain ⟨rfl, -⟩ := Prod.mk.inj (Except.ok.inj hfree)
    rw [Heap.call, hrel.free_again hs.inv hb]
    rfl

/-- One area of 16 bytes, given back twice. -/
theorem heap_double_free_small : ∃ (h h' : Heap) (p : ℕ), h.call (.free p) = .ok (h', 0) ∧
    h'.call (.free p) = .error .assertion := by
  obtain ⟨h, s, p, hr, hv, -, hheld⟩ := @HeapReach.first_grant (fun _ => 0) 0x1000 256 1 16 16
    (by decide) (by decide) (by decide) (by decide)
  have hp : s.held p ≠ none := by simp [hheld]
  have hallow : s.Allows (.free p) := by
    refine .inr ⟨hp, ?_⟩
    rw [hv]
    rfl
  obtain ⟨h', r, s', hcall, hnext, -⟩ := hr.call (by decide) (by decide) (by decide) hallow
  cases hnext
  exact ⟨h, h', p, hcall, heap_double_free (by decide) (by decide) (by decide) hr hp hcall⟩

end RmmCaec
