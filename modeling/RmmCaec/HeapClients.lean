import RmmCaec.HeapRequests
import RmmCaec.Runs

/-!
# Clients of a heap

What a client may expect of a heap does not mention headers: memory that is handed out
belongs to the caller until it is given back, and keeps what was written to it. The heap in
its bytes serves every client in this way, over every run.
-/
namespace RmmCaec

open ByteMemory

section

variable {m : Bytes} {buf len : ℕ}

/-- The bytes in front of the first aligned address. -/
def initSkip (buf : ℕ) : ℕ :=
  if buf % alignMultiple ≠ 0 then alignMultiple - buf % alignMultiple else 0

theorem initSkip_spec (buf : ℕ) :
    initSkip buf < alignMultiple ∧ alignMultiple ∣ buf + initSkip buf := by
  unfold initSkip alignMultiple
  split_ifs <;> omega

theorem init_ctx (m : Bytes) (buf : ℕ) (hlen : headerSize + alignMultiple ≤ len) :
    (mbedtlsMemoryBufferAllocInit m buf len).ctx =
      ⟨buf + initSkip buf, len - initSkip buf, buf + initSkip buf, buf + initSkip buf, 0⟩ := by
  rw [mbedtlsMemoryBufferAllocInit, if_neg (by omega)]
  rfl

/-- A fresh heap is one free block. -/
theorem init_inv (hbuf : 0 < buf) (hend : buf + len < 2 ^ 64)
    (hlen : headerSize + alignMultiple ≤ len) :
    HeapInv (mbedtlsMemoryBufferAllocInit m buf len)
      [⟨buf + initSkip buf, len - initSkip buf - headerSize, none⟩] [buf + initSkip buf] := by
  obtain ⟨hskip, hdvd⟩ := initSkip_spec buf
  obtain ⟨p, hp⟩ : ∃ p, p = buf + initSkip buf := ⟨_, rfl⟩
  obtain ⟨n, hn⟩ : ∃ n, n = len - initSkip buf := ⟨_, rfl⟩
  simp only [headerSize, alignMultiple] at hlen hskip
  have hctx := init_ctx m buf hlen
  have hmem : (mbedtlsMemoryBufferAllocInit m buf len).mem = setField (setField (setField
      (fill m p n 0) p .size (n - headerSize)) p .magic1 headerMagic1) p .magic2 headerMagic2 := by
    rw [hp, hn, mbedtlsMemoryBufferAllocInit,
      if_neg (by simp only [headerSize, alignMultiple]; omega)]
    rfl
  rw [← hp] at hdvd
  rw [← hp, ← hn] at hctx ⊢
  have hs : Spaced [p] := by
    constructor
    · simp
    · simp only [List.mem_singleton]
      omega
    · simp only [List.mem_singleton, forall_eq]
      omega
  have hmem1 : p ∈ [p] := by simp
  have hzero : ∀ f, getField (fill m p n 0) p f = 0 := by
    intro f
    have hf := f.offset_add_le
    exact loadLe_fill_zero (by omega) (by simp only [headerSize] at hf; omega)
  have h0 := Sees.refl [p] (fill m p n 0)
  have h1 := ((h0.set hs (f := .size) hmem1 (v := n - headerSize) (by omega)).set hs (f := .magic1)
    hmem1 (v := headerMagic1) (by decide)).set hs (f := .magic2) hmem1 (v := headerMagic2)
    (by decide)
  rw [← hmem] at h1
  have hfield : ∀ f, getField (mbedtlsMemoryBufferAllocInit m buf len).mem p f =
      if f = .magic2 then headerMagic2 else if f = .magic1 then headerMagic1
      else if f = .size then n - headerSize else 0 := by
    intro f
    rw [h1.fields p hmem1 f]
    simp only [Cells.set, hzero, true_and]
  refine ⟨⟨?_, ?_, by simp, ?_, ?_, ?_, ?_, ?_, ?_, ?_, ?_, ?_, by simp, ?_, ?_, ?_⟩, ?_⟩
  · rw [hctx]
    refine ⟨rfl, ?_⟩
    show p + headerSize + (n - headerSize) = p + n
    simp only [headerSize]
    omega
  · rw [hctx]
  · rw [hctx]
    show 0 < p
    omega
  · rw [hctx]
    show p + n < 2 ^ 64
    omega
  · simpa using hdvd
  · simp only [List.mem_singleton, forall_eq]
    refine ⟨?_, by simp⟩
    simp only [headerSize]
    omega
  · simp [hfield]
  · simp [hfield]
  · simp [hfield]
  · simp [hfield]
  · intro q
    simp [eq_comm]
  · simp [hfield]
  · rw [hctx]
    rfl
  · simp
  · exact List.isChain_singleton _

/-- Setting up writes to the buffer only. -/
theorem init_outside (hlen : headerSize + alignMultiple ≤ len) {x : ℕ}
    (hx : x < buf ∨ buf + len ≤ x) : (mbedtlsMemoryBufferAllocInit m buf len).mem x = m x := by
  obtain ⟨hskip, -⟩ := initSkip_spec buf
  simp only [headerSize, alignMultiple] at hlen hskip
  have hmem : (mbedtlsMemoryBufferAllocInit m buf len).mem = setField (setField (setField
      (fill m (buf + initSkip buf) (len - initSkip buf) 0) (buf + initSkip buf) .size
      (len - initSkip buf - headerSize)) (buf + initSkip buf) .magic1 headerMagic1)
      (buf + initSkip buf) .magic2 headerMagic2 := by
    rw [mbedtlsMemoryBufferAllocInit, if_neg (by simp only [headerSize, alignMultiple]; omega)]
    rfl
  rw [hmem]
  simp only [setField, HeaderField.offset]
  rw [storeLe_of_not_mem (by omega), storeLe_of_not_mem (by omega), storeLe_of_not_mem (by omega),
    fill_of_not_mem (by omega)]

end

/-- A free block is large enough just when some stretch of the buffer that meets no held block
holds a header and the request. -/
theorem HeapInv.room_iff {h : Heap} {bs : List HeapBlock} {free : List ℕ} (hi : HeapInv h bs free)
    (len : ℕ) : (∃ b ∈ bs, b.held = none ∧ len ≤ b.size) ↔
      ∃ a, h.ctx.buf ≤ a ∧ a + (headerSize + len) ≤ h.ctx.buf + h.ctx.len ∧
        ∀ b ∈ heldBlocks bs, b.stop ≤ a ∨ a + (headerSize + len) ≤ b.start := by
  have htiles := hi.shaped.tiles
  constructor
  · rintro ⟨b, hb, hfree, hfit⟩
    have hbounds := htiles.bounds hb
    refine ⟨b.start, hbounds.1, ?_, fun d hd => ?_⟩
    · simp only [HeapBlock.stop] at hbounds
      omega
    · obtain ⟨hd, hheld⟩ := mem_heldBlocks.mp hd
      have hne : d ≠ b := by
        rintro rfl
        simp [hfree] at hheld
      have hapart := htiles.apart hd hb hne
      simp only [HeapBlock.stop] at hapart ⊢
      omega
  · rintro ⟨a, h1, h2, hclear⟩
    -- no block that the stretch meets is held
    have hmeets : ∀ b ∈ bs, b.start < a + (headerSize + len) → a < b.stop →
        b.held = none := by
      intro b hb h3 h4
      by_contra hne
      have := hclear b (mem_heldBlocks.mpr ⟨hb, Option.isSome_iff_ne_none.mpr hne⟩)
      omega
    obtain ⟨b, hb, hb1, hb2⟩ := htiles.covers h1
      (show a < _ by simp only [headerSize] at h2; omega)
    have hfree := hmeets b hb (by simp only [headerSize]; omega) hb2
    refine ⟨b, hb, hfree, ?_⟩
    by_contra hsmall
    obtain ⟨l, r, rfl⟩ := List.append_of_mem hb
    obtain ⟨y, -, -, hr⟩ := tiles_append.mp htiles
    cases r with
    | nil =>
      have he : b.stop = h.ctx.buf + h.ctx.len := hr
      simp only [HeapBlock.stop] at he hb2
      omega
    | cons d r =>
      -- the block behind is met as well, and then two free blocks are neighbours
      have hstart : d.start = b.stop := hr.1
      have hdfree : d.held = none := by
        refine hmeets d (by simp) ?_ ?_
        · simp only [HeapBlock.stop] at hstart
          omega
        · simp only [HeapBlock.stop] at hstart hb2 ⊢
          omega
      have hc := ((coalesced_middle.mp hi.coalesced).2.2 hfree).2 d (by simp)
      simp [hdfree] at hc

inductive HeapCall
  | calloc (n size : BitVec 64)
  | free (ptr : ℕ)
  | write (x : ℕ) (v : BitVec 8)
  | setVerify (verify : ℕ)
  | verify

/-- A call with its answer, which is zero where there is none. A client writes to memory by
itself. -/
def Heap.call (h : Heap) : HeapCall → Except HeapFault (Heap × ℕ)
  | .calloc n size => bufferAllocCallocWithHeap h n size
  | .free ptr => (bufferAllocFreeWithHeap h ptr).map fun h' => (h', 0)
  | .write x v => .ok ({ h with mem := Function.update h.mem x v }, 0)
  | .setVerify verify => .ok (mbedtlsMemoryBufferSetVerify h verify, 0)
  | .verify => (verifyChain h).map fun r => (h, r)

/-- What the clients hold: areas with their lengths, and the bytes that lie there. -/
structure Holdings where
  held : ℕ → Option ℕ
  data : Bytes
  verify : ℕ

/-- The duties of a client. -/
def Holdings.Allows (s : Holdings) : HeapCall → Prop
  | .free ptr => ptr = 0 ∨ s.held ptr ≠ none ∧ s.verify &&& memoryVerifyFree = 0
  | .write x _ => ∃ p k, s.held p = some k ∧ p ≤ x ∧ x < p + k
  | _ => True

/-- What an answer may be, and what it means for the holdings. -/
inductive Holdings.Next (lo hi : ℕ) (s : Holdings) : HeapCall → ℕ → Holdings → Prop
  | refused (n size : BitVec 64) : Next lo hi s (.calloc n size) 0 s
  | granted (n size : BitVec 64) (p : ℕ) (aligned : alignMultiple ∣ p)
      (some_bytes : 0 < n.toNat * size.toNat)
      (inside : lo ≤ p ∧ p + n.toNat * size.toNat ≤ hi)
      (fresh : ∀ q k, s.held q = some k → p + n.toNat * size.toNat ≤ q ∨ q + k ≤ p) :
      Next lo hi s (.calloc n size) p
        { s with held := Function.update s.held p (some (n.toNat * size.toNat))
                 data := fill s.data p (n.toNat * size.toNat) 0 }
  | freed (ptr : ℕ) :
      Next lo hi s (.free ptr) 0 { s with held := Function.update s.held ptr none }
  | written (x : ℕ) (v : BitVec 8) :
      Next lo hi s (.write x v) 0 { s with data := Function.update s.data x v }
  | verifySet (verify : ℕ) : Next lo hi s (.setVerify verify) 0 { s with verify := verify }
  | verified : Next lo hi s .verify 0 s

theorem Holdings.Next.unique {lo hi r : ℕ} {s s₁ s₂ : Holdings} {c : HeapCall} (hlo : 0 < lo)
    (h₁ : s.Next lo hi c r s₁) (h₂ : s.Next lo hi c r s₂) : s₁ = s₂ := by
  cases h₁ with
  | refused n size =>
    cases h₂ with
    | refused => rfl
    | granted _ _ _ _ _ inside => omega
  | granted n size p _ _ inside =>
    cases h₂ with
    | refused => omega
    | granted => rfl
  | freed | written | verifySet | verified => cases h₂; rfl

/-- The heap and the clients side by side. -/
def HeapStep (lo hi : ℕ) (a : Heap × Holdings) (c : HeapCall) (b : Heap × Holdings) : Prop :=
  ∃ r, a.1.call c = .ok (b.1, r) ∧ a.2.Next lo hi c r b.2

/-- The blocks of the heap are what the clients hold, and the free rest. -/
structure Serves (ctx0 : BufferAllocCtx) (m0 : Bytes) (h : Heap) (s : Holdings)
    (bs : List HeapBlock) (free : List ℕ) : Prop where
  inv : HeapInv h bs free
  ctx : h.ctx = { ctx0 with firstFree := h.ctx.firstFree, verify := s.verify }
  held : ∀ p k, s.held p = some k ↔ ∃ b ∈ bs, b.payload = p ∧ b.held = some k
  snug : ∀ b ∈ bs, ∀ k, b.held = some k →
    b.size < k + (alignMultiple - 1) + (headerSize + alignMultiple)
  data : ∀ p k x, s.held p = some k → p ≤ x → x < p + k → h.mem x = s.data x
  outside : ∀ x, x < ctx0.buf ∨ ctx0.buf + ctx0.len ≤ x → h.mem x = m0 x

namespace Serves

variable {ctx0 : BufferAllocCtx} {m0 : Bytes} {h : Heap} {s : Holdings} {bs : List HeapBlock}
  {free : List ℕ} {lo hi : ℕ}

theorem buf (hs : Serves ctx0 m0 h s bs free) :
    h.ctx.buf = ctx0.buf ∧ h.ctx.len = ctx0.len ∧ h.ctx.verify = s.verify := by
  rw [hs.ctx]
  exact ⟨rfl, rfl, rfl⟩

/-- An area lies in the payload of its block. -/
theorem block (hs : Serves ctx0 m0 h s bs free) {p k : ℕ} (hp : s.held p = some k) :
    ∃ b ∈ bs, b.payload = p ∧ b.held = some k ∧ p + k ≤ b.stop := by
  obtain ⟨b, hb, rfl, hheld⟩ := (hs.held p k).mp hp
  refine ⟨b, hb, rfl, hheld, ?_⟩
  have := ((hs.inv.shaped.room b hb).2 k hheld).2
  simp only [HeapBlock.payload, HeapBlock.stop]
  omega

theorem payload_inj (hs : Serves ctx0 m0 h s bs free) {b d : HeapBlock}
    (hb : b ∈ bs) (hd : d ∈ bs)
    (he : b.payload = d.payload) : b = d :=
  hs.inv.shaped.tiles.start_inj hb hd (Nat.add_right_cancel he)

theorem held_zero (hs : Serves ctx0 m0 h s bs free) : s.held 0 = none := by
  cases hk : s.held 0 with
  | none => rfl
  | some k =>
    obtain ⟨b, -, hp, -⟩ := (hs.held 0 k).mp hk
    simp only [HeapBlock.payload, headerSize] at hp
    omega

theorem grant (hs : Serves ctx0 m0 h s bs free) {h' : Heap} {bs' : List HeapBlock}
    {free' : List ℕ} {g : HeapBlock} {len : ℕ} {n size : BitVec 64} (hlo : lo ≤ ctx0.buf)
    (hhi : ctx0.buf + ctx0.len = hi) (hlen : requestLen n size = some len)
    (hg : Grants h bs (n * size).toNat len g h' bs' free') :
    ∃ s', s.Next lo hi (.calloc n size) g.payload s' ∧ Serves ctx0 m0 h' s' bs' free' := by
  obtain ⟨hmul, hpos, hle, hdvd⟩ := requestLen_some hlen
  obtain ⟨l, r, hold, hnew⟩ := hg.held
  obtain ⟨hbuf, hblen, hverify⟩ := hs.buf
  have hshape := hg.inv.shaped
  have hround : len ≤ (n * size).toNat + (alignMultiple - 1) := by
    rw [requestLen_eq] at hlen
    split_ifs at hlen
    obtain rfl := Option.some_inj.mp hlen
    rw [hmul]
    simp only [alignMultiple]
    omega
  rw [hmul] at hpos hle hround
  have hasked := hg.asked
  rw [hmul] at hasked
  have hgmem : g ∈ bs' := (mem_heldBlocks.mp (hnew ▸ by simp : g ∈ heldBlocks bs')).1
  have hmem : ∀ b : HeapBlock, b.held.isSome → (b ∈ bs' ↔ b = g ∨ b ∈ bs) := by
    intro b hb
    have h1 : b ∈ bs' ↔ b ∈ heldBlocks bs' := by simp [mem_heldBlocks, hb]
    have h2 : b ∈ bs ↔ b ∈ heldBlocks bs := by simp [mem_heldBlocks, hb]
    rw [h1, h2, hold, hnew]
    simp only [List.mem_append, List.mem_cons]
    tauto
  have hgnot : g ∉ bs := by
    intro hm
    have hnodup : (heldBlocks bs').Nodup := (List.Nodup.of_map _ hshape.nodup).filter _
    have hgh : g ∈ heldBlocks bs := mem_heldBlocks.mpr ⟨hm, by simp [hasked]⟩
    rw [hnew, List.nodup_middle] at hnodup
    exact (List.nodup_cons.mp hnodup).1 (hold ▸ hgh)
  have htiles := hshape.tiles
  have hctx' : h'.ctx.buf = ctx0.buf ∧ h'.ctx.len = ctx0.len := by
    rw [hg.buffer]
    exact ⟨hbuf, hblen⟩
  have hbounds := htiles.bounds hgmem
  rw [hctx'.1, hctx'.2] at hbounds
  -- an area lies in another block
  have hother : ∀ q k, s.held q = some k →
      g.payload + n.toNat * size.toNat ≤ q ∨ q + k ≤ g.payload := by
    intro q k hq
    obtain ⟨b, hb, rfl, hheld, hstop⟩ := hs.block hq
    have hb' : b ∈ bs' := (hmem b (by simp [hheld])).mpr (.inr hb)
    have hne : b ≠ g := fun he => hgnot (he ▸ hb)
    have hapart := htiles.apart hb' hgmem hne
    have := hg.size.1
    simp only [HeapBlock.payload, HeapBlock.stop] at hapart hstop ⊢
    omega
  refine ⟨_, .granted n size g.payload ?_ hpos ⟨?_, ?_⟩ hother,
    ⟨hg.inv, ?_, fun p k => ?_, fun b hb k hk => ?_, fun p k x hp h1 h2 => ?_,
      fun x hx => ?_⟩⟩
  · exact Nat.dvd_add (hshape.aligned g hgmem) (by decide)
  · simp only [HeapBlock.payload]
    omega
  · have := hg.size.1
    simp only [HeapBlock.payload, HeapBlock.stop] at hbounds ⊢
    omega
  · rw [hg.buffer, hs.ctx]
  · by_cases hp : p = g.payload
    · subst hp
      simp only [Function.update_self]
      constructor
      · intro hk
        exact ⟨g, hgmem, rfl, hasked.trans hk⟩
      · rintro ⟨b, hb, he, hheld⟩
        have hbg : b = g := htiles.start_inj hb hgmem (Nat.add_right_cancel he)
        rw [hbg, hasked] at hheld
        exact hheld
    · simp only [Function.update_of_ne hp, hs.held]
      constructor
      · rintro ⟨b, hb, he, hheld⟩
        exact ⟨b, (hmem b (by simp [hheld])).mpr (.inr hb), he, hheld⟩
      · rintro ⟨b, hb, he, hheld⟩
        rcases (hmem b (by simp [hheld])).mp hb with rfl | hb
        · exact absurd he.symm hp
        · exact ⟨b, hb, he, hheld⟩
  · rcases (hmem b (by simp [hk])).mp hb with rfl | hb
    · rw [hasked] at hk
      obtain rfl := Option.some_inj.mp hk
      have := hg.size.2
      omega
    · exact hs.snug b hb k hk
  · by_cases hpg : p = g.payload
    · subst hpg
      simp only [Function.update_self, Option.some_inj] at hp
      subst hp
      simp only
      rw [fill_of_mem h1 h2]
      exact hg.zeroed x h1 (hmul ▸ h2)
    · simp only [Function.update_of_ne hpg] at hp
      have hapart := hother p k hp
      obtain ⟨b, hb, he, hheld, hstop⟩ := hs.block hp
      simp only
      rw [fill_of_not_mem (by omega), ← hs.data p k x hp h1 h2]
      exact hg.frame x
        (.inr (.inr ⟨b, mem_heldBlocks.mpr ⟨hb, by simp [hheld]⟩, by omega, by omega⟩))
  · rw [← hs.outside x hx]
    refine hg.frame x ?_
    rw [hbuf, hblen]
    exact hx.imp_right .inl

theorem calloc (hs : Serves ctx0 m0 h s bs free) (hlo : lo ≤ ctx0.buf)
    (hhi : ctx0.buf + ctx0.len = hi) (n size : BitVec 64) :
    ∃ h' r s' bs' free', h.call (.calloc n size) = .ok (h', r) ∧
      s.Next lo hi (.calloc n size) r s' ∧ Serves ctx0 m0 h' s' bs' free' := by
  cases hlen : requestLen n size with
  | none => exact ⟨h, 0, s, bs, free, calloc_refused hlen, .refused n size, hs⟩
  | some len =>
    rcases calloc_spec hs.inv hlen with ⟨hcall, -⟩ | ⟨-, h', bs', free', g, hcall, hg⟩
    · exact ⟨h, 0, s, bs, free, hcall, .refused n size, hs⟩
    · obtain ⟨s', hnext, hs'⟩ := hs.grant hlo hhi hlen hg
      exact ⟨h', g.payload, s', bs', free', hcall, hnext, hs'⟩

theorem release (hs : Serves ctx0 m0 h s bs free) {h' : Heap} {bs' : List HeapBlock}
    {free' : List ℕ} {b : HeapBlock} (hb : b ∈ bs) (hr : Releases h bs b h' bs' free') :
    Serves ctx0 m0 h' { s with held := Function.update s.held b.payload none } bs' free' := by
  obtain ⟨l, r, hold, hnew⟩ := hr.held
  obtain ⟨hbuf, hblen, -⟩ := hs.buf
  have htiles := hs.inv.shaped.tiles
  have hnodup : (heldBlocks bs).Nodup := (List.Nodup.of_map _ hs.inv.shaped.nodup).filter _
  rw [hold, List.nodup_middle] at hnodup
  have hmem : ∀ d : HeapBlock, d.held.isSome → (d ∈ bs' ↔ d ≠ b ∧ d ∈ bs) := by
    intro d hd
    have h1 : d ∈ bs' ↔ d ∈ heldBlocks bs' := by simp [mem_heldBlocks, hd]
    have h2 : d ∈ bs ↔ d ∈ heldBlocks bs := by simp [mem_heldBlocks, hd]
    have hb' := (List.nodup_cons.mp hnodup).1
    rw [h1, h2, hold, hnew]
    simp only [List.mem_append, List.mem_cons] at hb' ⊢
    constructor
    · intro hm
      exact ⟨fun he => hb' (he ▸ hm), by tauto⟩
    · tauto
  have hframe : ∀ x, (x < ctx0.buf ∨ ctx0.buf + ctx0.len ≤ x ∨
      ∃ d ∈ bs, d.payload ≤ x ∧ x < d.stop) → h'.mem x = h.mem x := by
    intro x hx
    refine hr.frame x (htiles.between ?_)
    rw [hbuf, hblen]
    exact hx
  refine ⟨hr.inv, ?_, fun p j => ?_, fun d hd j hj => ?_, fun p j x hp h1 h2 => ?_,
    fun x hx => ?_⟩
  · rw [hr.buffer, hs.ctx]
  · by_cases hp : p = b.payload
    · subst hp
      simp only [Function.update_self, reduceCtorEq, false_iff]
      rintro ⟨d, hd, he, hheld⟩
      obtain ⟨hne, hd⟩ := (hmem d (by simp [hheld])).mp hd
      exact hne (hs.payload_inj hd hb he)
    · simp only [Function.update_of_ne hp, hs.held]
      constructor
      · rintro ⟨d, hd, he, hheld⟩
        exact ⟨d, (hmem d (by simp [hheld])).mpr
          ⟨fun hdb => hp (hdb ▸ he.symm), hd⟩, he, hheld⟩
      · rintro ⟨d, hd, he, hheld⟩
        exact ⟨d, ((hmem d (by simp [hheld])).mp hd).2, he, hheld⟩
  · exact hs.snug d ((hmem d (by simp [hj])).mp hd).2 j hj
  · by_cases hpb : p = b.payload
    · subst hpb
      simp at hp
    · simp only [Function.update_of_ne hpb] at hp
      obtain ⟨d, hd, he, hheld, hstop⟩ := hs.block hp
      rw [← hs.data p j x hp h1 h2]
      exact hframe x (.inr (.inr ⟨d, hd, by omega, by omega⟩))
  · rw [← hs.outside x hx]
    exact hframe x (hx.imp_right .inl)

theorem freed (hs : Serves ctx0 m0 h s bs free) {ptr : ℕ} (hallow : s.Allows (.free ptr)) :
    ∃ h' bs' free', h.call (.free ptr) = .ok (h', 0) ∧
      Serves ctx0 m0 h' { s with held := Function.update s.held ptr none } bs' free' := by
  rcases hallow with rfl | ⟨hheld, hoff⟩
  · refine ⟨h, bs, free, ?_, ?_⟩
    · rw [Heap.call, free_null]
      rfl
    · rw [Function.update_eq_self_iff.mpr hs.held_zero.symm]
      exact hs
  · obtain ⟨k, hk⟩ := Option.ne_none_iff_exists'.mp hheld
    obtain ⟨b, hb, rfl, hbk, -⟩ := hs.block hk
    have hquiet : h.ctx.verifies memoryVerifyFree = false := by
      simp [BufferAllocCtx.verifies, hs.buf.2.2, hoff]
    rcases free_spec hs.inv hb hbk with ⟨hv, -⟩ | ⟨-, h', bs', free', hcall, hr⟩
    · rw [hquiet] at hv
      cases hv
    · refine ⟨h', bs', free', ?_, hs.release hb hr⟩
      rw [Heap.call, hcall]
      rfl

theorem written (hs : Serves ctx0 m0 h s bs free) {x : ℕ} {v : BitVec 8}
    (hallow : s.Allows (.write x v)) :
    Serves ctx0 m0 { h with mem := Function.update h.mem x v }
      { s with data := Function.update s.data x v } bs free := by
  obtain ⟨p, k, hp, h1, h2⟩ := hallow
  obtain ⟨b, hb, rfl, hheld, hstop⟩ := hs.block hp
  obtain ⟨hbuf, hblen, -⟩ := hs.buf
  have htiles := hs.inv.shaped.tiles
  have hbetween := htiles.between (x := x) (.inr (.inr ⟨b, hb, h1, by omega⟩))
  have hbounds := htiles.bounds hb
  rw [hbuf, hblen] at hbounds
  refine ⟨⟨HeapShape.congr hs.inv.shaped fun q hq f => ?_, hs.inv.coalesced⟩, hs.ctx, hs.held,
    hs.snug, fun q j y hq h3 h4 => ?_, fun y hy => ?_⟩
  · have hf := f.offset_add_le
    have hq' := hbetween q hq
    exact loadLe_congr fun y _ _ => Function.update_of_ne (by omega) _ _
  · by_cases hyx : y = x
    · subst hyx
      simp
    · simp only [Function.update_of_ne hyx]
      exact hs.data q j y hq h3 h4
  · have hne : y ≠ x := by
      simp only [HeapBlock.payload, HeapBlock.stop] at h1 h2 hstop hbounds
      omega
    simp only [Function.update_of_ne hne]
    exact hs.outside y hy

theorem verifySet (hs : Serves ctx0 m0 h s bs free) (verify : ℕ) :
    Serves ctx0 m0 (mbedtlsMemoryBufferSetVerify h verify) { s with verify := verify } bs free := by
  have hsh := hs.inv.shaped
  refine ⟨⟨?_, hs.inv.coalesced⟩, ?_, hs.held, hs.snug, hs.data, hs.outside⟩
  · exact ⟨hsh.tiles, hsh.first, hsh.some_block, hsh.buf_pos, hsh.buf_end, hsh.aligned, hsh.room,
      hsh.magic, hsh.size, hsh.alloc, hsh.linked, hsh.mem_free, hsh.free_nodup, hsh.free_linked,
      hsh.first_free, hsh.held_links⟩
  · exact congrArg (fun c : BufferAllocCtx => { c with verify := verify }) hs.ctx

/-- Whatever an orderly client calls, it gets an answer, and one that it may expect. -/
theorem call (hs : Serves ctx0 m0 h s bs free) (hlo : lo ≤ ctx0.buf)
    (hhi : ctx0.buf + ctx0.len = hi) {c : HeapCall} (hallow : s.Allows c) :
    ∃ h' r s' bs' free', h.call c = .ok (h', r) ∧ s.Next lo hi c r s' ∧
      Serves ctx0 m0 h' s' bs' free' := by
  cases c with
  | calloc n size => exact hs.calloc hlo hhi n size
  | free ptr =>
    obtain ⟨h', bs', free', hcall, hs'⟩ := hs.freed hallow
    exact ⟨h', 0, _, bs', free', hcall, .freed ptr, hs'⟩
  | write x v => exact ⟨_, 0, _, bs, free, rfl, .written x v, hs.written hallow⟩
  | setVerify verify => exact ⟨_, 0, _, bs, free, rfl, .verifySet verify, hs.verifySet verify⟩
  | verify =>
    refine ⟨h, 0, s, bs, free, ?_, .verified, hs⟩
    rw [Heap.call, hs.inv.shaped.verifyChain]
    rfl

theorem step (hs : Serves ctx0 m0 h s bs free) (hpos : 0 < lo) (hlo : lo ≤ ctx0.buf)
    (hhi : ctx0.buf + ctx0.len = hi) {c : HeapCall} (hallow : s.Allows c) {h' : Heap}
    {s' : Holdings}
    (hstep : HeapStep lo hi (h, s) c (h', s')) :
    ∃ bs' free', Serves ctx0 m0 h' s' bs' free' := by
  obtain ⟨r, hcall, hnext⟩ := hstep
  obtain ⟨h₂, r₂, s₂, bs', free', hcall₂, hnext₂, hs₂⟩ := hs.call hlo hhi hallow
  obtain ⟨rfl, rfl⟩ := Prod.mk.inj (Except.ok.inj (hcall.symm.trans hcall₂))
  obtain rfl := hnext.unique hpos hnext₂
  exact ⟨bs', free', hs₂⟩

end Serves

/-- Nobody holds anything. -/
def Holdings.fresh (data : Bytes) : Holdings := ⟨fun _ => none, data, 0⟩

/-- The states of a heap in the buffer of `len` bytes at `buf`, and of its clients. -/
def HeapReach (m : Bytes) (buf len : ℕ) : Heap × Holdings → Prop :=
  Runs.Reach (mbedtlsMemoryBufferAllocInit m buf len, Holdings.fresh m) (HeapStep buf (buf + len))
    fun a c => a.2.Allows c

section

variable {m : Bytes} {buf len : ℕ} {h : Heap} {s : Holdings}

theorem init_range (m : Bytes) (buf : ℕ) (hlen : headerSize + alignMultiple ≤ len) :
    buf ≤ (mbedtlsMemoryBufferAllocInit m buf len).ctx.buf ∧
      (mbedtlsMemoryBufferAllocInit m buf len).ctx.buf +
        (mbedtlsMemoryBufferAllocInit m buf len).ctx.len = buf + len := by
  obtain ⟨hskip, -⟩ := initSkip_spec buf
  rw [init_ctx m buf hlen]
  simp only [headerSize, alignMultiple] at hlen hskip ⊢
  omega

/-- A fresh heap serves clients that hold nothing. -/
theorem Serves.init (hbuf : 0 < buf) (hend : buf + len < 2 ^ 64)
    (hlen : headerSize + alignMultiple ≤ len) :
    Serves (mbedtlsMemoryBufferAllocInit m buf len).ctx (mbedtlsMemoryBufferAllocInit m buf len).mem
      (mbedtlsMemoryBufferAllocInit m buf len) (Holdings.fresh m)
      [⟨buf + initSkip buf, len - initSkip buf - headerSize, none⟩] [buf + initSkip buf] := by
  refine ⟨init_inv hbuf hend hlen, ?_, ?_, ?_, ?_, fun _ _ => rfl⟩
  · rw [init_ctx m buf hlen]
    rfl
  · simp [Holdings.fresh]
  · simp
  · simp [Holdings.fresh]

theorem HeapReach.serves (hbuf : 0 < buf) (hend : buf + len < 2 ^ 64)
    (hlen : headerSize + alignMultiple ≤ len) (hr : HeapReach m buf len (h, s)) :
    ∃ bs free, Serves (mbedtlsMemoryBufferAllocInit m buf len).ctx
      (mbedtlsMemoryBufferAllocInit m buf len).mem h s bs free := by
  obtain ⟨hlo, hhi⟩ := init_range m buf hlen
  refine Runs.Reach.invariant (I := fun a => ∃ bs free,
    Serves (mbedtlsMemoryBufferAllocInit m buf len).ctx
      (mbedtlsMemoryBufferAllocInit m buf len).mem a.1 a.2 bs free) ?_ ?_ hr
  · exact ⟨_, _, Serves.init hbuf hend hlen⟩
  · rintro ⟨h, s⟩ c ⟨h', s'⟩ - ⟨bs, free, hs⟩ hallow hstep
    exact hs.step hbuf hlo hhi hallow hstep

theorem HeapReach.call (hbuf : 0 < buf) (hend : buf + len < 2 ^ 64)
    (hlen : headerSize + alignMultiple ≤ len) (hr : HeapReach m buf len (h, s)) {c : HeapCall}
    (hallow : s.Allows c) :
    ∃ h' r s', h.call c = .ok (h', r) ∧ s.Next buf (buf + len) c r s' ∧
      HeapReach m buf len (h', s') := by
  obtain ⟨bs, free, hs⟩ := hr.serves hbuf hend hlen
  obtain ⟨hlo, hhi⟩ := init_range m buf hlen
  obtain ⟨h', r, s', -, -, hcall, hnext, -⟩ := hs.call hlo hhi hallow
  exact ⟨h', r, s', hcall, hnext, .step hr hallow ⟨r, hcall, hnext⟩⟩

/-- A fresh heap grants a request that it has room for. -/
theorem HeapReach.first_grant {n size : BitVec 64} {need : ℕ} (hbuf : 0 < buf)
    (hend : buf + len < 2 ^ 64) (hneed : requestLen n size = some need)
    (hroom : need + (headerSize + alignMultiple) ≤ len) :
    ∃ h s p, HeapReach m buf len (h, s) ∧ s.verify = 0 ∧ p ≠ 0 ∧
      s.held = Function.update (fun _ => none) p (some (n.toNat * size.toNat)) := by
  have hlen : headerSize + alignMultiple ≤ len := by omega
  obtain ⟨hskip, -⟩ := initSkip_spec buf
  simp only [headerSize, alignMultiple] at hroom hskip
  obtain ⟨hlo, hhi⟩ := init_range m buf hlen
  rcases calloc_spec (init_inv (m := m) hbuf hend hlen) hneed with
    ⟨-, hno⟩ | ⟨-, h', bs', free', g, hcall, hg⟩
  · refine absurd ⟨_, List.mem_singleton_self _, rfl, ?_⟩ hno
    simp only [headerSize]
    omega
  · obtain ⟨s', hnext, -⟩ := (Serves.init hbuf hend hlen).grant hlo hhi hneed hg
    have hp : g.payload ≠ 0 := by simp [HeapBlock.payload, headerSize]
    have hallow : (Holdings.fresh m).Allows (.calloc n size) := trivial
    have hstep : HeapStep buf (buf + len) (mbedtlsMemoryBufferAllocInit m buf len, Holdings.fresh m)
        (.calloc n size) (h', s') := ⟨g.payload, hcall, hnext⟩
    refine ⟨h', s', g.payload, .step .init hallow hstep, ?_, hp, ?_⟩
    · cases hnext
      rfl
    · generalize g.payload = p at hnext hp
      cases hnext with
      | refused => exact absurd rfl hp
      | granted => rfl

end

end RmmCaec
