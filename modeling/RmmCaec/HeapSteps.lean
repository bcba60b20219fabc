import RmmCaec.HeapEdits

/-!
# The operations of a heap

What the allocation and the release of a block do to its shape. All of them write to
headers only, apart from the bytes that are handed out.
-/
namespace RmmCaec

open ByteMemory LinkedCells

/-- The memory of a heap has the given shape. -/
abbrev Heap.Shaped (h : Heap) (bs : List HeapBlock) (free : List ℕ) (loose : Option ℕ) : Prop :=
  HeapShape h.ctx (getField h.mem) bs free loose

/-- The bytes that lie in no header are the same. -/
def SameBetween (ps : List ℕ) (m m' : Bytes) : Prop :=
  ∀ x, (∀ p ∈ ps, x < p ∨ p + headerSize ≤ x) → m' x = m x

variable {h : Heap} {l r : List HeapBlock} {a b d : HeapBlock} {free f₁ f₂ : List ℕ}

theorem Heap.Shaped.of_sees {bs : List HeapBlock} {loose : Option ℕ} {ps : List ℕ} {m0 : Bytes}
    {c : Cells} {ctx : BufferAllocCtx} (hshape : HeapShape ctx c bs free loose)
    (hsees : Sees ps m0 h.mem c) (hctx : h.ctx = ctx)
    (hps : ∀ p ∈ bs.map HeapBlock.start, p ∈ ps) :
    h.Shaped bs free loose := by
  unfold Heap.Shaped
  rw [hctx]
  exact hshape.congr fun p hp f => hsees.fields p (hps p hp) f

theorem takeWhole_spec {n : ℕ} (hs : h.Shaped (l ++ b :: r) (f₁ ++ b.start :: f₂) none)
    (hn : 0 < n ∧ n ≤ b.size) :
    (takeWhole h b.start).Shaped (l ++ { b with held := some n } :: r) (f₁ ++ f₂) none ∧
      SameBetween ((l ++ b :: r).map HeapBlock.start) h.mem (takeWhole h b.start).mem := by
  have hps := hs.spaced
  have hmem : b.start ∈ (l ++ b :: r).map HeapBlock.start := List.mem_map_of_mem (by simp)
  have hone : ∀ v < 2, v < 2 ^ 64 := by omega
  have hsub : ∀ {q : ℕ}, q = 0 ∨ q ∈ f₁ ++ b.start :: f₂ →
      q = 0 ∨ q ∈ (l ++ b :: r).map HeapBlock.start := fun hq => hq.imp_right hs.free_sub
  have hnot : b.start ∉ f₁ ++ f₂ :=
    (List.nodup_cons.mp (List.nodup_middle.mp hs.free_nodup)).1
  -- the fields that the unlinking reads are those of before
  have hset : ∀ f, f ≠ .alloc →
      (Cells.set (getField h.mem) b.start .alloc 1) b.start f = getField h.mem b.start f := by
    intro f hf
    simp [Cells.set, hf]
  have h1 := (Sees.refl _ h.mem).set hps (f := .alloc) hmem (hone 1 (by decide))
  have h2 := unlinkFree_sees (h := { h with mem := setField h.mem b.start .alloc 1 }) hps h1 hmem
    (by rw [hset _ (by decide)]; exact hsub hs.prevFree_mem)
    (by rw [hset _ (by decide)]; exact hsub hs.nextFree_mem)
  rw [hset _ (by decide), hset _ (by decide)] at h2
  have h3 := (h2.1.set hps (f := .prevFree) hmem (hone 0 (by decide))).set hps (f := .nextFree)
    hmem (hone 0 (by decide))
  refine ⟨Heap.Shaped.of_sees ?_ h3 h2.2 fun p hp => by simpa using hp, h3.outside⟩
  refine hs.unlink.mark _ hnot (fun p hp => by simpa using hp.symm) (fun k hk => ?_)
    (fun p f hp => ?_) (fun f hf1 hf2 hf3 => ?_) ?_ fun _ => ?_
  · cases hk
    exact hn
  · simp [Cells.set, hp]
  · simp [Cells.set, hf1, hf2, hf3]
  · simp [Cells.set]
  · simp [Cells.set]

theorem takeSplit_spec {len n : ℕ} (hs : h.Shaped (l ++ b :: r) (f₁ ++ b.start :: f₂) none)
    (hb : b.held = none) (hlen : len + (headerSize + alignMultiple) ≤ b.size)
    (hdvd : alignMultiple ∣ len) (hn : 0 < n ∧ n ≤ len) :
    (takeSplit h b.start len).Shaped
        (l ++ ⟨b.start, len, some n⟩ ::
          ⟨b.start + headerSize + len, b.size - len - headerSize, none⟩ :: r)
        (f₁ ++ (b.start + headerSize + len) :: f₂) none ∧
      SameBetween ((l ++ ⟨b.start, len, some n⟩ ::
          ⟨b.start + headerSize + len, b.size - len - headerSize, none⟩ :: r).map
            HeapBlock.start)
        h.mem (takeSplit h b.start len).mem := by
  obtain ⟨new, hnew⟩ : ∃ new, new = b.start + headerSize + len := ⟨_, rfl⟩
  rw [← hnew]
  obtain ⟨ps, hps_def⟩ : ∃ ps, ps = (l ++ ⟨b.start, len, some n⟩ ::
      ⟨new, b.size - len - headerSize, none⟩ :: r).map HeapBlock.start := ⟨_, rfl⟩
  rw [← hps_def]
  obtain ⟨c, hc⟩ : ∃ c, c = getField h.mem := ⟨_, rfl⟩
  have hps : Spaced ps := by
    rw [hps_def]
    exact (HeapShape.cut_tiles hs.tiles hlen hnew).spaced hs.buf_pos hs.buf_end.le
  have hmem : b.start ∈ ps := by simp [hps_def]
  have hmem_new : new ∈ ps := by simp [hps_def]
  have hold : ∀ {q : ℕ}, q ∈ (l ++ b :: r).map HeapBlock.start → q ∈ ps := by
    intro q hq
    simp only [hps_def, List.map_append, List.map_cons, List.mem_append, List.mem_cons] at hq ⊢
    tauto
  have hsub : ∀ {q : ℕ}, q = 0 ∨ q ∈ f₁ ++ b.start :: f₂ → q = 0 ∨ q ∈ ps := by
    exact fun hq => hq.imp_right fun hq => hold (hs.free_sub hq)
  have hbn : b.start ≠ new := by
    simp only [headerSize] at hnew
    omega
  have hnew_not : new ∉ (l ++ b :: r).map HeapBlock.start := by
    intro hm
    obtain ⟨x, hx, he⟩ := List.mem_map.mp hm
    have hbmem : b ∈ l ++ b :: r := by simp
    by_cases hxb : x = b
    · exact hbn (hxb ▸ he)
    · have hapart := hs.tiles.apart hx hbmem hxb
      simp only [HeapBlock.stop, headerSize, alignMultiple] at hapart hlen hnew
      omega
  have hsize : c b.start .size = b.size := by
    rw [hc]
    exact hs.size b (by simp)
  have hP : c b.start .prevFree = 0 ∨ c b.start .prevFree ∈ f₁ ++ b.start :: f₂ := by
    rw [hc]
    exact hs.prevFree_mem
  have hQ : c b.start .nextFree = 0 ∨ c b.start .nextFree ∈ f₁ ++ b.start :: f₂ := by
    rw [hc]
    exact hs.nextFree_mem
  have hN : c b.start .next = 0 ∨ c b.start .next ∈ (l ++ b :: r).map HeapBlock.start := by
    have hlinked := hs.linked
    rw [← hc, List.map_append, List.map_cons] at hlinked
    rw [List.map_append, List.map_cons]
    rcases next_mem hlinked with ⟨he, -⟩ | hm
    · exact .inl he
    · exact .inr (by simp only [List.mem_append, List.mem_cons]; exact .inr (.inr hm))
  have hPn : c b.start .prevFree ≠ new := by
    rintro he
    rcases hP with h0 | hm
    · exact hps.pos (h0 ▸ he ▸ hmem_new)
    · exact hnew_not (he ▸ hs.free_sub hm)
  have hNn : c b.start .next ≠ new := by
    rintro he
    rcases hN with h0 | hm
    · exact hps.pos (h0 ▸ he ▸ hmem_new)
    · exact hnew_not (he ▸ hm)
  have hQn : c b.start .nextFree ≠ new := by
    rintro he
    rcases hQ with h0 | hm
    · exact hps.pos (h0 ▸ he ▸ hmem_new)
    · exact hnew_not (he ▸ hs.free_sub hm)
  have h0 := Sees.refl ps h.mem
  rw [← hc] at h0
  have hslt : b.size < 2 ^ 64 := hsize ▸ h0.lt (f := .size) hmem
  obtain ⟨c1, h1, hkeep, hprev, hnsize, hnalloc, hnprev, hnnext, hnmagic1, hnmagic2⟩ :=
    writeHeader_sees hps h0 hmem hmem_new hbn (show b.size - len - headerSize < 2 ^ 64 by omega)
      (hN.imp_right hold) hNn
  have e1 : c1 b.start .prevFree = c b.start .prevFree := hkeep _ _ hbn (by decide)
  have e2 : c1 b.start .nextFree = c b.start .nextFree := hkeep _ _ hbn (by decide)
  -- the rest takes over the place in the free list
  obtain ⟨g, hg⟩ : ∃ g : Heap,
    g = ⟨h.ctx, writeHeader h.mem b.start new (b.size - len - headerSize)⟩ := ⟨_, rfl⟩
  have hgmem : g.mem = writeHeader h.mem b.start new (b.size - len - headerSize) := by rw [hg]
  have hgctx : g.ctx = h.ctx := by rw [hg]
  rw [← hgmem] at h1
  have h2 := replaceFree_sees hps h1 hmem hmem_new
    (by rw [e1]; exact hsub hP) (by rw [e1]; exact hPn) (by rw [e2]; exact hsub hQ)
  rw [e1, e2, hgctx] at h2
  have hsize' : getField h.mem b.start .size = b.size := by rw [h0.fields b.start hmem, hsize]
  have htake : takeSplit h b.start len = ⟨(replaceFree g new b.start).ctx, setField (setField
      (setField (setField (setField (replaceFree g new b.start).mem b.start .alloc 1) b.start .size
      len) b.start .next new) b.start .prevFree 0) b.start .nextFree 0⟩ := by
    simp only [takeSplit, hsize', ← hnew, hg]
  obtain ⟨c2, hc2⟩ : ∃ c2 : Cells, c2 = (((c1.set new .prevFree (c b.start .prevFree)).set new
      .nextFree (c b.start .nextFree)).set (c b.start .prevFree) .nextFree new).set
      (c b.start .nextFree) .prevFree new := ⟨_, rfl⟩
  rw [← hc2] at h2
  have h3 := ((((h2.1.set hps (f := .alloc) hmem (v := 1) (by omega)).set hps (f := .size) hmem
    (v := len) (by omega)).set hps (f := .next) hmem (hps.lt _ hmem_new)).set hps (f := .prevFree)
    hmem (v := 0) (by omega)).set hps (f := .nextFree) hmem (v := 0) (by omega)
  obtain ⟨c3, hc3⟩ : ∃ c3 : Cells, c3 =
      ((((c2.set b.start .alloc 1).set b.start .size len).set
      b.start .next new).set b.start .prevFree 0).set b.start .nextFree 0 := ⟨_, rfl⟩
  rw [← hc3] at h3
  have hshape : HeapShape { h.ctx with firstFree := if c b.start .prevFree = 0 then new
      else h.ctx.firstFree } c3 (l ++ ⟨b.start, len, some n⟩ ::
      ⟨new, b.size - len - headerSize, none⟩ :: r) (f₁ ++ new :: f₂) none := by
    have hs' : HeapShape h.ctx c (l ++ b :: r) (f₁ ++ b.start :: f₂) none := hc ▸ hs
    have hmagic := hs'.magic b (by simp)
    refine hs'.cut hb hlen hdvd hn hnew ?_ ?_ (fun p f hf1 hf2 hf3 hf4 hp1 hp2 => ?_) (fun p => ?_)
      (fun p => ?_) (fun p hp1 hp2 => ?_) fun p hp1 hp2 => ?_
    · refine ⟨?_, ?_, ?_, ?_, ?_, ?_⟩ <;> simp [hc3, hc2, Cells.set, hbn, hkeep]
    · refine ⟨?_, ?_, ?_, ?_, ?_, ?_⟩ <;>
        simp [hc3, hc2, Cells.set, Ne.symm hbn, Ne.symm hPn, Ne.symm hQn, hnsize, hnalloc,
          hnmagic1, hnmagic2]
    · simp [hc3, hc2, Cells.set, hkeep, hf1, hf3, hf4, hp1, hp2]
    · by_cases hpb : p = b.start
      · simp [hc3, hpb, Cells.set]
      · by_cases hpn : p = new
        · subst hpn
          simp [hc3, hc2, Cells.set, hpb, hnnext]
        · simp [hc3, hc2, Cells.set, hpb, hpn, hkeep]
    · by_cases hpn : p = new
      · subst hpn
        simp [hc3, hc2, Cells.set, hnprev]
      · simp [hc3, hc2, Cells.set, hpn, hprev]
    · simp [hc3, hc2, Cells.set, hp1, hp2, hkeep]
    · simp [hc3, hc2, Cells.set, hp1, hp2, hkeep]
  rw [htake]
  exact ⟨Heap.Shaped.of_sees hshape h3 h2.2 fun p hp => hps_def ▸ hp, h3.outside⟩

end RmmCaec
