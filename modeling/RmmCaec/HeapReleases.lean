import RmmCaec.HeapSteps

/-!
# Releasing a block

A block that is released is loose until it has been joined with its free neighbours or put
in front of the free list.
-/
namespace RmmCaec

open ByteMemory LinkedCells

variable {h : Heap} {ctx : BufferAllocCtx} {m : Bytes} {l r : List HeapBlock}
  {a b d : HeapBlock} {free f₁ f₂ : List ℕ} {loose : Option ℕ}

namespace HeapShape

theorem next_start_mem {c : Cells} (hs : HeapShape ctx c (l ++ b :: r) free loose) :
    c b.start .next = 0 ∨ c b.start .next ∈ r.map HeapBlock.start := by
  have hlinked := hs.linked
  rw [List.map_append, List.map_cons] at hlinked
  exact (next_mem hlinked).imp_left And.left

/-- Two neighbours together are no longer than the buffer. -/
theorem pair_size_lt {c : Cells} (hs : HeapShape ctx c (l ++ a :: d :: r) free loose) :
    a.size + (headerSize + d.size) < 2 ^ 64 := by
  have hend := hs.buf_end
  obtain ⟨y, h1, h2⟩ := tiles_append.mp hs.tiles
  obtain ⟨h2, h3, h4⟩ := h2
  have hlen := (show Tiles d.stop r (ctx.buf + ctx.len) from h4).le_length
  simp only [HeapBlock.stop] at h3 hlen
  omega

end HeapShape

theorem regroupBefore_spec
    (hs : HeapShape ctx (getField m) (l ++ a :: d :: r) free (some d.start)) (ha : a.held = none) :
    ∃ m', regroupBefore m d.start = (m', a.start) ∧
      HeapShape ctx (getField m') (l ++ { a with size := a.size + (headerSize + d.size) } :: r)
        free none ∧
      SameBetween ((l ++ a :: d :: r).map HeapBlock.start) m m' ∧
      ∀ x, d.start ≤ x → x < d.start + headerSize → m' x = 0 := by
  obtain ⟨hother, hother', hdprev⟩ := hs.pair_spec
  obtain ⟨ps, hps_def⟩ : ∃ ps, ps = (l ++ a :: d :: r).map HeapBlock.start := ⟨_, rfl⟩
  obtain ⟨c, hc⟩ : ∃ c : Cells, c = getField m := ⟨_, rfl⟩
  have hps : Spaced ps := hps_def ▸ hs.spaced
  have hma : a.start ∈ ps := by simp [hps_def]
  have hmd : d.start ∈ ps := by simp [hps_def]
  have hane : a.start ≠ d.start := hother a (by simp)
  have hsa : c a.start .size = a.size := hc ▸ hs.size a (by simp)
  have hsd : c d.start .size = d.size := hc ▸ hs.size d (by simp)
  have hN : c d.start .next = 0 ∨ c d.start .next ∈ ps := by
    have hs' : HeapShape ctx c ((l ++ [a]) ++ d :: r) free (some d.start) := by
      rw [hc]
      simpa using hs
    refine hs'.next_start_mem.imp_right fun hm => ?_
    rw [hps_def]
    simp only [List.map_append, List.map_cons, List.mem_append, List.mem_cons]
    exact .inr (.inr (.inr hm))
  have h0 := Sees.refl ps m
  rw [← hc] at h0
  have h1 := h0.set hps (f := .size) hma hs.pair_size_lt
  have h2 := h1.set hps (f := .next) hma (h0.lt (f := .next) hmd)
  have h3 := h2.setIf hps (f := .prev) hN (hps.lt _ hma)
  have h4 := h3.clear hps hmd
  have e1 := h1.fields d.start hmd .next
  have e2 := h2.fields a.start hma .next
  simp only [Cells.set, Ne.symm hane, false_and, if_false] at e1
  simp only [Cells.set, and_self, if_true] at e2
  have hdprev' : c d.start .prev = a.start := by rw [hc, hdprev]
  obtain ⟨m4, hm4⟩ : ∃ m4, m4 = fill (setFieldIf (setField (setField m a.start .size
      (a.size + (headerSize + d.size))) a.start .next (c d.start .next)) (c d.start .next) .prev
      a.start) d.start headerSize 0 := ⟨_, rfl⟩
  have hregroup : regroupBefore m d.start = (m4, a.start) := by
    simp only [regroupBefore, h0.fields d.start hmd, h0.fields a.start hma, hdprev', hsa, hsd,
      e1, e2, hm4]
  obtain ⟨c4, hc4⟩ : ∃ c4 : Cells, c4 = (((c.set a.start .size (a.size + (headerSize +
      d.size))).set a.start .next (c d.start .next)).set (c d.start .next) .prev a.start).clear
      d.start := ⟨_, rfl⟩
  rw [← hc4, ← hm4] at h4
  have hshape : HeapShape ctx c4
      (l ++ { a with size := a.size + (headerSize + d.size) } :: r) free none := by
    rw [← hc] at hs
    refine hs.joinBefore ha (fun p f hf1 hf2 hp => ?_) (fun p hp => ?_)
      fun p hp => ?_
    · simp [hc4, Cells.clear, Cells.set, hp, hf1, hf2]
    · simp [hc4, Cells.clear, Cells.set, hp]
    · simp [hc4, Cells.clear, Cells.set, hp]
  rw [← hps_def]
  refine ⟨m4, hregroup, hshape.congr fun p hp f => h4.fields p ?_ f, h4.outside,
    fun x h1 h2 => ?_⟩
  · rw [hps_def]
    simp only [List.map_append, List.map_cons, List.mem_append, List.mem_cons] at hp ⊢
    rcases hp with hp | hp | hp
    · exact .inl hp
    · exact .inr (.inl hp)
    · exact .inr (.inr (.inr hp))
  · rw [hm4]
    exact fill_of_mem h1 h2

theorem pushFree_spec (hs : h.Shaped (l ++ b :: r) free (some b.start)) (hb : b.held = none)
    (hprev : getField h.mem b.start .prevFree = 0) :
    (pushFree h b.start).Shaped (l ++ b :: r) (b.start :: free) none ∧
      SameBetween ((l ++ b :: r).map HeapBlock.start) h.mem (pushFree h b.start).mem := by
  have hps := hs.spaced
  have hmem : b.start ∈ (l ++ b :: r).map HeapBlock.start := by simp
  have hfirst : h.ctx.firstFree = 0 ∨ h.ctx.firstFree ∈ (l ++ b :: r).map HeapBlock.start := by
    rw [hs.first_free]
    cases free with
    | nil => exact .inl rfl
    | cons q free => exact .inr (hs.free_sub (by simp))
  have hlt : h.ctx.firstFree < 2 ^ 64 := by
    rcases hfirst with h0 | hm
    · omega
    · exact hps.lt _ hm
  have h1 := (Sees.refl _ h.mem).set hps (f := .nextFree) hmem hlt
  have h2 := h1.setIf hps (f := .prevFree) hfirst (hps.lt _ hmem)
  exact ⟨Heap.Shaped.of_sees (hs.push (by simp) hb hprev) h2 rfl fun p hp => hp, h2.outside⟩

/-- The block leaves the free list if it is in it, whatever has been written to its size and to
its link to the next block. -/
theorem detach_spec {bs : List HeapBlock} {c : Cells} {g : Heap} {q size nxt : ℕ}
    (hs : HeapShape g.ctx c bs free loose)
    (hsees : Sees (bs.map HeapBlock.start) m g.mem
    ((c.set b.start .size size).set b.start .next nxt))
    (hb : b ∈ bs) (hfree : b.held = none) (hq : q ∈ free) (hqb : q ≠ b.start)
    (hloose : loose = none ∨
      loose = some b.start ∧ c b.start .prevFree = 0 ∧ c b.start .nextFree = 0) :
    ∃ g' u f₁ f₂, (if getField g.mem b.start .prevFree ≠ 0 ∨
      getField g.mem b.start .nextFree ≠ 0
        then unlinkFree g b.start else g) = g' ∧
      HeapShape g'.ctx u bs (f₁ ++ q :: f₂) (some b.start) ∧
      Sees (bs.map HeapBlock.start) m g'.mem
        ((u.set b.start .size size).set b.start .next nxt) ∧
      ∀ p f, f ≠ .prevFree → f ≠ .nextFree → u p f = c p f := by
  have hmem : b.start ∈ bs.map HeapBlock.start := List.mem_map_of_mem hb
  have eP : getField g.mem b.start .prevFree = c b.start .prevFree := by
    simp [hsees.fields b.start hmem, Cells.set]
  have eQ : getField g.mem b.start .nextFree = c b.start .nextFree := by
    simp [hsees.fields b.start hmem, Cells.set]
  rw [eP, eQ]
  rcases hloose with rfl | ⟨rfl, h1, h2⟩
  · -- both are in the list, so one of the links is set
    have hbf : b.start ∈ free := (hs.mem_free _).mpr ⟨by simp, b, hb, rfl, hfree⟩
    obtain ⟨f₁, f₂, rfl⟩ := List.append_of_mem hbf
    have hlinks : c b.start .prevFree ≠ 0 ∨ c b.start .nextFree ≠ 0 := by
      by_contra hno
      simp only [not_or, not_not] at hno
      have hz := hs.zero_not_mem_free
      have hf₁ : f₁ = [] := by
        rcases prev_mem hs.free_linked with ⟨-, he⟩ | hm
        · exact he
        · exact absurd (List.mem_append_left _ (hno.1 ▸ hm)) hz
      have hf₂ : f₂ = [] := by
        rcases next_mem hs.free_linked with ⟨-, he⟩ | hm
        · exact he
        · exact absurd (List.mem_append_right _ (List.mem_cons_of_mem _ (hno.2 ▸ hm))) hz
      simp [hf₁, hf₂, hqb] at hq
    rw [if_pos hlinks]
    have hrest : q ∈ f₁ ++ f₂ := by
      simp only [List.mem_append, List.mem_cons, hqb, false_or] at hq ⊢
      exact hq
    obtain ⟨k₁, k₂, hk⟩ := List.append_of_mem hrest
    have hP : ((c.set b.start .size size).set b.start .next nxt) b.start .prevFree =
        c b.start .prevFree := by simp [Cells.set]
    have hQ : ((c.set b.start .size size).set b.start .next nxt) b.start .nextFree =
        c b.start .nextFree := by simp [Cells.set]
    have hunlink := unlinkFree_sees hs.spaced hsees hmem
      (by rw [hP]; exact hs.prevFree_mem.imp_right hs.free_sub)
      (by rw [hQ]; exact hs.nextFree_mem.imp_right hs.free_sub)
    rw [hP, hQ] at hunlink
    refine ⟨_, (c.set (c b.start .prevFree) .nextFree (c b.start .nextFree)).set
      (c b.start .nextFree) .prevFree (c b.start .prevFree), k₁, k₂, rfl, ?_, ?_, ?_⟩
    · rw [hunlink.2, ← hk]
      exact hs.unlink
    · have hsees' := hunlink.1
      rw [Cells.set_comm (f := .next) (g := .nextFree) (by decide),
        Cells.set_comm (f := .size) (g := .nextFree) (by decide),
        Cells.set_comm (f := .next) (g := .prevFree) (by decide),
        Cells.set_comm (f := .size) (g := .prevFree) (by decide)] at hsees'
      exact hsees'
    · intro p f hf1 hf2
      simp [Cells.set, hf1, hf2]
  · rw [if_neg (by simp [h1, h2])]
    obtain ⟨f₁, f₂, rfl⟩ := List.append_of_mem hq
    exact ⟨g, c, f₁, f₂, rfl, hs, hsees, fun _ _ _ _ => rfl⟩

theorem regroupAfter_spec (hs : h.Shaped (l ++ a :: d :: r) free loose) (ha : a.held = none)
    (hd : d.held = none)
    (hloose : loose = none ∨ loose = some a.start ∧ getField h.mem a.start .prevFree = 0 ∧
      getField h.mem a.start .nextFree = 0) :
    ∃ free', (regroupAfter h a.start).Shaped
        (l ++ { a with size := a.size + (headerSize + d.size) } :: r) free' none ∧
      SameBetween ((l ++ a :: d :: r).map HeapBlock.start) h.mem (regroupAfter h a.start).mem := by
  obtain ⟨hother, hother', hdprev⟩ := hs.pair_spec
  obtain ⟨ps, hps_def⟩ : ∃ ps, ps = (l ++ a :: d :: r).map HeapBlock.start := ⟨_, rfl⟩
  obtain ⟨c, hc⟩ : ∃ c : Cells, c = getField h.mem := ⟨_, rfl⟩
  have hps : Spaced ps := hps_def ▸ hs.spaced
  have hma : a.start ∈ ps := by simp [hps_def]
  have hmd : d.start ∈ ps := by simp [hps_def]
  have hane : a.start ≠ d.start := hother a (by simp)
  have hs' : HeapShape h.ctx c (l ++ a :: d :: r) free loose := hc ▸ hs
  have hsa : c a.start .size = a.size := hs'.size a (by simp)
  have hsd : c d.start .size = d.size := hs'.size d (by simp)
  have hnext : c a.start .next = d.start := by
    have hlinked := hs'.linked
    rw [List.map_append, List.map_cons, List.map_cons] at hlinked
    exact hlinked.next_eq
  obtain ⟨nxt, hnxt⟩ : ∃ nxt, nxt = c d.start .next := ⟨_, rfl⟩
  have hN : nxt = 0 ∨ nxt ∈ ps := by
    have hsplit : HeapShape h.ctx c ((l ++ [a]) ++ d :: r) free loose := by simpa using hs'
    rw [hnxt]
    refine hsplit.next_start_mem.imp_right fun hm => ?_
    rw [hps_def]
    simp only [List.map_append, List.map_cons, List.mem_append, List.mem_cons]
    exact .inr (.inr (.inr hm))
  obtain ⟨size, hsize⟩ : ∃ size, size = a.size + (headerSize + d.size) := ⟨_, rfl⟩
  have h0 := Sees.refl ps h.mem
  rw [← hc] at h0
  have h1 := h0.set hps (f := .size) hma (hsize ▸ hs.pair_size_lt)
  have h2 := h1.set hps (f := .next) hma (hnxt ▸ h0.lt (f := .next) hmd)
  have e1 := h1.fields d.start hmd .next
  simp only [Cells.set, Ne.symm hane, false_and, if_false, ← hnxt] at e1
  obtain ⟨g, hg⟩ : ∃ g : Heap, g =
      ⟨h.ctx, setField (setField h.mem a.start .size size) a.start
    .next nxt⟩ := ⟨_, rfl⟩
  have hgctx : g.ctx = h.ctx := by rw [hg]
  have hgmem : g.mem = setField (setField h.mem a.start .size size) a.start .next nxt := by rw [hg]
  rw [← hgmem] at h2
  have hdfree : d.start ∈ free := by
    refine (hs.mem_free _).mpr ⟨?_, d, by simp, rfl, hd⟩
    rcases hloose with h0 | ⟨h0, -⟩ <;> simp [h0, hane]
  obtain ⟨g', u, f₁, f₂, hg', hu, h3, hkeep⟩ := detach_spec (g := g) (q := d.start)
    (by rw [hgctx]; exact hs') (hps_def ▸ h2) (b := a) (by simp) ha hdfree (Ne.symm hane)
    (by simpa only [hc] using hloose)
  rw [← hps_def] at h3
  have hSub : ∀ {q : ℕ}, q = 0 ∨ q ∈ f₁ ++ d.start :: f₂ → q = 0 ∨
      q ∈ ps := fun hq =>
    hps_def ▸ hq.imp_right hu.free_sub
  have ha_not : a.start ∉ f₁ ++ d.start :: f₂ := fun hm => ((hu.mem_free _).mp hm).1 rfl
  have hPa : u d.start .prevFree ≠ a.start := by
    rintro he
    rcases hu.prevFree_mem with h0 | hm
    · exact hps.pos (h0.symm.trans he ▸ hma)
    · exact ha_not (he ▸ hm)
  obtain ⟨v, hv⟩ : ∃ v : Cells, v =
      (u.set a.start .size size).set a.start .next nxt := ⟨_, rfl⟩
  rw [← hv] at h3
  have eP : v d.start .prevFree = u d.start .prevFree := by simp [hv, Cells.set]
  have eQ : v d.start .nextFree = u d.start .nextFree := by simp [hv, Cells.set]
  have h4 := replaceFree_sees hps h3 hmd hma (by rw [eP]; exact hSub hu.prevFree_mem)
    (by rw [eP]; exact hPa) (by rw [eQ]; exact hSub hu.nextFree_mem)
  rw [eP, eQ] at h4
  obtain ⟨k, hk⟩ : ∃ k, k = replaceFree g' a.start d.start := ⟨_, rfl⟩
  rw [← hk] at h4
  have e4 : getField k.mem a.start .next = nxt := by
    rw [h4.1.fields a.start hma]
    simp [hv, Cells.set]
  have h5 := (h4.1.setIf hps (f := .prev) hN (hps.lt _ hma)).clear hps hmd
  obtain ⟨w, hw⟩ : ∃ w : Cells, w =
      (((((v.set a.start .prevFree (u d.start .prevFree)).set a.start
      .nextFree (u d.start .nextFree)).set (u d.start .prevFree) .nextFree a.start).set
      (u d.start .nextFree) .prevFree a.start).set nxt .prev a.start).clear d.start := ⟨_, rfl⟩
  rw [← hw] at h5
  have hregroup : regroupAfter h a.start =
      ⟨k.ctx, fill (setFieldIf k.mem nxt .prev a.start) d.start headerSize 0⟩ := by
    have hgeta : (⟨h.ctx, g.mem⟩ : Heap) = g := by rw [hg]
    simp only [regroupAfter, h0.fields a.start hma, h0.fields d.start hmd, hnext, hsa, hsd,
      ← hsize, e1, ← hgmem, hgeta, hg', ← hk, e4]
  have hunext : u d.start .next = nxt := by rw [hkeep _ _ (by decide) (by decide), hnxt]
  have hshape : HeapShape { g'.ctx with
        firstFree := if u d.start .prevFree = 0 then a.start else g'.ctx.firstFree } w
      (l ++ { a with size := size } :: r) (f₁ ++ a.start :: f₂) none := by
    rw [hsize]
    refine hu.joinAfter ha (fun p f hf1 hf2 hf3 hf4 hp => ?_) (fun p hp => ?_) (fun p hp => ?_)
      (fun p hp => ?_) fun p hp => ?_
    · simp [hw, hv, ← hsize, Cells.clear, Cells.set, hp, hf1, hf2, hf3, hf4]
    · simp [hw, hv, Cells.clear, Cells.set, hp, hunext]
    · simp [hw, hv, Cells.clear, Cells.set, hp, hunext]
    · simp [hw, hv, Cells.clear, Cells.set, hp]
    · simp [hw, hv, Cells.clear, Cells.set, hp]
  rw [hregroup, ← hps_def, ← hsize]
  refine ⟨f₁ ++ a.start :: f₂, ?_, h5.outside⟩
  refine Heap.Shaped.of_sees hshape h5 h4.2 fun p hp => ?_
  rw [hps_def]
  simp only [List.map_append, List.map_cons, List.mem_append, List.mem_cons] at hp ⊢
  rcases hp with hp | hp | hp
  · exact .inl hp
  · exact .inr (.inl hp)
  · exact .inr (.inr (.inr hp))

end RmmCaec
