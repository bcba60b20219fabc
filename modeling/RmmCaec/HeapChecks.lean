import RmmCaec.HeapReleases

/-!
# Searches and checks of a heap

The loops over the headers end because no header comes twice. On a heap in its shape the
search of a free block finds the first one that is large enough, and no check fails.
-/
namespace RmmCaec

open ByteMemory LinkedCells

variable {h : Heap} {ctx : BufferAllocCtx} {m : Bytes} {bs : List HeapBlock} {b : HeapBlock}
  {free : List ℕ} {len : ℕ}

theorem findFit_eq {fuel p : ℕ}
    (hl : Linked (getField m · .nextFree) (getField m · .prevFree) p free 0) (h0 : 0 ∉ free)
    (hfuel : free.length < fuel) : findFit m len fuel (free.headD 0) =
      .ok ((free.find? fun q => decide (len ≤ getField m q .size)).getD 0) := by
  induction free generalizing fuel p with
  | nil =>
    obtain ⟨fuel, rfl⟩ := Nat.exists_eq_succ_of_ne_zero (Nat.ne_of_gt hfuel)
    simp [findFit]
  | cons q free ih =>
    obtain ⟨fuel, rfl⟩ := Nat.exists_eq_succ_of_ne_zero (Nat.ne_of_gt (Nat.zero_lt_of_lt hfuel))
    obtain ⟨-, hnext, hl⟩ := hl
    rw [List.mem_cons, not_or] at h0
    have hrest := ih hl h0.2 (by simpa using hfuel)
    simp only [List.headD_cons, findFit, Ne.symm h0.1, if_false, ge_iff_le, hnext, hrest]
    by_cases hfit : len ≤ getField m q .size <;> simp [hfit]

namespace HeapShape

variable {loose : Option ℕ}

theorem free_length_lt {c : Cells} (h : HeapShape ctx c bs free loose) :
    free.length < headerBound := by
  have hsub : free.length ≤ (bs.map HeapBlock.start).length :=
    (List.subperm_of_subset h.free_nodup fun _ hp => h.free_sub hp).length_le
  have hlen := h.tiles.le_length
  have hend := h.buf_end
  simp only [List.length_map, headerSize, headerBound] at hsub hlen ⊢
  omega

/-- The block that an allocation takes. -/
theorem findFit (len : ℕ) (h : HeapShape ctx (getField m) bs free none) :
    ∃ cur, findFit m len headerBound ctx.firstFree = .ok cur ∧
      ((cur = 0 ∧ ∀ b ∈ bs, b.held = none → b.size < len) ∨
        ∃ b ∈ bs, b.start = cur ∧ b.held = none ∧ len ≤ b.size) := by
  have hz := h.zero_not_mem_free
  refine ⟨_, by rw [h.first_free, findFit_eq h.free_linked hz h.free_length_lt], ?_⟩
  cases hfind : free.find? fun q => decide (len ≤ getField m q .size) with
  | none =>
    refine .inl ⟨rfl, fun b hb hheld => ?_⟩
    have hmem : b.start ∈ free := (h.mem_free _).mpr ⟨by simp, b, hb, rfl, hheld⟩
    have hno := List.find?_eq_none.mp hfind _ hmem
    rw [h.size b hb] at hno
    simpa using hno
  | some q =>
    obtain ⟨-, b, hb, rfl, hheld⟩ := (h.mem_free _).mp (List.mem_of_find?_eq_some hfind)
    have hfit := List.find?_some hfind
    rw [h.size b hb] at hfit
    exact .inr ⟨b, hb, rfl, hheld, by simpa using hfit⟩

theorem verifyHeader (h : HeapShape ctx (getField m) bs free none) (hb : b ∈ bs) :
    verifyHeader m b.start = 0 := by
  have halloc := h.alloc b hb
  have hchain : getField m b.start .prev ≠ 0 →
      getField m b.start .prev ≠ getField m b.start .next := by
    obtain ⟨l, r, rfl⟩ := List.append_of_mem hb
    have hl := h.linked
    have hnd := h.nodup
    rw [List.map_append, List.map_cons] at hl hnd
    exact hl.prev_ne_next hnd
  have hfree : getField m b.start .prevFree ≠ 0 →
      getField m b.start .prevFree ≠ getField m b.start .nextFree := by
    cases hheld : b.held with
    | some n => exact fun hne => absurd (h.held_links b hb (by simp [hheld])).1 hne
    | none =>
      have hmem : b.start ∈ free := (h.mem_free _).mpr ⟨by simp, b, hb, rfl, hheld⟩
      obtain ⟨f₁, f₂, rfl⟩ := List.append_of_mem hmem
      exact h.free_linked.prev_ne_next h.free_nodup
  have halloc1 : ¬ getField m b.start .alloc > 1 := by
    rw [halloc]
    split <;> omega
  unfold RmmCaec.verifyHeader
  rw [if_neg (by simp [(h.magic b hb).1]), if_neg (by simp [(h.magic b hb).2]), if_neg halloc1,
    if_neg fun hc => hchain hc.1 hc.2, if_neg fun hc => hfree hc.1 hc.2]

end HeapShape

theorem verifyChainFrom_eq {fuel p : ℕ} {ps : List ℕ}
    (hl : Linked (getField m · .next) (getField m · .prev) p ps 0) (h0 : 0 ∉ ps)
    (hok : ∀ q ∈ ps, verifyHeader m q = 0) (hfuel : ps.length < fuel) :
    verifyChainFrom m fuel p (ps.headD 0) = .ok 0 := by
  induction ps generalizing fuel p with
  | nil =>
    obtain ⟨fuel, rfl⟩ := Nat.exists_eq_succ_of_ne_zero (Nat.ne_of_gt hfuel)
    simp [verifyChainFrom]
  | cons q ps ih =>
    obtain ⟨fuel, rfl⟩ := Nat.exists_eq_succ_of_ne_zero (Nat.ne_of_gt (Nat.zero_lt_of_lt hfuel))
    obtain ⟨hprev, hnext, hl⟩ := hl
    rw [List.mem_cons, not_or] at h0
    have hrest := ih hl h0.2 (fun x hx => hok x (by simp [hx])) (by simpa using hfuel)
    simp only at hprev hnext
    simp only [List.headD_cons, verifyChainFrom, Ne.symm h0.1, hok q (by simp), hprev, hnext,
      ne_eq, not_true_eq_false, if_false, hrest]

/-- The check of the chain finds nothing. -/
theorem Heap.Shaped.verifyChain (hs : h.Shaped bs free none) : verifyChain h = .ok 0 := by
  obtain ⟨b, bs', rfl⟩ := List.exists_cons_of_ne_nil hs.some_block
  have hstart : b.start = h.ctx.first := by
    rw [hs.first]
    exact hs.tiles.1
  obtain ⟨hprev, hnext, hl⟩ := hs.linked
  have hz := hs.spaced.pos
  rw [List.map_cons, List.mem_cons, not_or] at hz
  have hok : ∀ q ∈ bs'.map HeapBlock.start, verifyHeader h.mem q = 0 := by
    intro q hq
    obtain ⟨d, hd, rfl⟩ := List.mem_map.mp hq
    exact hs.verifyHeader (List.mem_cons_of_mem _ hd)
  have hlen : (bs'.map HeapBlock.start).length < headerBound * headerBound := by
    have hle := hs.tiles.le_length
    have hend := hs.buf_end
    simp only [List.length_cons, List.length_map, headerSize, headerBound] at hle ⊢
    omega
  have hrest := verifyChainFrom_eq hl hz.2 hok hlen
  have hfirst := hs.verifyHeader (List.mem_cons_self)
  simp only at hprev hnext
  unfold RmmCaec.verifyChain
  rw [← hstart]
  simp only [Ne.symm hz.1, hfirst, hprev, hnext, ne_eq, not_true_eq_false, or_false,
    if_false, hrest]

end RmmCaec
