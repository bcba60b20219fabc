import RmmCaec.XlatPages

/-!
# Mapping single pages

The entries of a transient region are mapped and unmapped one by one. What an entry maps is
kept in its bits alone. A table of such entries behaves as a map from its blocks to the
address and the attributes that they were given, over any sequence of calls.
-/
namespace RmmCaec

open Outcome

/-- The words of the tables. -/
abbrev XlatMem := Word → ℕ → Word

def XlatMem.writeTte (mem : XlatMem) (table : Word) (idx : ℕ) (desc : Word) : XlatMem :=
  fun t i => if t = table ∧ i = idx then desc else mem t i

def validDesc : Word := 1#64

def xlatUnmapMemoryPage (arch : XlatArch) (table : XlatLltInfo) (va : Word) (mem : XlatMem) :
    Xlat (XlatRet × XlatMem) := do
  match ← xlatGetTtePtr arch table va with
  | none => return (some .EFAULT, mem)
  | some tte =>
    let desc := mem table.table tte
    if desc &&& (transientDesc ||| validDesc) ≠ transientDesc ||| validDesc then
      return (some .EFAULT, mem)
    else return (none, mem.writeTte table.table tte transientDesc)

def xlatMapMemoryPageWithAttrs (arch : XlatArch) (table : XlatLltInfo) (va pa attrs : Word)
    (mem : XlatMem) : Xlat (XlatRet × XlatMem) := do
  match ← xlatGetTtePtr arch table va with
  | none => return (some .EFAULT, mem)
  | some ttePtr =>
    if mem table.table ttePtr ≠ transientDesc then return (some .EFAULT, mem)
    else if pa > xlatArchGetMaxSupportedPa arch then return (some .EFAULT, mem)
    else
      let tte ← xlatDesc arch attrs (pa &&& ~~~xlatBlockMask table.level) table.level
      return (none, mem.writeTte table.table ttePtr (tte ||| transientDesc))

/-- The calls on a table. -/
inductive PageCall
  | map (va pa attrs : Word)
  | unmap (va : Word)

def PageCall.va : PageCall → Word
  | .map va _ _ => va
  | .unmap va => va

def PageCall.run (arch : XlatArch) (table : XlatLltInfo) (mem : XlatMem) :
    PageCall → Xlat (XlatRet × XlatMem)
  | .map va pa attrs => xlatMapMemoryPageWithAttrs arch table va pa attrs mem
  | .unmap va => xlatUnmapMemoryPage arch table va mem

/-- A sequence of calls, and what they return. -/
def runPageCalls (arch : XlatArch) (table : XlatLltInfo) :
    List PageCall → XlatMem → Xlat (List XlatRet × XlatMem)
  | [], mem => return ([], mem)
  | c :: rest, mem => do
    let (ret, mem) ← c.run arch table mem
    let (rets, mem) ← runPageCalls arch table rest mem
    return (ret :: rets, mem)

/-- What a block was given. -/
structure PageMapping where
  pa : Word
  attrs : Word

/-- The mappings of the blocks of a table. -/
abbrev PageMap := ℕ → Option PageMapping

/-- Mapping a free block to an address in the range, and unmapping a block that is mapped. -/
def PageMap.apply (arch : XlatArch) (table : XlatLltInfo) (s : PageMap) :
    PageCall → XlatRet × PageMap
  | .map va pa attrs =>
    if (s (table.blockOf va)).isNone ∧ pa.toNat < 2 ^ arch.paWidth then
      (none, Function.update s (table.blockOf va) (some ⟨pa, attrs⟩))
    else (some .EFAULT, s)
  | .unmap va =>
    if (s (table.blockOf va)).isSome then (none, Function.update s (table.blockOf va) none)
    else (some .EFAULT, s)

def PageMap.applyAll (arch : XlatArch) (table : XlatLltInfo) :
    List PageCall → PageMap → List XlatRet × PageMap
  | [], s => ([], s)
  | c :: rest, s =>
    let (ret, s) := s.apply arch table c
    let (rets, s) := PageMap.applyAll arch table rest s
    (ret :: rets, s)

/-- The word of an entry. -/
def transientWord (arch : XlatArch) (level : ℤ) : Option PageMapping → Word
  | none => transientDesc
  | some m => setOaToTte arch (m.pa &&& ~~~xlatBlockMask level) ||| xlatAttrs arch m.attrs level |||
    transientDesc

/-- The bits of a descriptor that are not those of its address. -/
def xlatGetAttrsFromTte (arch : XlatArch) (tte : Word) : Word :=
  tte &&& ~~~setOaToTte arch (BitVec.allOnes 64)

/-- The memory types of a page that is mapped. -/
def MtMappable (attrs : Word) : Prop := MtSupported attrs ∧ mtType attrs ≠ mtTransient

/-- A table of transient entries, of which some are mapped. -/
structure PagesHold (arch : XlatArch) (table : XlatLltInfo) (mem : XlatMem)
    (s : PageMap) : Prop where
  word : ∀ i < xlatGetTableEntries arch table.level,
    mem table.table i = transientWord arch table.level (s i)
  mappable : ∀ {i m}, s i = some m → MtMappable m.attrs ∧ m.pa.toNat < 2 ^ arch.paWidth

/-- What the entries say about the map: which blocks are free, and the attributes and the address
of the others. -/
structure PagesEncode (arch : XlatArch) (table : XlatLltInfo) (mem : XlatMem) (s : PageMap) :
    Prop where
  free : ∀ i < xlatGetTableEntries arch table.level,
    s i = none ↔ mem table.table i = transientDesc
  mapped : ∀ i < xlatGetTableEntries arch table.level, (s i).isSome ↔
    mem table.table i &&& (transientDesc ||| validDesc) = transientDesc ||| validDesc
  attrs : ∀ i < xlatGetTableEntries arch table.level, ∀ m, s i = some m →
    xlatGetAttrsFromTte arch (mem table.table i) =
      xlatAttrs arch m.attrs table.level ||| transientDesc
  address : ∀ i < xlatGetTableEntries arch table.level, ∀ m, s i = some m →
    (arch.lpa2 = true ∨ m.pa.toNat < 2 ^ 48) →
    xlatGetOaFromTte arch (mem table.table i) = m.pa &&& ~~~xlatBlockMask table.level

section
variable {arch : XlatArch} {table : XlatLltInfo} {mem : XlatMem} {s : PageMap} {m : PageMapping}
  {level : ℤ} {va pa attrs : Word}

theorem xlatGetAttrsFromTte_or {a : Word} (ha : XlatAttrBits arch.lpa2 a) :
    xlatGetAttrsFromTte arch (setOaToTte arch pa ||| a) = a := by
  apply BitVec.eq_of_getLsbD_eq
  intro i hi
  have ha1 := ha i hi
  unfold xlatGetAttrsFromTte setOaToTte
  cases hlpa : arch.lpa2
  · simp only [hlpa, Bool.false_eq_true, if_false, BitVec.getLsbD_and, BitVec.getLsbD_or,
      BitVec.getLsbD_not, BitVec.getLsbD_allOnes, getLsbD_bitMaskUll 47 12 _ (by omega)] at ha1 ⊢
    rw [Bool.eq_iff_iff]
    simp only [Bool.or_eq_true, Bool.and_eq_true, Bool.not_eq_true', decide_eq_true_eq,
      Bool.and_eq_false_iff, decide_eq_false_iff_not]
    grind
  · simp only [hlpa, if_true, BitVec.getLsbD_and, BitVec.getLsbD_or, BitVec.getLsbD_not,
      BitVec.getLsbD_shiftLeft, BitVec.getLsbD_ushiftRight, BitVec.getLsbD_allOnes,
      getLsbD_bitMaskUll 49 12 _ (by omega), getLsbD_bitMaskUll 51 50 _ (by omega)] at ha1 ⊢
    rw [Bool.eq_iff_iff]
    simp only [Bool.or_eq_true, Bool.and_eq_true, Bool.not_eq_true', decide_eq_true_eq,
      Bool.and_eq_false_iff, Bool.or_eq_false_iff, decide_eq_false_iff_not]
    grind

theorem transientAttrs_bits (arch : XlatArch) (attrs : Word) (level : ℤ) :
    XlatAttrBits arch.lpa2 (xlatAttrs arch attrs level ||| transientDesc) := by
  refine (xlatAttrs_bits arch attrs level).or ?_
  cases arch.lpa2 <;> decide

/-- The attributes of an entry that is mapped, and the marker. -/
theorem transientWord_attrs (arch : XlatArch) (level : ℤ) (m : PageMapping) :
    xlatGetAttrsFromTte arch (transientWord arch level (some m)) =
      xlatAttrs arch m.attrs level ||| transientDesc := by
  rw [transientWord, BitVec.or_assoc]
  exact xlatGetAttrsFromTte_or (transientAttrs_bits arch m.attrs level)

/-- The address of an entry that is mapped, where the descriptor can hold it. -/
theorem transientWord_oa (hlevel : table.LevelOk arch)
    (hpa : m.pa.toNat < 2 ^ if arch.lpa2 then 52 else 48) :
    xlatGetOaFromTte arch (transientWord arch table.level (some m)) =
      m.pa &&& ~~~xlatBlockMask table.level := by
  obtain ⟨k, hk, hl⟩ := hlevel.levelOf
  have hround := and_not_xlatBlockMask_toNat (a := m.pa) hk
  have hle := Nat.div_mul_le_self m.pa.toNat (rttShape.span k)
  rw [transientWord, BitVec.or_assoc,
    xlatGetOaFromTte_or (transientAttrs_bits arch m.attrs table.level), hl]
  refine and_xlatOaMask ?_ (by omega)
  rw [hround]
  exact (page_dvd_span k).trans (Nat.dvd_mul_left _ _)

/-- An entry that is mapped is marked and valid. -/
theorem transientWord_valid (arch : XlatArch) (level : ℤ) (m : PageMapping) :
    transientWord arch level (some m) &&& (transientDesc ||| validDesc) =
      transientDesc ||| validDesc := by
  have hmark : transientWord arch level (some m) &&& transientDesc = transientDesc := by
    rw [transientWord, BitVec.and_or_distrib_right, BitVec.and_self]
    apply BitVec.eq_of_getLsbD_eq
    intro i hi
    rw [BitVec.getLsbD_or, BitVec.getLsbD_and]
    cases transientDesc.getLsbD i <;> simp
  have hvalid : transientWord arch level (some m) &&& validDesc = validDesc := by
    have hlow : validDesc = descMask &&& validDesc := by decide
    have htype : (setOaToTte arch (m.pa &&& ~~~xlatBlockMask level) |||
        xlatAttrs arch m.attrs level ||| transientDesc) &&& descMask =
        if level = xlatTableLevelMax then pageDesc else blockDesc := by
      rw [BitVec.and_or_distrib_right, BitVec.and_or_distrib_right, setOaToTte_type,
        xlatAttrs_type, BitVec.zero_or]
      split_ifs <;> decide
    rw [transientWord, hlow, ← BitVec.and_assoc, htype]
    split_ifs <;> decide
  rw [BitVec.and_or_distrib_left, hmark, hvalid]

theorem transientWord_eq_transientDesc {o : Option PageMapping} :
    transientWord arch level o = transientDesc ↔ o = none := by
  cases o with
  | none => exact ⟨fun _ => rfl, fun _ => rfl⟩
  | some m =>
    refine ⟨fun h => ?_, fun h => by cases h⟩
    have hvalid := transientWord_valid arch level m
    rw [h] at hvalid
    exact absurd hvalid (by decide)

theorem PagesHold.encode (hlevel : table.LevelOk arch) (h : PagesHold arch table mem s) :
    PagesEncode arch table mem s where
  free := by
    intro i hi
    rw [h.word i hi]
    exact transientWord_eq_transientDesc.symm
  mapped := by
    intro i hi
    rw [h.word i hi]
    cases hs : s i with
    | none =>
      have hmark : transientDesc &&& (transientDesc ||| validDesc) ≠
          transientDesc ||| validDesc := by
        decide
      exact ⟨fun hsome => absurd hsome Bool.false_ne_true, fun hvalid => absurd hvalid hmark⟩
    | some m => exact ⟨fun _ => transientWord_valid arch table.level m, fun _ => rfl⟩
  attrs := by
    intro i hi m hm
    rw [h.word i hi, hm]
    exact transientWord_attrs arch table.level m
  address := by
    intro i hi m hm hfits
    obtain ⟨-, hrange⟩ := h.mappable hm
    have hw : 2 ^ arch.paWidth ≤ 2 ^ 52 := Nat.pow_le_pow_right (by omega) arch.paWidth_le
    rw [h.word i hi, hm]
    refine transientWord_oa hlevel ?_
    split_ifs with hl
    · omega
    · exact hfits.resolve_left hl

/-- The assertions hold, and an address of the table has its entry. -/
theorem XlatLltInfo.Covers.tte (hlevel : table.LevelOk arch) (hva : table.Covers arch va) :
    xlatGetTtePtr arch table va = .ok (some (table.blockOf va)) ∧
      table.blockOf va < xlatGetTableEntries arch table.level := by
  obtain ⟨hle, hlt⟩ := hlevel.covers_iff.mp hva
  have hentries := (xlatGetTableEntries_bounds arch table.level).2
  have hmod : table.blockOf va % 2 ^ 32 = table.blockOf va := Nat.mod_eq_of_lt (by omega)
  refine ⟨?_, hlt⟩
  rw [xlatGetTtePtr_eq hlevel, hmod, if_pos ⟨hle, hlt⟩]

/-- Writing the word of a block. -/
theorem PagesHold.write (h : PagesHold arch table mem s) (i : ℕ) (o : Option PageMapping)
    (ho : ∀ m, o = some m → MtMappable m.attrs ∧ m.pa.toNat < 2 ^ arch.paWidth) :
    PagesHold arch table (mem.writeTte table.table i (transientWord arch table.level o))
      (Function.update s i o) where
  word := by
    intro j hj
    by_cases hij : j = i
    · subst hij
      rw [Function.update_self, XlatMem.writeTte, if_pos ⟨rfl, rfl⟩]
    · rw [Function.update_of_ne hij, XlatMem.writeTte, if_neg fun hat => hij hat.2]
      exact h.word j hj
  mappable := by
    intro j m hm
    by_cases hij : j = i
    · subst hij
      rw [Function.update_self] at hm
      exact ho m hm
    · rw [Function.update_of_ne hij] at hm
      exact h.mappable hm

/-- What a call may ask for: an address of the table, and a memory type for a page. -/
def PageCall.Ok (arch : XlatArch) (table : XlatLltInfo) (c : PageCall) : Prop :=
  table.Covers arch c.va ∧ ∀ va pa attrs, c = .map va pa attrs → MtMappable attrs

/-- The range of physical addresses as the library computes it. -/
theorem gt_xlatArchGetMaxSupportedPa :
    pa > xlatArchGetMaxSupportedPa arch ↔ ¬ pa.toNat < 2 ^ arch.paWidth := by
  have hmax := xlatArchGetMaxSupportedPa_toNat arch
  have hpos := Nat.two_pow_pos arch.paWidth
  rw [gt_iff_lt, BitVec.lt_def, hmax]
  omega

/-- One call returns what the map returns, and leaves what the map leaves. -/
theorem PageCall.run_refines (hlevel : table.LevelOk arch) (h : PagesHold arch table mem s)
    {c : PageCall} (hc : c.Ok arch table) :
    ∃ mem', c.run arch table mem = .ok ((s.apply arch table c).1, mem') ∧
      PagesHold arch table mem' (s.apply arch table c).2 ∧
      ∀ t i, t ≠ table.table ∨ i ≠ table.blockOf c.va → mem' t i = mem t i := by
  obtain ⟨hcov, htype⟩ := hc
  obtain ⟨htte, hidx⟩ := hcov.tte hlevel
  have hword := h.word _ hidx
  have hkeep : ∀ w t i, t ≠ table.table ∨ i ≠ table.blockOf c.va →
      mem.writeTte table.table (table.blockOf c.va) w t i = mem t i := by
    intro w t i hout
    exact if_neg fun hat => hout.elim (fun ht => ht hat.1) fun hi => hi hat.2
  cases c with
  | map va pa attrs =>
    have hmt := htype va pa attrs rfl
    simp only [PageCall.va] at htte hidx hword hkeep
    have hfree : mem table.table (table.blockOf va) ≠ transientDesc ↔
        ¬ (s (table.blockOf va)).isNone := by
      rw [hword, ne_eq, transientWord_eq_transientDesc, Option.isNone_iff_eq_none]
    unfold PageCall.run xlatMapMemoryPageWithAttrs PageMap.apply
    dsimp only
    rw [htte, ok_bind_eq]
    simp only [hfree, gt_xlatArchGetMaxSupportedPa]
    by_cases hnone : (s (table.blockOf va)).isNone
    · by_cases hpa : pa.toNat < 2 ^ arch.paWidth
      · have hround : pa &&& ~~~xlatBlockMask table.level &&& xlatBlockMask
            table.level = 0#64 := by
          rw [BitVec.and_assoc, BitVec.and_comm (~~~_), BitVec.and_not_self]
          exact BitVec.and_zero
        have hnew := h.write (table.blockOf va) (some ⟨pa, attrs⟩) fun m hm => by
          cases hm
          exact ⟨hmt, hpa⟩
        rw [if_neg (not_not.mpr hnone), if_neg (not_not.mpr hpa), if_pos ⟨hnone, hpa⟩,
          xlatDesc_eq hmt.1 hmt.2 hround, ok_bind_eq]
        exact ⟨_, rfl, hnew, hkeep _⟩
      · rw [if_neg (not_not.mpr hnone), if_pos hpa, if_neg fun hin => hpa hin.2]
        exact ⟨mem, rfl, h, fun _ _ _ => rfl⟩
    · rw [if_pos hnone, if_neg fun hin => hnone hin.1]
      exact ⟨mem, rfl, h, fun _ _ _ => rfl⟩
  | unmap va =>
    simp only [PageCall.va] at htte hidx hword hkeep
    unfold PageCall.run xlatUnmapMemoryPage PageMap.apply
    dsimp only
    rw [htte, ok_bind_eq]
    dsimp only
    cases hs : s (table.blockOf va) with
    | none =>
      have hinvalid : transientDesc &&& (transientDesc ||| validDesc) ≠
          transientDesc ||| validDesc := by decide
      rw [hs] at hword
      rw [hword, transientWord, if_pos hinvalid]
      exact ⟨mem, rfl, h, fun _ _ _ => rfl⟩
    | some m =>
      have hnew := h.write (table.blockOf va) none fun m hm => by cases hm
      rw [hs] at hword
      rw [hword, transientWord_valid, if_neg (not_not.mpr rfl)]
      exact ⟨_, rfl, hnew, hkeep _⟩

/-- A sequence of calls. -/
theorem runPageCalls_sim (hlevel : table.LevelOk arch) {calls : List PageCall}
    (hcalls : ∀ c ∈ calls, c.Ok arch table) (h : PagesHold arch table mem s) :
    ∃ mem', runPageCalls arch table calls mem = .ok ((s.applyAll arch table calls).1, mem') ∧
      PagesHold arch table mem' (s.applyAll arch table calls).2 ∧
      ∀ t i, (t ≠ table.table ∨ ∀ c ∈ calls, i ≠ table.blockOf c.va) →
        mem' t i = mem t i := by
  induction calls generalizing mem s with
  | nil => exact ⟨mem, rfl, h, fun _ _ _ => rfl⟩
  | cons c rest ih =>
    obtain ⟨mem1, hrun1, hold1, hkeep1⟩ :=
      PageCall.run_refines hlevel h (hcalls c (List.mem_cons_self ..))
    obtain ⟨mem2, hrun2, hold2, hkeep2⟩ :=
      ih (fun d hd => hcalls d (List.mem_cons_of_mem _ hd)) hold1
    refine ⟨mem2, ?_, hold2, fun t i hout => ?_⟩
    · unfold runPageCalls
      rw [hrun1, ok_bind_eq]
      dsimp only
      rw [hrun2, ok_bind_eq]
      rfl
    · rw [hkeep2 t i (hout.imp id fun hall d hd => hall d (List.mem_cons_of_mem _ hd)),
        hkeep1 t i (hout.imp id fun hall => hall c (List.mem_cons_self ..))]

end

/-- A table of transient entries is a map: over any sequence of calls on its addresses the results
and the entries are those of the map, and nothing else changes. -/
theorem runPageCalls_refines {arch : XlatArch} {table : XlatLltInfo} (hlevel : table.LevelOk arch)
    {calls : List PageCall} (hcalls : ∀ c ∈ calls, c.Ok arch table)
    {mem : XlatMem} {s : PageMap}
    (h : PagesHold arch table mem s) :
    ∃ mem', runPageCalls arch table calls mem = .ok ((s.applyAll arch table calls).1, mem') ∧
      PagesHold arch table mem' (s.applyAll arch table calls).2 ∧
      PagesEncode arch table mem' (s.applyAll arch table calls).2 ∧
      ∀ t i, (t ≠ table.table ∨ ∀ c ∈ calls, i ≠ table.blockOf c.va) →
        mem' t i = mem t i := by
  obtain ⟨mem', hrun, hold, hkeep⟩ := runPageCalls_sim hlevel hcalls h
  exact ⟨mem', hrun, hold, hold.encode hlevel, hkeep⟩

/-- Tables of which all entries are free. -/
def freePages : XlatMem := fun _ _ => transientDesc

/-- A page is mapped, refused while it is mapped, unmapped, and refused once it is free. -/
theorem runPageCalls_refines_page :
    ∃ mem', runPageCalls .plain ⟨0x1000#64, 3, 0#64⟩ [.map 0x5000#64 0x7000#64 mtMemory,
        .map 0x5000#64 0x8000#64 mtMemory, .unmap 0x5000#64, .unmap 0x5000#64] freePages =
      .ok ([none, some .EFAULT, none, some .EFAULT], mem') := by
  have hlevel : (⟨0x1000#64, 3, 0#64⟩ : XlatLltInfo).LevelOk .plain :=
    ⟨by decide, by decide⟩
  have hcalls : ∀ c ∈ [PageCall.map 0x5000#64 0x7000#64 mtMemory,
      .map 0x5000#64 0x8000#64 mtMemory, .unmap 0x5000#64, .unmap 0x5000#64],
      c.Ok .plain ⟨0x1000#64, 3, 0#64⟩ := by
    intro c hc
    simp only [List.mem_cons, List.not_mem_nil, or_false] at hc
    obtain rfl | rfl | rfl | rfl := hc
    all_goals
      refine ⟨by decide, fun va pa attrs heq => ?_⟩
      cases heq
      try exact ⟨by decide, by decide⟩
  have hfree : PagesHold .plain ⟨0x1000#64, 3, 0#64⟩ freePages fun _ => none :=
    ⟨fun _ _ => rfl, fun hm => by cases hm⟩
  obtain ⟨mem', hrun, -⟩ := runPageCalls_refines hlevel hcalls hfree
  exact ⟨mem', hrun⟩

/-- The low bits of an address are lost, and without FEAT_LPA2 also its bits from 48 on. -/
theorem runPageCalls_address_lost :
    (∃ mem', runPageCalls .plain ⟨0x1000#64, 3, 0#64⟩ [.map 0x5000#64 0x7234#64 mtMemory]
        freePages = .ok ([none], mem') ∧
      xlatGetOaFromTte .plain (mem' 0x1000#64 5) ≠ 0x7234#64) ∧
    ∃ mem', runPageCalls .wide ⟨0x1000#64, 3, 0#64⟩
        [.map 0x5000#64 0x1000000007000#64 mtMemory] freePages = .ok ([none], mem') ∧
      xlatGetOaFromTte .wide (mem' 0x1000#64 5) ≠ 0x1000000007000#64 :=
  ⟨⟨_, rfl, by decide⟩, _, rfl, by decide⟩

end RmmCaec
