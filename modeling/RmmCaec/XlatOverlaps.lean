import RmmCaec.XlatContexts

/-!
# Overlaps of accepted regions

The checks reject a region of which the first or the last physical address lies in a region
before it. A region that reaches over a region before it on both sides has neither end there
and passes. Everything else that the checks are for holds of every list that they accept.
-/
namespace RmmCaec

/-- No virtual address is in both regions. -/
def VaApart (a b : XlatMmapRegion) : Prop :=
  a.baseVa.toNat + a.size.toNat ≤ b.baseVa.toNat ∨
    b.baseVa.toNat + b.size.toNat ≤ a.baseVa.toNat

/-- Two regions of which the physical addresses are known. -/
def NonTransient (a b : XlatMmapRegion) : Prop :=
  mtType a.attr ≠ mtTransient ∧ mtType b.attr ≠ mtTransient

/-- No physical address is in both regions, unless one of them is transient. -/
def PaApart (a b : XlatMmapRegion) : Prop :=
  NonTransient a b → a.basePa.toNat + a.size.toNat ≤ b.basePa.toNat ∨
    b.basePa.toNat + b.size.toNat ≤ a.basePa.toNat

/-- The later region reaches over the earlier one on both sides. -/
def ReachesOver (a b : XlatMmapRegion) : Prop :=
  NonTransient a b ∧ b.basePa.toNat < a.basePa.toNat ∧
    a.basePa.toNat + a.size.toNat < b.basePa.toNat + b.size.toNat

/-- What the checks on a list of regions are for. -/
structure MmapDisjoint (arch : XlatArch) (ctxBaseVa vaSize : Word) (mm : List XlatMmapRegion) :
    Prop where
  aligned : ∀ r ∈ mm, 4096 ∣ r.baseVa.toNat ∧ 4096 ∣ r.basePa.toNat ∧
    4096 ∣ r.size.toNat
  some_page : ∀ r ∈ mm, 0 < r.size.toNat
  no_wrap : ∀ r ∈ mm, r.baseVa.toNat + r.size.toNat ≤ 2 ^ 64 ∧
    r.basePa.toNat + r.size.toNat < 2 ^ 64
  va_space : ∀ r ∈ mm, ctxBaseVa.toNat ≤ r.baseVa.toNat ∧
    r.baseVa.toNat + r.size.toNat ≤ ctxBaseVa.toNat + vaSize.toNat
  pa_limit : ∀ r ∈ mm, r.basePa.toNat + r.size.toNat ≤ 2 ^ arch.paWidth
  va_apart : mm.Pairwise VaApart
  pa_apart : mm.Pairwise PaApart

/-- The test on the ends of a region, for one region before it. -/
def PaEndsOutside (a b : XlatMmapRegion) : Prop :=
  NonTransient a b → paOverlaps [a] b.basePa (b.basePa + b.size - 1#64) = false

section
variable {arch : XlatArch} {vaSize ctxBaseVa : Word} {region : XlatAddrRegionId}
  {prev rest out mm : List XlatMmapRegion} {a b r : XlatMmapRegion}

/-- The loop over the regions before a region that passes. -/
theorem validateMmapOrder_paOverlaps (h : validateMmapOrder prev r = none)
    (htr : mtType r.attr ≠ mtTransient) :
    paOverlaps prev r.basePa (r.basePa + r.size - 1#64) = false := by
  unfold validateMmapOrder at h
  cases hlast : prev.getLast? with
  | none =>
    rw [List.getLast?_eq_none_iff.mp hlast]
    rfl
  | some last =>
    rw [hlast] at h
    simp only [htr, if_false] at h
    split_ifs at h with h1 h2 h3
    exact Bool.eq_false_iff.mpr h3

theorem paEndsOutside_of_order (h : validateMmapOrder prev r = none) (ha : a ∈ prev) :
    PaEndsOutside a r := by
  intro htr
  have hall := validateMmapOrder_paOverlaps h htr.2
  unfold paOverlaps at hall ⊢
  rw [List.any_eq_false] at hall
  simpa using hall a ha

theorem paEndsOutside_relativeTo (base : Word) (a b : XlatMmapRegion) :
    PaEndsOutside (relativeTo base a) (relativeTo base b) ↔ PaEndsOutside a b := Iff.rfl

/-- The loop: each region passes the test against all regions before it. -/
theorem validateMmapFrom_paEndsOutside (hva : 4096 ∣ vaSize.toNat)
    (h : validateMmapFrom arch (xlatCtxBaseVa region vaSize) vaSize region prev rest = (none, out))
    (hprev : prev.Pairwise PaEndsOutside) : out.Pairwise PaEndsOutside := by
  induction rest generalizing prev with
  | nil =>
    obtain ⟨-, rfl⟩ := Prod.mk.inj h
    exact hprev
  | cons r rest ih =>
    unfold validateMmapFrom at h
    split at h
    case h_1 r' hr =>
      obtain ⟨-, -, -, horder⟩ := validateMmapRegion_ok hva hr
      refine ih h (List.pairwise_append.mpr ⟨hprev, List.pairwise_singleton _ _, ?_⟩)
      intro a ha b hb
      rw [List.mem_singleton.mp hb]
      exact paEndsOutside_of_order horder ha
    case h_2 => simp at h

/-- The ends of a region as numbers. -/
theorem PaEndsOutside.ends (h : PaEndsOutside a b) (htr : NonTransient a b)
    (hpa : a.basePa.toNat + a.size.toNat < 2 ^ 64) (hpb : b.basePa.toNat + b.size.toNat < 2 ^ 64)
    (ha : 0 < a.size.toNat) (hb : 0 < b.size.toNat) :
    (b.basePa.toNat < a.basePa.toNat ∨ a.basePa.toNat + a.size.toNat ≤ b.basePa.toNat) ∧
      (b.basePa.toNat + b.size.toNat ≤ a.basePa.toNat ∨
        a.basePa.toNat + a.size.toNat < b.basePa.toNat + b.size.toNat) := by
  have hends := h htr
  have hlast : ∀ r : XlatMmapRegion, r.basePa.toNat + r.size.toNat < 2 ^ 64 →
      0 < r.size.toNat →
      (r.basePa + r.size - 1#64).toNat = r.basePa.toNat + r.size.toNat - 1 := by
    intro r hend hpos
    refine last_toNat ?_ hpos
    rw [BitVec.le_def, BitVec.toNat_sub, BitVec.toNat_add, BitVec.toNat_ofNat]
    omega
  have ha1 := hlast a hpa ha
  have hb1 := hlast b hpb hb
  simp only [paOverlaps, List.any_cons, List.any_nil, Bool.or_false, Bool.and_eq_false_iff,
    bne_eq_false_iff_eq, htr.1, false_or, Bool.or_eq_false_iff, decide_eq_false_iff_not,
    BitVec.le_def, ha1, hb1] at hends
  omega

/-- Two regions that pass the test are apart unless the later one reaches over the earlier. -/
theorem PaEndsOutside.apart_iff (h : PaEndsOutside a b)
    (hpa : a.basePa.toNat + a.size.toNat < 2 ^ 64) (hpb : b.basePa.toNat + b.size.toNat < 2 ^ 64)
    (ha : 0 < a.size.toNat) (hb : 0 < b.size.toNat) : PaApart a b ↔ ¬ ReachesOver a b := by
  constructor
  · rintro hap ⟨htr, h1, h2⟩
    have hcase := hap htr
    omega
  · intro hnot htr
    have hends := h.ends htr hpa hpb ha hb
    by_contra hmeet
    refine hnot ⟨htr, ?_, ?_⟩ <;> omega

/-- All but the physical addresses of a list that passes. -/
theorem validateMmapRegions_ok (hva : 4096 ∣ vaSize.toNat)
    (h : validateMmapRegions arch (xlatCtxBaseVa region vaSize) vaSize region mm = (none, out)) :
    RegionsOk arch vaSize (mm.map (relativeTo (xlatCtxBaseVa region vaSize))) ∧
      (∀ r ∈ mm, xlatCtxBaseVa region vaSize ≤ r.baseVa) ∧ mm.Pairwise PaEndsOutside := by
  unfold validateMmapRegions at h
  split_ifs at h
  · cases h
  obtain ⟨hok, hout, hin⟩ := validateMmapFrom_ok hva ⟨by simp, .nil⟩ h
  have hends := validateMmapFrom_paEndsOutside hva h .nil
  rw [List.nil_append] at hout
  rw [hout] at hok hends
  have hmm : mm.Pairwise PaEndsOutside :=
    (List.pairwise_map.mp hends).imp fun hab => (paEndsOutside_relativeTo _ _ _).mp hab
  exact ⟨hok, hin, hmm⟩

end

/-- An accepted list of regions is as it should be if and only if no region reaches over a
region before it. -/
theorem validateMmapRegions_disjoint_iff {arch : XlatArch} {vaSize : Word}
    {region : XlatAddrRegionId} {mm out : List XlatMmapRegion} (hva : 4096 ∣ vaSize.toNat)
    (h : validateMmapRegions arch (xlatCtxBaseVa region vaSize) vaSize region mm = (none, out)) :
    MmapDisjoint arch (xlatCtxBaseVa region vaSize) vaSize mm ↔
      mm.Pairwise fun a b => ¬ ReachesOver a b := by
  obtain ⟨hok, hin, hends⟩ := validateMmapRegions_ok hva h
  have hrel : ∀ r ∈ mm, RegionOk arch vaSize (relativeTo (xlatCtxBaseVa region vaSize) r) :=
    fun r hr => hok.ok _ (List.mem_map_of_mem hr)
  have hw : 2 ^ arch.paWidth ≤ 2 ^ 52 := Nat.pow_le_pow_right (by omega) arch.paWidth_le
  have hpa : ∀ r ∈ mm, r.basePa.toNat + r.size.toNat ≤ 2 ^ arch.paWidth := fun r hr =>
    (hrel r hr).pa_end
  have hpos : ∀ r ∈ mm, 0 < r.size.toNat := fun r hr => (hrel r hr).some_page
  have hapart : mm.Pairwise PaApart ↔ mm.Pairwise fun a b => ¬ ReachesOver a b := by
    have hpair : mm.Pairwise fun a b => PaApart a b ↔ ¬ ReachesOver a b := by
      refine hends.imp_of_mem fun ha hb he => ?_
      have h1 := hpa _ ha
      have h2 := hpa _ hb
      exact he.apart_iff (by omega) (by omega) (hpos _ ha) (hpos _ hb)
    constructor
    · intro hall
      exact hall.imp₂ (fun _ _ hp hiff => hiff.mp hp) hpair
    · intro hall
      exact hall.imp₂ (fun _ _ hp hiff => hiff.mpr hp) hpair
  rw [← hapart]
  refine ⟨fun hall => hall.pa_apart, fun hall => ?_⟩
  -- the start of the context is aligned, so the relative bounds are the bounds of the region
  have hstart := xlatCtxBaseVa_bounds region hva
  have hsub : ∀ r ∈ mm, (relativeTo (xlatCtxBaseVa region vaSize) r).baseVa.toNat +
      (xlatCtxBaseVa region vaSize).toNat = r.baseVa.toNat := by
    intro r hr
    have hle := BitVec.le_def.mp (hin r hr)
    have hlt := r.baseVa.isLt
    rw [relativeTo, BitVec.toNat_sub]
    omega
  have hend : ∀ r ∈ mm, r.baseVa.toNat + r.size.toNat ≤
      (xlatCtxBaseVa region vaSize).toNat + vaSize.toNat := by
    intro r hr
    have hrend : (relativeTo (xlatCtxBaseVa region vaSize) r).baseVa.toNat + r.size.toNat ≤
        vaSize.toNat := (hrel r hr).va_end
    have hr' := hsub r hr
    omega
  refine ⟨fun r hr => ⟨?_, (hrel r hr).pa_aligned, (hrel r hr).size_aligned⟩, hpos,
    fun r hr => ⟨?_, ?_⟩, fun r hr => ⟨BitVec.le_def.mp (hin r hr), hend r hr⟩,
      hpa, ?_, hall⟩
  · rw [← hsub r hr]
    exact Nat.dvd_add (hrel r hr).va_aligned hstart.1
  · exact (hend r hr).trans hstart.2
  · have hlimit := hpa r hr
    omega
  · refine (List.pairwise_map.mp hok.ascending).imp_of_mem fun ha hb hbelow => .inl ?_
    have h1 := hsub _ ha
    have h2 := hsub _ hb
    unfold RegionBelow at hbelow
    simp only [relativeTo] at hbelow h1 h2
    omega

/-- Two pages that are mapped the other way round. -/
def swappedPages : List XlatMmapRegion :=
  [⟨0x2000#64, 0x1000#64, 0x1000#64, mtMemory, 0x1000#64⟩,
    ⟨0x1000#64, 0x2000#64, 0x1000#64, mtMemory, 0x1000#64⟩]

theorem validateMmapRegions_disjoint_iff_swapped :
    MmapDisjoint .plain 0#64 0x10000#64 swappedPages ↔
      swappedPages.Pairwise fun a b => ¬ ReachesOver a b := by
  have hpass : validateMmapRegions .plain (xlatCtxBaseVa .VA_LOW_REGION 0x10000#64) 0x10000#64
      .VA_LOW_REGION swappedPages = (none, swappedPages) := by decide
  exact validateMmapRegions_disjoint_iff (by decide) hpass

/-- A page, and behind it three pages of which the second is that page. -/
def pageInside : List XlatMmapRegion :=
  [⟨0x2000#64, 0x1000#64, 0x1000#64, mtMemory, 0x1000#64⟩,
    ⟨0x1000#64, 0x2000#64, 0x3000#64, mtMemory, 0x1000#64⟩]

/-- A list that passes although a physical page is mapped twice. -/
theorem validateMmapRegions_page_inside :
    validateMmapRegions .plain 0#64 0x10000#64 .VA_LOW_REGION pageInside = (none, pageInside) ∧
      ¬ MmapDisjoint .plain 0#64 0x10000#64 pageInside := by
  refine ⟨by decide, fun hall => ?_⟩
  have hapart := (List.pairwise_cons.mp hall.pa_apart).1 _ (List.mem_singleton_self _)
    ⟨by decide, by decide⟩
  revert hapart
  decide

end RmmCaec
