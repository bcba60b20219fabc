import RmmCaec.XlatDescriptors

/-!
# Contexts of stage 1

The regions that a context maps, and the checks that they pass before any table is
written. For the high half of the address space the base of each region is made relative to
the start of the half on the way.
-/
namespace RmmCaec

inductive XlatErrno
  | EINVAL
  | EFAULT
  | ERANGE
  | EPERM
  | EALREADY
  | ENOMEM
  deriving DecidableEq, Repr

/-- A return value: zero, or an error. -/
abbrev XlatRet := Option XlatErrno

inductive XlatAddrRegionId
  | VA_LOW_REGION
  | VA_HIGH_REGION
  deriving DecidableEq, Repr

structure XlatMmapRegion where
  basePa : Word
  baseVa : Word
  size : Word
  attr : Word
  granularity : Word
  deriving DecidableEq, Repr

def highRegionMask : Word := bitMaskUll 63 52

section
variable (arch : XlatArch) (ctxBaseVa vaSize : Word) (region : XlatAddrRegionId)

/-- The loop over the physical addresses of the regions before. -/
def paOverlaps (prev : List XlatMmapRegion) (basePa endPa : Word) : Bool :=
  prev.any fun mm => mtType mm.attr != mtTransient &&
    ((decide (mm.basePa ≤ endPa) && decide (endPa ≤ mm.basePa + mm.size - 1#64)) ||
      (decide (mm.basePa ≤ basePa) && decide (basePa ≤ mm.basePa + mm.size - 1#64)))

/-- The checks that compare a region with those before it. -/
def validateMmapOrder (prev : List XlatMmapRegion) (mm : XlatMmapRegion) : XlatRet :=
  match prev.getLast? with
  | none => none
  | some last =>
    if mm.baseVa < last.baseVa then some .EPERM
    else if mm.baseVa ≤ last.baseVa + last.size - 1#64 then some .EPERM
    else if mtType mm.attr = mtTransient then none
    else if paOverlaps prev mm.basePa (mm.basePa + mm.size - 1#64) then some .EPERM
    else none

/-- The checks on a region of which the base is relative to the context. -/
def validateMmapBounds (prev : List XlatMmapRegion) (mm : XlatMmapRegion)
    (endVa : Word) : XlatRet :=
  let endPa := mm.basePa + mm.size - 1#64
  if !isPageAligned mm.basePa || !isPageAligned mm.baseVa || !isPageAligned mm.size then
    some .EFAULT
  else if mm.granularity ≠ xlatBlockSize 0 ∧ mm.granularity ≠ xlatBlockSize 1 ∧
      mm.granularity ≠ xlatBlockSize 2 ∧ mm.granularity ≠ xlatBlockSize 3 then some .EINVAL
  else if mm.basePa > endPa ∨ mm.baseVa > endVa then some .ERANGE
  else if endVa > vaSize then some .ERANGE
  else if endPa > xlatArchGetMaxSupportedPa arch then some .ERANGE
  else validateMmapOrder prev mm

/-- One turn of the loop: the result, and the region as it is left. -/
def validateMmapRegion (prev : List XlatMmapRegion) (mm : XlatMmapRegion) :
    XlatRet × XlatMmapRegion :=
  match region with
  | .VA_LOW_REGION =>
    if mm.baseVa &&& highRegionMask ≠ 0#64 ∨
      (mm.baseVa + mm.size) &&& highRegionMask ≠ 0#64 then
      (some .EINVAL, mm)
    else (validateMmapBounds arch vaSize prev mm (mm.baseVa + mm.size - 1#64), mm)
  | .VA_HIGH_REGION =>
    if mm.baseVa < ctxBaseVa then (some .EINVAL, mm)
    else
      let mm := { mm with baseVa := mm.baseVa - ctxBaseVa }
      (validateMmapBounds arch vaSize prev mm (mm.baseVa + mm.size), mm)

/-- The loop of `validate_mmap_regions`, behind the regions that it has checked. -/
def validateMmapFrom (prev : List XlatMmapRegion) :
    List XlatMmapRegion → XlatRet × List XlatMmapRegion
  | [] => (none, prev)
  | mm :: rest =>
    match validateMmapRegion arch ctxBaseVa vaSize region prev mm with
    | (none, mm) => validateMmapFrom (prev ++ [mm]) rest
    | (some e, mm) => (some e, prev ++ mm :: rest)

def validateMmapRegions (mm : List XlatMmapRegion) : XlatRet × List XlatMmapRegion :=
  if mm = [] then (some .EINVAL, mm) else validateMmapFrom arch ctxBaseVa vaSize region [] mm

end

structure XlatCtxCfg where
  maxVaSize : Word
  mmap : List XlatMmapRegion
  baseVa : Word
  maxMappedPa : Word
  maxMappedVaOffset : Word
  baseLevel : ℤ
  region : XlatAddrRegionId
  initialized : Bool

/-- The start of the address space of a context. -/
def xlatCtxBaseVa (region : XlatAddrRegionId) (vaSize : Word) : Word :=
  match region with
  | .VA_LOW_REGION => 0#64
  | .VA_HIGH_REGION => BitVec.allOnes 64 - vaSize + 1#64

def addMmapToCtxCfg (arch : XlatArch) (cfg : XlatCtxCfg) (region : XlatAddrRegionId)
    (mm : List XlatMmapRegion) (vaSize : Word) : XlatRet × XlatCtxCfg :=
  let cfg := { cfg with baseVa := xlatCtxBaseVa region vaSize }
  match validateMmapRegions arch cfg.baseVa vaSize region mm with
  | (some e, _) => (some e, cfg)
  | (none, mm) =>
    let endPa := fun r : XlatMmapRegion => r.basePa + r.size - 1#64
    (none, { cfg with
      maxMappedPa := mm.foldl (fun pa r => if endPa r > pa then endPa r else pa) 0#64
      maxMappedVaOffset := (mm.getLast?.map fun r => r.baseVa + r.size - 1#64).getD 0#64
      mmap := mm })

def minVirtAddrSpaceSize : Word := 1#64 <<< 16
def maxVirtAddrSpaceSize : Word := 1#64 <<< 48
def maxVirtAddrSpaceSizeLpa2 : Word := 1#64 <<< 52

def xlatCtxCfgInit (arch : XlatArch) (cfg : XlatCtxCfg) (region : XlatAddrRegionId)
    (mm : List XlatMmapRegion) (vaSize : Word) : XlatRet × XlatCtxCfg :=
  let maxVaSize := if arch.lpa2 then maxVirtAddrSpaceSizeLpa2 else maxVirtAddrSpaceSize
  if vaSize &&& 0xfff#64 ≠ 0#64 then (some .EINVAL, cfg)
  else if vaSize > maxVaSize ∨ vaSize < minVirtAddrSpaceSize then (some .EINVAL, cfg)
  else if cfg.initialized then (some .EALREADY, cfg)
  else
    match addMmapToCtxCfg arch cfg region mm vaSize with
    | (some e, cfg) => (some e, cfg)
    | (none, cfg) => (none, { cfg with
        maxVaSize := vaSize
        baseLevel := getXlatTableLevelBase arch vaSize
        region := region
        initialized := true })

/-- The checks on one region, as numbers. -/
structure RegionOk (arch : XlatArch) (vaSize : Word) (r : XlatMmapRegion) : Prop where
  va_aligned : 4096 ∣ r.baseVa.toNat
  pa_aligned : 4096 ∣ r.basePa.toNat
  size_aligned : 4096 ∣ r.size.toNat
  some_page : 0 < r.size.toNat
  va_end : r.baseVa.toNat + r.size.toNat ≤ vaSize.toNat
  pa_end : r.basePa.toNat + r.size.toNat ≤ 2 ^ arch.paWidth

/-- A region that ends where or before another one starts. -/
def RegionBelow (a b : XlatMmapRegion) : Prop := a.baseVa.toNat + a.size.toNat ≤ b.baseVa.toNat

section
variable {arch : XlatArch} {ctxBaseVa vaSize : Word} {region : XlatAddrRegionId}
  {prev : List XlatMmapRegion} {mm : XlatMmapRegion} {endVa : Word}

theorem isPageAligned_iff {a : Word} : isPageAligned a = true ↔ 4096 ∣ a.toNat := by
  rw [Nat.dvd_iff_mod_eq_zero]
  exact granuleAligned_iff

theorem xlatArchGetMaxSupportedPa_toNat (arch : XlatArch) :
    (xlatArchGetMaxSupportedPa arch).toNat = 2 ^ arch.paWidth - 1 := by
  have hlt : 2 ^ arch.paWidth ≤ 2 ^ 52 := Nat.pow_le_pow_right (by omega) arch.paWidth_le
  have hpos : 0 < 2 ^ arch.paWidth := Nat.two_pow_pos _
  have hshift : (1#64 <<< arch.paWidth).toNat = 2 ^ arch.paWidth := by
    rw [BitVec.toNat_shiftLeft, Nat.shiftLeft_eq, BitVec.toNat_ofNat]
    omega
  rw [xlatArchGetMaxSupportedPa, BitVec.toNat_sub, hshift, BitVec.toNat_ofNat]
  omega

/-- A range that does not wrap around and ends at a low address has a size. -/
theorem size_pos {base size : Word} (hle : base ≤ base + size - 1#64)
    (hlt : (base + size - 1#64).toNat < 2 ^ 63) : 0 < size.toNat := by
  have hb := base.isLt
  rw [BitVec.le_def] at hle
  simp only [BitVec.toNat_sub, BitVec.toNat_add, BitVec.toNat_ofNat] at hle hlt
  omega

/-- The last address of a range that does not wrap around. -/
theorem last_toNat {base size : Word} (hle : base ≤ base + size - 1#64) (hpos : 0 < size.toNat) :
    (base + size - 1#64).toNat = base.toNat + size.toNat - 1 := by
  have hb := base.isLt
  have hs := size.isLt
  rw [BitVec.le_def] at hle
  simp only [BitVec.toNat_sub, BitVec.toNat_add, BitVec.toNat_ofNat] at hle ⊢
  omega

/-- The bounds of a region that passes, whichever way its end was computed. -/
theorem validateMmapBounds_ok (h : validateMmapBounds arch vaSize prev mm endVa = none)
    (hva : 4096 ∣ vaSize.toNat)
    (hend : endVa = mm.baseVa + mm.size - 1#64 ∨ endVa = mm.baseVa + mm.size) :
    RegionOk arch vaSize mm ∧ validateMmapOrder prev mm = none := by
  unfold validateMmapBounds at h
  simp only at h
  split_ifs at h with hal hgran hover hva' hpa
  simp only [Bool.or_eq_true, Bool.not_eq_true', not_or, Bool.not_eq_false,
    isPageAligned_iff] at hal
  obtain ⟨⟨hpa4, hva4⟩, hsize4⟩ := hal
  obtain ⟨hpaLe, hvaLe⟩ := not_or.mp hover
  have hmax := xlatArchGetMaxSupportedPa_toNat arch
  have hw : 2 ^ arch.paWidth ≤ 2 ^ 52 := Nat.pow_le_pow_right (by omega) arch.paWidth_le
  have hpos : 0 < 2 ^ arch.paWidth := Nat.two_pow_pos _
  have hpaMax : (mm.basePa + mm.size - 1#64).toNat ≤ 2 ^ arch.paWidth - 1 := by
    rw [gt_iff_lt, BitVec.not_lt, BitVec.le_def, hmax] at hpa
    exact hpa
  rw [gt_iff_lt, BitVec.not_lt] at hpaLe hvaLe hva'
  have hsome := size_pos hpaLe (by omega)
  have hpaEnd := last_toNat hpaLe hsome
  refine ⟨⟨hva4, hpa4, hsize4, hsome, ?_, by omega⟩, h⟩
  rw [BitVec.le_def] at hva'
  obtain rfl | rfl := hend
  · have hvaEnd := last_toNat hvaLe hsome
    omega
  · have hb := mm.baseVa.isLt
    have hs := mm.size.isLt
    rw [BitVec.le_def] at hvaLe
    rw [BitVec.toNat_add] at hva' hvaLe
    omega

/-- The base of a region, relative to the start of its context. -/
def relativeTo (ctxBaseVa : Word) (mm : XlatMmapRegion) : XlatMmapRegion :=
  { mm with baseVa := mm.baseVa - ctxBaseVa }

/-- A region that passes: it lies in the half of the context, and its bounds are right. -/
theorem validateMmapRegion_ok {mm' : XlatMmapRegion} (hva : 4096 ∣ vaSize.toNat)
    (h : validateMmapRegion arch (xlatCtxBaseVa region vaSize) vaSize region prev mm =
    (none, mm')) :
    mm' = relativeTo (xlatCtxBaseVa region vaSize) mm ∧
      xlatCtxBaseVa region vaSize ≤ mm.baseVa ∧
      RegionOk arch vaSize mm' ∧ validateMmapOrder prev mm' = none := by
  cases region with
  | VA_LOW_REGION =>
    simp only [validateMmapRegion] at h
    split_ifs at h
    · cases h
    · obtain ⟨hb, rfl⟩ := Prod.mk.inj h
      refine ⟨?_, ?_, validateMmapBounds_ok hb hva (.inl rfl)⟩
      · simp [relativeTo, xlatCtxBaseVa]
      · simp [xlatCtxBaseVa, BitVec.le_def]
  | VA_HIGH_REGION =>
    simp only [validateMmapRegion] at h
    split_ifs at h with hlt
    · cases h
    · obtain ⟨hb, rfl⟩ := Prod.mk.inj h
      exact ⟨rfl, BitVec.not_lt.mp hlt, validateMmapBounds_ok hb hva (.inr rfl)⟩

/-- A region that passes starts behind the last region before it. -/
theorem validateMmapOrder_ok {last : XlatMmapRegion} (h : validateMmapOrder prev mm = none)
    (hlast : prev.getLast? = some last)
    (hok : RegionOk arch vaSize last) : RegionBelow last mm := by
  unfold validateMmapOrder at h
  rw [hlast] at h
  simp only at h
  split_ifs at h with hlt hle
  all_goals
    have hend := hok.va_end
    have hsize := vaSize.isLt
    have hsome := hok.some_page
    rw [BitVec.not_le, BitVec.lt_def] at hle
    simp only [BitVec.toNat_sub, BitVec.toNat_add, BitVec.toNat_ofNat] at hle
    unfold RegionBelow
    omega

/-- Regions that pass are in ascending order and do not overlap. -/
structure RegionsOk (arch : XlatArch) (vaSize : Word) (regions : List XlatMmapRegion) : Prop where
  ok : ∀ r ∈ regions, RegionOk arch vaSize r
  ascending : regions.Pairwise RegionBelow

/-- One more region behind regions in ascending order. -/
theorem RegionsOk.append (h : RegionsOk arch vaSize prev) (hok : RegionOk arch vaSize mm)
    (hlast : ∀ last, prev.getLast? = some last → RegionBelow last mm) :
    RegionsOk arch vaSize (prev ++ [mm]) := by
  refine ⟨fun r hr => ?_, List.pairwise_append.mpr
    ⟨h.ascending, List.pairwise_singleton _ _, ?_⟩⟩
  · obtain hr | hr := List.mem_append.mp hr
    · exact h.ok r hr
    · rwa [List.mem_singleton.mp hr]
  · intro a ha b hb
    rw [List.mem_singleton.mp hb]
    -- a region before the last one ends before that one starts
    obtain ⟨init, last, rfl⟩ := List.eq_nil_or_concat prev |>.resolve_left
      (List.ne_nil_of_mem ha)
    rw [List.concat_eq_append] at *
    have hmm := hlast last (by simp)
    obtain hinit | hl := List.mem_append.mp ha
    · have hbelow := (List.pairwise_append.mp h.ascending).2.2 a hinit last (by simp)
      have hpos := (h.ok last (by simp)).some_page
      unfold RegionBelow at hbelow hmm ⊢
      omega
    · rwa [List.mem_singleton.mp hl]

/-- The loop: the regions that it leaves are those it was given, relative to the context. -/
theorem validateMmapFrom_ok (hva : 4096 ∣ vaSize.toNat)
    {rest out : List XlatMmapRegion} (hprev : RegionsOk arch vaSize prev)
    (h : validateMmapFrom arch (xlatCtxBaseVa region vaSize) vaSize region prev rest =
    (none, out)) :
    RegionsOk arch vaSize out ∧
      out = prev ++ rest.map (relativeTo (xlatCtxBaseVa region vaSize)) ∧
      ∀ r ∈ rest, xlatCtxBaseVa region vaSize ≤ r.baseVa := by
  induction rest generalizing prev with
  | nil =>
    obtain ⟨-, rfl⟩ := Prod.mk.inj h
    exact ⟨hprev, by simp, by simp⟩
  | cons mm rest ih =>
    unfold validateMmapFrom at h
    split at h
    case h_1 mm' hmm =>
      obtain ⟨rfl, hle, hok, horder⟩ := validateMmapRegion_ok hva hmm
      have hnext : RegionsOk arch vaSize
          (prev ++ [relativeTo (xlatCtxBaseVa region vaSize) mm]) :=
        hprev.append hok fun last hlast =>
          validateMmapOrder_ok horder hlast (hprev.ok last (List.mem_of_getLast? hlast))
      obtain ⟨hall, rfl, hin⟩ := ih hnext h
      refine ⟨hall, by simp, fun r hr => ?_⟩
      obtain rfl | hr := List.mem_cons.mp hr
      · exact hle
      · exact hin r hr
    case h_2 => simp at h

end

/-- The address space of a context is aligned and ends in the half where it starts. -/
theorem xlatCtxBaseVa_bounds (region : XlatAddrRegionId) {vaSize : Word}
    (hva : 4096 ∣ vaSize.toNat) :
    4096 ∣ (xlatCtxBaseVa region vaSize).toNat ∧
      (xlatCtxBaseVa region vaSize).toNat + vaSize.toNat ≤ 2 ^ 64 := by
  have hlt := vaSize.isLt
  cases region with
  | VA_LOW_REGION =>
    have hzero : (xlatCtxBaseVa .VA_LOW_REGION vaSize).toNat = 0 := rfl
    omega
  | VA_HIGH_REGION =>
    have hbase : (xlatCtxBaseVa .VA_HIGH_REGION vaSize).toNat =
        (2 ^ 64 - vaSize.toNat) % 2 ^ 64 := by
      rw [xlatCtxBaseVa, BitVec.toNat_add, BitVec.toNat_sub, BitVec.toNat_allOnes,
        BitVec.toNat_ofNat]
      omega
    omega

/-- A context that was set up. -/
structure CfgOk (arch : XlatArch) (region : XlatAddrRegionId) (mm : List XlatMmapRegion)
    (vaSize : Word) (cfg : XlatCtxCfg) : Prop where
  va_aligned : 4096 ∣ vaSize.toNat
  va_min : 2 ^ 16 ≤ vaSize.toNat
  va_max : vaSize.toNat ≤ if arch.lpa2 then 2 ^ 52 else 2 ^ 48
  regions : RegionsOk arch vaSize cfg.mmap
  mmap : cfg.mmap = mm.map (relativeTo cfg.baseVa)
  half : ∀ r ∈ mm, cfg.baseVa ≤ r.baseVa
  some_region : mm ≠ []
  baseVa : cfg.baseVa = xlatCtxBaseVa region vaSize
  maxVaSize : cfg.maxVaSize = vaSize
  baseLevel : cfg.baseLevel = getXlatTableLevelBase arch vaSize

theorem xlatCtxCfgInit_ok {arch : XlatArch} {cfg0 cfg : XlatCtxCfg} {region : XlatAddrRegionId}
    {mm : List XlatMmapRegion} {vaSize : Word}
    (h : xlatCtxCfgInit arch cfg0 region mm vaSize = (none, cfg)) :
    CfgOk arch region mm vaSize cfg := by
  unfold xlatCtxCfgInit at h
  simp only at h
  generalize hlimit : (if arch.lpa2 = true then maxVirtAddrSpaceSizeLpa2
    else maxVirtAddrSpaceSize) = limit at h
  split_ifs at h with hal hbound hinit
  · cases h
  · cases h
  · cases h
  split at h
  · cases h
  case h_2 cfg1 hadd =>
    obtain ⟨-, rfl⟩ := Prod.mk.inj h
    have hva : 4096 ∣ vaSize.toNat :=
      isPageAligned_iff.mp (by simpa [isPageAligned, pageSizeMask] using hal)
    obtain ⟨hmax, hmin⟩ := not_or.mp hbound
    rw [gt_iff_lt, BitVec.not_lt, BitVec.le_def] at hmax
    rw [BitVec.not_lt, BitVec.le_def] at hmin
    have hmin' : 2 ^ 16 ≤ vaSize.toNat := hmin
    have hmax' : vaSize.toNat ≤ if arch.lpa2 then 2 ^ 52 else 2 ^ 48 := by
      rw [← hlimit] at hmax
      cases hl : arch.lpa2
      · rw [hl] at hmax
        exact hmax
      · rw [hl] at hmax
        exact hmax
    unfold addMmapToCtxCfg validateMmapRegions at hadd
    simp only at hadd
    split at hadd
    · cases hadd
    case h_2 out hval =>
      obtain ⟨-, rfl⟩ := Prod.mk.inj hadd
      split_ifs at hval with hnil
      · cases hval
      obtain ⟨hall, hout, hin⟩ := validateMmapFrom_ok hva ⟨by simp, .nil⟩ hval
      exact ⟨hva, hmin', hmax', hall, hout, hin, hnil, rfl, rfl, rfl⟩

end RmmCaec
