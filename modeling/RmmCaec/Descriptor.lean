import Mathlib.Data.BitVec
import Mathlib.Tactic

/-!
# Stage 2 descriptors as 64-bit words

The constants, constructors and predicates of the stage 2 translation table
library, on the words that the tables really hold. The assertions of the
constructors are kept as separate Boolean functions, so that the handlers can
fail at the place where the monitor would stop.
-/
namespace RmmCaec

/-- A machine word: an address, a register or a stage 2 entry. -/
abbrev Word := BitVec 64

/-- The RIPAS values that a stage 2 entry can encode. -/
inductive Ripas
  | EMPTY
  | RAM
  | DESTROYED
  deriving DecidableEq, Repr

def granuleSize : ℕ := 4096
def s2ttesPerS2tt : ℕ := 512
def s2ttesPerS2ttLm1 : ℕ := 16
def s2ttPageLevel : ℤ := 3
def s2ttMinBlockLevel : ℤ := 1
def s2ttMinStartingLevel : ℤ := 0
def s2ttMinStartingLevelLpa2 : ℤ := -1

/-- The part of `struct s2tt_context` that table walks and descriptors read, and the option
`ENABLE_OPENCCA` of the build, which is the same in every context of a machine. -/
structure S2ttContext where
  ipaBits : ℕ
  s2StartingLevel : ℤ
  numRootRtts : ℕ
  gRtt : Word
  vmid : ℕ
  enableLpa2 : Bool
  opencca : Bool
  deriving DecidableEq, Repr

def granuleAligned (addr : Word) : Bool := addr &&& 0xfff#64 == 0#64

theorem granuleAligned_iff {a : Word} : granuleAligned a = true ↔ a.toNat % 4096 = 0 := by
  have h : (a &&& 0xfff#64).toNat = a.toNat % 4096 := by
    rw [BitVec.toNat_and]
    exact Nat.and_two_pow_sub_one_eq_mod a.toNat 12
  rw [granuleAligned, beq_iff_eq, ← BitVec.toNat_inj, h]
  rfl

/-- The lowest IPA bit that an index at `level` resolves. -/
def levelLsb (level : ℤ) : ℕ := (3 - level).toNat * 9 + 12

/-- The size of the range that one entry at `level` describes. -/
def s2tteMapSize (level : ℤ) : ℕ := 2 ^ levelLsb level

/-- The mask with the bits `lsb` to `msb` set. -/
def bitMaskUll (msb lsb : ℕ) : Word :=
  (BitVec.allOnes 64 >>> (63 - msb)) &&& (BitVec.allOnes 64 <<< lsb)

def lpa2S2tte5150 : Word := bitMaskUll 9 8
def lpa2Oa4948 : Word := bitMaskUll 49 48
def lpa2Oa5150 : Word := bitMaskUll 51 50

def s2tteOaBits (lpa2 : Bool) : ℕ := if lpa2 then 52 else 48

def s2tteLvlMask (level : ℤ) (lpa2 : Bool) : Word :=
  let mask := bitMaskUll 47 (levelLsb level)
  if lpa2 then mask ||| (lpa2S2tte5150 ||| lpa2Oa4948) else mask

/-- The physical address in an entry, aligned to `level`. -/
def s2tteToPa (s2tte : Word) (level : ℤ) (lpa2 : Bool) : Word :=
  let pa := s2tte &&& s2tteLvlMask level lpa2
  if lpa2 then
    (pa &&& ~~~lpa2S2tte5150) ||| (((s2tte &&& lpa2S2tte5150) >>> 8) <<< 50)
  else pa

/-- An entry that holds only the physical address. -/
def paToS2tte (pa : Word) (lpa2 : Bool) : Word :=
  if lpa2 then (pa &&& ~~~lpa2Oa5150) ||| (((pa &&& lpa2Oa5150) >>> 50) <<< 8) else pa

def s2tteIsAddrLvlAligned (ctx : S2ttContext) (addr : Word) (level : ℤ) : Bool :=
  addr == addr &&& bitMaskUll (s2tteOaBits ctx.enableLpa2 - 1) (levelLsb level)

def descTypeMask : Word := 3#64
def descInvalid : Word := 0#64
def descL012Block : Word := 1#64
def descL012Table : Word := 3#64
def descL3Page : Word := 3#64

def invalidHipasMask : Word := 0x1c#64
def invalidHipasUnassigned : Word := 0#64
def invalidHipasAssigned : Word := 0x4#64

def invalidRipasMask : Word := 0x60#64

def invalidRipas : Ripas → Word
  | .EMPTY => 0#64
  | .RAM => 0x20#64
  | .DESTROYED => 0x40#64

def s2tteNs : Word := 1#64 <<< 55
def s2tteAf : Word := 1#64 <<< 10
def s2tteXn : Word := 2#64 <<< 53
def s2tteMemattrMask : Word := 7#64 <<< 2

/-- Without FWB all bits of MemAttr are set: type and cachability come from stage 1. -/
def s2tteMemattrFwbNormalWb (opencca : Bool) : Word :=
  if opencca then 0xF#64 <<< 2 else (1#64 <<< 4) ||| (2#64 <<< 2)

def s2tteMemattrFwbReserved : Word := (1#64 <<< 4) ||| (0#64 <<< 2)
def s2tteApMask : Word := 3#64 <<< 6
def s2tteApRw : Word := 3#64 <<< 6
def s2tteApRo : Word := 1#64 <<< 6
def s2tteShIs : Word := 3#64 <<< 8

def s2tteNsAttrMask : Word := s2tteMemattrMask ||| s2tteApMask

/-- The private flag that asks `s2tte_create_assigned` for a read-only mapping. -/
def s2tteCreateFlagRo : Word := 1#64 <<< 62

section
variable (opencca : Bool)

def s2tteAttrsLpa2 : Word := s2tteMemattrFwbNormalWb opencca ||| s2tteApRw ||| s2tteAf
def s2tteAttrsLpa2Ro : Word := s2tteMemattrFwbNormalWb opencca ||| s2tteApRo ||| s2tteAf
def s2tteAttrs : Word := s2tteAttrsLpa2 opencca ||| s2tteShIs
def s2tteAttrsRo : Word := s2tteAttrsLpa2Ro opencca ||| s2tteShIs

def s2tteNsAttrRmm : Word :=
  if opencca then s2tteAf ||| s2tteNs ||| s2tteXn ||| s2tteMemattrFwbNormalWb opencca
  else s2tteAf ||| s2tteNs ||| s2tteXn

/-- The attributes of a valid mapping, by the LPA2 and read-only choices. -/
def s2tteRamAttrs (lpa2 wantRo : Bool) : Word :=
  if lpa2 then (if wantRo then s2tteAttrsLpa2Ro opencca else s2tteAttrsLpa2 opencca)
  else (if wantRo then s2tteAttrsRo opencca else s2tteAttrs opencca)

def s2tteBlock (lpa2 wantRo : Bool) : Word := s2tteRamAttrs opencca lpa2 wantRo ||| descL012Block
def s2ttePage (lpa2 wantRo : Bool) : Word := s2tteRamAttrs opencca lpa2 wantRo ||| descL3Page

def s2tteBlockNs : Word := s2tteNsAttrRmm opencca ||| descL012Block
def s2ttePageNs : Word := s2tteNsAttrRmm opencca ||| descL3Page

end

def s2tteCreateUnassigned (r : Ripas) : Word := invalidHipasUnassigned ||| invalidRipas r

def s2tteCreateUnassignedEmpty : Word := s2tteCreateUnassigned .EMPTY
def s2tteCreateUnassignedRam : Word := s2tteCreateUnassigned .RAM
def s2tteCreateUnassignedDestroyed : Word := s2tteCreateUnassigned .DESTROYED
def s2tteCreateUnassignedNs : Word := s2tteNs ||| invalidHipasUnassigned

/-- The assertions of `s2tte_create_assigned`. -/
def s2tteCreateAssignedOk (ctx : S2ttContext) (pa : Word) (level : ℤ) : Bool :=
  decide (s2ttMinBlockLevel ≤ level) && decide (level ≤ s2ttPageLevel) &&
    s2tteIsAddrLvlAligned ctx pa level

/-- An assigned entry; for RIPAS RAM it is a valid page or block mapping. -/
def s2tteCreateAssigned (ctx : S2ttContext) (pa : Word) (level : ℤ) (ripas : Word) : Word :=
  let tte := paToS2tte pa ctx.enableLpa2
  let ripasOnly := ripas &&& invalidRipasMask
  let wantRo := ripas &&& s2tteCreateFlagRo != 0#64
  if ripasOnly = invalidRipas .RAM then
    if level = s2ttPageLevel then tte ||| s2ttePage ctx.opencca ctx.enableLpa2 wantRo
    else tte ||| s2tteBlock ctx.opencca ctx.enableLpa2 wantRo
  else tte ||| invalidHipasAssigned ||| ripasOnly

def s2tteCreateAssignedEmpty (ctx : S2ttContext) (pa : Word) (level : ℤ) : Word :=
  s2tteCreateAssigned ctx pa level (invalidRipas .EMPTY)

def s2tteCreateAssignedRam (ctx : S2ttContext) (pa : Word) (level : ℤ) : Word :=
  s2tteCreateAssigned ctx pa level (invalidRipas .RAM)

def s2tteCreateAssignedRamReadOnly (ctx : S2ttContext) (pa : Word) (level : ℤ) : Word :=
  s2tteCreateAssigned ctx pa level (invalidRipas .RAM ||| s2tteCreateFlagRo)

def s2tteCreateAssignedDestroyed (ctx : S2ttContext) (pa : Word) (level : ℤ) : Word :=
  s2tteCreateAssigned ctx pa level (invalidRipas .DESTROYED)

/-- An assigned entry with the RIPAS field of the entry it replaces. -/
def s2tteCreateAssignedUnchanged (ctx : S2ttContext) (s2tte pa : Word) (level : ℤ) : Word :=
  s2tteCreateAssigned ctx pa level (s2tte &&& invalidRipasMask)

/-- An entry for an unprotected mapping: address, MemAttr and S2AP come from the
argument, everything else is set here. -/
def s2tteCreateAssignedNs (ctx : S2ttContext) (s2tte : Word) (level : ℤ) : Word :=
  let new := s2tte &&& ~~~descTypeMask
  let new := if ctx.enableLpa2 then new else new ||| s2tteShIs
  if level = s2ttPageLevel then new ||| s2ttePageNs ctx.opencca else
    new ||| s2tteBlockNs ctx.opencca

def s2tteCreateTable (ctx : S2ttContext) (pa : Word) : Word :=
  paToS2tte pa ctx.enableLpa2 ||| descL012Table

def hostNsS2tteIsValid (ctx : S2ttContext) (s2tte : Word) (level : ℤ) : Bool :=
  let mask := s2tteLvlMask level ctx.enableLpa2 ||| s2tteNsAttrMask
  (s2tte &&& ~~~mask == 0#64) && (s2tte &&& s2tteMemattrMask != s2tteMemattrFwbReserved)

def entryIsTable (entry : Word) : Bool := entry &&& descTypeMask == descL012Table

def s2tteIsTable (s2tte : Word) (level : ℤ) : Bool :=
  decide (level < s2ttPageLevel) && (s2tte &&& descTypeMask == descL012Table)

def s2tteHasRipas (s2tte : Word) (level : ℤ) : Bool :=
  (s2tte &&& s2tteNs == 0#64) && !s2tteIsTable s2tte level

def s2tteHasHipas (s2tte hipas : Word) : Bool :=
  (s2tte &&& descTypeMask == descInvalid) && (s2tte &&& invalidHipasMask == hipas)

def s2tteHasUnassignedRipas (s2tte : Word) (r : Ripas) : Bool :=
  (s2tte &&& invalidRipasMask == invalidRipas r) && s2tteHasHipas s2tte invalidHipasUnassigned

def s2tteHasAssignedRipas (s2tte : Word) (r : Ripas) : Bool :=
  (s2tte &&& invalidRipasMask == invalidRipas r) && s2tteHasHipas s2tte invalidHipasAssigned

def s2tteIsUnassigned (s2tte : Word) : Bool := s2tteHasHipas s2tte invalidHipasUnassigned

def s2tteIsUnassignedEmpty (s2tte : Word) : Bool :=
  (s2tte &&& s2tteNs == 0#64) && s2tteHasUnassignedRipas s2tte .EMPTY

def s2tteIsUnassignedRam (s2tte : Word) : Bool := s2tteHasUnassignedRipas s2tte .RAM

def s2tteIsUnassignedNs (s2tte : Word) : Bool :=
  (s2tte &&& s2tteNs != 0#64) && s2tteHasHipas s2tte invalidHipasUnassigned

def s2tteIsUnassignedDestroyed (s2tte : Word) : Bool :=
  s2tteHasUnassignedRipas s2tte .DESTROYED

def s2tteIsAssignedDestroyed (s2tte : Word) : Bool := s2tteHasAssignedRipas s2tte .DESTROYED

def s2tteIsAssignedEmpty (s2tte : Word) : Bool := s2tteHasAssignedRipas s2tte .EMPTY

/-- Only pages at level 3 and blocks at levels 1 and 2 are valid leaves. -/
def s2tteCheck (s2tte : Word) (level : ℤ) (ns : Word) : Bool :=
  if s2tte &&& s2tteNs ≠ ns then false
  else if level = s2ttPageLevel then s2tte &&& descTypeMask == descL3Page
  else decide (s2ttMinBlockLevel ≤ level) && (s2tte &&& descTypeMask == descL012Block)

def s2tteIsAssignedRam (s2tte : Word) (level : ℤ) : Bool := s2tteCheck s2tte level 0#64

def s2tteIsAssignedNs (s2tte : Word) (level : ℤ) : Bool := s2tteCheck s2tte level s2tteNs

def s2tteHasPa (s2tte : Word) : Bool :=
  (s2tte &&& descTypeMask != descInvalid) || s2tteIsAssignedEmpty s2tte ||
    s2tteIsAssignedDestroyed s2tte

def s2tteIsLive (s2tte : Word) : Bool := s2tteHasPa s2tte

/-- The RIPAS of an entry. A valid descriptor stands for RAM; `none` is a failed assertion. -/
def s2tteGetRipas (s2tte : Word) : Option Ripas :=
  let descRipas := s2tte &&& invalidRipasMask
  let descType := s2tte &&& descTypeMask
  if descType ≠ descInvalid then
    if descType = descL012Block ∨ descType = descL3Page then some .RAM else none
  else if s2tte &&& invalidHipasMask ≤ invalidHipasAssigned then
    [Ripas.EMPTY, .RAM, .DESTROYED].find? fun r => descRipas == invalidRipas r
  else none

/-- The physical address that an entry refers to; a table address is not aligned
beyond the page size. -/
def s2ttePa (ctx : S2ttContext) (s2tte : Word) (level : ℤ) : Word :=
  if s2tteIsTable s2tte level then s2tteToPa s2tte s2ttPageLevel ctx.enableLpa2
  else s2tteToPa s2tte level ctx.enableLpa2

end RmmCaec
