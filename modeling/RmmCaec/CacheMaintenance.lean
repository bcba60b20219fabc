import RmmCaec.Descriptor

/-!
# Loops over the data cache

The whole cache is cleaned by a walk over its levels, and in each level over all sets and
ways, whose numbers are packed into one operand. A range of addresses is cleaned line by
line.
-/
namespace RmmCaec

/-- CLIDR_EL1, and what CCSIDR_EL1 shows for a value of CSSELR_EL1. -/
structure CacheGeometry where
  clidr : Word
  ccsidr : Word → Word

/-- An operation on the line that an operand names by its set and way. -/
inductive DcOp
  | isw (operand : Word)
  | cisw (operand : Word)
  deriving DecidableEq, Repr

def DcOp.operand : DcOp → Word
  | .isw w | .cisw w => w

/-- Number of bits of a number. -/
def bitLength (n : ℕ) : ℕ := if n = 0 then 0 else n.log2 + 1

/-- `clz` on the low half of a register. -/
def clz32 (w : Word) : ℕ := 32 - bitLength (w.toNat % 2 ^ 32)

/-- What the loops of `__asm_dcache_level` work with, under the names of the registers. -/
structure LevelRegs where
  x12 : Word
  x2 : ℕ
  x3 : ℕ
  x4 : ℕ
  x5 : ℕ

def LevelRegs.operand (r : LevelRegs) (x4 x6 : ℕ) : Word :=
  (r.x12 ||| (BitVec.ofNat 64 x6 <<< r.x5)) ||| (BitVec.ofNat 64 x4 <<< r.x2)

def dcSetWay (invalidateOnly : Bool) (operand : Word) : DcOp :=
  if invalidateOnly then .isw operand else .cisw operand

/-- `loop_way`, from the last way down to way 0. -/
def loopWay (r : LevelRegs) (invalidateOnly : Bool) (x4 : ℕ) : ℕ → List DcOp
  | 0 => [dcSetWay invalidateOnly (r.operand x4 0)]
  | x6 + 1 =>
    dcSetWay invalidateOnly (r.operand x4 (x6 + 1)) :: loopWay r invalidateOnly x4 x6

/-- `loop_set`, from the last set down to set 0. -/
def loopSet (r : LevelRegs) (invalidateOnly : Bool) : ℕ → List DcOp
  | 0 => loopWay r invalidateOnly 0 r.x3
  | x4 + 1 => loopWay r invalidateOnly (x4 + 1) r.x3 ++ loopSet r invalidateOnly x4

def levelRegs (c : CacheGeometry) (level : ℕ) : LevelRegs :=
  let x12 := BitVec.ofNat 64 level <<< 1
  let x6 := c.ccsidr x12
  let x3 := 0x3ff#64 &&& (x6 >>> 3)
  { x12 := x12
    x2 := ((x6 &&& 7#64) + 4#64).toNat
    x3 := x3.toNat
    x4 := (0x7fff#64 &&& (x6 >>> 13)).toNat
    x5 := clz32 x3 }

def asmDcacheLevel (c : CacheGeometry) (level : ℕ) (invalidateOnly : Bool) : List DcOp :=
  loopSet (levelRegs c level) invalidateOnly (levelRegs c level).x4

def CacheGeometry.loc (c : CacheGeometry) : ℕ := ((c.clidr >>> 24) &&& 7#64).toNat

def CacheGeometry.cacheType (c : CacheGeometry) (level : ℕ) : ℕ :=
  ((c.clidr >>> (3 * level)) &&& 7#64).toNat

/-- `loop_level` with the number of turns that are left. -/
def loopLevel (c : CacheGeometry) (invalidateOnly : Bool) : ℕ → ℕ → List DcOp
  | 0, _ => []
  | turns + 1, level =>
    (if c.cacheType level < 2 then [] else asmDcacheLevel c level invalidateOnly) ++
      loopLevel c invalidateOnly turns (level + 1)

/-- The operations that were made, and what is left in CSSELR_EL1. -/
structure DcacheAll where
  ops : List DcOp
  csselr : Word

def asmDcacheAll (c : CacheGeometry) (csselr : Word) (invalidateOnly : Bool) : DcacheAll :=
  if c.loc = 0 then ⟨[], csselr⟩ else ⟨loopLevel c invalidateOnly c.loc 0, 0#64⟩

def asmFlushDcacheAll (c : CacheGeometry) (csselr : Word) : DcacheAll := asmDcacheAll c csselr false

def asmInvalidateDcacheAll (c : CacheGeometry) (csselr : Word) : DcacheAll :=
  asmDcacheAll c csselr true

structure CacheLine where
  level : ℕ
  set : ℕ
  way : ℕ
  deriving DecidableEq, Repr

namespace CacheGeometry

variable (c : CacheGeometry)

/-- Logarithm of the length of a line. -/
def lineLog (level : ℕ) : ℕ := (levelRegs c level).x2

def sets (level : ℕ) : ℕ := (levelRegs c level).x4 + 1

def ways (level : ℕ) : ℕ := (levelRegs c level).x3 + 1

/-- Bits of an operand that hold the number of a set, and of a way. -/
def setBits (level : ℕ) : ℕ := bitLength (c.sets level - 1)

def wayBits (level : ℕ) : ℕ := bitLength (c.ways level - 1)

/-- The line that the hardware takes: the way stands in the high bits of the lower half, the
set from the length of a line on, and the level in bits 1 to 3. -/
def lineOf (operand : Word) : CacheLine :=
  let level := operand.toNat / 2 % 8
  { level := level
    set := operand.toNat / 2 ^ c.lineLog level % 2 ^ c.setBits level
    way := operand.toNat / 2 ^ (32 - c.wayBits level) % 2 ^ c.wayBits level }

/-- The level has a cache for data. -/
def HasData (level : ℕ) : Prop := level < c.loc ∧ 2 ≤ c.cacheType level

/-- The lines of all caches for data up to the point of coherency. -/
def Present (l : CacheLine) : Prop :=
  c.HasData l.level ∧ l.set < c.sets l.level ∧ l.way < c.ways l.level

end CacheGeometry

theorem lt_two_pow_bitLength (n : ℕ) : n < 2 ^ bitLength n := by
  unfold bitLength
  split_ifs with h
  · omega
  · exact Nat.lt_log2_self

theorem bitLength_le {n k : ℕ} (h : n < 2 ^ k) : bitLength n ≤ k := by
  unfold bitLength
  split_ifs with h0
  · exact Nat.zero_le k
  · exact (Nat.log2_lt h0).mpr h

section
variable {c : CacheGeometry} {level : ℕ}

theorem toNat_and_mask_lt (w : Word) {k : ℕ} (m : Word) (hm : m.toNat < 2 ^ k) :
    (m &&& w).toNat < 2 ^ k := by
  rw [BitVec.toNat_and]
  exact lt_of_le_of_lt Nat.and_le_left hm

theorem levelRegs_bounds (c : CacheGeometry) (level : ℕ) :
    4 ≤ c.lineLog level ∧ c.lineLog level ≤ 11 ∧ c.setBits level ≤ 15 ∧
      c.wayBits level ≤ 10 ∧
    (levelRegs c level).x5 = 32 - c.wayBits level := by
  have h3 : (levelRegs c level).x3 < 2 ^ 10 := toNat_and_mask_lt _ _ (by decide)
  have h4 : (levelRegs c level).x4 < 2 ^ 15 := toNat_and_mask_lt _ _ (by decide)
  have hlen : (7#64 &&& c.ccsidr (BitVec.ofNat 64 level <<< 1)).toNat < 2 ^ 3 :=
    toNat_and_mask_lt _ _ (by decide)
  have h2 : c.lineLog level = (7#64 &&& c.ccsidr (BitVec.ofNat 64 level <<< 1)).toNat + 4 := by
    rw [CacheGeometry.lineLog, levelRegs, BitVec.and_comm]
    simp only [BitVec.toNat_add, BitVec.toNat_ofNat]
    omega
  refine ⟨by omega, by omega, bitLength_le h4, bitLength_le h3, ?_⟩
  have h5 : (levelRegs c level).x5 = 32 - bitLength ((levelRegs c level).x3 % 2 ^ 32) := rfl
  rw [h5, Nat.mod_eq_of_lt (lt_trans h3 (by decide))]
  rfl

/-- The fields of an operand do not meet. -/
theorem operand_toNat {set way : ℕ} (hlevel : level < 8)
    (hfit : c.lineLog level + c.setBits level + c.wayBits level ≤ 32)
    (hset : set < c.sets level) (hway : way < c.ways level) :
    ((levelRegs c level).operand set way).toNat =
      way * 2 ^ (32 - c.wayBits level) + (set * 2 ^ c.lineLog level + level * 2) ∧
    set < 2 ^ c.setBits level ∧ way < 2 ^ c.wayBits level := by
  obtain ⟨hline, hline', -, -, hx5⟩ := levelRegs_bounds c level
  have hs : set < 2 ^ c.setBits level :=
    lt_of_le_of_lt (by omega) (lt_two_pow_bitLength (c.sets level - 1))
  have hw : way < 2 ^ c.wayBits level :=
    lt_of_le_of_lt (by omega) (lt_two_pow_bitLength (c.ways level - 1))
  obtain ⟨L, hL⟩ : ∃ L, L = c.lineLog level := ⟨_, rfl⟩
  obtain ⟨S, hS⟩ : ∃ S, S = c.setBits level := ⟨_, rfl⟩
  obtain ⟨A, hA⟩ : ∃ A, A = c.wayBits level := ⟨_, rfl⟩
  rw [← hL, ← hS, ← hA] at hfit
  rw [← hL] at hline hline'
  rw [← hS] at hs
  rw [← hA] at hw hx5
  rw [← hL, ← hS, ← hA]
  refine ⟨?_, hs, hw⟩
  have hpow : 2 ^ L * 2 ^ S ≤ 2 ^ (32 - A) := by
    rw [← pow_add]
    exact Nat.pow_le_pow_right (by omega) (by omega)
  have hpow' : 2 ^ (32 - A) * 2 ^ A = 2 ^ 32 := by
    rw [← pow_add]
    exact congrArg _ (by omega)
  have hL4 : 2 ^ 4 ≤ 2 ^ L := Nat.pow_le_pow_right (by omega) hline
  have hmid : set * 2 ^ L + level * 2 < 2 ^ (32 - A) := by
    have h1 : (set + 1) * 2 ^ L ≤ 2 ^ S * 2 ^ L := Nat.mul_le_mul_right _ hs
    rw [Nat.mul_comm (2 ^ S)] at h1
    rw [Nat.add_mul] at h1
    omega
  have htop : way * 2 ^ (32 - A) + 2 ^ (32 - A) ≤ 2 ^ 32 := by
    have h1 : (way + 1) * 2 ^ (32 - A) ≤ 2 ^ A * 2 ^ (32 - A) := Nat.mul_le_mul_right _ hw
    rw [Nat.mul_comm (2 ^ A), hpow', Nat.add_mul] at h1
    omega
  have hx12 : (levelRegs c level).x12.toNat = level * 2 := by
    show (BitVec.ofNat 64 level <<< 1).toNat = level * 2
    rw [BitVec.toNat_shiftLeft, BitVec.toNat_ofNat, Nat.shiftLeft_eq]
    omega
  have hset' : (BitVec.ofNat 64 set <<< (levelRegs c level).x2).toNat = set <<< L := by
    have hle : set * 2 ^ L < 2 ^ 64 := by omega
    have hle' : set < 2 ^ 64 := lt_of_le_of_lt (Nat.le_mul_of_pos_right _ (by positivity)) hle
    have hx2 : (levelRegs c level).x2 = L := hL.symm
    rw [hx2, BitVec.toNat_shiftLeft, BitVec.toNat_ofNat, Nat.mod_eq_of_lt hle', Nat.shiftLeft_eq,
      Nat.mod_eq_of_lt hle]
  have hway' : (BitVec.ofNat 64 way <<< (levelRegs c level).x5).toNat = way <<< (32 - A) := by
    have hle : way * 2 ^ (32 - A) < 2 ^ 64 := by omega
    have hle' : way < 2 ^ 64 := lt_of_le_of_lt (Nat.le_mul_of_pos_right _ (by positivity)) hle
    rw [hx5, BitVec.toNat_shiftLeft, BitVec.toNat_ofNat, Nat.mod_eq_of_lt hle', Nat.shiftLeft_eq,
      Nat.mod_eq_of_lt hle]
  rw [LevelRegs.operand, BitVec.toNat_or, BitVec.toNat_or, hx12, hset', hway']
  have hlow : set <<< L ||| level * 2 = set * 2 ^ L + level * 2 := by
    rw [← Nat.shiftLeft_add_eq_or_of_lt (by omega), Nat.shiftLeft_eq]
  rw [Nat.or_comm (level * 2), Nat.or_assoc, Nat.or_comm (level * 2), hlow,
    ← Nat.shiftLeft_add_eq_or_of_lt hmid, Nat.shiftLeft_eq]

theorem lineOf_operand {set way : ℕ} (hlevel : level < 8)
    (hfit : c.lineLog level + c.setBits level + c.wayBits level ≤ 32)
    (hset : set < c.sets level) (hway : way < c.ways level) :
    c.lineOf ((levelRegs c level).operand set way) = ⟨level, set, way⟩ ∧
    ((levelRegs c level).operand set way).toNat < 2 ^ 32 := by
  obtain ⟨hval, hs, hw⟩ := operand_toNat hlevel hfit hset hway
  obtain ⟨hline, -, -, -, -⟩ := levelRegs_bounds c level
  obtain ⟨v, hv⟩ : ∃ v, v = ((levelRegs c level).operand set way).toNat := ⟨_, rfl⟩
  rw [← hv] at hval
  obtain ⟨L, hL⟩ : ∃ L, L = c.lineLog level := ⟨_, rfl⟩
  obtain ⟨S, hS⟩ : ∃ S, S = c.setBits level := ⟨_, rfl⟩
  obtain ⟨A, hA⟩ : ∃ A, A = c.wayBits level := ⟨_, rfl⟩
  rw [← hL, ← hA] at hval
  rw [← hL, ← hS, ← hA] at hfit
  rw [← hL] at hline
  rw [← hS] at hs
  rw [← hA] at hw
  have hpowA : 2 ^ (32 - A) = 2 ^ L * 2 ^ S * 2 ^ (32 - A - S - L) := by
    rw [← pow_add, ← pow_add]
    exact congrArg _ (by omega)
  have hpowL : 2 ^ L = 16 * 2 ^ (L - 4) := by
    rw [show (16 : ℕ) = 2 ^ 4 from rfl, ← pow_add]
    exact congrArg _ (by omega)
  have hL16 : 16 ≤ 2 ^ L := hpowL ▸ Nat.le_mul_of_pos_right _ (by positivity)
  have hmid : set * 2 ^ L + level * 2 < 2 ^ L * 2 ^ S := by
    have h1 : (set + 1) * 2 ^ L ≤ 2 ^ S * 2 ^ L := Nat.mul_le_mul_right _ hs
    rw [Nat.mul_comm (2 ^ S), Nat.add_mul] at h1
    omega
  have hmidA : set * 2 ^ L + level * 2 < 2 ^ (32 - A) :=
    lt_of_lt_of_le hmid (by rw [hpowA]; exact Nat.le_mul_of_pos_right _ (by positivity))
  have hlevel' : v / 2 % 8 = level := by
    have hdvd : v = 16 * (way * (2 ^ (L - 4) * 2 ^ S * 2 ^ (32 - A - S - L)) + set * 2 ^ (L - 4)) +
        level * 2 := by
      rw [hval, hpowA, hpowL]
      ring
    omega
  have hset' : v / 2 ^ L % 2 ^ S = set := by
    have hdiv : v = 2 ^ L * (set + 2 ^ S * (way * 2 ^ (32 - A - S - L))) + level * 2 := by
      rw [hval, hpowA]
      ring
    rw [hdiv, Nat.mul_add_div (by positivity), Nat.div_eq_of_lt (by omega), Nat.add_zero,
      Nat.add_mul_mod_self_left, Nat.mod_eq_of_lt hs]
  have hway' : v / 2 ^ (32 - A) % 2 ^ A = way := by
    rw [hval, Nat.mul_comm way, Nat.mul_add_div (by positivity), Nat.div_eq_of_lt hmidA,
      Nat.add_zero, Nat.mod_eq_of_lt hw]
  refine ⟨?_, ?_⟩
  · simp only [CacheGeometry.lineOf, ← hv, hlevel', ← hL, ← hS, ← hA, hset', hway']
  · rw [← hv, hval]
    have h1 : (way + 1) * 2 ^ (32 - A) ≤ 2 ^ A * 2 ^ (32 - A) := Nat.mul_le_mul_right _ hw
    rw [← pow_add, show A + (32 - A) = 32 by omega, Nat.add_mul] at h1
    omega

end

theorem dcSetWay_operand (invalidateOnly : Bool) (w : Word) :
    (dcSetWay invalidateOnly w).operand = w := by
  cases invalidateOnly <;> rfl

/-- The operations are of one kind, and take each line with the property once and no other. -/
structure CacheGeometry.Covers (c : CacheGeometry) (invalidateOnly : Bool) (ops : List DcOp)
    (P : CacheLine → Prop) : Prop where
  once : (ops.map fun op => c.lineOf op.operand).Nodup
  mem_iff : ∀ l, l ∈ ops.map (fun op => c.lineOf op.operand) ↔ P l
  formed : ∀ op ∈ ops, op = dcSetWay invalidateOnly op.operand ∧ op.operand.toNat < 2 ^ 32

namespace CacheGeometry.Covers

variable {c : CacheGeometry} {invalidateOnly : Bool} {ops ops' : List DcOp}
  {P Q : CacheLine → Prop}

theorem nil : c.Covers invalidateOnly [] fun _ => False := ⟨List.nodup_nil, by simp, by simp⟩

theorem congr (h : c.Covers invalidateOnly ops P) (hiff : ∀ l, P l ↔ Q l) :
    c.Covers invalidateOnly ops Q :=
  ⟨h.once, fun l => (h.mem_iff l).trans (hiff l), h.formed⟩

theorem append (h : c.Covers invalidateOnly ops P) (h' : c.Covers invalidateOnly ops' Q)
    (hapart : ∀ l, P l → ¬ Q l) :
    c.Covers invalidateOnly (ops ++ ops') fun l => P l ∨ Q l where
  once := by
    rw [List.map_append, List.nodup_append']
    refine ⟨h.once, h'.once, fun l hl hl' => ?_⟩
    exact hapart l ((h.mem_iff l).mp hl) ((h'.mem_iff l).mp hl')
  mem_iff l := by rw [List.map_append, List.mem_append, h.mem_iff, h'.mem_iff]
  formed op hop := (List.mem_append.mp hop).elim (h.formed op) (h'.formed op)

theorem singleton {w : Word} {l : CacheLine} (hline : c.lineOf w = l) (hnarrow : w.toNat < 2 ^ 32) :
    c.Covers invalidateOnly [dcSetWay invalidateOnly w] (· = l) where
  once := List.nodup_singleton _
  mem_iff l' := by rw [List.map_singleton, List.mem_singleton, dcSetWay_operand, hline]
  formed op hop := by
    rw [List.mem_singleton.mp hop, dcSetWay_operand]
    exact ⟨rfl, hnarrow⟩

end CacheGeometry.Covers

section
variable {c : CacheGeometry} {level : ℕ}

theorem covers_way {set way : ℕ} (invalidateOnly : Bool) (hlevel : level < 8)
    (hfit : c.lineLog level + c.setBits level + c.wayBits level ≤ 32)
    (hset : set < c.sets level) (hway : way < c.ways level) :
    c.Covers invalidateOnly [dcSetWay invalidateOnly ((levelRegs c level).operand set way)]
      (· = ⟨level, set, way⟩) :=
  .singleton (lineOf_operand hlevel hfit hset hway).1 (lineOf_operand hlevel hfit hset hway).2

theorem loopWay_covers {set n : ℕ} (invalidateOnly : Bool) (hlevel : level < 8)
    (hfit : c.lineLog level + c.setBits level + c.wayBits level ≤ 32)
    (hset : set < c.sets level) (hn : n < c.ways level) :
    c.Covers invalidateOnly (loopWay (levelRegs c level) invalidateOnly set n)
      fun l => l.level = level ∧ l.set = set ∧ l.way ≤ n := by
  induction n with
  | zero =>
    refine (covers_way invalidateOnly hlevel hfit hset hn).congr fun l => ?_
    rw [CacheLine.mk.injEq, Nat.le_zero]
  | succ n ih =>
    refine ((covers_way invalidateOnly hlevel hfit hset hn).append (ih (by omega)) ?_).congr
      fun l => ?_
    · rintro l rfl ⟨-, -, hle⟩
      exact absurd hle (by simp)
    · rw [CacheLine.mk.injEq]
      omega

theorem loopSet_covers {n : ℕ} (invalidateOnly : Bool) (hlevel : level < 8)
    (hfit : c.lineLog level + c.setBits level + c.wayBits level ≤ 32) (hn : n < c.sets level) :
    c.Covers invalidateOnly (loopSet (levelRegs c level) invalidateOnly n)
      fun l => l.level = level ∧ l.set ≤ n ∧ l.way < c.ways level := by
  have hlast : (levelRegs c level).x3 < c.ways level := Nat.lt_succ_self _
  have hways : c.ways level = (levelRegs c level).x3 + 1 := rfl
  induction n with
  | zero =>
    refine (loopWay_covers invalidateOnly hlevel hfit hn hlast).congr fun l => ?_
    omega
  | succ n ih =>
    refine ((loopWay_covers invalidateOnly hlevel hfit hn hlast).append (ih (by omega)) ?_).congr
      fun l => ?_
    · rintro l ⟨-, hset, -⟩ ⟨-, hle, -⟩
      omega
    · omega

theorem loopLevel_covers {turns : ℕ} (invalidateOnly : Bool) (hend : level + turns = c.loc)
    (hfit : ∀ k, c.HasData k → c.lineLog k + c.setBits k + c.wayBits k ≤ 32) :
    c.Covers invalidateOnly (loopLevel c invalidateOnly turns level)
      fun l => level ≤ l.level ∧ c.Present l := by
  have hloc : c.loc < 8 := by
    rw [CacheGeometry.loc, BitVec.and_comm]
    exact toNat_and_mask_lt (k := 3) _ _ (by decide)
  induction turns generalizing level with
  | zero =>
    refine CacheGeometry.Covers.nil.congr fun l => ⟨False.elim, ?_⟩
    rintro ⟨hle, ⟨hlt, -⟩, -⟩
    omega
  | succ turns ih =>
    have htail := @ih (level + 1) (by omega)
    rw [loopLevel]
    split_ifs with htype
    · -- a level without a cache for data is skipped
      refine htail.congr fun l => and_congr_left fun hl => ⟨fun h => by omega, fun h => ?_⟩
      have hne : l.level ≠ level := by
        rintro rfl
        exact absurd hl.1.2 (by omega)
      omega
    · have hdata : c.HasData level := ⟨by omega, by omega⟩
      have hhead := loopSet_covers invalidateOnly (by omega) (hfit level hdata)
        (Nat.lt_succ_self (levelRegs c level).x4)
      refine (hhead.append htail ?_).congr fun l => ?_
      · rintro l ⟨hl, -, -⟩ ⟨hle, -⟩
        omega
      · have hsets : c.sets level = (levelRegs c level).x4 + 1 := rfl
        constructor
        · rintro (⟨hl, hset, hway⟩ | ⟨hle, hp⟩)
          · refine ⟨hl.ge, ?_⟩
            rw [CacheGeometry.Present, hl]
            exact ⟨hdata, by omega, hway⟩
          · exact ⟨by omega, hp⟩
        · rintro ⟨hle, hp⟩
          by_cases hl : l.level = level
          · left
            obtain ⟨-, hset, hway⟩ := hp
            rw [hl] at hset hway
            exact ⟨hl, by omega, hway⟩
          · exact .inr ⟨by omega, hp⟩

end

theorem asmDcacheAll_covers (c : CacheGeometry) (csselr : Word) (invalidateOnly : Bool)
    (hfit : ∀ k, c.HasData k → c.lineLog k + c.setBits k + c.wayBits k ≤ 32) :
    c.Covers invalidateOnly (asmDcacheAll c csselr invalidateOnly).ops c.Present := by
  rw [asmDcacheAll]
  split_ifs with hloc
  · refine CacheGeometry.Covers.nil.congr fun l => ⟨False.elim, ?_⟩
    rintro ⟨⟨hlt, -⟩, -⟩
    omega
  · exact (loopLevel_covers invalidateOnly (Nat.zero_add _) hfit).congr fun l =>
      and_iff_right (Nat.zero_le _)

/-- Where the fields of the operand have room, the whole cache is cleaned, or invalidated, with
one operation for each line that is there and none for any other. -/
theorem dcache_all_covers (c : CacheGeometry) (csselr : Word) (invalidateOnly : Bool)
    (hfit : ∀ k, c.HasData k → c.lineLog k + c.setBits k + c.wayBits k ≤ 32) :
    c.Covers invalidateOnly (asmDcacheAll c csselr invalidateOnly).ops c.Present :=
  asmDcacheAll_covers c csselr invalidateOnly hfit

/-- Caches of two levels: 64 sets and 4 ways of 64 bytes, behind them 512 sets and 8 ways. -/
def twoLevels : CacheGeometry where
  clidr := 0x2000023#64
  ccsidr csselr := if csselr = 0#64 then 0x7E01A#64 else 0x3FE03A#64

theorem twoLevels_fit (k : ℕ) (hk : twoLevels.HasData k) :
    twoLevels.lineLog k + twoLevels.setBits k + twoLevels.wayBits k ≤ 32 := by
  have hlt : k < 2 := hk.1
  obtain rfl | rfl : k = 0 ∨ k = 1 := by omega
  · decide
  · decide

theorem twoLevels_last : twoLevels.Present ⟨1, 511, 7⟩ :=
  ⟨⟨by decide, by decide⟩, by decide, by decide⟩

theorem dcache_all_covers_last : ∃ op ∈ (asmFlushDcacheAll twoLevels 0#64).ops,
    twoLevels.lineOf op.operand = ⟨1, 511, 7⟩ :=
  List.mem_map.mp (((dcache_all_covers twoLevels 0#64 false twoLevels_fit).mem_iff _).mpr
    twoLevels_last)

/-- A flush on a CPU with some caches, by its operations. -/
structure CacheFlush where
  cache : CacheGeometry
  ops : List DcOp

/-- The flush has cleaned and invalidated each line of the caches once. -/
def CacheFlush.Complete (flush : CacheFlush) : Prop :=
  (∀ k, flush.cache.HasData k →
    flush.cache.lineLog k + flush.cache.setBits k + flush.cache.wayBits k ≤ 32) →
  flush.cache.Covers false flush.ops flush.cache.Present

theorem asmFlushDcacheAll_complete (c : CacheGeometry) (csselr : Word) :
    (CacheFlush.mk c (asmFlushDcacheAll c csselr).ops).Complete :=
  asmDcacheAll_covers c csselr false

end RmmCaec
