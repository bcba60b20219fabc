import RmmCaec.BitGather
import RmmCaec.DescriptorBits
import RmmCaec.Psci

/-!
# MPIDR values and REC indices

The host names a REC by an RmiRecMpidr, the realm by a value of the MPIDR_EL1 register.
Both formats keep the REC index in 28 scattered bits: the lowest affinity field has four
bits in a hole of eight, and the top field lies at different bits in the two formats.
-/
namespace RmmCaec
open BitGather

def rmiMpidrAff0 : Word := 0xF#64
def rmiMpidrAff1 : Word := 0xFF00#64
def rmiMpidrAff2 : Word := 0xFF0000#64
def rmiMpidrAff3 : Word := 0xFF000000#64

/-- `VMPIDR_EL2_RES1`. -/
def vmpidrEl2Res1 : Word := 0x80000000#64

def recMpidrIsValid (recMpidr : Word) : Bool :=
  decide (recMpidr &&& ~~~(rmiMpidrAff0 ||| rmiMpidrAff1 ||| rmiMpidrAff2 ||| rmiMpidrAff3) = 0#64)

/-- The REC index in an RmiRecMpidr. -/
def recMpidrToIdx (recMpidr : Word) : ℕ :=
  ((recMpidr &&& rmiMpidrAff0) ||| ((recMpidr &&& rmiMpidrAff1) >>> 4) |||
    ((recMpidr &&& rmiMpidrAff2) >>> 4) ||| ((recMpidr &&& rmiMpidrAff3) >>> 4)).toNat

def recMpidrToMpidr (recMpidr : Word) : Word :=
  (recMpidr &&& (rmiMpidrAff0 ||| rmiMpidrAff1 ||| rmiMpidrAff2)) |||
    ((recMpidr &&& rmiMpidrAff3) <<< 8)

/-- What `init_rec_sysregs` puts into VMPIDR_EL2: the MPIDR_EL1 that the REC reads. -/
def initVmpidrEl2 (recMpidr : Word) : Word := recMpidrToMpidr recMpidr ||| vmpidrEl2Res1

/-- Where an RmiRecMpidr keeps the bits of the index. -/
def rmiMpidrPos (i : ℕ) : ℕ := if i < 4 then i else i + 4

/-- Where MPIDR_EL1 keeps the bits of the index. -/
def mpidrEl1Pos (i : ℕ) : ℕ := if i < 4 then i else if i < 20 then i + 4 else i + 12

theorem rmiMpidrAff0_eq : rmiMpidrAff0 = bitMaskUll 3 0 := by decide
theorem rmiMpidrAff1_eq : rmiMpidrAff1 = bitMaskUll 15 8 := by decide
theorem rmiMpidrAff2_eq : rmiMpidrAff2 = bitMaskUll 23 16 := by decide
theorem rmiMpidrAff3_eq : rmiMpidrAff3 = bitMaskUll 31 24 := by decide
theorem vmpidrEl2Res1_eq : vmpidrEl2Res1 = bitMaskUll 31 31 := by decide

theorem recMpidrToIdx_eq (recMpidr : Word) :
    recMpidrToIdx recMpidr = gather rmiMpidrPos 28 recMpidr := by
  apply eq_gather
  intro i
  rw [recMpidrToIdx, BitVec.testBit_toNat, rmiMpidrAff0_eq, rmiMpidrAff1_eq, rmiMpidrAff2_eq,
    rmiMpidrAff3_eq]
  simp (disch := decide) only [BitVec.getLsbD_or, BitVec.getLsbD_and, BitVec.getLsbD_ushiftRight,
    getLsbD_bitMaskUll, Nat.add_comm 4]
  rw [Bool.eq_iff_iff]
  by_cases hlow : i < 4
  · simp [rmiMpidrPos, hlow]
    grind
  · simp [rmiMpidrPos, hlow]
    grind

theorem mpidrToRecIdx_eq (mpidr : Word) : mpidrToRecIdx mpidr = gather mpidrEl1Pos 28 mpidr := by
  have haff3 : 0xFF00000000#64 = bitMaskUll 39 32 := by decide
  apply eq_gather
  intro i
  rw [mpidrToRecIdx, BitVec.testBit_toNat, ← rmiMpidrAff0, ← rmiMpidrAff1, ← rmiMpidrAff2,
    rmiMpidrAff0_eq, rmiMpidrAff1_eq, rmiMpidrAff2_eq, haff3]
  simp (disch := decide) only [BitVec.getLsbD_or, BitVec.getLsbD_and, BitVec.getLsbD_ushiftRight,
    getLsbD_bitMaskUll, Nat.add_comm 4, Nat.add_comm 12]
  rw [Bool.eq_iff_iff]
  by_cases hlow : i < 4
  · simp [mpidrEl1Pos, hlow]
    grind
  · by_cases hmid : i < 20
    · simp [mpidrEl1Pos, hlow, hmid]
      grind
    · simp [mpidrEl1Pos, hlow, hmid]
      grind

/-- A valid RmiRecMpidr has no other bits than those of the index. -/
theorem recMpidrIsValid_iff (recMpidr : Word) :
    recMpidrIsValid recMpidr = true ↔ Within rmiMpidrPos 28 recMpidr := by
  have hmask : rmiMpidrAff0 ||| rmiMpidrAff1 ||| rmiMpidrAff2 ||| rmiMpidrAff3 =
      bitMaskUll 3 0 ||| bitMaskUll 31 8 := by decide
  have hbit : ∀ i < 64, (recMpidr &&& ~~~(bitMaskUll 3 0 ||| bitMaskUll 31 8)).getLsbD i =
      (recMpidr.getLsbD i && !(decide (i ≤ 3) || (decide (8 ≤ i) && decide (i ≤ 31)))) := by
    intro i hi
    simp (disch := decide) [getLsbD_bitMaskUll, hi]
  rw [recMpidrIsValid, decide_eq_true_eq, hmask]
  constructor
  · intro hzero j hj
    have hj64 : j < 64 := by
      by_contra hc
      rw [BitVec.getLsbD_of_ge _ j (by omega)] at hj
      cases hj
    have hfield := hbit j hj64
    rw [hzero, hj] at hfield
    by_cases hlow : j ≤ 3
    · exact ⟨j, by omega, if_pos (by omega)⟩
    · have hhigh : 8 ≤ j ∧ j ≤ 31 := by simpa [hlow] using hfield
      refine ⟨j - 4, by omega, ?_⟩
      rw [rmiMpidrPos, if_neg (by omega)]
      omega
  · intro hwithin
    apply BitVec.eq_of_getLsbD_eq
    intro j hj64
    rw [hbit j hj64, BitVec.getLsbD_zero, Bool.and_eq_false_imp]
    intro hj
    obtain ⟨i, hi, rfl⟩ := hwithin j hj
    rw [rmiMpidrPos]
    split
    · have : i ≤ 3 := by omega
      simp [this]
    · have : 8 ≤ i + 4 ∧ i + 4 ≤ 31 := by omega
      simp [this]

/-- The REC reads the index of its parameter, each bit at its place in the register. -/
theorem getLsbD_recMpidrToMpidr (recMpidr : Word) {i : ℕ} (hi : i < 28) :
    (recMpidrToMpidr recMpidr).getLsbD (mpidrEl1Pos i) = recMpidr.getLsbD (rmiMpidrPos i) := by
  have hmask : rmiMpidrAff0 ||| rmiMpidrAff1 ||| rmiMpidrAff2 =
      bitMaskUll 3 0 ||| bitMaskUll 23 8 := by decide
  rw [recMpidrToMpidr, hmask, rmiMpidrAff3_eq]
  simp (disch := decide) only [BitVec.getLsbD_or, BitVec.getLsbD_and, BitVec.getLsbD_shiftLeft,
    getLsbD_bitMaskUll]
  rw [Bool.eq_iff_iff]
  by_cases hlow : i < 4
  · simp [mpidrEl1Pos, rmiMpidrPos, hlow]
    grind
  · by_cases hmid : i < 20
    · simp [mpidrEl1Pos, rmiMpidrPos, hlow, hmid]
      grind
    · simp [mpidrEl1Pos, rmiMpidrPos, hlow, hmid]
      grind

/-- The bit that is always one lies between the fields. -/
theorem getLsbD_initVmpidrEl2 (recMpidr : Word) {i : ℕ} (hi : i < 28) :
    (initVmpidrEl2 recMpidr).getLsbD (mpidrEl1Pos i) = recMpidr.getLsbD (rmiMpidrPos i) := by
  have hapart : mpidrEl1Pos i ≠ 31 := by
    unfold mpidrEl1Pos
    split
    · omega
    · split <;> omega
  rw [initVmpidrEl2, BitVec.getLsbD_or, getLsbD_recMpidrToMpidr recMpidr hi, vmpidrEl2Res1_eq,
    getLsbD_bitMaskUll 31 31 _ (by decide)]
  simp
  omega

theorem mpidrToRecIdx_recMpidrToMpidr (recMpidr : Word) :
    mpidrToRecIdx (recMpidrToMpidr recMpidr) = recMpidrToIdx recMpidr := by
  rw [mpidrToRecIdx_eq, recMpidrToIdx_eq]
  exact gather_congr fun i hi => getLsbD_recMpidrToMpidr recMpidr hi

theorem mpidrToRecIdx_initVmpidrEl2 (recMpidr : Word) :
    mpidrToRecIdx (initVmpidrEl2 recMpidr) = recMpidrToIdx recMpidr := by
  rw [mpidrToRecIdx_eq, recMpidrToIdx_eq]
  exact gather_congr fun i hi => getLsbD_initVmpidrEl2 recMpidr hi

theorem recMpidrToIdx_injOn : Set.InjOn recMpidrToIdx {m | recMpidrIsValid m = true} := by
  intro m hm m' hm' he
  rw [recMpidrToIdx_eq, recMpidrToIdx_eq] at he
  exact gather_injOn ((recMpidrIsValid_iff m).mp hm) ((recMpidrIsValid_iff m').mp hm') he

theorem rmiMpidrPos_injective : Function.Injective rmiMpidrPos := by
  intro i j he
  unfold rmiMpidrPos at he
  split at he <;> split at he <;> omega

theorem rmiMpidrPos_lt {i : ℕ} (hi : i < 28) : rmiMpidrPos i < 64 := by
  unfold rmiMpidrPos
  split <;> omega

/-- The indices of the valid values are all numbers of 28 bits. -/
theorem recMpidrToIdx_image :
    Set.image recMpidrToIdx {m | recMpidrIsValid m = true} = Set.Iio (2 ^ 28) := by
  have hvalid : {m : Word | recMpidrIsValid m = true} = {m | Within rmiMpidrPos 28 m} := by
    ext m
    exact recMpidrIsValid_iff m
  rw [hvalid, funext recMpidrToIdx_eq]
  exact gather_image rmiMpidrPos_injective.injOn fun i hi => rmiMpidrPos_lt hi

end RmmCaec
