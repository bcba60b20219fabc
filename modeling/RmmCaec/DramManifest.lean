import Mathlib.Data.List.GetD
import RmmCaec.State

/-!
# The DRAM banks of the boot manifest

EL3 describes the DRAM of the normal world by a list of banks in the boot manifest, which
is checked before it is used. Sums of bases and sizes are sums of 64-bit words. Only the
last address of a bank is compared with the physical address space; the base is not, and
a bank that wraps around the end of the address space passes.
-/
namespace RmmCaec

structure NsDramBank where
  base : Word
  size : Word
  deriving DecidableEq, Repr, Inhabited

/-- The array of banks is in memory behind the pointer. -/
structure NsDramInfo where
  numBanks : Word
  banksPtr : Word
  banks : ℕ → NsDramBank
  checksum : Word

def NsDramInfo.bankList (d : NsDramInfo) : List NsDramBank :=
    (List.range d.numBanks.toNat).map d.banks

structure RmmCoreManifest where
  version : ℕ
  platDram : NsDramInfo

/-- The physical address width of the machine and `RMM_MAX_GRANULES`. -/
structure BootConfig where
  paWidth : ℕ
  paWidth_le : paWidth ≤ 52
  maxGranules : ℕ
  maxGranules_lt : maxGranules < 2 ^ 32

def rmmEl3ManifestMakeVersion (major minor : ℕ) : ℕ := major * 2 ^ 16 + minor

def eRmmBootSuccess : ℤ := 0
def eRmmBootManifestVersionNotSupported : ℤ := -6
def eRmmBootManifestDataError : ℤ := -7

/-- The variables of the loop over the banks: `stop` is the last address of the bank
before. -/
structure DramScan where
  checksum : Word
  stop : Word
  numGranules : Word

def scanBank (cfg : BootConfig) (scan : DramScan) (bank : NsDramBank) : Option DramScan :=
  let maxPaSize : Word := 1#64 <<< cfg.paWidth
  if bank.base = 0#64 ∨ bank.size = 0#64 ∨ (bank.base ||| bank.size) &&& 0xfff#64 ≠
    0#64 then none
  else if bank.base < scan.stop then none
  else
    let stop := bank.base + bank.size - 1#64
    if maxPaSize ≤ stop then none
    else some ⟨scan.checksum + (bank.base + bank.size), stop,
      scan.numGranules + bank.size / BitVec.ofNat 64 granuleSize⟩

def scanBanks (cfg : BootConfig) : DramScan → List NsDramBank → Option DramScan
  | scan, [] => some scan
  | scan, bank :: rest =>
    match scanBank cfg scan bank with
    | none => none
    | some scan => scanBanks cfg scan rest

/-- The return code and what the caller's pointer is set to. -/
def rmmEl3IfcGetDramDataValidatedPa (cfg : BootConfig) (m : RmmCoreManifest) (maxNumBanks : Word) :
    ℤ × Option NsDramInfo :=
  let d := m.platDram
  if m.version < rmmEl3ManifestMakeVersion 0 2 then (eRmmBootManifestVersionNotSupported, none)
  else if d.numBanks = 0#64 ∨ maxNumBanks < d.numBanks ∨ d.banksPtr = 0#64 then
    (eRmmBootManifestDataError, none)
  else
    match scanBanks cfg ⟨d.numBanks + d.banksPtr + d.checksum, 0#64, 0#64⟩ d.bankList with
    | none => (eRmmBootManifestDataError, none)
    | some scan =>
      if scan.checksum ≠ 0#64 then (eRmmBootManifestDataError, none)
      else if BitVec.ofNat 64 cfg.maxGranules < scan.numGranules then
        (eRmmBootManifestDataError, none)
      else (eRmmBootSuccess, some d)

def NsDramBank.granules (b : NsDramBank) : ℕ := b.size.toNat / granuleSize

/-- The granules of a list of banks. -/
def numGranules (banks : List NsDramBank) : ℕ := (banks.map NsDramBank.granules).sum

/-- A list of banks as the rest of the monitor expects it. -/
structure DramSound (cfg : BootConfig) (banks : List NsDramBank) : Prop where
  aligned : ∀ b ∈ banks, granuleSize ∣ b.base.toNat ∧ granuleSize ∣ b.size.toNat
  pos : ∀ b ∈ banks, 0 < b.size.toNat
  noWrap : ∀ b ∈ banks, b.base.toNat + b.size.toNat ≤ 2 ^ 64
  inRange : ∀ b ∈ banks, b.base.toNat + b.size.toNat ≤ 2 ^ cfg.paWidth
  ascending : banks.Pairwise fun a b => a.base.toNat < b.base.toNat
  disjoint : banks.Pairwise fun a b => a.base.toNat + a.size.toNat ≤ b.base.toNat
  counted : numGranules banks ≤ cfg.maxGranules

section
variable {cfg : BootConfig} {scan scan' : DramScan} {bank : NsDramBank} {banks : List NsDramBank}

theorem or_aligned {a b : Word} (h : (a ||| b) &&& 0xfff#64 = 0#64) :
    granuleSize ∣ a.toNat ∧ granuleSize ∣ b.toNat := by
  have hmask : ∀ n : ℕ, n &&& 4095 = n % 4096 := fun n => Nat.and_two_pow_sub_one_eq_mod n 12
  have hor := congrArg BitVec.toNat h
  simp only [BitVec.toNat_and, BitVec.toNat_or, BitVec.toNat_ofNat, Nat.and_or_distrib_right] at hor
  obtain ⟨ha, hb⟩ := Nat.or_eq_zero_iff.mp hor
  rw [show (4095 % 2 ^ 64 : ℕ) = 4095 from rfl, hmask] at ha hb
  exact ⟨Nat.dvd_of_mod_eq_zero ha, Nat.dvd_of_mod_eq_zero hb⟩

/-- What is checked of a single bank: of its end only the wrapped sum. -/
structure BankPasses (cfg : BootConfig) (b : NsDramBank) : Prop where
  pos : 0 < b.size.toNat
  aligned : granuleSize ∣ b.base.toNat ∧ granuleSize ∣ b.size.toNat
  stop : (b.base + b.size - 1#64).toNat < 2 ^ cfg.paWidth

theorem maxPaSize_toNat (cfg : BootConfig) :
    (1#64 <<< cfg.paWidth : Word).toNat = 2 ^ cfg.paWidth := by
  have hlt : 2 ^ cfg.paWidth < 2 ^ 64 :=
    Nat.pow_lt_pow_right (by omega) (by have := cfg.paWidth_le; omega)
  rw [BitVec.toNat_shiftLeft, BitVec.toNat_ofNat, Nat.shiftLeft_eq,
    Nat.mod_eq_of_lt (by omega : 1 < 2 ^ 64),
    Nat.one_mul, Nat.mod_eq_of_lt hlt]

theorem scanBank_some (h : scanBank cfg scan bank = some scan') :
    BankPasses cfg bank ∧ scan.stop ≤ bank.base ∧
      scan'.stop = bank.base + bank.size - 1#64 ∧
      scan'.numGranules = scan.numGranules + bank.size / BitVec.ofNat 64 granuleSize := by
  unfold scanBank at h
  dsimp only at h
  split_ifs at h with hbad hbelow hrange
  cases h
  simp only [not_or, Decidable.not_not] at hbad
  obtain ⟨-, hsize, halign⟩ := hbad
  rw [BitVec.not_lt] at hbelow
  rw [BitVec.le_def, maxPaSize_toNat] at hrange
  refine ⟨⟨?_, or_aligned halign, Nat.lt_of_not_le hrange⟩, hbelow, rfl, rfl⟩
  have hne : bank.size.toNat ≠ 0 := fun hz => hsize (BitVec.eq_of_toNat_eq hz)
  omega

theorem scanBanks_cons (h : scanBanks cfg scan (bank :: banks) = some scan') :
    ∃ next, scanBank cfg scan bank = some next ∧ scanBanks cfg next banks = some scan' := by
  unfold scanBanks at h
  split at h
  · cases h
  case h_2 next hnext => exact ⟨next, hnext, h⟩

theorem scanBanks_passes (h : scanBanks cfg scan banks = some scan') :
    ∀ b ∈ banks, BankPasses cfg b := by
  induction banks generalizing scan with
  | nil => simp
  | cons b rest ih =>
    obtain ⟨next, hnext, hrest⟩ := scanBanks_cons h
    intro c hc
    rcases List.mem_cons.mp hc with rfl | hc
    · exact (scanBank_some hnext).1
    · exact ih hrest c hc

/-- The last address of a bank whose end does not wrap. -/
theorem BankPasses.stop_toNat {b : NsDramBank} (h : BankPasses cfg b)
    (hwrap : b.base.toNat + b.size.toNat ≤ 2 ^ 64) :
    (b.base + b.size - 1#64).toNat = b.base.toNat + b.size.toNat - 1 := by
  have hpos := h.pos
  simp only [BitVec.toNat_sub, BitVec.toNat_add, BitVec.toNat_ofNat]
  omega

/-- A bank starts behind the last address of the bank before, since both are aligned. -/
theorem BankPasses.stop_lt {a b : NsDramBank} (ha : BankPasses cfg a) (hb : BankPasses cfg b)
    (hwrap : a.base.toNat + a.size.toNat ≤ 2 ^ 64)
    (hle : (a.base + a.size - 1#64).toNat ≤ b.base.toNat) :
    a.base.toNat + a.size.toNat ≤ b.base.toNat := by
  rw [ha.stop_toNat hwrap] at hle
  obtain ⟨x, hx⟩ := ha.aligned.1
  obtain ⟨y, hy⟩ := ha.aligned.2
  obtain ⟨z, hz⟩ := hb.aligned.1
  have hpos := ha.pos
  unfold granuleSize at hx hy hz
  omega

/-- Where no bank wraps, each bank starts behind all banks before it. -/
theorem scanBanks_ascending (h : scanBanks cfg scan banks = some scan')
    (hwrap : ∀ b ∈ banks, b.base.toNat + b.size.toNat ≤ 2 ^ 64) :
    (∀ b ∈ banks, scan.stop.toNat ≤ b.base.toNat) ∧
      banks.Pairwise fun a b => a.base.toNat + a.size.toNat ≤ b.base.toNat := by
  induction banks generalizing scan with
  | nil => exact ⟨by simp, List.Pairwise.nil⟩
  | cons a rest ih =>
    obtain ⟨next, hnext, hrest⟩ := scanBanks_cons h
    obtain ⟨ha, hle, hstop, -⟩ := scanBank_some hnext
    obtain ⟨hafter, hpair⟩ := ih hrest fun b hb => hwrap b (List.mem_cons_of_mem _ hb)
    have hpasses := scanBanks_passes hrest
    have hwa := hwrap a (List.mem_cons_self ..)
    have hbehind : ∀ b ∈ rest, a.base.toNat + a.size.toNat ≤ b.base.toNat := by
      intro b hb
      have hb' := hafter b hb
      rw [hstop] at hb'
      exact ha.stop_lt (hpasses b hb) hwa hb'
    refine ⟨fun b hb => ?_, List.pairwise_cons.mpr ⟨hbehind, hpair⟩⟩
    rcases List.mem_cons.mp hb with rfl | hb
    · exact hle
    · have := hbehind b hb
      have := BitVec.le_def.mp hle
      omega

theorem numGranules_cons (b : NsDramBank) (rest : List NsDramBank) :
    numGranules (b :: rest) = b.granules + numGranules rest := by
  simp [numGranules]

/-- The granules of few banks can be counted in 64 bits. -/
theorem numGranules_le (banks : List NsDramBank) :
    numGranules banks ≤ banks.length * (2 ^ 52 - 1) := by
  induction banks with
  | nil => simp [numGranules]
  | cons b rest ih =>
    have hb : b.granules ≤ 2 ^ 52 - 1 := by
      have := b.size.isLt
      unfold NsDramBank.granules granuleSize
      omega
    rw [numGranules_cons, List.length_cons, Nat.succ_mul]
    omega

theorem scanBanks_numGranules (h : scanBanks cfg scan banks = some scan')
    (hlt : scan.numGranules.toNat + numGranules banks < 2 ^ 64) :
    scan'.numGranules.toNat = scan.numGranules.toNat + numGranules banks := by
  induction banks generalizing scan with
  | nil =>
    cases h
    rfl
  | cons b rest ih =>
    obtain ⟨next, hnext, hrest⟩ := scanBanks_cons h
    obtain ⟨-, -, -, hnum⟩ := scanBank_some hnext
    rw [numGranules_cons] at hlt ⊢
    have hnext : next.numGranules.toNat = scan.numGranules.toNat + b.granules := by
      have hdiv : (b.size / BitVec.ofNat 64 granuleSize).toNat = b.granules := BitVec.toNat_udiv
      rw [hnum, BitVec.toNat_add, hdiv, Nat.mod_eq_of_lt (by omega)]
    rw [ih hrest (by omega), hnext, Nat.add_assoc]

end

section
variable {cfg : BootConfig} {m : RmmCoreManifest} {maxNumBanks : Word}

/-- The facts of an accepted manifest that need no further condition. -/
structure DramAccepted (cfg : BootConfig) (banks : List NsDramBank) : Prop where
  some_bank : banks ≠ []
  passes : ∀ b ∈ banks, BankPasses cfg b
  ascending : (∀ b ∈ banks, b.base.toNat + b.size.toNat ≤ 2 ^ 64) →
    banks.Pairwise fun a b => a.base.toNat + a.size.toNat ≤ b.base.toNat
  counted : numGranules banks ≤ cfg.maxGranules

theorem dramAccepted_of_success (hmax : maxNumBanks.toNat ≤ 4096)
    (h : (rmmEl3IfcGetDramDataValidatedPa cfg m maxNumBanks).1 = eRmmBootSuccess) :
    (rmmEl3IfcGetDramDataValidatedPa cfg m maxNumBanks).2 = some m.platDram ∧
      DramAccepted cfg m.platDram.bankList := by
  unfold rmmEl3IfcGetDramDataValidatedPa at h ⊢
  dsimp only at h ⊢
  split_ifs at h ⊢ with hversion hbanks
  · exact absurd h (by decide)
  · exact absurd h (by decide)
  simp only [not_or, BitVec.not_lt] at hbanks
  obtain ⟨hzero, hle, -⟩ := hbanks
  have hlen : m.platDram.bankList.length =
      m.platDram.numBanks.toNat := by simp [NsDramInfo.bankList]
  have hpos : m.platDram.numBanks.toNat ≠ 0 := fun hz => hzero (BitVec.eq_of_toNat_eq hz)
  have hle := BitVec.le_def.mp hle
  split at h
  · exact absurd h (by decide)
  case h_2 scan hscan =>
    split_ifs at h ⊢ with hsum hmany
    · exact absurd h (by decide)
    · exact absurd h (by decide)
    refine ⟨rfl, ?_, scanBanks_passes hscan,
      fun hwrap => (scanBanks_ascending hscan hwrap).2, ?_⟩
    · intro hnil
      rw [hnil] at hlen
      exact hpos hlen.symm
    · have hfit : numGranules m.platDram.bankList < 2 ^ 64 := by
        have := numGranules_le m.platDram.bankList
        have := Nat.mul_le_mul_right (2 ^ 52 - 1)
          (show m.platDram.bankList.length ≤ 4096 by omega)
        omega
      have hnum := scanBanks_numGranules hscan (by simpa using hfit)
      have hmax' := cfg.maxGranules_lt
      rw [BitVec.lt_def, BitVec.toNat_ofNat, Nat.mod_eq_of_lt (by omega), hnum] at hmany
      simpa using hmany

/-- A bank of an accepted manifest has few granules, so it wraps only from far above the
physical address space. -/
theorem DramAccepted.noWrap {banks : List NsDramBank} (h : DramAccepted cfg banks) {b : NsDramBank}
    (hb : b ∈ banks) (hbase : b.base.toNat < 2 ^ cfg.paWidth) :
    b.base.toNat + b.size.toNat ≤ 2 ^ 64 := by
  have hfew : b.granules ≤ numGranules banks := List.le_sum_of_mem (List.mem_map_of_mem hb)
  have hcounted := h.counted
  have hmax := cfg.maxGranules_lt
  have hpa : 2 ^ cfg.paWidth ≤ 2 ^ 52 := Nat.pow_le_pow_right (by omega) cfg.paWidth_le
  unfold NsDramBank.granules granuleSize at hfew
  omega

theorem DramAccepted.sound {banks : List NsDramBank} (h : DramAccepted cfg banks)
    (hbase : ∀ b ∈ banks, b.base.toNat < 2 ^ cfg.paWidth) : DramSound cfg banks := by
  have hwrap := fun b hb => h.noWrap hb (hbase b hb)
  have hasc := h.ascending hwrap
  refine ⟨fun b hb => (h.passes b hb).aligned, fun b hb => (h.passes b hb).pos, hwrap,
    fun b hb => ?_,
    ?_, hasc, h.counted⟩
  · have hp := h.passes b hb
    have hstop := hp.stop
    rw [hp.stop_toNat (hwrap b hb)] at hstop
    have := hp.pos
    omega
  · refine (List.Pairwise.and_mem.mp hasc).imp ?_
    rintro a b ⟨ha, -, hab⟩
    have := (h.passes a ha).pos
    omega

end

/-- A manifest that passes describes a sound list of banks exactly if every bank starts
within the physical address space; one that does not pass yields no list. -/
theorem dramData_sound_iff (cfg : BootConfig) (m : RmmCoreManifest) {maxNumBanks : Word}
    (hmax : maxNumBanks.toNat ≤ 4096) :
    ((rmmEl3IfcGetDramDataValidatedPa cfg m maxNumBanks).1 = eRmmBootSuccess →
      (rmmEl3IfcGetDramDataValidatedPa cfg m maxNumBanks).2 = some m.platDram ∧
      (DramSound cfg m.platDram.bankList ↔
        ∀ b ∈ m.platDram.bankList, b.base.toNat < 2 ^ cfg.paWidth)) ∧
    ((rmmEl3IfcGetDramDataValidatedPa cfg m maxNumBanks).1 ≠ eRmmBootSuccess →
      (rmmEl3IfcGetDramDataValidatedPa cfg m maxNumBanks).2 = none) := by
  refine ⟨fun hok => ?_, fun hfail => ?_⟩
  · obtain ⟨hlist, hacc⟩ := dramAccepted_of_success hmax hok
    refine ⟨hlist, fun hsound b hb => ?_, hacc.sound⟩
    have := hsound.inRange b hb
    have := hsound.pos b hb
    omega
  · unfold rmmEl3IfcGetDramDataValidatedPa at hfail ⊢
    dsimp only at hfail ⊢
    split_ifs at hfail ⊢ with hversion hbanks
    · rfl
    · rfl
    · generalize scanBanks cfg _ _ = scanned at hfail ⊢
      cases scanned with
      | none => rfl
      | some scan =>
        dsimp only at hfail ⊢
        split_ifs at hfail ⊢ with hsum hmany
        · rfl
        · rfl
        · exact absurd rfl hfail

/-- A machine with 48 bits of physical address. -/
def demoBoot : BootConfig := ⟨48, by omega, 0x100000, by omega⟩

/-- A manifest with these banks: the checksum makes the sum 0. -/
def demoManifest (banks : List NsDramBank) : RmmCoreManifest :=
  ⟨rmmEl3ManifestMakeVersion 0 3, BitVec.ofNat 64 banks.length, 0x1000#64,
    fun i => banks.getD i default,
    0#64 - banks.foldl (fun sum b => sum + (b.base + b.size))
      (BitVec.ofNat 64 banks.length + 0x1000#64)⟩

/-- Two granules at 2 GiB and four at 34 GiB. -/
def demoBanks : List NsDramBank := [⟨0x80000000#64, 0x2000#64⟩, ⟨0x880000000#64, 0x4000#64⟩]

theorem demoBanks_accepted :
    (rmmEl3IfcGetDramDataValidatedPa demoBoot (demoManifest demoBanks) 4#64).1 =
      eRmmBootSuccess := by decide

/-- Two banks with a gap between them. -/
theorem dramData_sound_iff_low :
    (rmmEl3IfcGetDramDataValidatedPa demoBoot (demoManifest demoBanks) 4#64).1 = eRmmBootSuccess ∧
    DramSound demoBoot (demoManifest demoBanks).platDram.bankList := by
  have hiff := @dramData_sound_iff demoBoot (demoManifest demoBanks) 4#64 (by decide)
  exact ⟨demoBanks_accepted, (hiff.1 demoBanks_accepted).2.mpr (by decide)⟩

/-- A bank at the very end of the address space wraps around it and passes. -/
theorem dramData_wrapping_bank : ¬ ∀ (cfg : BootConfig) (m : RmmCoreManifest)
    (maxNumBanks : Word),
    maxNumBanks.toNat ≤ 4096 →
    (rmmEl3IfcGetDramDataValidatedPa cfg m maxNumBanks).1 = eRmmBootSuccess →
    DramSound cfg m.platDram.bankList := by
  intro h
  have hsound := h demoBoot (demoManifest [⟨0xFFFFFFFFFFFFF000#64, 0x2000#64⟩]) 4#64 (by decide)
    (by decide)
  have hwrap := hsound.noWrap ⟨0xFFFFFFFFFFFFF000#64, 0x2000#64⟩ (by decide)
  exact absurd hwrap (by decide)

end RmmCaec
