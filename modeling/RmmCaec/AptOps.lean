import RmmCaec.Attachment
import RmmCaec.PackedSet

/-!
# Operations on one attachment table

Every change that the monitor makes to an attachment table is one of a few
operations: the helpers that add, enable, disable and share regions, and the
in-place updates by which the handlers drop shares and regions. The
representation invariant of the table is preserved by each of them.
-/
namespace RmmCaec

open PackedSet

theorem findFirst_some {n : ℕ} {p : ℕ → Bool} {i : ℕ} (h : findFirst n p = some i) :
    i < n ∧ p i = true :=
  ⟨List.mem_range.mp (List.mem_of_find?_eq_some h), List.find?_some h⟩

theorem findFirst_none {n : ℕ} {p : ℕ → Bool} (h : findFirst n p = none) {i : ℕ}
    (hi : i < n) :
    p i = false := by
  have := List.find?_eq_none.mp h i (List.mem_range.mpr hi)
  simpa using this

/-- The number of share slots in use. -/
def sharesInUse (m : MasterMem) : ℕ :=
  (List.range csmMaxMasterShares).countP fun k => (m.shares k).inUse

/-- The share slots of a region agree with its count and name each slave once. -/
structure SharesOk (m : MasterMem) : Prop where
  count : m.shareCount.toNat = sharesInUse m
  distinct : ∀ j < csmMaxMasterShares, ∀ k < csmMaxMasterShares, (m.shares j).inUse = true →
    (m.shares k).inUse = true → (m.shares j).slaveId = (m.shares k).slaveId → j = k

/-- An enabled set, its mask and the mask of used entries agree. -/
structure EnabledOk (e : EnabledRegions) (enabled used : ℕ → Bool) : Prop where
  packed : Packed maxMemRegions e.len e.index e.posByIndex enabled
  used : ∀ i, enabled i = true → used i = true

structure AptOk (a : Apt) : Prop where
  masters : EnabledOk a.enabledMr a.masterEnabledMask a.masterUsedMask
  slaves : EnabledOk a.enabledSr a.slaveEnabledMask a.slaveUsedMask
  shares : ∀ i, a.masterUsedMask i = true → SharesOk (a.masterMemory i)

theorem sharesOk_unshared (regionId : Byte) (ipaStart mapSize : Word) :
    SharesOk ⟨regionId, ipaStart, mapSize, 0#8, fun _ => default⟩ :=
  ⟨rfl, fun _ _ _ _ hj => by cases hj⟩

theorem aptOk_default : AptOk default where
  masters := ⟨Packed.empty _ _ _, fun _ h => by cases h⟩
  slaves := ⟨Packed.empty _ _ _, fun _ h => by cases h⟩
  shares _ h := by cases h

namespace EnabledOk

variable {e : EnabledRegions} {enabled used : ℕ → Bool}

theorem len_le (h : EnabledOk e enabled used) : e.len ≤ 20 := h.packed.len_le

theorem push (h : EnabledOk e enabled used) {idx : ℕ} (hi : idx < maxMemRegions)
    (hm : enabled idx = false) (hu : used idx = true) :
    EnabledOk (e.push idx) (Function.update enabled idx true) used where
  packed := by
    have hlt : e.len < 20 := h.packed.len_lt hi hm
    have hlen : (e.len + 1) % 256 = e.len + 1 := Nat.mod_eq_of_lt (by omega)
    have := h.packed.push hi hm
    unfold EnabledRegions.push
    rwa [hlen]
  used i he := by
    by_cases hi : i = idx
    · rw [hi, hu]
    · rw [Function.update_of_ne hi] at he
      exact h.used i he

theorem swapPop (h : EnabledOk e enabled used) {idx : ℕ} (hm : enabled idx = true) :
    EnabledOk (e.swapPop idx) (Function.update enabled idx false) used where
  packed := by
    have hle := h.len_le
    obtain ⟨hpos, hidx⟩ := h.packed.pos_spec hm
    -- at least one region is enabled, so the length does not wrap
    obtain ⟨n, hn⟩ : ∃ n, e.len = n + 1 := ⟨e.len - 1, by omega⟩
    have hlast : (e.len + 2 ^ 64 - 1) % 2 ^ 64 = n := by omega
    have hdec : (e.len + 255) % 256 = n := by omega
    have hp := h.packed
    rw [hn] at hp
    unfold EnabledRegions.swapPop
    simp only [hlast, hdec]
    by_cases he : e.posByIndex idx = n
    · rw [if_neg (not_ne_iff.mpr he)]
      have := hp.pop
      rwa [← he, hidx, he] at this
    · rw [if_pos he]
      exact hp.swapPop hm he
  used i he := by
    by_cases hi : i = idx
    · rw [hi, Function.update_self] at he
      cases he
    · rw [Function.update_of_ne hi] at he
      exact h.used i he

/-- Marking one more entry as used. -/
theorem use (h : EnabledOk e enabled used) (idx : ℕ) :
    EnabledOk e enabled (Function.update used idx true) where
  packed := h.packed
  used i he := by
    by_cases hi : i = idx
    · rw [hi, Function.update_self]
    · rw [Function.update_of_ne hi]
      exact h.used i he

/-- Freeing an entry that is not enabled. -/
theorem unuse (h : EnabledOk e enabled used) {idx : ℕ} (hm : enabled idx = false) :
    EnabledOk e enabled (Function.update used idx false) where
  packed := h.packed
  used i he := by
    by_cases hi : i = idx
    · rw [hi, hm] at he
      cases he
    · rw [Function.update_of_ne hi]
      exact h.used i he

theorem eq_of_not_enabled (h : EnabledOk e enabled used) {idx : ℕ}
    (hc : ¬ (idx < maxMemRegions ∧ enabled idx = true)) : enabled idx = false := by
  rw [Bool.eq_false_iff]
  exact fun hm => hc ⟨h.packed.mask_lt hm, hm⟩

end EnabledOk

namespace SharesOk

variable {m : MasterMem}

theorem sharesInUse_update (m : MasterMem) {k : ℕ} (hk : k < csmMaxMasterShares) (s : MasterShare)
    (c : Byte) :
    sharesInUse { m with shares := Function.update m.shares k s, shareCount := c } +
      (m.shares k).inUse.toNat = sharesInUse m + s.inUse.toNat := by
  have hk' : k = 0 ∨ k = 1 ∨ k = 2 := by
    unfold csmMaxMasterShares at hk
    omega
  have htoNat : ∀ b : Bool, b.toNat = if b = true then 1 else 0 := by decide
  simp only [sharesInUse, csmMaxMasterShares, List.range_succ, List.range_zero, List.nil_append,
    List.cons_append, List.countP_cons, List.countP_nil, htoNat]
  rcases hk' with rfl | rfl | rfl
  · simp [Function.update]
    omega
  · simp [Function.update]
    omega
  · simp [Function.update]
    omega

theorem count_le (m : MasterMem) : sharesInUse m ≤ 3 :=
  List.countP_le_length.trans (by simp [csmMaxMasterShares])

theorem add (h : SharesOk m) {k : ℕ} (hk : k < csmMaxMasterShares)
    (hfree : (m.shares k).inUse = false)
    {slaveId : Byte} (hnew : aptFindMasterShareSlot m slaveId = none) (slaveRdPa : Word)
    (permission : Byte) :
    SharesOk { m with
      shares := Function.update m.shares k ⟨slaveId, slaveRdPa, permission, true⟩
      shareCount := m.shareCount + 1#8 } where
  count := by
    have h1 := sharesInUse_update m hk ⟨slaveId, slaveRdPa, permission, true⟩
      (m.shareCount + 1#8)
    have h2 := count_le m
    have h3 := h.count
    rw [hfree] at h1
    simp only [Bool.toNat_false, Bool.toNat_true] at h1
    have h4 : (m.shareCount + 1#8).toNat = m.shareCount.toNat + 1 := by
      rw [BitVec.toNat_add]
      exact Nat.mod_eq_of_lt (by simp; omega)
    rw [h4, h3]
    omega
  distinct i hi j hj hui huj he := by
    have hother : ∀ i < csmMaxMasterShares, (m.shares i).inUse = true →
        (m.shares i).slaveId ≠ slaveId := by
      intro i hi hu hc
      have := findFirst_none hnew hi
      simp [hu, hc] at this
    by_cases hik : i = k <;> by_cases hjk : j = k
    · rw [hik, hjk]
    · simp only [hik, Function.update_self, Function.update_of_ne hjk] at huj he
      exact absurd he.symm (hother j hj huj)
    · simp only [hjk, Function.update_self, Function.update_of_ne hik] at hui he
      exact absurd he (hother i hi hui)
    · simp only [Function.update_of_ne hik, Function.update_of_ne hjk] at hui huj he
      exact h.distinct i hi j hj hui huj he

theorem drop (h : SharesOk m) {k : ℕ} (hk : k < csmMaxMasterShares)
    (hu : (m.shares k).inUse = true) {free : MasterShare} (hfree : free.inUse = false) :
    SharesOk { m with
      shares := Function.update m.shares k free
      shareCount := m.shareCount - 1#8 } where
  count := by
    have h1 := sharesInUse_update m hk free (m.shareCount - 1#8)
    have h2 := count_le m
    have h3 := h.count
    rw [hu, hfree] at h1
    simp only [Bool.toNat_false, Bool.toNat_true] at h1
    have h4 : (m.shareCount - 1#8).toNat = m.shareCount.toNat - 1 := by
      rw [BitVec.toNat_sub]
      have : (1#8).toNat = 1 := rfl
      omega
    rw [h4, h3]
    omega
  distinct i hi j hj hui huj he := by
    have hne : ∀ {i}, (Function.update m.shares k free i).inUse = true → i ≠ k := by
      rintro i hu' rfl
      rw [Function.update_self, hfree] at hu'
      cases hu'
    have hi' := hne hui
    have hj' := hne huj
    simp only [Function.update_of_ne hi', Function.update_of_ne hj'] at hui huj he
    exact h.distinct i hi j hj hui huj he

end SharesOk

namespace AptOk

variable {a : Apt}

theorem addMaster (h : AptOk a) {regionId : Byte} {ipaStart mapSize : Word} {enableNow : Bool}
    {a' : Apt} {idx : ℕ} (ha : aptAddMaster a regionId ipaStart mapSize enableNow =
      some (a', idx)) :
    AptOk a' := by
  unfold aptAddMaster at ha
  split at ha
  case h_1 => cases ha
  case h_2 i hfree =>
    obtain ⟨hi, hu⟩ := findFirst_some hfree
    have hshares : ∀ j, Function.update a.masterUsedMask i true j = true →
        SharesOk (Function.update a.masterMemory i
          ⟨regionId, ipaStart, mapSize, 0#8, fun _ => default⟩ j) := by
      intro j hj
      by_cases hji : j = i
      · rw [hji, Function.update_self]
        exact sharesOk_unshared _ _ _
      · rw [Function.update_of_ne hji] at hj ⊢
        exact h.shares j hj
    simp only at ha
    split at ha
    case isTrue hc =>
      cases ha
      rw [Bool.and_eq_true, Bool.not_eq_true'] at hc
      exact ⟨(h.masters.use idx).push hi hc.2 (Function.update_self ..), h.slaves, hshares⟩
    case isFalse =>
      cases ha
      exact ⟨h.masters.use idx, h.slaves, hshares⟩

theorem addSlave (h : AptOk a) {masterId regionId : Byte} {masterRdPa ipaStart mapSize : Word}
    {enableNow : Bool} {a' : Apt} {idx : ℕ}
    (ha : aptAddSlave a masterId regionId masterRdPa ipaStart mapSize enableNow = some (a', idx)) :
    AptOk a' := by
  unfold aptAddSlave at ha
  split at ha
  case h_1 => cases ha
  case h_2 i hfree =>
    obtain ⟨hi, hu⟩ := findFirst_some hfree
    simp only at ha
    split at ha
    case isTrue hc =>
      cases ha
      rw [Bool.and_eq_true, Bool.not_eq_true'] at hc
      exact ⟨h.masters, (h.slaves.use idx).push hi hc.2 (Function.update_self ..), h.shares⟩
    case isFalse =>
      cases ha
      exact ⟨h.masters, h.slaves.use idx, h.shares⟩

theorem enableMaster (h : AptOk a) (idx : ℕ) : AptOk (aptEnableMasterIdx a idx) := by
  unfold aptEnableMasterIdx
  split
  case isTrue hc => exact ⟨h.masters.push hc.1 hc.2.2 hc.2.1, h.slaves, h.shares⟩
  case isFalse => exact h

theorem enableSlave (h : AptOk a) (idx : ℕ) : AptOk (aptEnableSlaveIdx a idx) := by
  unfold aptEnableSlaveIdx
  split
  case isTrue hc => exact ⟨h.masters, h.slaves.push hc.1 hc.2.2 hc.2.1, h.shares⟩
  case isFalse => exact h

theorem disableMaster (h : AptOk a) (idx : ℕ) : AptOk (aptDisableMasterIdx a idx) := by
  unfold aptDisableMasterIdx
  split
  case isTrue hc => exact ⟨h.masters.swapPop hc.2, h.slaves, h.shares⟩
  case isFalse => exact h

theorem disableSlave (h : AptOk a) (idx : ℕ) : AptOk (aptDisableSlaveIdx a idx) := by
  unfold aptDisableSlaveIdx
  split
  case isTrue hc => exact ⟨h.masters, h.slaves.swapPop hc.2, h.shares⟩
  case isFalse => exact h

theorem addShare (h : AptOk a) {idx : ℕ} {slaveId : Byte} {slaveRdPa : Word} {permission : Byte}
    {a' : Apt} (ha : aptMasterAddShare a idx slaveId slaveRdPa permission = some a') :
      AptOk a' := by
  unfold aptMasterAddShare at ha
  simp only at ha
  split at ha
  · cases ha
  split at ha
  · cases ha
  case isFalse hu =>
  split at ha
  · cases ha
  case isFalse hnew =>
  rw [Bool.not_eq_true, Option.isSome_eq_false_iff, Option.isNone_iff_eq_none] at hnew
  split at ha
  case h_1 => cases ha
  case h_2 k hfree =>
    obtain ⟨hk, hk'⟩ := findFirst_some hfree
    cases ha
    refine ⟨h.masters, h.slaves, fun i hi => ?_⟩
    by_cases he : i = idx
    · subst he
      simp only [Function.update_self]
      exact (h.shares i hi).add hk (by simpa using hk') hnew slaveRdPa permission
    · simp only [Function.update_of_ne he]
      exact h.shares i hi

theorem dropShare (h : AptOk a) {idx slot : ℕ} (hs : slot < csmMaxMasterShares)
    (hu : ((a.masterMemory idx).shares slot).inUse = true) :
    AptOk (aptMasterDropShare a idx slot) := by
  refine ⟨h.masters, h.slaves, fun i hi => ?_⟩
  by_cases he : i = idx
  · subst he
    simp only [aptMasterDropShare, Function.update_self]
    exact (h.shares i hi).drop hs hu rfl
  · simp only [aptMasterDropShare, Function.update_of_ne he]
    exact h.shares i hi

theorem disableMaster_mask (h : AptOk a) (idx : ℕ) :
    (aptDisableMasterIdx a idx).masterEnabledMask idx = false := by
  unfold aptDisableMasterIdx
  split
  case isTrue => exact Function.update_self ..
  case isFalse hc => exact h.masters.eq_of_not_enabled hc

theorem disableSlave_mask (h : AptOk a) (idx : ℕ) :
    (aptDisableSlaveIdx a idx).slaveEnabledMask idx = false := by
  unfold aptDisableSlaveIdx
  split
  case isTrue => exact Function.update_self ..
  case isFalse hc => exact h.slaves.eq_of_not_enabled hc

theorem releaseSlave (h : AptOk a) (idx : ℕ) : AptOk (aptReleaseSlave a idx) :=
  ⟨(h.disableSlave idx).masters, (h.disableSlave idx).slaves.unuse (h.disableSlave_mask idx),
    (h.disableSlave idx).shares⟩

theorem eraseSlave (h : AptOk a) (idx : ℕ) : AptOk (aptEraseSlave a idx) :=
  ⟨(h.releaseSlave idx).masters, (h.releaseSlave idx).slaves, (h.releaseSlave idx).shares⟩

theorem eraseMaster (h : AptOk a) (idx : ℕ) : AptOk (aptEraseMaster a idx) := by
  have hd := h.disableMaster idx
  refine ⟨hd.masters.unuse (h.disableMaster_mask idx), hd.slaves, fun i hi => ?_⟩
  by_cases he : i = idx
  · subst he
    simp only [aptEraseMaster, Function.update_self] at hi
    cases hi
  · simp only [aptEraseMaster, Function.update_of_ne he] at hi ⊢
    exact hd.shares i hi

end AptOk

/-- The in-place updates that take sharing back: a share slot in use is freed, a
slave region is released or erased. -/
inductive TrimOp : Apt → Apt → Prop
  | dropShare {a : Apt} {idx slot : ℕ} (hs : slot < csmMaxMasterShares)
      (hu : ((a.masterMemory idx).shares slot).inUse = true) :
      TrimOp a (aptMasterDropShare a idx slot)
  | releaseSlave (a : Apt) (idx : ℕ) : TrimOp a (aptReleaseSlave a idx)
  | eraseSlave (a : Apt) (idx : ℕ) : TrimOp a (aptEraseSlave a idx)

/-- All updates of a table. -/
inductive AptOp : Apt → Apt → Prop
  | reset (a : Apt) : AptOp a default
  | addMaster {a a' : Apt} {regionId : Byte} {ipaStart mapSize : Word}
      {enableNow : Bool} {idx : ℕ}
      (h : aptAddMaster a regionId ipaStart mapSize enableNow = some (a', idx)) : AptOp a a'
  | addSlave {a a' : Apt} {masterId regionId : Byte} {masterRdPa ipaStart mapSize : Word}
      {enableNow : Bool} {idx : ℕ}
      (h : aptAddSlave a masterId regionId masterRdPa ipaStart mapSize enableNow = some (a', idx)) :
      AptOp a a'
  | enableMaster (a : Apt) (idx : ℕ) : AptOp a (aptEnableMasterIdx a idx)
  | enableSlave (a : Apt) (idx : ℕ) : AptOp a (aptEnableSlaveIdx a idx)
  | disableMaster (a : Apt) (idx : ℕ) : AptOp a (aptDisableMasterIdx a idx)
  | disableSlave (a : Apt) (idx : ℕ) : AptOp a (aptDisableSlaveIdx a idx)
  | addShare {a a' : Apt} {idx : ℕ} {slaveId : Byte} {slaveRdPa : Word} {permission : Byte}
      (h : aptMasterAddShare a idx slaveId slaveRdPa permission = some a') : AptOp a a'
  | trim {a a' : Apt} (h : TrimOp a a') : AptOp a a'
  | eraseMaster (a : Apt) (idx : ℕ) : AptOp a (aptEraseMaster a idx)

/-- A table that arises from a reset one. -/
def AptBuilt (a : Apt) : Prop := Relation.ReflTransGen AptOp default a

theorem AptOk.op {a a' : Apt} (h : AptOk a) (op : AptOp a a') : AptOk a' := by
  cases op with
  | reset => exact aptOk_default
  | addMaster ha => exact h.addMaster ha
  | addSlave ha => exact h.addSlave ha
  | enableMaster idx => exact h.enableMaster idx
  | enableSlave idx => exact h.enableSlave idx
  | disableMaster idx => exact h.disableMaster idx
  | disableSlave idx => exact h.disableSlave idx
  | addShare ha => exact h.addShare ha
  | trim ht =>
    cases ht with
    | dropShare hs hu => exact h.dropShare hs hu
    | releaseSlave idx => exact h.releaseSlave idx
    | eraseSlave idx => exact h.eraseSlave idx
  | eraseMaster idx => exact h.eraseMaster idx

theorem AptBuilt.ok {a : Apt} (h : AptBuilt a) : AptOk a := by
  induction h with
  | refl => exact aptOk_default
  | tail _ op ih => exact ih.op op

/-- A sequence of trims. -/
def Trim : Apt → Apt → Prop := Relation.ReflTransGen TrimOp

theorem Trim.refl (a : Apt) : Trim a a := Relation.ReflTransGen.refl

theorem Trim.single {a a' : Apt} (h : TrimOp a a') : Trim a a' := Relation.ReflTransGen.single h

theorem Trim.trans {a b c : Apt} (h : Trim a b) (h' : Trim b c) : Trim a c :=
  Relation.ReflTransGen.trans h h'

theorem Trim.built {a a' : Apt} (h : Trim a a') (hb : AptBuilt a) : AptBuilt a' := by
  induction h with
  | refl => exact hb
  | tail _ op ih => exact ih.tail (.trim op)

/-- What trimming leaves as it is: the master regions up to freed share slots, and
the slave regions that are still used. -/
structure Trimmed (a a' : Apt) : Prop where
  masterUsed : a'.masterUsedMask = a.masterUsedMask
  enabledMr : a'.enabledMr = a.enabledMr
  masterEnabled : a'.masterEnabledMask = a.masterEnabledMask
  region : ∀ i, (a'.masterMemory i).regionId = (a.masterMemory i).regionId ∧
    (a'.masterMemory i).ipaStart = (a.masterMemory i).ipaStart ∧
    (a'.masterMemory i).mapSize = (a.masterMemory i).mapSize
  share : ∀ i k, ((a'.masterMemory i).shares k).inUse = true →
    (a'.masterMemory i).shares k = (a.masterMemory i).shares k
  slaveUsed : ∀ i, a'.slaveUsedMask i = true → a.slaveUsedMask i = true ∧
    a'.slaveMemory i = a.slaveMemory i
  slaveEnabled : ∀ i, a'.slaveEnabledMask i = true → a.slaveEnabledMask i = true

theorem Trimmed.refl (a : Apt) : Trimmed a a :=
  ⟨rfl, rfl, rfl, fun _ => ⟨rfl, rfl, rfl⟩, fun _ _ _ => rfl,
    fun _ h => ⟨h, rfl⟩, fun _ h => h⟩

theorem Trimmed.trans {a b c : Apt} (h : Trimmed a b) (h' : Trimmed b c) : Trimmed a c where
  masterUsed := h'.masterUsed.trans h.masterUsed
  enabledMr := h'.enabledMr.trans h.enabledMr
  masterEnabled := h'.masterEnabled.trans h.masterEnabled
  region i := ⟨(h'.region i).1.trans (h.region i).1, (h'.region i).2.1.trans (h.region i).2.1,
    (h'.region i).2.2.trans (h.region i).2.2⟩
  share i k hu := by
    have h1 := h'.share i k hu
    rw [h1] at hu ⊢
    exact h.share i k hu
  slaveUsed i hu := by
    obtain ⟨h1, h2⟩ := h'.slaveUsed i hu
    obtain ⟨h3, h4⟩ := h.slaveUsed i h1
    exact ⟨h3, h2.trans h4⟩
  slaveEnabled i he := h.slaveEnabled i (h'.slaveEnabled i he)

theorem trimmed_dropShare (a : Apt) (idx slot : ℕ) :
    Trimmed a (aptMasterDropShare a idx slot) where
  masterUsed := rfl
  enabledMr := rfl
  masterEnabled := rfl
  region i := by
    by_cases hi : i = idx
    · simp [aptMasterDropShare, hi]
    · simp [aptMasterDropShare, Function.update_of_ne hi]
  share i k hu := by
    by_cases hi : i = idx
    · subst hi
      simp only [aptMasterDropShare, Function.update_self] at hu ⊢
      by_cases hk : k = slot
      · rw [hk, Function.update_self] at hu
        cases hu
      · rw [Function.update_of_ne hk]
    · simp [aptMasterDropShare, Function.update_of_ne hi]
  slaveUsed _ h := ⟨h, rfl⟩
  slaveEnabled _ h := h

theorem trimmed_releaseSlave (a : Apt) (idx : ℕ) : Trimmed a (aptReleaseSlave a idx) := by
  have hdis : Trimmed a (aptDisableSlaveIdx a idx) := by
    unfold aptDisableSlaveIdx
    split
    · refine ⟨rfl, rfl, rfl, fun _ => ⟨rfl, rfl, rfl⟩, fun _ _ _ => rfl,
        fun _ h => ⟨h, rfl⟩, ?_⟩
      intro i he
      by_cases hi : i = idx
      · subst hi
        simp [disableSwapPopSlave] at he
      · simpa [disableSwapPopSlave, Function.update_of_ne hi] using he
    · exact .refl a
  refine hdis.trans ⟨rfl, rfl, rfl, fun _ => ⟨rfl, rfl, rfl⟩, fun _ _ _ => rfl,
    ?_, fun _ h => h⟩
  intro i hu
  by_cases hi : i = idx
  · subst hi
    simp [aptReleaseSlave] at hu
  · simp only [aptReleaseSlave, Function.update_of_ne hi] at hu
    exact ⟨hu, rfl⟩

theorem trimmed_eraseSlave (a : Apt) (idx : ℕ) : Trimmed a (aptEraseSlave a idx) := by
  refine (trimmed_releaseSlave a idx).trans
    ⟨rfl, rfl, rfl, fun _ => ⟨rfl, rfl, rfl⟩, fun _ _ _ => rfl, ?_, fun _ h => h⟩
  intro i hu
  refine ⟨hu, Function.update_of_ne ?_ _ _⟩
  rintro rfl
  simp [aptEraseSlave, aptReleaseSlave] at hu

theorem Trim.trimmed {a a' : Apt} (h : Trim a a') : Trimmed a a' := by
  induction h with
  | refl => exact .refl _
  | tail _ op ih =>
    refine ih.trans ?_
    cases op with
    | dropShare hs hu => exact trimmed_dropShare _ _ _
    | releaseSlave idx => exact trimmed_releaseSlave _ _
    | eraseSlave idx => exact trimmed_eraseSlave _ _

end RmmCaec
