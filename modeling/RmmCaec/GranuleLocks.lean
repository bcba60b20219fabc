import RmmCaec.GranuleIndex
import RmmCaec.InPlaceSort
import RmmCaec.Locking

/-!
# Locking granules by their index

A granule is an element of the array of granules, and its lock is in there. Addresses are
looked up in the layout of the DRAM banks. Several granules are locked in the order of
their addresses, which the request is sorted by first; if one of them cannot be locked,
those before it are released.
-/
namespace RmmCaec

open Outcome LockTrace InPlaceSort

/-- `find_granule`: the index of the granule at an address. -/
def findGranuleIdx (cfg : BootConfig) (banks : List NsDramBank) (addr : Word) : Option Word :=
  if !granuleAligned addr then none
  else
    match platGranuleAddrToIdx (armSetDramLayout banks) addr with
    | none => none
    | some idx => if cfg.maxGranules ≤ idx.toNat then none else some idx

/-- On sound banks an address is looked up by its place in them. -/
theorem findGranuleIdx_iff {cfg : BootConfig} {banks : List NsDramBank}
    (hsound : DramSound cfg banks) (hne : banks ≠ []) {addr g : Word} :
    findGranuleIdx cfg banks addr = some g ↔
      ∃ i k, AtIndex banks i addr k ∧ g = BitVec.ofNat 64 k := by
  have hmaps := hsound.granuleMaps hne
  unfold findGranuleIdx
  constructor
  · intro h
    split_ifs at h with hal
    split at h
    · cases h
    case h_2 idx hidx =>
      split_ifs at h with hmax
      cases h
      have hin : GranuleIn banks addr := by
        by_contra hout
        rw [(hmaps.outside addr).mpr hout] at hidx
        cases hidx
        have := cfg.maxGranules_lt
        exact hmax (by simp only [uint64Max, BitVec.toNat_allOnes]; omega)
      obtain ⟨i, k, hk⟩ := granuleIn_iff.mp hin
      rw [hsound.addrToIdx_eq hk] at hidx
      exact ⟨i, k, hk, (Option.some.inj hidx).symm⟩
  · rintro ⟨i, k, hk, rfl⟩
    obtain ⟨htotal, hlt⟩ := hsound.index_total hk
    have hmax : ¬ cfg.maxGranules ≤ (BitVec.ofNat 64 k : Word).toNat := by
      have := hsound.counted
      rw [BitVec.toNat_ofNat]
      omega
    simp only [hk.aligned, hsound.addrToIdx_eq hk, Bool.not_true, Bool.false_eq_true, if_false,
      if_neg hmax]

theorem granule_lt_of_accepted {cfg : BootConfig} {m : RmmCoreManifest} {maxNumBanks : Word}
    (hmax : maxNumBanks.toNat ≤ 4096)
    (hok : (rmmEl3IfcGetDramDataValidatedPa cfg m maxNumBanks).1 = eRmmBootSuccess)
    (hstarts : ∀ b ∈ m.platDram.bankList, b.base.toNat < 2 ^ cfg.paWidth) (addr : Word)
    (h : (findGranuleIdx cfg m.platDram.bankList addr).isSome = true) : addr.toNat < 2 ^ 52 := by
  obtain ⟨-, hacc⟩ := dramAccepted_of_success hmax hok
  have hsound := hacc.sound hstarts
  obtain ⟨g, hg⟩ := Option.isSome_iff_exists.mp h
  obtain ⟨i, k, hk, -⟩ := (findGranuleIdx_iff hsound hacc.some_bank).mp hg
  have hrange := hsound.inRange _ (List.getElem_mem hk.bank)
  have hpow : 2 ^ cfg.paWidth ≤ 2 ^ 52 := Nat.pow_le_pow_right (by omega) cfg.paWidth_le
  exact Nat.lt_of_lt_of_le hk.last (hrange.trans hpow)

/-- A platform whose granules are those of the DRAM banks in a boot manifest that was accepted.
That every bank starts within the physical address space is not checked there. -/
structure DramPlatform extends Platform where
  cfg : BootConfig
  manifest : RmmCoreManifest
  maxNumBanks : Word
  maxNumBanks_le : maxNumBanks.toNat ≤ 4096
  accepted : (rmmEl3IfcGetDramDataValidatedPa cfg manifest maxNumBanks).1 = eRmmBootSuccess
  starts : ∀ b ∈ manifest.platDram.bankList, b.base.toNat < 2 ^ cfg.paWidth
  isGranule_eq : ∀ a, isGranule a = (findGranuleIdx cfg manifest.platDram.bankList a).isSome

namespace DramPlatform

variable {plat : DramPlatform} {addr : Word}

def banks (plat : DramPlatform) : List NsDramBank := plat.manifest.platDram.bankList

theorem some_bank (plat : DramPlatform) : plat.banks ≠ [] :=
  (dramAccepted_of_success plat.maxNumBanks_le plat.accepted).2.some_bank

theorem sound (plat : DramPlatform) : DramSound plat.cfg plat.banks :=
  (dramAccepted_of_success plat.maxNumBanks_le plat.accepted).2.sound plat.starts

def findGranule (plat : DramPlatform) (addr : Word) : Option Word :=
  findGranuleIdx plat.cfg plat.banks addr

/-- The address of a granule; the assertions of the search are left out. -/
def granuleAddr (plat : DramPlatform) (g : Word) : Word :=
  (platGranuleIdxToAddr (armSetDramLayout plat.banks) g).getD 0#64

theorem findGranule_iff {g : Word} : plat.findGranule addr = some g ↔
    ∃ i k, AtIndex plat.banks i addr k ∧ g = BitVec.ofNat 64 k :=
  findGranuleIdx_iff plat.sound plat.some_bank

theorem granuleAddr_of_find {g : Word} (h : plat.findGranule addr = some g) :
    plat.granuleAddr g = addr := by
  obtain ⟨i, k, hk, rfl⟩ := findGranule_iff.mp h
  rw [granuleAddr, plat.sound.idxToAddr_eq hk]
  rfl

/-- The next granule in memory is the next one in the array. -/
theorem findGranule_next {g g' : Word} (h : plat.findGranule addr = some g)
    (h' : plat.findGranule (addr + 0x1000#64) = some g') : g' = g + 1#64 := by
  obtain ⟨i, k, hk, rfl⟩ := findGranule_iff.mp h
  obtain ⟨j, k', hk', rfl⟩ := findGranule_iff.mp h'
  have hgranule : plat.isGranule addr = true := by
    rw [plat.isGranule_eq]
    exact Option.isSome_of_eq_some h
  have hlt := plat.isGranule_lt addr hgranule
  rw [plat.sound.idx_next hk hk' (by omega), BitVec.ofNat_add]

/-- The platform of an accepted manifest: another one with its granules replaced. -/
def ofManifest (plat : Platform) (cfg : BootConfig) (m : RmmCoreManifest) {maxNumBanks : Word}
    (hmax : maxNumBanks.toNat ≤ 4096)
    (hok : (rmmEl3IfcGetDramDataValidatedPa cfg m maxNumBanks).1 = eRmmBootSuccess)
    (hstarts : ∀ b ∈ m.platDram.bankList, b.base.toNat < 2 ^ cfg.paWidth) : DramPlatform :=
  { plat with
    isGranule := fun a => (findGranuleIdx cfg m.platDram.bankList a).isSome
    isGranule_lt := granule_lt_of_accepted hmax hok hstarts
    cfg := cfg
    manifest := m
    maxNumBanks := maxNumBanks
    maxNumBanks_le := hmax
    accepted := hok
    starts := hstarts
    isGranule_eq := fun _ => rfl }

theorem findGranule_isSome_iff : (plat.findGranule addr).isSome ↔ GranuleIn plat.banks addr := by
  rw [Option.isSome_iff_exists, granuleIn_iff]
  constructor
  · rintro ⟨g, hg⟩
    obtain ⟨i, k, hk, -⟩ := findGranule_iff.mp hg
    exact ⟨i, k, hk⟩
  · rintro ⟨i, k, hk⟩
    exact ⟨_, findGranule_iff.mpr ⟨i, k, hk, rfl⟩⟩

theorem findGranule_isSome (plat : DramPlatform) (addr : Word) :
    RmmCaec.findGranule plat.toPlatform addr = (plat.findGranule addr).isSome := by
  rw [RmmCaec.findGranule, plat.isGranule_eq, findGranule, banks, findGranuleIdx]
  cases granuleAligned addr <;> simp

end DramPlatform

section
variable (plat : DramPlatform) (s : State)

def findLockGranuleAt (tr : Trace) (addr : Word) (expected : GranuleState) :
    Rmm (Option Word × Trace) := do
  match plat.findGranule addr with
  | none => return (none, tr)
  | some g =>
    let tr ← granuleBitlockAcquire tr (plat.granuleAddr g)
    if (s.granule (plat.granuleAddr g)).state ≠ expected then
      return (none, tr ++ [.unlock (plat.granuleAddr g)])
    else
      assertThat (unlockedInvariant (s.granule (plat.granuleAddr g))) .unlockInvariant
      return (some g, tr)

def granuleUnlockAt (tr : Trace) (g : Word) : Rmm Trace :=
  granuleUnlockTraced s tr (plat.granuleAddr g)

/-- The assertion on a granule that is not locked fails for some granule. -/
def Unsettled (s : State) (f : Fault) : Prop :=
  f = .unlockInvariant ∧ ∃ a, unlockedInvariant (s.granule a) = false

end

section
variable {plat : DramPlatform} {s : State} {tr : Trace} {addr : Word} {expected : GranuleState}

theorem findLockGranuleAt_sat (h : addr ∉ heldAfter ∅ tr) :
    Sat (findLockGranuleAt plat s tr addr expected)
      (fun r => r = if lockable plat.toPlatform s addr expected then
        (plat.findGranule addr, tr ++ [.lock addr]) else (none, tr ++ probe plat.toPlatform addr))
      (Unsettled s) := by
  unfold findLockGranuleAt lockable probe
  rw [plat.findGranule_isSome]
  cases hg : plat.findGranule addr with
  | none => exact Sat.pure (by simp)
  | some g =>
    dsimp only
    rw [plat.granuleAddr_of_find hg, granuleBitlockAcquire_ok h]
    refine Sat.ok_bind (Sat.ite (fun hst => Sat.pure ?_) fun hst => assertThat_sat (fun hbad => ?_)
      fun _ => Sat.pure ?_)
    · simp [hst]
    · exact ⟨rfl, addr, hbad⟩
    · simp [Decidable.not_not.mp hst]

theorem granuleUnlockAt_sat {g : Word} (h : plat.findGranule addr = some g) :
    Sat (granuleUnlockAt plat s tr g) (fun r => r = tr ++ [.unlock addr]) (Unsettled s) := by
  unfold granuleUnlockAt granuleUnlockTraced
  rw [plat.granuleAddr_of_find h]
  exact assertThat_sat (fun hbad => ⟨rfl, addr, hbad⟩) fun _ => Sat.pure rfl

/-- A failed attempt to lock a granule that is not held. -/
theorem probe_inside {held : Finset Word} {p : Platform} (h : addr ∉ held) :
    Disciplined held (probe p addr) ∧ heldAfter held (probe p addr) = held := by
  unfold probe
  split_ifs
  · refine ⟨⟨h, Finset.mem_insert_self addr held, trivial⟩, ?_⟩
    simp [LockOp.apply, Finset.erase_insert h]
  · exact ⟨trivial, rfl⟩

theorem taken_probe (p : Platform) (addr : Word) :
    taken (probe p addr) = [] ∨ taken (probe p addr) = [addr] := by
  unfold probe
  split_ifs
  · exact .inr rfl
  · exact .inl rfl

/-- Locks below an address, a failed attempt to lock that one too, and all of them released. -/
theorem nested_probe (p : Platform) {gs : List Word} (hpw : gs.Pairwise (· < ·))
    (hbelow : ∀ a ∈ gs, a < addr) :
    Disciplined ∅ (nested gs (probe p addr)) ∧
      heldAfter ∅ (nested gs (probe p addr)) = ∅ ∧
      (taken (nested gs (probe p addr))).Pairwise (· < ·) := by
  have hnd : gs.Nodup := hpw.imp fun hlt => BitVec.ne_of_lt hlt
  have hout : addr ∉ (∅ ∪ gs.toFinset : Finset Word) := by
    rw [Finset.empty_union, List.mem_toFinset]
    exact fun hm => BitVec.lt_irrefl addr (hbelow addr hm)
  obtain ⟨hbody, hkeep⟩ := probe_inside (p := p) hout
  obtain ⟨hdis, hfree⟩ := nested_disciplined hnd (by simp) hbody hkeep
  refine ⟨hdis, hfree, ?_⟩
  rw [taken_nested]
  obtain hnone | hone := taken_probe p addr
  · simpa [hnone] using hpw
  · rw [hone, List.pairwise_append]
    refine ⟨hpw, List.pairwise_singleton _ _, fun a ha b hb => ?_⟩
    rw [List.mem_singleton.mp hb]
    exact hbelow a ha

end

/-- A request to lock a granule. The pointer `g_ret` is the number of the variable that it
points to. -/
structure GranuleSet where
  addr : Word
  g : Option Word
  gRet : ℕ
  state : GranuleState

/-- The cells of the caller, what its variables hold, and the operations on locks. -/
structure LockedSet where
  found : Bool
  sets : ℕ → GranuleSet
  ret : ℕ → Option Word
  trace : Trace

def sortGranules (gs : ℕ → GranuleSet) (n : ℕ) : ℕ → GranuleSet :=
    sort (·.addr.toNat) n gs

section
variable (plat : DramPlatform) (s : State)

/-- Release the locks of the first cells, the last one first. -/
def unlockGranules (gs : ℕ → GranuleSet) : ℕ → Trace → Rmm Trace
  | 0, tr => .ok tr
  | i + 1, tr =>
    match (gs i).g with
    | none => .error .nullGranule
    | some g => granuleUnlockAt plat s tr g >>= unlockGranules gs i

/-- Lock the granules of `k` cells from cell `i` on. -/
def lockGranules : ℕ → ℕ → (ℕ → GranuleSet) → Trace →
    Rmm (Bool × (ℕ → GranuleSet) × Trace)
  | 0, _, gs, tr => .ok (true, gs, tr)
  | k + 1, i, gs, tr => do
    if i ≠ 0 ∧ (gs i).addr = (gs (i - 1)).addr then
      let tr ← unlockGranules plat s gs i tr
      return (false, gs, tr)
    else
      let (g, tr) ← findLockGranuleAt plat s tr (gs i).addr (gs i).state
      let gs := Function.update gs i { gs i with g := g }
      if g = none then
        let tr ← unlockGranules plat s gs i tr
        return (false, gs, tr)
      else lockGranules k (i + 1) gs tr

/-- `*gs[i].g_ret = gs[i].g` for the first `n` cells. -/
def writeRets (gs : ℕ → GranuleSet) (n : ℕ) (ret : ℕ → Option Word) :
    ℕ → Option Word :=
  (List.range n).foldl (fun ret i => Function.update ret (gs i).gRet (gs i).g) ret

def findLockGranules (gs : ℕ → GranuleSet) (n : ℕ) (ret : ℕ → Option Word) :
    Rmm LockedSet := do
  let (found, gs, tr) ← lockGranules plat s n 0 (sortGranules gs n) []
  return ⟨found, gs, if found then writeRets gs n ret else ret, tr⟩

/-- Two requests, the results of which go to the variables 0 and 1. -/
def twoGranules (addr1 : Word) (state1 : GranuleState) (addr2 : Word) (state2 : GranuleState) :
    ℕ → GranuleSet
  | 0 => ⟨addr1, none, 0, state1⟩
  | _ => ⟨addr2, none, 1, state2⟩

def findLockTwoGranulesAt (addr1 : Word) (state1 : GranuleState) (addr2 : Word)
    (state2 : GranuleState) (ret : ℕ → Option Word) : Rmm LockedSet :=
  findLockGranules plat s (twoGranules addr1 state1 addr2 state2) 2 ret

/-- The requests can be met: the addresses are those of different granules, which are in
the states that are expected. -/
structure Requested (gs : ℕ → GranuleSet) (n : ℕ) : Prop where
  valid : ∀ i < n, GranuleIn plat.banks (gs i).addr
  expected : ∀ i < n, (s.granule (gs i).addr).state = (gs i).state
  distinct : ∀ i < n, ∀ j < n, i ≠ j → (gs i).addr ≠ (gs j).addr

/-- The first `i` cells can be locked one after another. -/
structure LockedTo (gs : ℕ → GranuleSet) (i : ℕ) : Prop where
  lockable : ∀ j < i, lockable plat.toPlatform s (gs j).addr (gs j).state = true
  ascending : ∀ p q, p < q → q < i → (gs p).addr < (gs q).addr

end

/-- The addresses of the first `i` cells. -/
def addrsTo (gs : ℕ → GranuleSet) (i : ℕ) : List Word :=
    (List.range i).map fun j => (gs j).addr

/-- The cells after the granules of the first `i` of them were looked up. -/
def lookedUp (plat : DramPlatform) (gs : ℕ → GranuleSet) (i : ℕ) :
    ℕ → GranuleSet := fun j =>
  if j < i then { gs j with g := plat.findGranule (gs j).addr } else gs j

section
variable {plat : DramPlatform} {s : State} {gs : ℕ → GranuleSet} {n i : ℕ} {tr : Trace}

theorem addrsTo_succ (gs : ℕ → GranuleSet) (i : ℕ) :
    addrsTo gs (i + 1) = addrsTo gs i ++ [(gs i).addr] := by
  simp [addrsTo, List.range_succ]

theorem mem_addrsTo {a : Word} : a ∈ addrsTo gs i ↔ ∃ j < i, (gs j).addr = a := by
  simp [addrsTo]

@[simp] theorem lookedUp_addr (j : ℕ) : (lookedUp plat gs i j).addr = (gs j).addr := by
  unfold lookedUp
  split_ifs <;> rfl

@[simp] theorem lookedUp_state (j : ℕ) : (lookedUp plat gs i j).state = (gs j).state := by
  unfold lookedUp
  split_ifs <;> rfl

@[simp] theorem lookedUp_gRet (j : ℕ) : (lookedUp plat gs i j).gRet = (gs j).gRet := by
  unfold lookedUp
  split_ifs <;> rfl

theorem lookedUp_g {j : ℕ} (h : j < i) :
    (lookedUp plat gs i j).g = plat.findGranule (gs j).addr := by
  simp [lookedUp, h]

theorem lookedUp_succ (plat : DramPlatform) (gs : ℕ → GranuleSet) (i : ℕ) :
    Function.update (lookedUp plat gs i) i { gs i with g := plat.findGranule (gs i).addr } =
      lookedUp plat gs (i + 1) := by
  funext j
  by_cases hj : j = i
  · subst hj
    simp [lookedUp]
  · simp only [Function.update_of_ne hj, lookedUp]
    exact if_congr (by omega) rfl rfl

namespace LockedTo

theorem zero : LockedTo plat s gs 0 := ⟨by simp, by simp⟩

/-- A cell that differs from its neighbour lies above all cells before it. -/
theorem below (h : LockedTo plat s gs i) (hsort : SortedTo (·.addr.toNat) n gs) (hi : i < n)
    (hne : ¬ (i ≠ 0 ∧ (gs i).addr = (gs (i - 1)).addr)) {p : ℕ} (hp : p < i) :
    (gs p).addr < (gs i).addr := by
  have hlast : (gs (i - 1)).addr < (gs i).addr := by
    have hle : (gs (i - 1)).addr.toNat ≤ (gs i).addr.toNat := hsort (i - 1) i (by omega) hi
    have hdiff : (gs i).addr.toNat ≠ (gs (i - 1)).addr.toNat :=
      fun he => hne ⟨by omega, BitVec.eq_of_toNat_eq he⟩
    rw [BitVec.lt_def]
    omega
  by_cases hpi : p = i - 1
  · rwa [hpi]
  · have := h.ascending p (i - 1) (by omega) (by omega)
    rw [BitVec.lt_def] at this hlast ⊢
    omega

theorem succ (h : LockedTo plat s gs i) (hbelow : ∀ p < i, (gs p).addr < (gs i).addr)
    (hl : RmmCaec.lockable plat.toPlatform s (gs i).addr (gs i).state = true) :
    LockedTo plat s gs (i + 1) := by
  refine ⟨fun j hj => ?_, fun p q hpq hq => ?_⟩
  · obtain hlt | rfl := Nat.lt_succ_iff_lt_or_eq.mp hj
    · exact h.lockable j hlt
    · exact hl
  · obtain hlt | rfl := Nat.lt_succ_iff_lt_or_eq.mp hq
    · exact h.ascending p q hpq hlt
    · exact hbelow p hpq

theorem found (h : LockedTo plat s gs i) {j : ℕ} (hj : j < i) :
    ∃ g, plat.findGranule (gs j).addr = some g := by
  have hl := h.lockable j hj
  simp only [RmmCaec.lockable, plat.findGranule_isSome, Bool.and_eq_true] at hl
  exact Option.isSome_iff_exists.mp hl.1

theorem pairwise (h : LockedTo plat s gs i) : (addrsTo gs i).Pairwise (· < ·) := by
  refine List.pairwise_map.mpr (List.pairwise_lt_range.imp_of_mem ?_)
  intro p q _ hq hpq
  exact h.ascending p q hpq (List.mem_range.mp hq)

theorem nodup (h : LockedTo plat s gs i) : (addrsTo gs i).Nodup :=
  h.pairwise.imp fun hlt => BitVec.ne_of_lt hlt

end LockedTo

/-- The locks of the cells before, the last one first. -/
theorem unlockGranules_sat (h : LockedTo plat s gs i) {gs' : ℕ → GranuleSet}
    (hg : ∀ j < i, (gs' j).g = plat.findGranule (gs j).addr) (tr : Trace) :
    Sat (unlockGranules plat s gs' i tr) (fun r => r = tr ++ (addrsTo gs i).reverse.map .unlock)
      (Unsettled s) := by
  induction i generalizing tr with
  | zero => exact Sat.ok (by simp [addrsTo])
  | succ i ih =>
    obtain ⟨g, hfound⟩ := h.found (Nat.lt_succ_self i)
    have hcell : (gs' i).g = some g := by rw [hg i (by omega), hfound]
    have h' : LockedTo plat s gs i :=
      ⟨fun j hj => h.lockable j (by omega), fun p q hpq hq => h.ascending p q hpq (by omega)⟩
    rw [unlockGranules, hcell]
    refine Sat.bind (granuleUnlockAt_sat hfound) fun tr' htr' => ?_
    refine (ih h' (fun j hj => hg j (by omega)) tr').imp fun r hr => ?_
    rw [hr, htr', addrsTo_succ]
    simp

/-- What the loop does when it cannot lock all cells. -/
structure RolledBack (plat : DramPlatform) (s : State) (gs : ℕ → GranuleSet) (n : ℕ)
    (tr : Trace) :
    Prop where
  unmet : ¬ ((∀ j < n, lockable plat.toPlatform s (gs j).addr (gs j).state = true) ∧
    ∀ p < n, ∀ q < n, p ≠ q → (gs p).addr ≠ (gs q).addr)
  disciplined : Disciplined ∅ tr
  free : heldAfter ∅ tr = ∅
  ascending : (taken tr).Pairwise (· < ·)

theorem rolledBack_duplicate (h : LockedTo plat s gs i) (hi : i < n) (h0 : i ≠ 0)
    (heq : (gs i).addr = (gs (i - 1)).addr) :
    RolledBack plat s gs n (nested (addrsTo gs i) []) := by
  obtain ⟨hdis, hfree⟩ : Disciplined ∅ (nested (addrsTo gs i) []) ∧
      heldAfter ∅ (nested (addrsTo gs i) []) = ∅ :=
    nested_disciplined h.nodup (by simp) trivial rfl
  refine ⟨fun hreq => hreq.2 i hi (i - 1) (by omega) (by omega) heq, hdis, hfree, ?_⟩
  rw [taken_nested]
  simpa using h.pairwise

theorem rolledBack_probe (h : LockedTo plat s gs i) (hi : i < n)
    (hbelow : ∀ p < i, (gs p).addr < (gs i).addr)
    (hl : lockable plat.toPlatform s (gs i).addr (gs i).state = false) :
    RolledBack plat s gs n (nested (addrsTo gs i) (probe plat.toPlatform (gs i).addr)) := by
  obtain ⟨hdis, hfree, hasc⟩ := nested_probe plat.toPlatform h.pairwise fun a ha => by
    obtain ⟨j, hj, rfl⟩ := mem_addrsTo.mp ha
    exact hbelow j hj
  exact ⟨fun hreq => by simp [hreq.1 i hi] at hl, hdis, hfree, hasc⟩

/-- The loop from cell `i` on. -/
theorem lockGranules_sat (hsort : SortedTo (·.addr.toNat) n gs) (k : ℕ) (hk : i + k = n)
    (h : LockedTo plat s gs i) :
    Sat (lockGranules plat s k i (lookedUp plat gs i) ((addrsTo gs i).map .lock))
      (fun r => if r.1 then LockedTo plat s gs n ∧ r.2.1 = lookedUp plat gs n ∧
          r.2.2 = (addrsTo gs n).map .lock
        else RolledBack plat s gs n r.2.2) (Unsettled s) := by
  induction k generalizing i with
  | zero =>
    obtain rfl : i = n := hk
    exact Sat.ok ⟨h, rfl, rfl⟩
  | succ k ih =>
    have hi : i < n := by omega
    unfold lockGranules
    simp only [lookedUp_addr, lookedUp_state, lookedUp_gRet]
    refine Sat.ite (fun hdup => ?_) fun hne => ?_
    · refine Sat.bind (unlockGranules_sat h (fun j hj => lookedUp_g hj) _) fun tr
        htr => Sat.pure ?_
      have := rolledBack_duplicate h hi hdup.1 hdup.2
      simpa [htr, nested] using this
    · have hbelow := fun p hp => h.below hsort hi hne (p := p) hp
      have hfree : (gs i).addr ∉ heldAfter ∅ ((addrsTo gs i).map .lock) := by
        rw [heldAfter_locks, Finset.empty_union, List.mem_toFinset, mem_addrsTo]
        rintro ⟨j, hj, he⟩
        exact BitVec.ne_of_lt (hbelow j hj) he
      refine Sat.bind (findLockGranuleAt_sat hfree) fun r hr => ?_
      cases hl : lockable plat.toPlatform s (gs i).addr (gs i).state with
      | false =>
        rw [hl] at hr
        rw [hr]
        refine Sat.bind (unlockGranules_sat h (fun j hj => ?_) _) fun tr htr => Sat.pure ?_
        · rw [Function.update_of_ne (by omega), lookedUp_g hj]
        · have := rolledBack_probe h hi hbelow hl
          simpa [htr, nested] using this
      | true =>
        rw [hl] at hr
        have hnext := h.succ hbelow hl
        obtain ⟨g, hg⟩ := hnext.found (Nat.lt_succ_self i)
        rw [hr]
        simp only [if_true, lookedUp_succ]
        rw [if_neg (by rw [hg]; simp)]
        have := ih (i := i + 1) (by omega) hnext
        rwa [addrsTo_succ, List.map_append] at this

theorem writeRets_succ (gs : ℕ → GranuleSet) (n : ℕ) (ret : ℕ → Option Word) :
    writeRets gs (n + 1) ret = Function.update (writeRets gs n ret) (gs n).gRet (gs n).g := by
  simp [writeRets, List.range_succ]

/-- A variable that only one granule is written to. -/
theorem writeRets_eq {ret : ℕ → Option Word} {x : ℕ} {v : Option Word}
    (hall : ∀ l < n, (gs l).gRet = x → (gs l).g = v) (hex : ∃ l < n, (gs l).gRet = x) :
    writeRets gs n ret x = v := by
  induction n with
  | zero => simp at hex
  | succ n ih =>
    rw [writeRets_succ]
    by_cases hx : (gs n).gRet = x
    · rw [← hx, Function.update_self]
      exact hall n (Nat.lt_succ_self n) hx
    · rw [Function.update_of_ne (Ne.symm hx)]
      obtain ⟨l, hl, hlx⟩ := hex
      have hln : l ≠ n := by
        rintro rfl
        exact hx hlx
      exact ih (fun l hl => hall l (by omega)) ⟨l, by omega, hlx⟩

theorem writeRets_other {ret : ℕ → Option Word} {x : ℕ} (h : ∀ l < n, (gs l).gRet ≠ x) :
    writeRets gs n ret x = ret x := by
  induction n with
  | zero => rfl
  | succ n ih =>
    rw [writeRets_succ, Function.update_of_ne (Ne.symm (h n (Nat.lt_succ_self n)))]
    exact ih fun l hl => h l (by omega)

/-- Whether a request can be met does not depend on the order of its cells. -/
theorem requested_iff {gs' : ℕ → GranuleSet} (h : Rearranged n gs gs') :
    Requested plat s gs n ↔
      (∀ j < n, lockable plat.toPlatform s (gs' j).addr (gs' j).state = true) ∧
      ∀ p < n, ∀ q < n, p ≠ q → (gs' p).addr ≠ (gs' q).addr := by
  have hlock : ∀ c : GranuleSet, lockable plat.toPlatform s c.addr c.state = true ↔
      GranuleIn plat.banks c.addr ∧ (s.granule c.addr).state = c.state := by
    intro c
    simp [lockable, plat.findGranule_isSome, DramPlatform.findGranule_isSome_iff]
  constructor
  · intro hreq
    refine ⟨fun j hj => ?_, h.symm.pairs (R := fun a b => a.addr ≠ b.addr) hreq.distinct⟩
    obtain ⟨l, hl, he⟩ := h.cell hj
    rw [he]
    exact (hlock _).mpr ⟨hreq.valid l hl, hreq.expected l hl⟩
  · rintro ⟨hl, hne⟩
    have hcell : ∀ i < n, GranuleIn plat.banks (gs i).addr ∧
        (s.granule (gs i).addr).state = (gs i).state := by
      intro i hi
      obtain ⟨j, hj, he⟩ := h.symm.cell hi
      rw [he]
      exact (hlock _).mp (hl j hj)
    exact ⟨fun i hi => (hcell i hi).1, fun i hi => (hcell i hi).2,
      h.pairs (R := fun a b => a.addr ≠ b.addr) hne⟩

/-- A request that is met. -/
structure Met (plat : DramPlatform) (gs : ℕ → GranuleSet) (n : ℕ) (ret : ℕ → Option Word)
    (r : LockedSet) : Prop where
  held : ∀ a, a ∈ heldAfter ∅ r.trace ↔ ∃ i < n, (gs i).addr = a
  /-- The variable of a request gets its granule, if no other request names it. -/
  written : ∀ i < n, (∀ j < n, (gs j).gRet = (gs i).gRet → j = i) →
    ∃ g, plat.findGranule (gs i).addr = some g ∧ r.ret (gs i).gRet = some g
  unwritten : ∀ x, (∀ i < n, (gs i).gRet ≠ x) → r.ret x = ret x

theorem met_of_lockedTo {gs' : ℕ → GranuleSet} (hre : Rearranged n gs gs')
    (h : LockedTo plat s gs' n)
    (ret : ℕ → Option Word) :
    Met plat gs n ret ⟨true, lookedUp plat gs' n, writeRets (lookedUp plat gs' n) n ret,
      (addrsTo gs' n).map .lock⟩ := by
  refine ⟨fun a => ?_, fun i hi huniq => ?_, fun x hx => writeRets_other fun l hl => ?_⟩
  · dsimp only
    rw [heldAfter_locks, Finset.empty_union, List.mem_toFinset, mem_addrsTo]
    constructor
    · rintro ⟨j, hj, rfl⟩
      obtain ⟨l, hl, he⟩ := hre.cell hj
      exact ⟨l, hl, by rw [he]⟩
    · rintro ⟨i, hi, rfl⟩
      obtain ⟨j, hj, he⟩ := hre.symm.cell hi
      exact ⟨j, hj, by rw [he]⟩
  · obtain ⟨j, hj, he⟩ := hre.symm.cell hi
    obtain ⟨g, hg⟩ := h.found hj
    rw [← he] at hg
    refine ⟨g, hg, writeRets_eq (fun l hl hx => ?_) ⟨j, hj, by rw [lookedUp_gRet, he]⟩⟩
    obtain ⟨m, hm, hme⟩ := hre.cell hl
    rw [lookedUp_gRet, hme] at hx
    rw [lookedUp_g hl, hme, huniq m hm hx, hg]
  · obtain ⟨m, hm, hme⟩ := hre.cell hl
    rw [lookedUp_gRet, hme]
    exact hx m hm

/-- All granules of a request are locked, or none of them. -/
theorem findLockGranules_sat (plat : DramPlatform) (s : State) (gs : ℕ → GranuleSet) (n : ℕ)
    (ret : ℕ → Option Word) :
    Sat (findLockGranules plat s gs n ret)
      (fun r => (r.found = true ↔ Requested plat s gs n) ∧
        Disciplined ∅ r.trace ∧ (taken r.trace).Pairwise (· < ·) ∧
        (r.found = true → Met plat gs n ret r) ∧
        (r.found = false → heldAfter ∅ r.trace = ∅ ∧ r.ret = ret))
      (Unsettled s) := by
  obtain ⟨hsort, hre⟩ : SortedTo (·.addr.toNat) n (sortGranules gs n) ∧
    Rearranged n gs (sortGranules gs n) := sort_spec (·.addr.toNat) n gs
  unfold findLockGranules
  have hloop := @lockGranules_sat plat s _ n 0 hsort n (Nat.zero_add n) .zero
  refine Sat.bind hloop fun r hr => Sat.pure ?_
  obtain ⟨found, sets, tr⟩ := r
  dsimp only at hr ⊢
  rw [requested_iff hre]
  cases found with
  | true =>
    obtain ⟨hlocked, rfl, rfl⟩ : LockedTo plat s _ n ∧ sets = _ ∧
        tr = _ := by simpa using hr
    refine ⟨iff_of_true rfl ⟨hlocked.lockable, fun p hp q hq hpq => ?_⟩,
      disciplined_locks hlocked.nodup (by simp), by simpa using hlocked.pairwise,
      fun _ => met_of_lockedTo hre hlocked ret, by simp⟩
    obtain hlt | hlt := Nat.lt_or_gt_of_ne hpq
    · exact BitVec.ne_of_lt (hlocked.ascending p q hlt hq)
    · exact (BitVec.ne_of_lt (hlocked.ascending q p hlt hp)).symm
  | false =>
    have hback : RolledBack plat s (sortGranules gs n) n tr := by simpa using hr
    exact ⟨iff_of_false (by simp) hback.unmet, hback.disciplined, hback.ascending, by simp,
      fun _ => ⟨hback.free, rfl⟩⟩

/-- `find_lock_granules` sorts a request, and locks its granules in this order. -/
theorem findLockGranules_atomic (plat : DramPlatform) (s : State)
    (gs : ℕ → GranuleSet) (n : ℕ)
    (ret : ℕ → Option Word) :
    SortedTo (·.addr.toNat) n (sortGranules gs n) ∧ Rearranged n gs (sortGranules gs n) ∧
    Sat (findLockGranules plat s gs n ret)
      (fun r => (r.found = true ↔ Requested plat s gs n) ∧
        Disciplined ∅ r.trace ∧ (taken r.trace).Pairwise (· < ·) ∧
        (r.found = true → Met plat gs n ret r) ∧
        (r.found = false → heldAfter ∅ r.trace = ∅ ∧ r.ret = ret))
      (Unsettled s) := by
  obtain ⟨hsort, hre⟩ := sort_spec (·.addr.toNat) n gs
  exact ⟨hsort, hre, findLockGranules_sat plat s gs n ret⟩

/-- The small machine with the two banks of the manifest as its memory. -/
def demoDram : DramPlatform :=
  .ofManifest demoPlat demoBoot (demoManifest demoBanks) (by decide) demoBanks_accepted (by decide)

/-- The first granule of the second bank, the last granule of the first one, and the granule `a`. -/
def demoRequest (a : Word) : ℕ → GranuleSet
  | 0 => ⟨0x880000000#64, none, 0, .DELEGATED⟩
  | 1 => ⟨0x80001000#64, none, 1, .DELEGATED⟩
  | _ => ⟨a, none, 2, .DELEGATED⟩

/-- These granules are DELEGATED, and all others belong to the host. -/
def demoGranules (gs : List Word) : State :=
  { initState with granule := fun a => if a ∈ gs then ⟨.DELEGATED, 0⟩ else ⟨.NS, 0⟩ }

def demoDelegated : State := demoGranules [0x80001000#64, 0x880000000#64, 0x880003000#64]

/-- A request of three granules in both banks is met, and their indices are returned. If the third
granule is the host's, or the first one again, the locks that were taken are released. -/
theorem findLockGranules_atomic_demo :
    (∃ r, findLockGranules demoDram demoDelegated (demoRequest 0x880003000#64) 3 (fun _ => none) =
        .ok r ∧ r.found = true ∧
      taken r.trace = [0x80001000#64, 0x880000000#64, 0x880003000#64] ∧
      r.ret 0 = some 2#64 ∧ r.ret 1 = some 1#64 ∧ r.ret 2 = some 5#64 ∧
      Requested demoDram demoDelegated (demoRequest 0x880003000#64) 3) ∧
    ∀ a ∈ [0x880001000#64, 0x880000000#64], ∃ r,
      findLockGranules demoDram demoDelegated (demoRequest a) 3 (fun _ => none) = .ok r ∧
        r.found = false ∧ [0x80001000#64, 0x880000000#64] <+: taken r.trace ∧
        heldAfter ∅ r.trace = ∅ ∧ r.ret = fun _ => none := by
  have hspec := fun a =>
    (findLockGranules_atomic demoDram demoDelegated (demoRequest a) 3 fun _ => none).2.2
  refine ⟨⟨_, rfl, rfl, rfl, rfl, rfl, rfl, ?_⟩, fun a ha => ?_⟩
  · exact ((hspec 0x880003000#64).of_ok rfl).1.mp rfl
  · fin_cases ha
    · exact ⟨_, rfl, rfl, by decide, ((hspec 0x880001000#64).of_ok rfl).2.2.2.2 rfl⟩
    · exact ⟨_, rfl, rfl, by decide, ((hspec 0x880000000#64).of_ok rfl).2.2.2.2 rfl⟩

/-- Two granules are found as in the handlers that do not log their locks. -/
theorem findLockTwoGranulesAt_sat (plat : DramPlatform) (s : State) (addr1 : Word)
    (state1 : GranuleState) (addr2 : Word) (state2 : GranuleState) (ret : ℕ → Option Word) :
    Sat (findLockTwoGranulesAt plat s addr1 state1 addr2 state2 ret)
      (fun r => r.found = findLockTwoGranules plat.toPlatform s addr1 state1 addr2 state2)
      (Unsettled s) := by
  unfold findLockTwoGranulesAt
  refine (findLockGranules_sat plat s _ 2 ret).imp fun r hr => ?_
  have htwo : ∀ P : ℕ → Prop, (∀ j < 2, P j) ↔ P 0 ∧ P 1 := fun P => by
    constructor
    · intro h
      exact ⟨h 0 (by omega), h 1 (by omega)⟩
    · rintro ⟨h0, h1⟩ j hj
      obtain rfl | rfl : j = 0 ∨ j = 1 := by omega
      · exact h0
      · exact h1
  rw [Bool.eq_iff_iff, hr.1, requested_iff (Rearranged.refl 2 _)]
  simp only [htwo, twoGranules, findLockTwoGranules, lockable]
  grind

end

end RmmCaec
