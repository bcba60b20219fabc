import RmmCaec.GranuleLocks
import RmmCaec.StartingLevel

/-!
# The granules of a new realm

`smc_realm_create` with its locks. The granule of the RD is locked before the root tables
or after them, whichever is in the order of the addresses. The tables are counted by
their addresses when they are locked, and by their place in the array of granules when
they are unlocked or change their state.
-/
namespace RmmCaec

open Outcome LockTrace

/-- The address of table `i`, as the lock loop computes it. -/
def rttAddr (rttBase : Word) (i : ℕ) : Word := rttBase + BitVec.ofNat 64 (i * granuleSize)

/-- The addresses of the first `n` tables. -/
def rttAddrs (rttBase : Word) (n : ℕ) : List Word := (List.range n).map (rttAddr rttBase)

section
variable (plat : DramPlatform) (s : State)

/-- The loop that locks the tables, with `n` tables left and `i` of them locked. It yields
whether all are locked, how many are, and the granule of the first one. -/
def lockRtts (rttBase : Word) : ℕ → ℕ → Option Word → Trace →
    Rmm (Bool × ℕ × Option Word × Trace)
  | 0, i, gRttBase, tr => .ok (true, i, gRttBase, tr)
  | n + 1, i, gRttBase, tr => do
    let (gRtt, tr) ← findLockGranuleAt plat s tr (rttAddr rttBase i) .DELEGATED
    if gRtt = none then return (false, i, gRttBase, tr)
    else lockRtts rttBase n (i + 1) (if i = 0 then gRtt else gRttBase) tr

/-- The loop at `out_err`: the tables are neighbours of the first one in the array. -/
def unlockRtts (gRttBase : Option Word) : ℕ → Trace → Rmm Trace
  | 0, tr => .ok tr
  | i + 1, tr =>
    match gRttBase with
    | none => .error .nullGranule
    | some g => granuleUnlockAt plat s tr (g + BitVec.ofNat 64 i) >>= unlockRtts gRttBase i

/-- Everything behind `out_err`. -/
def unlockRdGranules (gRd gRttBase : Option Word) (i : ℕ) (tr : Trace) : Rmm Trace := do
  let tr ← unlockRtts plat s gRttBase i tr
  match gRd with
  | none => return tr
  | some g => granuleUnlockAt plat s tr g

/-- `find_lock_rd_granules`: the granules of the RD and of the first table. -/
def findLockRdGranules (rdAddr rttBase : Word) (numRtts : ℕ) :
    Rmm (Option (Word × Option Word) × Trace) := do
  let (gRd, tr) ← if rdAddr < rttBase then findLockGranuleAt plat s [] rdAddr .DELEGATED
    else pure (none, [])
  if rdAddr < rttBase ∧ gRd = none then
    let tr ← unlockRdGranules plat s none none 0 tr
    return (none, tr)
  else
    let (all, i, gRttBase, tr) ← lockRtts plat s rttBase numRtts 0 none tr
    if !all then
      let tr ← unlockRdGranules plat s gRd gRttBase i tr
      return (none, tr)
    else
      match gRd with
      | some gRd => return (some (gRd, gRttBase), tr)
      | none =>
        let (gRd, tr) ← findLockGranuleAt plat s tr rdAddr .DELEGATED
        match gRd with
        | some gRd => return (some (gRd, gRttBase), tr)
        | none =>
          let tr ← unlockRdGranules plat s none gRttBase i tr
          return (none, tr)

end

/-- The loop that unlocks the tables in their new state, from table `i` on. -/
def unlockTransitionRtts (plat : DramPlatform) (gRttBase : Option Word) :
    ℕ → ℕ → State → Trace → Rmm (State × Trace)
  | 0, _, s, tr => .ok (s, tr)
  | n + 1, i, s, tr =>
    match gRttBase with
    | none => .error .nullGranule
    | some g => do
      let rtt := plat.granuleAddr (g + BitVec.ofNat 64 i)
      let (s, tr) ← granuleUnlockTransitionTraced s tr rtt .RTT
      unlockTransitionRtts plat gRttBase n (i + 1) s tr

/-- `smc_realm_create`, with the trace of its locks. -/
def smcRealmCreateTraced (plat : DramPlatform) (s : State) (rdAddr paramsAddr : Word)
    (nsRead : Option RealmParams) : Rmm (State × SmcResult × Trace) := do
  if !(findGranule plat.toPlatform paramsAddr && (s.granule paramsAddr).state == .NS) then
    return (s, smcRet rmiErrorInput, [])
  else match nsRead with
  | none => return (s, smcRet rmiErrorInput, [])
  | some p =>
    if !realmParamsValid plat.toPlatform p then return (s, smcRet rmiErrorInput, [])
    else match vmidReserve plat.toPlatform s p.vmid with
    | none => return (s, smcRet rmiErrorInput, [])
    | some s1 =>
      if addrIsContained p.rttBase
          (p.rttBase + BitVec.ofNat 64 (p.rttNumStart * granuleSize)) rdAddr then
        let s2 ← vmidFree plat.toPlatform s1 p.vmid
        return (s2, smcRet rmiErrorInput, [])
      else
        let (found, tr) ← findLockRdGranules plat s1 rdAddr p.rttBase p.rttNumStart
        match found with
        | none =>
          let s2 ← vmidFree plat.toPlatform s1 p.vmid
          return (s2, smcRet rmiErrorInput, tr)
        | some (gRd, gRttBase) =>
          let rd : Rd := { s1.rd (plat.granuleAddr gRd) with
            state := .NEW, recCount := 0, s2Ctx := paramsCtx plat.toPlatform p, numRecAux :=
              maxRecAuxGranules }
          let s2 ← initS2StartingLevelLoop (s1.setRd (plat.granuleAddr gRd) rd) rd
          let (s3, tr) ← granuleUnlockTransitionTraced s2 tr (plat.granuleAddr gRd) .RD
          let (s4, tr) ← unlockTransitionRtts plat gRttBase p.rttNumStart 0 s3 tr
          return (s4, smcRet rmiSuccess, tr)

section
variable {plat : DramPlatform} {s : State} {rttBase : Word} {n i : ℕ}

theorem rttAddrs_succ (rttBase : Word) (n : ℕ) :
    rttAddrs rttBase (n + 1) = rttAddrs rttBase n ++ [rttAddr rttBase n] := by
  simp [rttAddrs, List.range_succ]

theorem mem_rttAddrs {a : Word} : a ∈ rttAddrs rttBase n ↔
    ∃ k < n, rttAddr rttBase k = a := by
  simp [rttAddrs]

@[simp] theorem rttAddr_zero (rttBase : Word) : rttAddr rttBase 0 = rttBase := by simp [rttAddr]

theorem rttAddr_succ (rttBase : Word) (i : ℕ) :
    rttAddr rttBase (i + 1) = rttAddr rttBase i + 0x1000#64 := by
  rw [rttAddr, rttAddr, Nat.add_mul, BitVec.ofNat_add, ← BitVec.add_assoc]
  rfl

/-- Tables from an address of memory on do not wrap around. -/
theorem rttAddr_toNat (hlt : rttBase.toNat < 2 ^ 52) (hi : i ≤ 16) :
    (rttAddr rttBase i).toNat = rttBase.toNat + i * granuleSize := by
  unfold rttAddr granuleSize
  rw [BitVec.toNat_add, BitVec.toNat_ofNat]
  omega

theorem lockable_lt {a : Word} {st : GranuleState} (h : lockable plat.toPlatform s a st = true) :
    a.toNat < 2 ^ 52 := by
  have hf := lockable_findGranule h
  rw [findGranule, Bool.and_eq_true] at hf
  exact plat.isGranule_lt a hf.2

/-- The first `i` tables can be locked. -/
def RttsLockable (plat : DramPlatform) (s : State) (rttBase : Word) (i : ℕ) : Prop :=
  ∀ k < i, lockable plat.toPlatform s (rttAddr rttBase k) .DELEGATED = true

/-- The tables are neighbours in the array of granules too. -/
theorem RttsLockable.findGranule (h : RttsLockable plat s rttBase i) {g : Word}
    (hg : plat.findGranule rttBase = some g) {k : ℕ} (hk : k < i) :
    plat.findGranule (rttAddr rttBase k) = some (g + BitVec.ofNat 64 k) := by
  induction k with
  | zero => simpa using hg
  | succ k ih =>
    have hsome := lockable_findGranule (h (k + 1) hk)
    rw [plat.findGranule_isSome] at hsome
    obtain ⟨g', hg'⟩ := Option.isSome_iff_exists.mp hsome
    rw [rttAddr_succ] at hg' ⊢
    rw [hg', DramPlatform.findGranule_next (ih (by omega)) hg', BitVec.ofNat_add, BitVec.add_assoc]

theorem RttsLockable.base (h : RttsLockable plat s rttBase i) (hi : 0 < i) :
    rttBase.toNat < 2 ^ 52 ∧ ∃ g, plat.findGranule rttBase = some g := by
  have h0 := h 0 hi
  rw [rttAddr_zero] at h0
  have hsome := lockable_findGranule h0
  rw [plat.findGranule_isSome] at hsome
  exact ⟨lockable_lt h0, Option.isSome_iff_exists.mp hsome⟩

/-- The tables that can be locked lie below the next one. -/
theorem RttsLockable.below (h : RttsLockable plat s rttBase i) (hi : i < 16) :
    ∀ a ∈ rttAddrs rttBase i, a < rttAddr rttBase i := by
  intro a ha
  obtain ⟨k, hk, rfl⟩ := mem_rttAddrs.mp ha
  obtain ⟨hlt, -⟩ := h.base (by omega)
  rw [BitVec.lt_def, rttAddr_toNat hlt (by omega), rttAddr_toNat hlt (by omega)]
  unfold granuleSize
  omega

theorem RttsLockable.ascending (h : RttsLockable plat s rttBase i) (hi : i ≤ 16) :
    (rttAddrs rttBase i).Pairwise (· < ·) := by
  refine List.pairwise_map.mpr (List.pairwise_lt_range.imp_of_mem ?_)
  intro j k _ hk hjk
  have hki := List.mem_range.mp hk
  obtain ⟨hlt, -⟩ := h.base (by omega)
  rw [BitVec.lt_def, rttAddr_toNat hlt (by omega), rttAddr_toNat hlt (by omega)]
  unfold granuleSize
  omega

theorem RttsLockable.succ (h : RttsLockable plat s rttBase i)
    (hl : lockable plat.toPlatform s (rttAddr rttBase i) .DELEGATED = true) :
    RttsLockable plat s rttBase (i + 1) := by
  intro k hk
  obtain hlt | rfl := Nat.lt_succ_iff_lt_or_eq.mp hk
  · exact h k hlt
  · exact hl

theorem RttsLockable.mono (h : RttsLockable plat s rttBase n) (hi : i ≤ n) :
    RttsLockable plat s rttBase i := fun k hk => h k (by omega)

variable {pre : List Word} {tr : Trace}

/-- The tables are unlocked, the last one first. -/
theorem unlockRtts_sat (h : RttsLockable plat s rttBase i) {g : Word}
    (hg : plat.findGranule rttBase = some g) (tr : Trace) :
    Sat (unlockRtts plat s (some g) i tr)
      (fun r => r = tr ++ (rttAddrs rttBase i).reverse.map .unlock) (Unsettled s) := by
  induction i generalizing tr with
  | zero => exact Sat.ok (by simp [rttAddrs])
  | succ i ih =>
    have hlast := h.findGranule hg (Nat.lt_succ_self i)
    unfold unlockRtts
    refine Sat.bind (granuleUnlockAt_sat hlast) fun tr' htr' => ?_
    refine (ih (h.mono (Nat.le_succ i)) tr').imp fun r hr => ?_
    rw [hr, htr', rttAddrs_succ]
    simp

/-- The granule of the first table, once it is locked. -/
def firstRtt (plat : DramPlatform) (rttBase : Word) (i : ℕ) : Option Word :=
  if i = 0 then none else plat.findGranule rttBase

theorem unlockRtts_first (h : RttsLockable plat s rttBase i) (tr : Trace) :
    Sat (unlockRtts plat s (firstRtt plat rttBase i) i tr)
      (fun r => r = tr ++ (rttAddrs rttBase i).reverse.map .unlock) (Unsettled s) := by
  by_cases hi : i = 0
  · subst hi
    exact Sat.ok (by simp [rttAddrs])
  · obtain ⟨-, g, hg⟩ := h.base (Nat.pos_of_ne_zero hi)
    rw [firstRtt, if_neg hi, hg]
    exact unlockRtts_sat h hg tr

/-- The loop that locks the tables, after the locks of smaller addresses. -/
theorem lockRtts_sat (hpre : ∀ a ∈ pre, a < rttBase) (n : ℕ) (h16 : i + n ≤ 16)
    (h : RttsLockable plat s rttBase i) :
    Sat (lockRtts plat s rttBase n i (firstRtt plat rttBase i)
        ((pre ++ rttAddrs rttBase i).map .lock))
      (fun r => RttsLockable plat s rttBase r.2.1 ∧ r.2.2.1 = firstRtt plat rttBase r.2.1 ∧
        if r.1 then r.2.1 = i + n ∧ r.2.2.2 = (pre ++ rttAddrs rttBase (i + n)).map .lock
        else r.2.1 < i + n ∧
          lockable plat.toPlatform s (rttAddr rttBase r.2.1) .DELEGATED = false ∧
          r.2.2.2 = (pre ++ rttAddrs rttBase r.2.1).map .lock ++
            probe plat.toPlatform (rttAddr rttBase r.2.1))
      (Unsettled s) := by
  induction n generalizing i with
  | zero => exact Sat.ok ⟨h, rfl, rfl, rfl⟩
  | succ n ih =>
    have hfree : rttAddr rttBase i ∉ heldAfter ∅ ((pre ++ rttAddrs rttBase i).map .lock) := by
      rw [heldAfter_locks, Finset.empty_union, List.mem_toFinset, List.mem_append]
      rintro (hm | hm)
      · have hlt := hpre _ hm
        rcases Nat.eq_zero_or_pos i with rfl | hi
        · rw [rttAddr_zero] at hlt
          exact BitVec.lt_irrefl _ hlt
        · obtain ⟨hbase, -⟩ := h.base hi
          rw [BitVec.lt_def, rttAddr_toNat hbase (by omega)] at hlt
          omega
      · exact BitVec.lt_irrefl _ (h.below (by omega) _ hm)
    unfold lockRtts
    refine Sat.bind (findLockGranuleAt_sat hfree) fun r hr => ?_
    cases hl : lockable plat.toPlatform s (rttAddr rttBase i) .DELEGATED with
    | false =>
      rw [hl] at hr
      rw [hr]
      exact Sat.pure ⟨h, rfl, Nat.lt_add_of_pos_right (Nat.succ_pos n), hl, by simp⟩
    | true =>
      rw [hl, if_pos rfl] at hr
      have hnext := h.succ hl
      obtain ⟨-, g, hg⟩ := hnext.base (Nat.succ_pos i)
      have hfound := hnext.findGranule hg (Nat.lt_succ_self i)
      have hfirst : (if i = 0 then plat.findGranule (rttAddr rttBase i)
          else firstRtt plat rttBase i) = firstRtt plat rttBase (i + 1) := by
        rw [firstRtt, firstRtt, if_neg (Nat.succ_ne_zero i)]
        split_ifs with hi
        · rw [hi, rttAddr_zero]
        · rfl
      rw [hr]
      dsimp only
      rw [if_neg (by rw [hfound]; simp), hfirst]
      have hsum : i + (n + 1) = i + 1 + n := by omega
      have := ih (i := i + 1) (by omega) hnext
      rw [rttAddrs_succ, ← List.append_assoc, List.map_append] at this
      rw [hsum]
      exact this

theorem lockRtts_start (hpre : ∀ a ∈ pre, a < rttBase) (h16 : n ≤ 16) :
    Sat (lockRtts plat s rttBase n 0 none (pre.map .lock))
      (fun r => RttsLockable plat s rttBase r.2.1 ∧ r.2.2.1 = firstRtt plat rttBase r.2.1 ∧
        if r.1 then r.2.1 = n ∧ r.2.2.2 = (pre ++ rttAddrs rttBase n).map .lock
        else r.2.1 < n ∧ lockable plat.toPlatform s (rttAddr rttBase r.2.1) .DELEGATED = false ∧
          r.2.2.2 = (pre ++ rttAddrs rttBase r.2.1).map .lock ++
            probe plat.toPlatform (rttAddr rttBase r.2.1))
      (Unsettled s) := by
  have h0 : RttsLockable plat s rttBase 0 := fun k hk => absurd hk (Nat.not_lt_zero k)
  have hloop := lockRtts_sat hpre n (by omega) h0
  rw [Nat.zero_add] at hloop
  simpa [rttAddrs, firstRtt] using hloop

/-- Everything that is locked at `out_err` is unlocked; `pre` has the RD if it is locked. -/
theorem unlockRdGranules_sat {gRd : Option Word}
    (hrd : (gRd = none ∧ pre = []) ∨
      ∃ a g, gRd = some g ∧ pre = [a] ∧ plat.findGranule a = some g)
    (h : RttsLockable plat s rttBase i) (tr : Trace) :
    Sat (unlockRdGranules plat s gRd (firstRtt plat rttBase i) i tr)
      (fun r => r = tr ++ (pre ++ rttAddrs rttBase i).reverse.map .unlock) (Unsettled s) := by
  unfold unlockRdGranules
  refine Sat.bind (unlockRtts_first h tr) fun tr' htr' => ?_
  obtain ⟨rfl, rfl⟩ | ⟨a, g, rfl, rfl, hg⟩ := hrd
  · exact Sat.pure htr'
  · refine (granuleUnlockAt_sat hg).imp fun r hr => ?_
    rw [hr, htr']
    simp

variable {rdAddr : Word}

/-- A granule cannot be locked; those that were are unlocked again. -/
structure NotLocked (plat : DramPlatform) (s : State) (rdAddr rttBase : Word) (n : ℕ)
    (tr : Trace) : Prop where
  unmet : ∃ a ∈ rdAddr :: rttAddrs rttBase n, lockable plat.toPlatform s a .DELEGATED = false
  disciplined : Disciplined ∅ tr
  free : heldAfter ∅ tr = ∅
  ascending : (taken tr).Pairwise (· < ·)

/-- The granules are locked, in the order of their addresses. -/
structure AllLocked (plat : DramPlatform) (s : State) (rdAddr rttBase : Word) (n : ℕ)
    (gRd gRttBase : Word) (tr : Trace) : Prop where
  rd : lockable plat.toPlatform s rdAddr .DELEGATED = true
  rtts : RttsLockable plat s rttBase n
  findRd : plat.findGranule rdAddr = some gRd
  findRtt : plat.findGranule rttBase = some gRttBase
  trace : ∃ gs, tr = gs.map .lock ∧ gs.Pairwise (· < ·) ∧
    (gs = rdAddr :: rttAddrs rttBase n ∨ gs = rttAddrs rttBase n ++ [rdAddr])

theorem AllLocked.lockable {gRd gRttBase : Word}
    (h : AllLocked plat s rdAddr rttBase n gRd gRttBase tr) :
    ∀ a ∈ rdAddr :: rttAddrs rttBase n, lockable plat.toPlatform s a .DELEGATED = true := by
  intro a ha
  obtain rfl | hm := List.mem_cons.mp ha
  · exact h.rd
  · obtain ⟨k, hk, rfl⟩ := mem_rttAddrs.mp hm
    exact h.rtts k hk

theorem AllLocked.congr {gRd gRttBase : Word} {s' : State}
    (h : AllLocked plat s rdAddr rttBase n gRd gRttBase tr) (hs : s.granule = s'.granule) :
    AllLocked plat s' rdAddr rttBase n gRd gRttBase tr := by
  have hl : ∀ a, RmmCaec.lockable plat.toPlatform s' a .DELEGATED =
      RmmCaec.lockable plat.toPlatform s a .DELEGATED := fun a => by
    rw [RmmCaec.lockable, RmmCaec.lockable, hs]
  exact ⟨by rw [hl, h.rd], fun k hk => by rw [hl, h.rtts k hk], h.findRd, h.findRtt, h.trace⟩

theorem notLocked_probe {gs : List Word} {a : Word} (ha : a ∈ rdAddr :: rttAddrs rttBase n)
    (hl : lockable plat.toPlatform s a .DELEGATED = false) (hpw : gs.Pairwise (· < ·))
    (hbelow : ∀ x ∈ gs, x < a) :
    NotLocked plat s rdAddr rttBase n (nested gs (probe plat.toPlatform a)) := by
  obtain ⟨hdis, hfree, hasc⟩ := nested_probe plat.toPlatform hpw hbelow
  exact ⟨⟨a, ha, hl⟩, hdis, hfree, hasc⟩

/-- An RD that is outside the tables and not below them lies above them. -/
theorem RttsLockable.rd_above (h : RttsLockable plat s rttBase n) (hn : n ≤ 16)
    (hout : addrIsContained rttBase (rttBase + BitVec.ofNat 64 (n * granuleSize)) rdAddr = false)
    (hge : ¬ rdAddr < rttBase) : ∀ a ∈ rttAddrs rttBase n, a < rdAddr := by
  intro a ha
  obtain ⟨k, hk, rfl⟩ := mem_rttAddrs.mp ha
  obtain ⟨hlt, -⟩ := h.base (by omega)
  have hend : (rttBase + BitVec.ofNat 64 (n * granuleSize) - 1#64).toNat =
      rttBase.toNat + n * 4096 - 1 := by
    have := rttAddr_toNat hlt hn
    unfold rttAddr granuleSize at this
    unfold granuleSize
    rw [BitVec.toNat_sub, this]
    simp only [BitVec.toNat_ofNat]
    omega
  unfold addrIsContained at hout
  simp only [BitVec.lt_def, BitVec.le_def, hend] at hout hge
  rw [if_neg (by omega), Bool.and_eq_false_iff, decide_eq_false_iff_not,
    decide_eq_false_iff_not] at hout
  rw [BitVec.lt_def, rttAddr_toNat hlt (by omega)]
  unfold granuleSize
  omega

/-- Locks below the tables and below the table that ends the loop. -/
theorem RttsLockable.pre_below (h : RttsLockable plat s rttBase i) (hi : i < 16)
    (hpre : ∀ a ∈ pre, a < rttBase) :
      ∀ a ∈ pre ++ rttAddrs rttBase i, a < rttAddr rttBase i := by
  intro a ha
  obtain hm | hm := List.mem_append.mp ha
  · have hlt := hpre a hm
    obtain rfl | hpos := Nat.eq_zero_or_pos i
    · rwa [rttAddr_zero]
    · obtain ⟨hbase, -⟩ := h.base hpos
      rw [BitVec.lt_def] at hlt ⊢
      rw [rttAddr_toNat hbase (by omega)]
      omega
  · exact h.below hi a hm

theorem RttsLockable.pre_ascending (h : RttsLockable plat s rttBase i) (hi : i ≤ 16)
    (hpw : pre.Pairwise (· < ·)) (hpre : ∀ a ∈ pre, a < rttBase) :
    (pre ++ rttAddrs rttBase i).Pairwise (· < ·) := by
  refine List.pairwise_append.mpr ⟨hpw, h.ascending hi, fun a ha b hb => ?_⟩
  obtain ⟨k, hk, rfl⟩ := mem_rttAddrs.mp hb
  exact (h.mono hk.le).pre_below (by omega) hpre a (List.mem_append_left _ ha)

theorem lockable_find {a : Word} {st : GranuleState} (h : lockable plat.toPlatform s a st = true) :
    ∃ g, plat.findGranule a = some g := by
  have hsome := lockable_findGranule h
  rw [plat.findGranule_isSome] at hsome
  exact Option.isSome_iff_exists.mp hsome

/-- What `find_lock_rd_granules` comes to. -/
def RdGranules (plat : DramPlatform) (s : State) (rdAddr rttBase : Word) (n : ℕ)
    (r : Option (Word × Option Word) × Trace) : Prop :=
  match r.1 with
  | none => NotLocked plat s rdAddr rttBase n r.2
  | some (gRd, gRttBase) => ∃ g, gRttBase = some g ∧ AllLocked plat s rdAddr rttBase n gRd g r.2

theorem firstRtt_all (h : RttsLockable plat s rttBase n) (h1 : 1 ≤ n) :
    ∃ g, firstRtt plat rttBase n = some g ∧ plat.findGranule rttBase = some g := by
  obtain ⟨-, g, hg⟩ := h.base h1
  exact ⟨g, by rw [firstRtt, if_neg (by omega), hg], hg⟩

/-- The RD lies below the tables and is locked first. -/
theorem findLockRdGranules_first (h1 : 1 ≤ n) (h16 : n ≤ 16) (hlt : rdAddr < rttBase) :
    Sat (findLockRdGranules plat s rdAddr rttBase n) (RdGranules plat s rdAddr rttBase n)
      (Unsettled s) := by
  have hpre : ∀ a ∈ [rdAddr], a < rttBase := by simpa using hlt
  unfold findLockRdGranules
  rw [if_pos hlt]
  refine Sat.bind (findLockGranuleAt_sat (by simp)) fun r hr => ?_
  cases hl : lockable plat.toPlatform s rdAddr .DELEGATED with
  | false =>
    rw [hl, if_neg (by simp)] at hr
    subst hr
    dsimp only
    rw [if_pos ⟨hlt, rfl⟩]
    have hback : NotLocked plat s rdAddr rttBase n (nested [] (probe plat.toPlatform rdAddr)) :=
      notLocked_probe (List.mem_cons_self ..) hl .nil (by simp)
    refine Sat.pure ?_
    simpa [RdGranules, nested] using hback
  | true =>
    obtain ⟨gRd, hgRd⟩ := lockable_find hl
    rw [hl, if_pos rfl, hgRd] at hr
    subst hr
    dsimp only
    rw [if_neg (by simp)]
    refine Sat.bind (lockRtts_start hpre h16) fun r hr => ?_
    obtain ⟨all, i, gRttBase, tr⟩ := r
    dsimp only at hr ⊢
    obtain ⟨hrtts, rfl, hr⟩ := hr
    cases all with
    | false =>
      obtain ⟨hi, hfail, rfl⟩ : i < n ∧ lockable _ _ _ _ = false ∧
          tr = _ := by simpa using hr
      refine Sat.bind (unlockRdGranules_sat (.inr ⟨rdAddr, gRd, rfl, rfl, hgRd⟩) hrtts _)
        fun tr htr => Sat.pure ?_
      rw [htr]
      exact notLocked_probe (List.mem_cons_of_mem _ (mem_rttAddrs.mpr ⟨i, hi, rfl⟩)) hfail
        (hrtts.pre_ascending (by omega) (List.pairwise_singleton _ _) hpre)
        (hrtts.pre_below (by omega) hpre)
    | true =>
      obtain ⟨rfl, rfl⟩ : i = n ∧ tr = _ := by simpa using hr
      obtain ⟨g, hfirst, hg⟩ := firstRtt_all hrtts h1
      refine Sat.pure ⟨g, hfirst, hl, hrtts, hgRd, hg, _, rfl, ?_, .inl rfl⟩
      exact hrtts.pre_ascending h16 (List.pairwise_singleton _ _) hpre

/-- The RD lies above the tables and is locked behind them. -/
theorem findLockRdGranules_last (h1 : 1 ≤ n) (h16 : n ≤ 16) (hge : ¬ rdAddr < rttBase)
    (hout : addrIsContained rttBase (rttBase + BitVec.ofNat 64 (n * granuleSize)) rdAddr = false) :
    Sat (findLockRdGranules plat s rdAddr rttBase n) (RdGranules plat s rdAddr rttBase n)
      (Unsettled s) := by
  unfold findLockRdGranules
  rw [if_neg hge]
  refine Sat.ok_bind ?_
  dsimp only
  rw [if_neg fun h => hge h.1]
  have hnone : ∀ a ∈ ([] : List Word), a < rttBase := by simp
  refine Sat.bind (lockRtts_start hnone h16) fun r hr => ?_
  obtain ⟨all, i, gRttBase, tr⟩ := r
  dsimp only at hr ⊢
  obtain ⟨hrtts, rfl, hr⟩ := hr
  cases all with
  | false =>
    obtain ⟨hi, hfail, rfl⟩ : i < n ∧ lockable _ _ _ _ = false ∧ tr = _ := by simpa using hr
    refine Sat.bind (unlockRdGranules_sat (.inl ⟨rfl, rfl⟩) hrtts _) fun tr htr => Sat.pure ?_
    have hback : NotLocked plat s rdAddr rttBase n
        (nested (rttAddrs rttBase i) (probe plat.toPlatform (rttAddr rttBase i))) :=
      notLocked_probe (List.mem_cons_of_mem _ (mem_rttAddrs.mpr ⟨i, hi, rfl⟩)) hfail
        (hrtts.ascending (by omega)) (hrtts.below (by omega))
    rw [htr]
    simpa [RdGranules, nested] using hback
  | true =>
    obtain ⟨rfl, rfl⟩ : i = n ∧ tr = _ := by simpa using hr
    have habove := hrtts.rd_above h16 hout hge
    have hfree : rdAddr ∉ heldAfter ∅ (([] ++ rttAddrs rttBase i).map .lock) := by
      rw [heldAfter_locks, Finset.empty_union, List.mem_toFinset]
      exact fun hm => BitVec.lt_irrefl _ (habove _ hm)
    refine Sat.bind (findLockGranuleAt_sat hfree) fun r hr => ?_
    cases hl : lockable plat.toPlatform s rdAddr .DELEGATED with
    | false =>
      rw [hl, if_neg (by simp)] at hr
      subst hr
      refine Sat.bind (unlockRdGranules_sat (.inl ⟨rfl, rfl⟩) hrtts _) fun tr htr => Sat.pure ?_
      have hback : NotLocked plat s rdAddr rttBase i
          (nested (rttAddrs rttBase i) (probe plat.toPlatform rdAddr)) :=
        notLocked_probe (List.mem_cons_self ..) hl (hrtts.ascending h16) habove
      rw [htr]
      simpa [RdGranules, nested] using hback
    | true =>
      obtain ⟨gRd, hgRd⟩ := lockable_find hl
      obtain ⟨g, hfirst, hg⟩ := firstRtt_all hrtts h1
      rw [hl, if_pos rfl, hgRd] at hr
      subst hr
      refine Sat.pure ⟨g, hfirst, hl, hrtts, hgRd, hg,
        rttAddrs rttBase i ++ [rdAddr], by simp, ?_,
        .inr rfl⟩
      refine List.pairwise_append.mpr ⟨hrtts.ascending h16, List.pairwise_singleton _ _, ?_⟩
      simpa using habove

/-- `find_lock_rd_granules` locks all granules of the realm or none of them. -/
theorem findLockRdGranules_sat (h1 : 1 ≤ n) (h16 : n ≤ 16)
    (hout : addrIsContained rttBase (rttBase + BitVec.ofNat 64 (n * granuleSize)) rdAddr = false) :
    Sat (findLockRdGranules plat s rdAddr rttBase n) (RdGranules plat s rdAddr rttBase n)
      (Unsettled s) := by
  by_cases hlt : rdAddr < rttBase
  · exact findLockRdGranules_first h1 h16 hlt
  · exact findLockRdGranules_last h1 h16 hlt hout

end

section
variable {s s0 : State}

theorem unlockedInvariant_unused (st : GranuleState) : unlockedInvariant ⟨st, 0⟩ = true := by
  cases st <;> rfl

/-- A granule whose reference count forbids a state was counted while it was DELEGATED. -/
theorem unsettled_of_delegated {a : Word} {st : GranuleState}
    (hst : (s0.granule a).state = .DELEGATED)
    (hbad : unlockedInvariant ⟨st, (s0.granule a).refcount⟩ = false) :
    Unsettled s0 .unlockInvariant := by
  refine ⟨rfl, a, ?_⟩
  have hcount : (s0.granule a).refcount ≠ 0 := by
    intro h0
    rw [h0, unlockedInvariant_unused] at hbad
    cases hbad
  simp [unlockedInvariant, hst, hcount]

theorem unsettled_congr {s1 : State} (h : s1.granule = s.granule) (f : Fault)
    (hf : Unsettled s1 f) : Unsettled s f := by
  obtain ⟨rfl, a, ha⟩ := hf
  exact ⟨rfl, a, by rwa [h] at ha⟩

/-- A granule that was DELEGATED and a state in which it is counted as before. -/
def Fresh (s0 s : State) (a : Word) : Prop :=
  (s0.granule a).state = .DELEGATED ∧ (s.granule a).refcount = (s0.granule a).refcount

theorem Fresh.setState {a : Word} (h : Fresh s0 s a) (b : Word) (st : GranuleState) :
    Fresh s0 (s.setState b st) a := by
  refine ⟨h.1, ?_⟩
  by_cases hab : a = b
  · simpa [State.setState, hab] using hab ▸ h.2
  · simpa [State.setState, hab] using h.2

theorem granuleUnlockTransition_fresh {a : Word} (h : Fresh s0 s a) (st : GranuleState) :
    Sat (granuleUnlockTransition s a st) (fun s' => s' = s.setState a st) (Unsettled s0) := by
  refine assertThat_sat (fun hbad => ?_) fun _ => Sat.pure rfl
  have hcount : unlockedInvariant ⟨st, (s0.granule a).refcount⟩ = false := by
    rw [← h.2]
    simpa [State.setState] using hbad
  exact unsettled_of_delegated h.1 hcount

theorem unlockTransitions_fresh {addrs : List Word} (h : ∀ a ∈ addrs, Fresh s0 s a)
    (st : GranuleState) :
    Sat (unlockTransitions s addrs st) (fun s' => s' = s.setStates addrs st) (Unsettled s0) := by
  unfold unlockTransitions
  induction addrs generalizing s with
  | nil => exact Sat.pure (s.setStates_nil st).symm
  | cons a rest ih =>
    rw [List.foldlM_cons]
    refine Sat.bind (granuleUnlockTransition_fresh (h a (List.mem_cons_self ..)) st) ?_
    rintro _ rfl
    have hrest := @ih (s.setState a st) fun x hx => (h x (List.mem_cons_of_mem _ hx)).setState a st
    rwa [State.setStates_cons] at hrest

/-- The granules of a new realm are converted, and no others. -/
structure Converted (s : State) (rdAddr rttBase : Word) (n : ℕ) (s' : State) : Prop where
  count : 1 ≤ n ∧ n ≤ 16
  /-- The tables are consecutive granules. -/
  row : ∀ k < n, (rttAddr rttBase k).toNat = rttBase.toNat + k * granuleSize
  apart : ∀ k < n, rttAddr rttBase k ≠ rdAddr
  delegated : ∀ a ∈ rdAddr :: rttAddrs rttBase n, (s.granule a).state = .DELEGATED
  rd : (s'.granule rdAddr).state = .RD
  rtt : ∀ k < n, (s'.granule (rttAddr rttBase k)).state = .RTT
  other : ∀ a, a ∉ rdAddr :: rttAddrs rttBase n → s'.granule a = s.granule a

variable {plat : DramPlatform} {rdAddr : Word} {p : RealmParams}

/-- The states of granules after the transitions of a new realm. -/
theorem converted_mk (hvalid : realmParamsValid plat.toPlatform p = true)
    (hl : ∀ a ∈ rdAddr :: rttAddrs p.rttBase p.rttNumStart,
      lockable plat.toPlatform s a .DELEGATED = true)
    (hout : addrIsContained p.rttBase
      (p.rttBase + BitVec.ofNat 64 (p.rttNumStart * granuleSize)) rdAddr = false)
    {s2 : State} (hs2 : s2.granule = s.granule) :
    Converted s rdAddr p.rttBase p.rttNumStart
      ((s2.setState rdAddr .RD).setStates (rttAddrs p.rttBase p.rttNumStart) .RTT) := by
  obtain ⟨h1, h16, -⟩ := initS2StartingLevel_geometry hvalid
  have hrtts : RttsLockable plat s p.rttBase p.rttNumStart :=
    fun k hk => hl _ (List.mem_cons_of_mem _ (mem_rttAddrs.mpr ⟨k, hk, rfl⟩))
  have hmem : rdAddr ∉ rttAddrs p.rttBase p.rttNumStart := by
    refine @not_mem_rootTables plat.toPlatform p rdAddr h16 (fun a ha => ?_) hout
    exact lockable_findGranule (hl a (List.mem_cons_of_mem _ ha))
  obtain ⟨hlt, -⟩ := hrtts.base h1
  refine ⟨⟨h1, h16⟩, fun k hk => rttAddr_toNat hlt (by omega), fun k hk hc => ?_,
    fun a ha => lockable_state (hl a ha), ?_, fun k hk => ?_, fun a ha => ?_⟩
  · exact hmem (mem_rttAddrs.mpr ⟨k, hk, hc⟩)
  · simp [State.setStates, State.setState, hmem]
  · have hk' : rttAddr p.rttBase k ∈ rttAddrs p.rttBase p.rttNumStart :=
      mem_rttAddrs.mpr ⟨k, hk, rfl⟩
    simp [State.setStates, hk']
  · rw [List.mem_cons, not_or] at ha
    simp [State.setStates, State.setState, ha, hs2]

/-- A transition is logged as the release of its lock. -/
theorem granuleUnlockTransitionTraced_eq (s : State) (tr : Trace) (a : Word) (st : GranuleState) :
    granuleUnlockTransitionTraced s tr a st =
      granuleUnlockTransition s a st >>= fun s' => .ok (s', tr ++ [.unlock a]) := by
  unfold granuleUnlockTransitionTraced granuleUnlockTraced granuleUnlockTransition granuleUnlock
  dsimp only
  cases unlockedInvariant ((s.setState a st).granule a) with
  | false => rfl
  | true => rfl

/-- The tables are unlocked by their place in the array as they are by their addresses. -/
theorem unlockTransitionRtts_eq {rttBase : Word} {n i m : ℕ} {g : Word}
    (hl : RttsLockable plat s rttBase n) (hg : plat.findGranule rttBase = some g) (hm : i + m = n)
    (s2 : State) (tr : Trace) :
    unlockTransitionRtts plat (some g) m i s2 tr =
      unlockTransitions s2 ((List.range' i m).map (rttAddr rttBase)) .RTT >>= fun s' =>
        .ok (s', tr ++ ((List.range' i m).map (rttAddr rttBase)).map .unlock) := by
  induction m generalizing i s2 tr with
  | zero => simp [unlockTransitionRtts, unlockTransitions, pure, Except.pure, bind, Except.bind]
  | succ m ih =>
    have haddr := DramPlatform.granuleAddr_of_find (hl.findGranule hg (show i < n by omega))
    have hrest := fun s3 =>
      ih (show i + 1 + m = n by omega) s3 (tr ++ [.unlock (rttAddr rttBase i)])
    unfold unlockTransitionRtts
    dsimp only
    rw [haddr, granuleUnlockTransitionTraced_eq, List.range'_succ, List.map_cons, unlockTransitions,
      List.foldlM_cons]
    simp only [bind_assoc]
    refine bind_congr fun s3 => (hrest s3).trans ?_
    simp [unlockTransitions]

/-- What `smc_realm_create` does to the locks and the granules. -/
structure CreateRun (s : State) (rdAddr : Word) (nsRead : Option RealmParams)
    (r : State × SmcResult × Trace) : Prop where
  disciplined : Disciplined ∅ r.2.2
  free : heldAfter ∅ r.2.2 = ∅
  ascending : (taken r.2.2).Pairwise (· < ·)
  failed : r.2.1.ret ≠ rmiSuccess → r.1 = s
  created : r.2.1.ret = rmiSuccess → ∃ p, nsRead = some p ∧
    Converted s rdAddr p.rttBase p.rttNumStart r.1 ∧
    (taken r.2.2).Perm (rdAddr :: rttAddrs p.rttBase p.rttNumStart)

theorem createRun_failed {nsRead : Option RealmParams} {tr : Trace} (hdis : Disciplined ∅ tr)
    (hfree : heldAfter ∅ tr = ∅) (hasc : (taken tr).Pairwise (· < ·)) :
    CreateRun s rdAddr nsRead (s, smcRet rmiErrorInput, tr) :=
  ⟨hdis, hfree, hasc, fun _ => rfl,
    fun h => absurd (show rmiErrorInput = rmiSuccess from h) (by decide)⟩

/-- The locks of a realm that is created: all are taken, and released in a fixed order. -/
theorem createRun_created {tr : Trace} {g gRd : Word} {s' : State}
    (h : AllLocked plat s rdAddr p.rttBase p.rttNumStart gRd g tr)
    (hconv : Converted s rdAddr p.rttBase p.rttNumStart s') :
    CreateRun s rdAddr (some p) (s', smcRet rmiSuccess,
      tr ++ (rdAddr :: rttAddrs p.rttBase p.rttNumStart).map .unlock) := by
  obtain ⟨gs, rfl, hasc, hgs⟩ := h.trace
  have hperm : gs.Perm (rdAddr :: rttAddrs p.rttBase p.rttNumStart) := by
    obtain rfl | rfl := hgs
    · exact List.Perm.refl _
    · exact List.perm_append_singleton _ _
  have hnd : gs.Nodup := hasc.imp fun hlt => BitVec.ne_of_lt hlt
  obtain ⟨hdis, hfree⟩ := @disciplined_unlocks Word _ (heldAfter ∅ (gs.map .lock))
    (rdAddr :: rttAddrs p.rttBase p.rttNumStart) (hperm.nodup_iff.mp hnd) fun a ha => by
      rw [heldAfter_locks, Finset.empty_union, List.mem_toFinset]
      exact hperm.mem_iff.mpr ha
  have htaken : taken (gs.map .lock ++
      (rdAddr :: rttAddrs p.rttBase p.rttNumStart).map .unlock) = gs := by simp
  refine ⟨?_, ?_, ?_, fun hne => absurd rfl hne, fun _ => ⟨p, rfl, hconv, ?_⟩⟩
  · exact (disciplined_append ..).mpr ⟨disciplined_locks hnd (by simp), hdis⟩
  · rw [heldAfter_append, hfree, heldAfter_locks, Finset.empty_union,
      Finset.sdiff_eq_empty_iff_subset]
    exact fun a ha => List.mem_toFinset.mpr (hperm.mem_iff.mp (List.mem_toFinset.mp ha))
  · rwa [htaken]
  · rwa [htaken]

theorem initS2StartingLevel_ok (s1 : State) {rd : Rd}
    (hvalid : realmParamsValid plat.toPlatform p = true)
    (hrd : rd.s2Ctx = paramsCtx plat.toPlatform p) :
    ∃ tbl, initS2StartingLevelLoop s1 rd = .ok { s1 with rtt := tbl } ∧
      initS2StartingLevel s1 rd = .ok { s1 with rtt := tbl } := by
  obtain ⟨-, -, hfill⟩ := initS2StartingLevel_geometry hvalid
  obtain ⟨s', hloop, hs', -⟩ := hfill s1 rd hrd
  obtain ⟨-, heq⟩ := initS2StartingLevelLoop_eq (rootGeometry_of_valid hvalid hrd) s1
  refine ⟨s'.rtt, ?_, ?_⟩
  · rw [hloop, ← hs']
  · rw [heq, hloop, ← hs']

/-- The granules that are locked are unlocked in their new states. -/
theorem transitions_sat {tr : Trace} {gRd g : Word} {s2 : State}
    (hvalid : realmParamsValid plat.toPlatform p = true)
    (hout : addrIsContained p.rttBase
      (p.rttBase + BitVec.ofNat 64 (p.rttNumStart * granuleSize)) rdAddr = false)
    (h : AllLocked plat s rdAddr p.rttBase p.rttNumStart gRd g tr) (hs2 : s2.granule = s.granule) :
    Sat (do
        let r ← granuleUnlockTransitionTraced s2 tr rdAddr .RD
        let r ← unlockTransitionRtts plat (some g) p.rttNumStart 0 r.1 r.2
        return (r.1, smcRet rmiSuccess, r.2))
      (fun r => (do
          let s3 ← granuleUnlockTransition s2 rdAddr .RD
          let s4 ← unlockTransitions s3 (rttAddrs p.rttBase p.rttNumStart) .RTT
          return (s4, smcRet rmiSuccess)) = .ok (r.1, r.2.1) ∧
        CreateRun s rdAddr (some p) r)
      (Unsettled s) := by
  have hfresh : ∀ a ∈ rdAddr :: rttAddrs p.rttBase p.rttNumStart, Fresh s s2 a :=
    fun a ha => ⟨lockable_state (h.lockable a ha), by rw [hs2]⟩
  have hrange : (List.range' 0 p.rttNumStart).map (rttAddr p.rttBase) =
      rttAddrs p.rttBase p.rttNumStart := by rw [rttAddrs, List.range_eq_range']
  simp only [granuleUnlockTransitionTraced_eq, bind_assoc, ok_bind_eq]
  have hrd := (granuleUnlockTransition_fresh (hfresh rdAddr (List.mem_cons_self ..)) .RD).withEq
  refine Sat.bind hrd fun s3 hs3 => ?_
  obtain ⟨hstep, rfl⟩ := hs3
  rw [unlockTransitionRtts_eq h.rtts h.findRtt (Nat.zero_add _), hrange, hstep]
  simp only [bind_assoc, ok_bind_eq]
  have hrtts := (unlockTransitions_fresh (s := s2.setState rdAddr .RD) (fun a ha =>
    (hfresh a (List.mem_cons_of_mem _ ha)).setState rdAddr .RD) .RTT).withEq
  refine Sat.bind hrtts fun s4 hs4 => ?_
  obtain ⟨hloop, rfl⟩ := hs4
  rw [hloop]
  refine Sat.pure ⟨rfl, ?_⟩
  have hrun := createRun_created h (converted_mk hvalid h.lockable hout hs2)
  rwa [List.map_cons, ← List.singleton_append, ← List.append_assoc] at hrun

/-- `smc_realm_create` with its locks does what it does without them. It takes the locks in
the order of their addresses and releases them all; it converts the granules of the new realm
or leaves the state as it was. -/
theorem smcRealmCreate_granules (plat : DramPlatform) (s : State) (rdAddr paramsAddr : Word)
    (nsRead : Option RealmParams) :
    Sat (smcRealmCreateTraced plat s rdAddr paramsAddr nsRead)
      (fun r => smcRealmCreate plat.toPlatform s rdAddr paramsAddr nsRead = .ok (r.1, r.2.1) ∧
        CreateRun s rdAddr nsRead r) (Unsettled s) := by
  have idle : CreateRun s rdAddr nsRead (s, smcRet rmiErrorInput, []) :=
    createRun_failed (by simp) (by simp) .nil
  unfold smcRealmCreateTraced smcRealmCreate
  by_cases hparams : (!(findGranule plat.toPlatform paramsAddr &&
      (s.granule paramsAddr).state == .NS)) = true
  · simp only [hparams, if_true]
    exact Sat.pure ⟨rfl, idle⟩
  simp only [hparams, Bool.false_eq_true, if_false]
  cases nsRead with
  | none => exact Sat.pure ⟨rfl, idle⟩
  | some p =>
    dsimp only
    cases hvalid : realmParamsValid plat.toPlatform p with
    | false => exact Sat.pure ⟨rfl, idle⟩
    | true =>
      cases hres : vmidReserve plat.toPlatform s p.vmid with
      | none => exact Sat.pure ⟨rfl, idle⟩
      | some s1 =>
        have hfree := vmidFree_reserved hres
        obtain ⟨-, -, hs1⟩ := vmidReserve_some hres
        have hgranule : s1.granule = s.granule := by rw [hs1]
        simp only [Bool.not_true, Bool.false_eq_true, if_false, hfree, ok_bind_eq]
        cases hout : addrIsContained p.rttBase
            (p.rttBase + BitVec.ofNat 64 (p.rttNumStart * granuleSize)) rdAddr with
        | true => exact Sat.pure ⟨rfl, idle⟩
        | false =>
          obtain ⟨h1, h16, -⟩ := initS2StartingLevel_geometry hvalid
          have hlock : Sat _ (RdGranules plat s1 rdAddr p.rttBase p.rttNumStart) (Unsettled s1) :=
            findLockRdGranules_sat h1 h16 hout
          refine Sat.bind (hlock.mono (fun _ h => h) (unsettled_congr hgranule)) fun r hr => ?_
          obtain ⟨found, tr⟩ := r
          cases found with
          | none =>
            obtain ⟨a, ha, hl⟩ := hr.unmet
            have hall : ((rdAddr :: rootTables (paramsCtx plat.toPlatform p)).all fun a =>
                findGranule plat.toPlatform a && (s1.granule a).state == .DELEGATED) = false := by
              refine List.all_eq_false.mpr ⟨a, ha, ?_⟩
              simpa [lockable] using hl
            unfold paramsCtx at hall
            simp only [hall, Bool.not_false, Bool.or_true, if_true]
            exact Sat.pure ⟨rfl, createRun_failed hr.disciplined hr.free hr.ascending⟩
          | some gs =>
            obtain ⟨gRd, gRttBase⟩ := gs
            obtain ⟨g, rfl, hr⟩ := hr
            have hall : ((rdAddr :: rootTables (paramsCtx plat.toPlatform p)).all fun a =>
                findGranule plat.toPlatform a && (s1.granule a).state == .DELEGATED) = true :=
              List.all_eq_true.mpr hr.lockable
            unfold paramsCtx at hall
            simp only [hall, Bool.not_true, Bool.or_false, Bool.false_eq_true, if_false]
            rw [DramPlatform.granuleAddr_of_find hr.findRd]
            have hstart (rd : Rd) (hrd : rd.s2Ctx = paramsCtx plat.toPlatform p) :=
              initS2StartingLevel_ok (s1.setRd rdAddr rd) hvalid hrd
            obtain ⟨tbl, hloop, hinit⟩ :=
              hstart ⟨.NEW, 0, paramsCtx plat.toPlatform p, maxRecAuxGranules,
                (s1.rd rdAddr).aptPa⟩ rfl
            unfold paramsCtx at hloop hinit ⊢
            simp only [hloop, hinit, ok_bind_eq]
            exact transitions_sat hvalid hout (hr.congr hgranule) hgranule

/-- A realm with four root tables in the second bank; its RD is in the first one. -/
def demoDramParams : RealmParams := { demoParams 0 1 with rttBase := 0x880000000#64 }

/-- The realm is created if all five granules are DELEGATED. If a table is the host's, the locks
that were taken are released and the state is left. -/
theorem smcRealmCreate_granules_demo :
    (∃ r, smcRealmCreateTraced demoDram
        (demoGranules (0x80001000#64 :: rttAddrs 0x880000000#64 4)) 0x80001000#64 0x80000000#64
        (some demoDramParams) = .ok r ∧ r.2.1.ret = rmiSuccess ∧
      taken r.2.2 = 0x80001000#64 :: rttAddrs 0x880000000#64 4 ∧ heldAfter ∅ r.2.2 = ∅ ∧
      ∃ p, some demoDramParams = some p ∧
        Converted (demoGranules (0x80001000#64 :: rttAddrs 0x880000000#64 4)) 0x80001000#64
          p.rttBase p.rttNumStart r.1) ∧
    ∃ r, smcRealmCreateTraced demoDram demoDelegated 0x80001000#64 0x80000000#64
        (some demoDramParams) = .ok r ∧ r.2.1.ret = rmiErrorInput ∧
      taken r.2.2 = [0x80001000#64, 0x880000000#64, 0x880001000#64] ∧
        heldAfter ∅ r.2.2 = ∅ ∧
      r.1 = demoDelegated := by
  have hspec := fun s =>
    smcRealmCreate_granules demoDram s 0x80001000#64 0x80000000#64 (some demoDramParams)
  constructor
  · have hrun : (smcRealmCreateTraced demoDram
        (demoGranules (0x80001000#64 :: rttAddrs 0x880000000#64 4)) 0x80001000#64 0x80000000#64
        (some demoDramParams)).map (fun r => (r.2.1.ret, taken r.2.2)) =
          .ok (rmiSuccess, 0x80001000#64 :: rttAddrs 0x880000000#64 4) := by decide +kernel
    obtain ⟨r, hr, hout⟩ := ok_of_map hrun
    obtain ⟨hret, htaken⟩ := Prod.mk.inj hout
    obtain ⟨-, hcreate⟩ := (hspec _).of_ok hr
    obtain ⟨p, hp, hconv, -⟩ := hcreate.created hret
    exact ⟨r, hr, hret, htaken, hcreate.free, p, hp, hconv⟩
  · have hrun : (smcRealmCreateTraced demoDram demoDelegated 0x80001000#64 0x80000000#64
        (some demoDramParams)).map (fun r => (r.2.1.ret, taken r.2.2)) =
          .ok (rmiErrorInput, [0x80001000#64, 0x880000000#64, 0x880001000#64]) := by
      decide +kernel
    obtain ⟨r, hr, hout⟩ := ok_of_map hrun
    obtain ⟨hret, htaken⟩ := Prod.mk.inj hout
    obtain ⟨-, hcreate⟩ := (hspec _).of_ok hr
    have hne : r.2.1.ret ≠ rmiSuccess := by
      rw [hret]
      decide
    exact ⟨r, hr, hret, htaken, hcreate.free, hcreate.failed hne⟩

end

end RmmCaec
