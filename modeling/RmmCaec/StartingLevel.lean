import RmmCaec.RealmEffects
import RmmCaec.Replay

/-!
# The starting level of a new realm

Validation counts the root tables, initialisation fills them entry by entry until it meets
the end of the IPA space, and the walk splits an address into a root and an index. The
three computations are compared here for every geometry that is accepted: the loops end
inside the last table, and the first step of a walk selects the entry that was filled for
the address.
-/
namespace RmmCaec

open RadixForest Outcome

/-- The number of entries that are used in a starting level table. -/
def s2ttesPerRoot (rd : Rd) : ℕ :=
  if rd.s2Ctx.s2StartingLevel = s2ttMinStartingLevelLpa2 then s2ttesPerS2ttLm1 else s2ttesPerS2tt

/-- Store one entry of a mapped table, which is one granule. -/
def s2ttStore (s2tt : ℕ → Word) (rtte : ℕ) (s2tte : Word) : Rmm (ℕ → Word) := do
  assertThat (decide (rtte < s2ttesPerS2tt)) .outOfBounds
  return Function.update s2tt rtte s2tte

/-- The loop over the entries of one table, with `n` entries left. It yields the table, the
IPA it has come to, and whether that is the end of the IPA space. -/
def fillRootRtt (rd : Rd) : ℕ → ℕ → (ℕ → Word) → Word →
    Rmm ((ℕ → Word) × Word × Bool)
  | 0, _, s2tt, currentIpa => .ok (s2tt, currentIpa, false)
  | n + 1, rtte, s2tt, currentIpa => do
    let s2tt ← s2ttStore s2tt rtte
      (if addrInPar rd currentIpa then s2tteCreateUnassignedEmpty else s2tteCreateUnassignedNs)
    let currentIpa := currentIpa + BitVec.ofNat 64 (s2tteMapSize rd.s2Ctx.s2StartingLevel)
    if currentIpa = BitVec.ofNat 64 (realmIpaSize rd) then return (s2tt, currentIpa, true)
    else fillRootRtt rd n (rtte + 1) s2tt currentIpa

/-- The loop over the root tables, with `n` tables left. Running out of tables before the
end of the IPA space is the failed assertion. -/
def fillRootRtts (rd : Rd) : ℕ → ℕ → State → Word → Rmm State
  | 0, _, _, _ => .error .startingLevel
  | n + 1, rtt, s, currentIpa => do
    let gRtt := rootTable rd.s2Ctx rtt
    let (s2tt, currentIpa, done) ← fillRootRtt rd (s2ttesPerRoot rd) 0 (s.rtt gRtt) currentIpa
    let s := s.setTable gRtt s2tt
    if done then return s else fillRootRtts rd n (rtt + 1) s currentIpa

/-- `init_s2_starting_level`, as the loops run. -/
def initS2StartingLevelLoop (s : State) (rd : Rd) : Rmm State :=
  fillRootRtts rd rd.s2Ctx.numRootRtts 0 s 0#64

section
variable {rd : Rd} {cells : ℕ}

/-- The sizes that the loops rely on: the IPA space is a number of starting level entries,
which fill all root tables but the last. -/
structure RootGeometry (rd : Rd) (cells : ℕ) : Prop where
  size : realmIpaSize rd = cells * s2tteMapSize rd.s2Ctx.s2StartingLevel
  small : realmIpaSize rd ≤ 2 ^ 52
  width : s2ttesPerRoot rd ≤ s2ttesPerS2tt
  enough : cells ≤ rd.s2Ctx.numRootRtts * s2ttesPerRoot rd
  needed : ∀ k < rd.s2Ctx.numRootRtts, k * s2ttesPerRoot rd < cells
  some_root : 0 < rd.s2Ctx.numRootRtts

/-- The IPA of an entry, as the loops keep it. -/
theorem RootGeometry.ipa_toNat (h : RootGeometry rd cells) {c : ℕ} (hc : c ≤ cells) :
    (BitVec.ofNat 64 (c * s2tteMapSize rd.s2Ctx.s2StartingLevel)).toNat =
      c * s2tteMapSize rd.s2Ctx.s2StartingLevel := by
  have hmul : c * s2tteMapSize rd.s2Ctx.s2StartingLevel ≤
      cells * s2tteMapSize rd.s2Ctx.s2StartingLevel := Nat.mul_le_mul_right _ hc
  have hsize := h.size
  have hsmall := h.small
  rw [BitVec.toNat_ofNat]
  omega

/-- The end of the IPA space is met at the last entry and not before. -/
theorem RootGeometry.at_end (h : RootGeometry rd cells) {c : ℕ} (hc : c ≤ cells) :
    BitVec.ofNat 64 (c * s2tteMapSize rd.s2Ctx.s2StartingLevel) =
      BitVec.ofNat 64 (realmIpaSize rd) ↔ c = cells := by
  have hpos := s2tteMapSize_pos rd.s2Ctx.s2StartingLevel
  constructor
  · intro heq
    have hnat := congrArg BitVec.toNat heq
    rw [h.size, h.ipa_toNat hc, h.ipa_toNat le_rfl] at hnat
    exact Nat.eq_of_mul_eq_mul_right hpos hnat
  · rintro rfl
    rw [h.size]

/-- The entry for a place is the one that the table of the specification has there. -/
theorem RootGeometry.entry (h : RootGeometry rd cells) (old : ℕ → Word) {k i : ℕ}
    (hi : i < s2ttesPerRoot rd) (hc : k * s2ttesPerRoot rd + i < cells) :
    (if addrInPar rd (BitVec.ofNat 64
        ((k * s2ttesPerRoot rd + i) * s2tteMapSize rd.s2Ctx.s2StartingLevel)) then
      s2tteCreateUnassignedEmpty else s2tteCreateUnassignedNs) = startingLevelTable rd old k i := by
  have hin : (k * s2ttesPerRoot rd + i) * s2tteMapSize rd.s2Ctx.s2StartingLevel <
      realmIpaSize rd := by
    rw [h.size]
    exact Nat.mul_lt_mul_of_pos_right hc (s2tteMapSize_pos _)
  have hfill : startingLevelTable rd old k i =
      if (k * s2ttesPerRoot rd + i) * s2tteMapSize rd.s2Ctx.s2StartingLevel < realmParSize rd then
        s2tteCreateUnassignedEmpty else s2tteCreateUnassignedNs := if_pos ⟨hi, hin⟩
  simp only [hfill, addrInPar, h.ipa_toNat hc.le, decide_eq_true_eq]

/-- Behind the end of the IPA space a table keeps what it had. -/
theorem RootGeometry.beyond (h : RootGeometry rd cells) {old : ℕ → Word} {k i : ℕ}
    (hi : s2ttesPerRoot rd ≤ i ∨ cells ≤ k * s2ttesPerRoot rd + i) :
    startingLevelTable rd old k i = old i := by
  refine if_neg fun hin => ?_
  obtain ⟨hlt, hsize⟩ := hin
  have hlt' : i < s2ttesPerRoot rd := hlt
  have hle : cells ≤ k * s2ttesPerRoot rd + i := by omega
  have hmul := Nat.mul_le_mul_right (s2tteMapSize rd.s2Ctx.s2StartingLevel) hle
  have hsize' : (k * s2ttesPerRoot rd + i) * s2tteMapSize rd.s2Ctx.s2StartingLevel <
      realmIpaSize rd := hsize
  rw [h.size] at hsize'
  omega

/-- One turn of the loop over a table: the entry is filled, and the loop goes on unless
this was the last entry of the IPA space. -/
theorem fillRootRtt_succ (h : RootGeometry rd cells) (old : ℕ → Word) {k i : ℕ} (n : ℕ)
    (s2tt : ℕ → Word) (hi : i < s2ttesPerRoot rd) (hc : k * s2ttesPerRoot rd + i < cells) :
    fillRootRtt rd (n + 1) i s2tt (BitVec.ofNat 64
        ((k * s2ttesPerRoot rd + i) * s2tteMapSize rd.s2Ctx.s2StartingLevel)) =
      if k * s2ttesPerRoot rd + (i + 1) = cells then
        .ok (Function.update s2tt i (startingLevelTable rd old k i),
          BitVec.ofNat 64 (cells * s2tteMapSize rd.s2Ctx.s2StartingLevel), true)
      else fillRootRtt rd n (i + 1) (Function.update s2tt i (startingLevelTable rd old k i))
        (BitVec.ofNat 64
          ((k * s2ttesPerRoot rd + (i + 1)) * s2tteMapSize rd.s2Ctx.s2StartingLevel)) := by
  have hstore (s2tte : Word) : s2ttStore s2tt i s2tte = .ok (Function.update s2tt i s2tte) := by
    have hwidth := h.width
    have hlt : i < s2ttesPerS2tt := by omega
    simp [s2ttStore, assertThat, hlt, bind, Except.bind, pure, Except.pure]
  have hsum : (k * s2ttesPerRoot rd + i) * s2tteMapSize rd.s2Ctx.s2StartingLevel +
      s2tteMapSize rd.s2Ctx.s2StartingLevel =
      (k * s2ttesPerRoot rd + (i + 1)) * s2tteMapSize rd.s2Ctx.s2StartingLevel := by ring
  simp only [fillRootRtt, hstore, h.entry old hi hc, bind, Except.bind, pure, Except.pure,
    ← BitVec.ofNat_add, hsum, h.at_end (show k * s2ttesPerRoot rd + (i + 1) ≤ cells by omega)]
  split
  case isTrue hend => rw [hend]
  case isFalse => rfl

/-- The loop over one table, from an entry before the end of the IPA space on: it fills the
rest of the table as specified and ends at the end of the table or of the IPA space. -/
theorem fillRootRtt_ok (h : RootGeometry rd cells) (old : ℕ → Word) {k n i : ℕ}
    {s2tt : ℕ → Word}
    (hn : i + n = s2ttesPerRoot rd) (hc : k * s2ttesPerRoot rd + i < cells)
    (hdone : ∀ j < i, s2tt j = startingLevelTable rd old k j)
    (hrest : ∀ j, i ≤ j → s2tt j = old j) :
    fillRootRtt rd n i s2tt (BitVec.ofNat 64
        ((k * s2ttesPerRoot rd + i) * s2tteMapSize rd.s2Ctx.s2StartingLevel)) =
      .ok (startingLevelTable rd old k,
        BitVec.ofNat 64 (min cells ((k + 1) * s2ttesPerRoot rd) *
          s2tteMapSize rd.s2Ctx.s2StartingLevel),
        decide (cells ≤ (k + 1) * s2ttesPerRoot rd)) := by
  have hsucc : (k + 1) * s2ttesPerRoot rd = k * s2ttesPerRoot rd + s2ttesPerRoot rd := by ring
  induction n generalizing i s2tt with
  | zero =>
    have htable : s2tt = startingLevelTable rd old k := by
      funext j
      by_cases hj : j < i
      · exact hdone j hj
      · rw [hrest j (by omega), h.beyond (.inl (by omega))]
    have hmin : min cells ((k + 1) * s2ttesPerRoot rd) = k * s2ttesPerRoot rd + i := by omega
    have hlt : ¬ cells ≤ (k + 1) * s2ttesPerRoot rd := by omega
    simp [fillRootRtt, hmin, htable, hlt]
  | succ n ih =>
    have hnext : ∀ j < i + 1, Function.update s2tt i (startingLevelTable rd old k i) j =
        startingLevelTable rd old k j := by
      intro j hj
      by_cases hji : j = i
      · rw [hji, Function.update_self]
      · rw [Function.update_of_ne hji, hdone j (by omega)]
    have hkeep : ∀ j, i + 1 ≤ j →
        Function.update s2tt i (startingLevelTable rd old k i) j = old j := by
      intro j hj
      rw [Function.update_of_ne (by omega), hrest j (by omega)]
    rw [fillRootRtt_succ h old n s2tt (by omega) hc]
    by_cases hend : k * s2ttesPerRoot rd + (i + 1) = cells
    · -- the end of the IPA space: the entries behind it are not touched
      have htable : Function.update s2tt i (startingLevelTable rd old k i) =
          startingLevelTable rd old k := by
        funext j
        by_cases hj : j < i + 1
        · exact hnext j hj
        · rw [hkeep j (by omega), h.beyond (.inr (by omega))]
      have hle : cells ≤ (k + 1) * s2ttesPerRoot rd := by omega
      rw [if_pos hend, htable, min_eq_left hle, decide_eq_true hle]
    · rw [if_neg hend]
      exact ih (by omega) (by omega) hnext hkeep

/-- The loop over the tables fills one after the other and returns from the last one. -/
theorem fillRootRtts_ok (h : RootGeometry rd cells) {n k : ℕ} (s : State)
    (hn : k + n = rd.s2Ctx.numRootRtts) (hk : k < rd.s2Ctx.numRootRtts) :
    fillRootRtts rd n k s
        (BitVec.ofNat 64 (k * s2ttesPerRoot rd * s2tteMapSize rd.s2Ctx.s2StartingLevel)) =
      .ok ((List.range' k n).foldl (fun s k => s.setTable (rootTable rd.s2Ctx k)
        (startingLevelTable rd (s.rtt (rootTable rd.s2Ctx k)) k)) s) := by
  induction n generalizing k s with
  | zero => omega
  | succ n ih =>
    have hfill := fillRootRtt_ok h (s.rtt (rootTable rd.s2Ctx k)) (k := k) (i := 0)
      (n := s2ttesPerRoot rd)
      (by omega) (h.needed k hk) (by omega) (fun _ _ => rfl)
    rw [Nat.add_zero] at hfill
    rw [fillRootRtts]
    simp only [hfill, bind, Except.bind]
    rw [List.range'_succ, List.foldl_cons]
    by_cases hlast : n = 0
    · -- all entries fit into the tables up to this one
      have henough := h.enough
      have hle : cells ≤ (k + 1) * s2ttesPerRoot rd := by
        have hk1 : k + 1 = rd.s2Ctx.numRootRtts := by omega
        rw [hk1]
        exact henough
      simp [hlast, hle, pure, Except.pure]
    · have hmore : (k + 1) * s2ttesPerRoot rd < cells := h.needed (k + 1) (by omega)
      have hgt : ¬ cells ≤ (k + 1) * s2ttesPerRoot rd := by omega
      rw [min_eq_right hmore.le]
      simp only [hgt, decide_false, Bool.false_eq_true, if_false]
      exact ih _ (by omega) (by omega)

end

theorem rootGeometry_of_valid {plat : Platform} {p : RealmParams} {rd : Rd}
    (h : realmParamsValid plat p = true) (hrd : rd.s2Ctx = paramsCtx plat p) :
    RootGeometry rd (2 ^ (p.s2sz - levelLsb p.rttLevelStart)) := by
  obtain ⟨hctx, -⟩ := ctxOk_of_valid h
  obtain ⟨-, -, -, hlsb, -, hlm1⟩ :=
    validateIpaBitsAndSl_geometry (realmParamsValid_geometry h).1
  have hroots : ∀ j, j * 2 ^ (levelLsb p.rttLevelStart + 9) < 2 ^ p.s2sz ↔ j < p.rttNumStart :=
    hctx.roots
  have hpos : 0 < 2 ^ levelLsb p.rttLevelStart := Nat.two_pow_pos _
  have hcells : 2 ^ p.s2sz = 2 ^ (p.s2sz - levelLsb p.rttLevelStart) * 2 ^ levelLsb
      p.rttLevelStart := by
    rw [← pow_add, Nat.sub_add_cancel (by omega)]
  have hper : ∀ j, j * 2 ^ (levelLsb p.rttLevelStart + 9) =
      j * 512 * 2 ^ levelLsb p.rttLevelStart := by
    intro j
    rw [pow_add]
    ring
  have hzero : 0 < p.rttNumStart := (hroots 0).mp (by simp)
  have hlevel : rd.s2Ctx.s2StartingLevel = p.rttLevelStart := by rw [hrd]; rfl
  have hnum : rd.s2Ctx.numRootRtts = p.rttNumStart := by rw [hrd]; rfl
  have hsize : realmIpaSize rd = 2 ^ p.s2sz := by rw [realmIpaSize, hrd]; rfl
  have hsmall : realmIpaSize rd ≤ 2 ^ 52 := by
    rw [hsize]
    exact Nat.pow_le_pow_right (by omega) hctx.bits_le_52
  have hneeded : ∀ k < p.rttNumStart, k * 512 < 2 ^ (p.s2sz - levelLsb p.rttLevelStart) := by
    intro k hk
    rw [← hroots, hper, hcells] at hk
    exact Nat.lt_of_mul_lt_mul_right hk
  refine ⟨by rw [hsize, hlevel, s2tteMapSize, hcells], hsmall, ?_, ?_, ?_, by rwa [hnum]⟩
  all_goals unfold s2ttesPerRoot; rw [hlevel]
  · split <;> decide
  · rw [hnum]
    split
    case isTrue hm1 =>
      -- one root table, of which sixteen entries are used
      have hexp : 2 ^ (p.s2sz - levelLsb p.rttLevelStart) ≤ 2 ^ 4 :=
        Nat.pow_le_pow_right (by omega) (by have := hlm1 hm1; omega)
      unfold s2ttesPerS2ttLm1
      omega
    case isFalse =>
      have hlast : ¬ p.rttNumStart * 2 ^ (levelLsb p.rttLevelStart + 9) < 2 ^ p.s2sz := by
        rw [hroots]
        omega
      rw [hper, hcells] at hlast
      exact Nat.le_of_mul_le_mul_right (Nat.le_of_not_lt hlast) hpos
  · rw [hnum]
    intro k hk
    have hk512 := hneeded k hk
    split
    case isTrue =>
      unfold s2ttesPerS2ttLm1
      omega
    case isFalse => exact hk512

section
variable {rd : Rd} {cells : ℕ}

/-- The loops compute what `initS2StartingLevel` says at once. -/
theorem initS2StartingLevelLoop_eq (h : RootGeometry rd cells) (s : State) :
    initS2StartingLevelLoop s rd = .ok ((List.range rd.s2Ctx.numRootRtts).foldl (fun s k =>
        s.setTable (rootTable rd.s2Ctx k)
          (startingLevelTable rd (s.rtt (rootTable rd.s2Ctx k)) k)) s) ∧
      initS2StartingLevel s rd = initS2StartingLevelLoop s rd := by
  have hloop : initS2StartingLevelLoop s rd = .ok ((List.range rd.s2Ctx.numRootRtts).foldl
      (fun s k => s.setTable (rootTable rd.s2Ctx k)
        (startingLevelTable rd (s.rtt (rootTable rd.s2Ctx k)) k)) s) := by
    have hfill := fillRootRtts_ok h (n := rd.s2Ctx.numRootRtts) (k := 0) s (by omega) h.some_root
    rw [Nat.zero_mul, Nat.zero_mul] at hfill
    rw [List.range_eq_range']
    exact hfill
  refine ⟨hloop, ?_⟩
  have hmod : realmIpaSize rd % s2tteMapSize rd.s2Ctx.s2StartingLevel = 0 := by
    rw [h.size, Nat.mul_mod_left]
  have hle : realmIpaSize rd ≤
      rd.s2Ctx.numRootRtts * s2ttesPerRoot rd * s2tteMapSize rd.s2Ctx.s2StartingLevel := by
    rw [h.size]
    exact Nat.mul_le_mul_right _ h.enough
  unfold s2ttesPerRoot at hle
  have hassert : assertThat (decide (realmIpaSize rd % s2tteMapSize rd.s2Ctx.s2StartingLevel = 0) &&
      decide (realmIpaSize rd ≤ rd.s2Ctx.numRootRtts *
        (if rd.s2Ctx.s2StartingLevel = s2ttMinStartingLevelLpa2 then s2ttesPerS2ttLm1
          else s2ttesPerS2tt) * s2tteMapSize rd.s2Ctx.s2StartingLevel))
            .startingLevel = .ok () := by
    rw [decide_eq_true hmod, decide_eq_true hle]
    rfl
  unfold initS2StartingLevel
  rw [hloop]
  simp only [hassert]
  rfl

end

/-- The index over all root tables splits into the root and the index that the walk uses. -/
theorem RootGeometry.split {rd : Rd} {cells : ℕ} (h : RootGeometry rd cells) {addr : Word}
    (ha : addr.toNat < realmIpaSize rd) (hstart : -1 ≤ rd.s2Ctx.s2StartingLevel) :
    ∃ k i, k < rd.s2Ctx.numRootRtts ∧ i < s2ttesPerRoot rd ∧
      k * s2ttesPerRoot rd + i = addr.toNat / s2tteMapSize rd.s2Ctx.s2StartingLevel ∧
      s2SlAddrToIdx addr rd.s2Ctx.s2StartingLevel rd.s2Ctx.ipaBits / s2ttesPerS2tt = k ∧
      s2AddrToIdx addr rd.s2Ctx.s2StartingLevel = i := by
  set idx := addr.toNat / s2tteMapSize rd.s2Ctx.s2StartingLevel with hidx
  have hsl : s2SlAddrToIdx addr rd.s2Ctx.s2StartingLevel rd.s2Ctx.ipaBits = idx := by
    rw [s2SlAddrToIdx, Nat.mod_eq_of_lt (show addr.toNat < 2 ^ rd.s2Ctx.ipaBits from ha), hidx,
      s2tteMapSize]
  have hcell : idx < cells := by
    rw [hidx, Nat.div_lt_iff_lt_mul (s2tteMapSize_pos _), ← h.size]
    exact ha
  have henough := h.enough
  have hwidth : s2ttesPerRoot rd = if rd.s2Ctx.s2StartingLevel < s2ttMinStartingLevel then
      s2ttesPerS2ttLm1 else s2ttesPerS2tt := by
    unfold s2ttesPerRoot s2ttMinStartingLevelLpa2 s2ttMinStartingLevel
    by_cases hm1 : rd.s2Ctx.s2StartingLevel = -1
    · rw [if_pos hm1, if_pos (by omega)]
    · rw [if_neg hm1, if_neg (by omega)]
  have haddr : s2AddrToIdx addr rd.s2Ctx.s2StartingLevel = idx % s2ttesPerRoot rd := by
    rw [hwidth, hidx]
    rfl
  have hpos : 0 < s2ttesPerRoot rd := by
    by_contra hzero
    rw [Nat.eq_zero_of_not_pos hzero] at henough
    omega
  have hdiv : idx / s2ttesPerRoot rd < rd.s2Ctx.numRootRtts := by
    rw [Nat.div_lt_iff_lt_mul hpos]
    omega
  have hmod := Nat.mod_lt idx hpos
  have hsum := Nat.div_add_mod' idx (s2ttesPerRoot rd)
  refine ⟨idx / s2ttesPerRoot rd, idx % s2ttesPerRoot rd, hdiv, hmod, hsum, ?_, haddr⟩
  rw [hsl, hwidth]
  split
  case isFalse => rfl
  case isTrue hlm1 =>
    -- sixteen entries of level -1 span the largest IPA space
    have hm1 : rd.s2Ctx.s2StartingLevel = -1 := by
      unfold s2ttMinStartingLevel at hlm1
      omega
    have hmap : s2tteMapSize rd.s2Ctx.s2StartingLevel = 2 ^ 48 := by
      rw [hm1]
      rfl
    have hsize := h.size
    have hsmall := h.small
    rw [hmap] at hsize
    unfold s2ttesPerS2tt s2ttesPerS2ttLm1
    omega

/-- The entry that the walk selects first was filled for the half that the address is in. -/
theorem startingLevelTable_selected {rd : Rd} {old : ℕ → Word} {addr : Word} {k i : ℕ}
    (hhalf : levelLsb rd.s2Ctx.s2StartingLevel + 1 ≤ rd.s2Ctx.ipaBits)
    (ha : addr.toNat < realmIpaSize rd) (hi : i < s2ttesPerRoot rd)
    (hidx : k * s2ttesPerRoot rd + i = addr.toNat / s2tteMapSize rd.s2Ctx.s2StartingLevel) :
    startingLevelTable rd old k i =
      if addr.toNat < 2 ^ (rd.s2Ctx.ipaBits - 1) then s2tteCreateUnassignedEmpty
      else s2tteCreateUnassignedNs := by
  have hpos := s2tteMapSize_pos rd.s2Ctx.s2StartingLevel
  have hdown := Nat.div_mul_le_self addr.toNat (s2tteMapSize rd.s2Ctx.s2StartingLevel)
  have hin : (k * s2ttesPerRoot rd + i) * s2tteMapSize rd.s2Ctx.s2StartingLevel <
      realmIpaSize rd := by
    rw [hidx]
    omega
  -- the middle of the IPA space is the start of an entry
  have hpar : realmParSize rd = 2 ^ (rd.s2Ctx.ipaBits - 1 - levelLsb rd.s2Ctx.s2StartingLevel) *
      s2tteMapSize rd.s2Ctx.s2StartingLevel ∧ realmParSize rd = 2 ^ (rd.s2Ctx.ipaBits - 1) := by
    have hbits : rd.s2Ctx.ipaBits = rd.s2Ctx.ipaBits - 1 + 1 := by omega
    have hpow : realmParSize rd = 2 ^ (rd.s2Ctx.ipaBits - 1) := by
      rw [realmParSize, realmIpaSize, hbits, pow_succ, Nat.mul_div_cancel _ (by omega)]
      rfl
    refine ⟨?_, hpow⟩
    rw [hpow, s2tteMapSize, ← pow_add, Nat.sub_add_cancel (by omega)]
  have hside : addr.toNat / s2tteMapSize rd.s2Ctx.s2StartingLevel *
      s2tteMapSize rd.s2Ctx.s2StartingLevel < realmParSize rd ↔
      addr.toNat < 2 ^ (rd.s2Ctx.ipaBits - 1) := by
    rw [← hpar.2, hpar.1, Nat.mul_lt_mul_right hpos, Nat.div_lt_iff_lt_mul hpos]
  have hfill : startingLevelTable rd old k i =
      if (k * s2ttesPerRoot rd + i) * s2tteMapSize rd.s2Ctx.s2StartingLevel < realmParSize rd then
        s2tteCreateUnassignedEmpty else s2tteCreateUnassignedNs := if_pos ⟨hi, hin⟩
  rw [hfill, hidx]
  simp only [hside]

theorem startingEntry_kinds (b : Prop) [Decidable b] :
    entryIsTable (if b then s2tteCreateUnassignedEmpty else s2tteCreateUnassignedNs) = false ∧
      (s2tteIsUnassignedEmpty (if b then s2tteCreateUnassignedEmpty else s2tteCreateUnassignedNs) =
        true ↔ b) ∧
      (s2tteIsUnassignedNs (if b then s2tteCreateUnassignedEmpty else s2tteCreateUnassignedNs) =
        true ↔ ¬ b) := by
  split
  case isTrue hb =>
    exact ⟨by decide, by simpa [hb] using by decide, by simpa [hb] using by decide⟩
  case isFalse hb =>
    exact ⟨by decide, by simpa [hb] using by decide, by simpa [hb] using by decide⟩

/-- A walk whose first entry is not a table ends there. -/
theorem s2ttWalkLockUnlock_first {s : State} {ctx : S2ttContext} {addr : Word}
    {level : ℤ} {k i : ℕ}
    (hctx : CtxOk ctx)
    (hroots : ∀ j < ctx.numRootRtts, (s.granule (rootTable ctx j)).state = .RTT)
    (ha : addr.toNat < 2 ^ ctx.ipaBits) (hlo : ctx.s2StartingLevel ≤ level)
    (hhi : level ≤ s2ttPageLevel) (hk : k < ctx.numRootRtts)
    (hroot : s2SlAddrToIdx addr ctx.s2StartingLevel ctx.ipaBits / s2ttesPerS2tt = k)
    (hidx : s2AddrToIdx addr ctx.s2StartingLevel = i)
    (hleaf : entryIsTable (s.rtt (rootTable ctx k) i) = false) :
    s2ttWalkLockUnlock s ctx addr level = .ok ⟨rootTable ctx k, i, ctx.s2StartingLevel⟩ := by
  have hzero : rootTable ctx 0 = ctx.gRtt := by simp [rootTable]
  have hwalk : walkRoot ctx addr = rootTable ctx k := by
    unfold walkRoot
    dsimp only
    split
    case isTrue => rw [hroot]
    case isFalse hlt => rw [← hroot, Nat.div_eq_of_lt (Nat.lt_of_not_le hlt), hzero]
  have hlock0 := granuleLock_ok (hroots 0 (by omega))
  have hlockk := granuleLock_ok (hroots k hk)
  have hfrom (n : ℕ) : walkFrom s ctx addr n (rootTable ctx k) ctx.s2StartingLevel =
      .ok ⟨rootTable ctx k, i, ctx.s2StartingLevel⟩ := by
    cases n with
    | zero => rw [walkFrom, hidx]
    | succ n => simp [walkFrom, hidx, hleaf]
  rw [hzero] at hlock0
  unfold s2ttWalkLockUnlock
  simp only [hlock0, hwalk, hlockk, hfrom, hroot]
  simp [assertThat, hlo, hhi, ha, hctx.bits_le, hk, bind, Except.bind]

/-- For every geometry that `validate_realm_params` accepts: there are 1 to 16 root tables;
the loops fill them without a failed assertion and write nothing else; and a walk for any
address of the IPA space first selects a root table and an entry of the right kind. -/
theorem initS2StartingLevel_geometry {plat : Platform} {p : RealmParams}
    (h : realmParamsValid plat p = true) :
    1 ≤ p.rttNumStart ∧ p.rttNumStart ≤ 16 ∧ ∀ s rd, rd.s2Ctx = paramsCtx plat p →
      ∃ s', initS2StartingLevelLoop s rd = .ok s' ∧ s' = { s with rtt := s'.rtt } ∧
        (∀ g, g ∉ rootTables (paramsCtx plat p) → s'.rtt g = s.rtt g) ∧
        ∀ addr : Word, addr.toNat < 2 ^ p.s2sz → ∃ k < p.rttNumStart, ∃ i < s2ttesPerS2tt,
          (∀ s2 : State, s2.rtt = s'.rtt →
            (∀ j < p.rttNumStart, (s2.granule (rootTable (paramsCtx plat p) j)).state = .RTT) →
            ∀ level, p.rttLevelStart ≤ level → level ≤ s2ttPageLevel →
              s2ttWalkLockUnlock s2 (paramsCtx plat p) addr level =
                .ok ⟨rootTable (paramsCtx plat p) k, i, p.rttLevelStart⟩) ∧
          (s2tteIsUnassignedEmpty (s'.rtt (rootTable (paramsCtx plat p) k) i) = true ↔
            addr.toNat < 2 ^ (p.s2sz - 1)) ∧
          (s2tteIsUnassignedNs (s'.rtt (rootTable (paramsCtx plat p) k) i) = true ↔
            ¬ addr.toNat < 2 ^ (p.s2sz - 1)) := by
  obtain ⟨hctx, h16⟩ := ctxOk_of_valid h
  have hone : 1 ≤ p.rttNumStart := (hctx.roots 0).mp (by simp)
  refine ⟨hone, h16, fun s rd hrd => ?_⟩
  have hgeo := rootGeometry_of_valid h hrd
  obtain ⟨hloop, -⟩ := initS2StartingLevelLoop_eq hgeo s
  obtain ⟨tbl, htbl, hroot, hother⟩ :=
    startingLevel_foldl s rd rd.s2Ctx.numRootRtts (by rw [hrd]; exact h16)
  rw [htbl] at hloop
  refine ⟨{ s with rtt := tbl }, hloop, rfl, fun g hg => ?_, fun addr ha => ?_⟩
  · refine hother g fun k hk hc => hg (mem_rootTables.mpr ?_)
    rw [hrd] at hk hc
    exact ⟨k, hk, hc.symm⟩
  · have hin : addr.toNat < realmIpaSize rd := by
      rw [realmIpaSize, hrd]
      exact ha
    have hstart : -1 ≤ rd.s2Ctx.s2StartingLevel := by
      rw [hrd]
      exact hctx.start_ge
    obtain ⟨k, i, hk, hi, hidx, hslot, haddr⟩ := hgeo.split hin hstart
    have hhalf : levelLsb rd.s2Ctx.s2StartingLevel + 1 ≤ rd.s2Ctx.ipaBits := by
      rw [hrd]
      exact hctx.half
    have hentry : tbl (rootTable rd.s2Ctx k) i =
        if addr.toNat < 2 ^ (rd.s2Ctx.ipaBits - 1) then s2tteCreateUnassignedEmpty
        else s2tteCreateUnassignedNs := by
      rw [hroot k hk, startingLevelTable_selected hhalf hin hi hidx]
    rw [hrd] at hk hslot haddr hentry
    obtain ⟨hleaf, hempty, hns⟩ := startingEntry_kinds
      (addr.toNat < 2 ^ ((paramsCtx plat p).ipaBits - 1))
    rw [← hentry] at hleaf hempty hns
    refine ⟨k, hk, i, lt_of_lt_of_le hi hgeo.width,
      fun s2 hs2 hrtt level hlo hhi => ?_, hempty, hns⟩
    refine s2ttWalkLockUnlock_first hctx hrtt ha hlo hhi hk hslot haddr ?_
    rw [hs2]
    exact hleaf

theorem pa52_le_52 : 52 ≤ 52 := le_rfl

/-- The machine with FEAT_LPA2. -/
def lpa2Plat : Platform :=
  { demoPlat with lpa2 := true, s2sz := 52, s2sz_le := pa52_le_52, paWidth := 52 }

/-- A realm with 50 address bits, whose root table is at level -1. -/
def lpa2Params : RealmParams :=
  { demoParams 17 1 with lpa2 := true, s2sz := 50, rttLevelStart := -1, rttNumStart := 1 }

/-- The first address of the unprotected half is described by an unprotected entry. -/
theorem initS2StartingLevel_geometry_lpa2 : ∃ s', initS2StartingLevelLoop initState
      { (default : Rd) with s2Ctx := paramsCtx lpa2Plat lpa2Params } = .ok s' ∧
    ∃ k < 1, ∃ i < 512,
      s2tteIsUnassignedNs (s'.rtt (rootTable (paramsCtx lpa2Plat lpa2Params) k) i) = true := by
  have hvalid : realmParamsValid lpa2Plat lpa2Params = true := by decide
  obtain ⟨-, -, hfill⟩ := initS2StartingLevel_geometry hvalid
  obtain ⟨s', hs', -, -, haddr⟩ := hfill initState
    { (default : Rd) with s2Ctx := paramsCtx lpa2Plat lpa2Params } rfl
  obtain ⟨k, hk, i, hi, -, -, hns⟩ := haddr 0x2000000000000#64 (by decide)
  exact ⟨s', hs', k, hk, i, hi, hns.mpr (by decide)⟩

end RmmCaec
