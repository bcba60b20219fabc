import RmmCaec.FoldRoundTrip
import RmmCaec.HostCompletions
import RmmCaec.Skipping

/-!
# The realm's question about RIPAS

A realm asks for the RIPAS of a range. The answer covers a part of the range from its
start on: all entries of the last table of the walk that have the RIPAS of the first one,
cut off at the end of the range.
-/
namespace RmmCaec
open RadixForest Outcome Runs

def Ripas.word : Ripas → Word
  | .EMPTY => 0#64
  | .RAM => 1#64
  | .DESTROYED => 2#64

/-- The RIPAS that the scan reads from an entry, if the entry has one. -/
def scanRipas (s2tte : Word) (level : ℤ) : Rmm (Option Ripas) :=
  if !s2tteHasRipas s2tte level then .ok none
  else if s2tteIsAssignedRam s2tte level then .ok (some .RAM)
  else match s2tteGetRipas s2tte with
    | some r => .ok (some r)
    | none => .error .unknownEntry

/-- The scan over the entries of a table with `left` entries ahead. The first entry sets the
result, and the scan ends at an entry with another one. -/
def getRipasLoop (table : ℕ → Word) (level : ℤ) (start end_ : Word) :
    ℕ → ℕ → Word → Ripas → Rmm (Word × Ripas)
  | 0, _, addr, res => return (addr, res)
  | left + 1, index, addr, res => do
    match ← scanRipas (table index) level with
    | none => return (addr, res)
    | some tmp =>
      if addr ≠ start ∧ tmp ≠ res then return (addr, res)
      else
        let res := if addr = start then tmp else res
        let addr := addr + BitVec.ofNat 64 (s2tteMapSize level)
        if end_ ≤ addr then return (addr, res)
        else getRipasLoop table level start end_ left (index + 1) addr res

/-- The end of the part and its RIPAS; empty if the first entry has none. -/
def realmIpaGetRipas (s : State) (r : Rec) (start end_ : Word) : Rmm (Option (Word × Ripas)) := do
  assertThat (granuleAligned start && granuleAligned end_) .unaligned
  assertThat (addrInRecPar r start && addrInRecPar r (end_ - 1#64)) .outOfBounds
  let wi ← s2ttWalkLockUnlock s r.s2Ctx start s2ttPageLevel
  let mapSize := s2tteMapSize wi.lastLevel
  let start := BitVec.ofNat 64 (start.toNat / mapSize * mapSize)
  let (addr, res) ← getRipasLoop (s.rtt wi.gLlt) wi.lastLevel start end_
    (s2ttesPerS2tt - wi.index) wi.index start .EMPTY
  return if addr ≠ start then some (addr, res) else none

def handleRsiIpaStateGet (s : State) (r : Rec) (start end_ : Word) : Rmm RsiResult := do
  if granuleAligned start = false ∨ addrInRecPar r start = false ∨
    granuleAligned end_ = false ∨
      addrInRecPar r (end_ - 1#64) = false ∨ end_ ≤ start then
    return rsiRet .ERROR_INPUT
  else
    match ← realmIpaGetRipas s r start end_ with
    | some (top, ripas) =>
      return ⟨.SUCCESS, if end_ < top then end_ else top, ripas.word, false⟩
    | none => return rsiRet .ERROR_INPUT

/-- What a scan has found: `k` entries with the same RIPAS. -/
structure Scanned (ripas : ℕ → Option Ripas) (size left index : ℕ) (start addr : Word)
    (res : Ripas) (out : Word × Ripas) (k : ℕ) : Prop where
  le : k ≤ left
  top : out.1.toNat = addr.toNat + k * size
  same : ∀ j < k, ripas (index + j) = some out.2
  kept : addr ≠ start → out.2 = res
  stop : k = 0 → left = 0 ∨ ripas index = none ∨ addr ≠ start

section
variable {table : ℕ → Word} {level : ℤ} {start end_ : Word} {ripas : ℕ → Option Ripas}

/-- The induction is on the entries ahead; behind the first entry the result is fixed. -/
theorem getRipasLoop_sat
    (hread : ∀ j < s2ttesPerS2tt, scanRipas (table j) level = .ok (ripas j)) (left : ℕ) :
    ∀ (index : ℕ) (addr : Word) (res : Ripas), index + left ≤ s2ttesPerS2tt →
      start ≤ addr →
      addr.toNat + left * s2tteMapSize level < 2 ^ 64 →
      Sat (getRipasLoop table level start end_ left index addr res) (fun out => ∃ k,
        Scanned ripas (s2tteMapSize level) left index start addr res out k) fun _ => False := by
  have hpos := s2tteMapSize_pos level
  induction left with
  | zero =>
    intro index addr res _ _ _
    exact Sat.pure ⟨0, le_rfl, by simp, by simp, fun _ => rfl, fun _ => .inl rfl⟩
  | succ left ih =>
    intro index addr res hindex hstart hfits
    have hstep : (addr + BitVec.ofNat 64 (s2tteMapSize level)).toNat =
        addr.toNat + s2tteMapSize level := by
      rw [Nat.add_mul] at hfits
      rw [BitVec.toNat_add, BitVec.toNat_ofNat]
      omega
    unfold getRipasLoop
    rw [hread index (by omega)]
    refine Sat.ok_bind ?_
    cases hrip : ripas index with
    | none =>
        exact Sat.pure ⟨0, by omega, by simp, by simp, fun _ => rfl, fun _ => .inr (.inl hrip)⟩
    | some tmp =>
      refine Sat.ite (fun hdiff => ?_) fun hsame => ?_
      · exact Sat.pure
          ⟨0, by omega, by simp, by simp, fun _ => rfl, fun _ => .inr (.inr hdiff.1)⟩
      · -- the entry has the RIPAS that the scan goes on with
        have htmp : (if addr = start then tmp else res) = tmp := by
          by_cases haddr : addr = start
          · exact if_pos haddr
          · rw [if_neg haddr]
            by_contra hne
            exact hsame ⟨haddr, fun hc => hne hc.symm⟩
        have hkept : addr ≠ start → tmp = res := fun hne => by
          rw [if_neg hne] at htmp
          exact htmp.symm
        dsimp only
        rw [htmp]
        refine Sat.ite (fun _ => Sat.pure ⟨1, by omega, ?_, fun j hj => ?_, hkept, nofun⟩)
          fun _ => ?_
        · rw [hstep]
          omega
        · obtain rfl : j = 0 := by omega
          exact hrip
        · have hlt : start < addr + BitVec.ofNat 64 (s2tteMapSize level) := by
            rw [BitVec.le_def] at hstart
            rw [BitVec.lt_def, hstep]
            omega
          refine (ih (index + 1) _ tmp (by omega) (BitVec.le_of_lt hlt) ?_).imp ?_
          · rw [hstep]
            rw [Nat.add_mul] at hfits
            omega
          · rintro out ⟨k, hk⟩
            have hout :=
              hk.kept (fun hc => by rw [hc] at hlt; exact absurd hlt (BitVec.lt_irrefl _))
            refine ⟨k + 1, by have := hk.le; omega, ?_, fun j hj => ?_, fun hne => ?_, nofun⟩
            · rw [hk.top, hstep]
              ring
            · cases j with
              | zero => rw [hout]; exact hrip
              | succ j =>
                rw [← hk.same j (by omega)]
                congr 1
                omega
            · rw [hout, hkept hne]

end

def PageView.ripas : PageView → Option Ripas
  | .unassigned r => some r
  | .assigned r _ => some r
  | _ => none

/-- The RIPAS of an address of a realm. -/
def ripasOf (s : State) (rd ipa : Word) : Option Ripas := (translate s rd ipa).bind PageView.ripas

theorem Entry.view_ripas (ctx : S2ttContext) (level : ℤ) (off : ℕ) (e : Entry) :
    (e.view ctx level off).bind PageView.ripas = e.ripas := by
  cases e <;> rfl

/-- The scan reads the RIPAS of an entry. -/
theorem scanRipas_word {ctx : S2ttContext} {level : ℤ} {e : Entry} (he : e.Valid ctx level) :
    scanRipas (e.word ctx level) level = .ok e.ripas := by
  unfold scanRipas
  cases hhas : s2tteHasRipas (e.word ctx level) level with
  | false =>
    rw [Bool.not_false, if_pos rfl]
    rw [Bool.eq_false_iff, ne_eq, Entry.hasRipas_word he, not_or, not_exists, not_exists] at hhas
    rcases e with r | _ | ⟨r, pa⟩ | desc | pa
    · exact absurd rfl (hhas.1 r)
    · rfl
    · exact absurd ⟨pa, rfl⟩ (hhas.2 r)
    · rfl
    · rfl
  | true =>
    rw [Bool.not_true, if_neg Bool.false_ne_true]
    have hget := Entry.getRipas_word he hhas
    have hkinds := (Entry.hasRipas_word he).mp hhas
    cases hram : s2tteIsAssignedRam (e.word ctx level) level with
    | true =>
      obtain ⟨pa, rfl⟩ := (Entry.isAssignedRam_word he).mp hram
      rfl
    | false =>
      rw [if_neg Bool.false_ne_true]
      obtain ⟨r, rfl⟩ | ⟨r, pa, rfl⟩ := hkinds
      · rw [(hget r).mpr (.inl rfl)]
        rfl
      · rw [(hget r).mpr (.inr ⟨pa, rfl⟩)]
        rfl

section
variable {s : State} {F : Tables} {rd addr : Word} {wi : S2ttWalk} {n : Table}

/-- An address has the RIPAS of the leaf that it is in. -/
theorem Holds.ripasOf_leaf (h : Holds s F) {ipa t : Word} {i : ℕ}
    (hl : IsLeaf F rd ipa.toNat t n i)
    (ha : ipa.toNat < 2 ^ (s.rd rd).s2Ctx.ipaBits) : ripasOf s rd ipa = (n.slot i).ripas := by
  have hrd : (s.granule rd).state = .RD := by
    rw [← hl.owner]
    exact (h.node hl.table).2.1
  obtain ⟨v, hv, t', n', i', hl', hview⟩ := translate_spec h hrd ha
  obtain ⟨-, rfl, rfl⟩ := h.leaf_unique hl hl'
  have hrip := Entry.view_ripas (s.rd rd).s2Ctx (levelOf n.height)
    (ipa.toNat - n.slotBase rttShape i) (n.slot i)
  rw [hview] at hrip
  unfold ripasOf
  rw [hv]
  exact hrip

/-- The addresses of an entry with a RIPAS, in the table where a walk ended. -/
theorem Walked.ripasOf_entry (h : Holds s F) (hw : Walked F rd addr wi n) {j : ℕ} {ipa : Word}
    {v : Ripas} (hj : j < s2ttesPerS2tt) (hv : (n.slot j).ripas = some v)
    (hin : InRange n.base wi.lastLevel j ipa.toNat)
    (ha : ipa.toNat < 2 ^ (s.rd rd).s2Ctx.ipaBits) : ripasOf s rd ipa = some v := by
  have hspan := rttShape_span n.height
  rw [← hv]
  refine h.ripasOf_leaf ⟨hw.table, hw.owner, hj, ?_, ?_⟩ ha
  · unfold InRange at hin
    rw [hw.level, Nat.add_mul, Nat.one_mul] at hin
    unfold Node.SlotCovers Node.slotBase
    rw [hspan]
    omega
  · cases he : n.slot j with
    | table pa =>
      rw [he] at hv
      cases hv
    | _ => rfl

end

/-- The range of a query is legal. -/
structure QueryOk (r : Rec) (start end_ : Word) : Prop where
  start_aligned : granuleAligned start = true
  end_aligned : granuleAligned end_ = true
  lt : start < end_
  le : end_.toNat ≤ recParSize r

/-- A true answer for a range, or none because the start has no RIPAS. -/
def TrueAnswer (s : State) (rd start end_ : Word) (res : RsiResult) : Prop :=
  (res.status = .SUCCESS ∧ start < res.x1 ∧ res.x1 ≤ end_ ∧
    ∃ v : Ripas, res.x2 = v.word ∧ ∀ ipa, start ≤ ipa → ipa < res.x1 →
      ripasOf s rd ipa = some v) ∨
  (res.status = .ERROR_INPUT ∧ ripasOf s rd start = none)

theorem queryOk_iff (r : Rec) (start end_ : Word) : QueryOk r start end_ ↔
    ¬ (granuleAligned start = false ∨ addrInRecPar r start = false ∨
      granuleAligned end_ = false ∨
      addrInRecPar r (end_ - 1#64) = false ∨ end_ ≤ start) := by
  simp only [not_or, Bool.not_eq_false, addrInRecPar, decide_eq_true_eq, BitVec.not_le]
  have hsub : start < end_ → (end_ - 1#64).toNat = end_.toNat - 1 := by
    intro hlt
    rw [BitVec.lt_def] at hlt
    rw [BitVec.toNat_sub_of_le]
    · rfl
    · rw [BitVec.le_def, BitVec.toNat_ofNat]
      omega
  constructor
  · rintro ⟨h1, h2, h3, h4⟩
    have hlt := h3
    rw [BitVec.lt_def] at hlt
    refine ⟨h1, by omega, h2, ?_, h3⟩
    rw [hsub h3]
    omega
  · rintro ⟨h1, -, h2, h4, h3⟩
    have hlt := h3
    rw [BitVec.lt_def] at hlt
    rw [hsub h3] at h4
    exact ⟨h1, h2, h3, by omega⟩

section
variable {s : State} {F : Tables} {r : Rec} {start end_ : Word}

/-- The part found by a scan has the RIPAS that it returns, and the scan finds something
unless the start has none. -/
theorem realmIpaGetRipas_sat (h : Holds s F) (hrd : (s.granule r.gRd).state = .RD)
    (hctx : r.s2Ctx = (s.rd r.gRd).s2Ctx) (hq : QueryOk r start end_) :
    Sat (realmIpaGetRipas s r start end_) (fun out => match out with
      | some (top, v) => start < top ∧
        ∀ ipa, start ≤ ipa → ipa < top → ipa < end_ → ripasOf s r.gRd ipa = some v
      | none => ripasOf s r.gRd start = none) fun _ => False := by
  obtain ⟨halign, hendalign, hlt, hle⟩ := hq
  have hpar : ¬ (addrInRecPar r start = false ∨ addrInRecPar r (end_ - 1#64) = false) := by
    have hok := (queryOk_iff r start end_).mp ⟨halign, hendalign, hlt, hle⟩
    exact fun hc => hok (by tauto)
  rw [not_or, Bool.not_eq_false, Bool.not_eq_false] at hpar
  have hin : end_.toNat ≤ 2 ^ (s.rd r.gRd).s2Ctx.ipaBits := by
    unfold recParSize at hle
    rw [hctx] at hle
    exact hle.trans (Nat.div_le_self _ _)
  have hlt' := hlt
  rw [BitVec.lt_def] at hlt'
  have hstart : start.toNat < 2 ^ (s.rd r.gRd).s2Ctx.ipaBits := by omega
  unfold realmIpaGetRipas
  refine assertThat_sat (fun hc => ?_) fun _ => assertThat_sat (fun hc => ?_) fun _ => ?_
  · simp [halign, hendalign] at hc
  · simp [hpar.1, hpar.2] at hc
  rw [hctx]
  have hsl := le_trans (h.ctx _ hrd).start_le (show (2 : ℤ) ≤ s2ttPageLevel by decide)
  refine Sat.bind (h.walk_ok hrd hsl le_rfl hstart) ?_
  rintro wi ⟨n, hw, -, hstop⟩
  have hentry := hw.inEntry h hstart
  have hindex := hentry.index
  have hfits := hentry.fits
  have hlower := hentry.lower
  have hupper := hentry.upper
  have hleaf := h.walked_isLeaf hw hstop
  have hread : ∀ j < s2ttesPerS2tt,
      scanRipas (s.rtt wi.gLlt j) wi.lastLevel = .ok (n.slot j).ripas := by
    intro j hj
    obtain ⟨hv, heq⟩ := h.word _ n hw.table j hj
    rw [heq, hw.level]
    exact scanRipas_word hv
  -- the scan starts at the start of the entry
  set down : Word := BitVec.ofNat 64
    (start.toNat / s2tteMapSize wi.lastLevel * s2tteMapSize wi.lastLevel) with hdown
  have hmul : wi.index * s2tteMapSize wi.lastLevel + (s2ttesPerS2tt - wi.index) *
      s2tteMapSize wi.lastLevel = s2ttesPerS2tt * s2tteMapSize wi.lastLevel := by
    rw [← Nat.add_mul, Nat.add_sub_cancel' hindex.le]
  have hdownNat : down.toNat = n.base + wi.index * s2tteMapSize wi.lastLevel := by
    rw [hdown, BitVec.toNat_ofNat, hentry.alignDown]
    exact Nat.mod_eq_of_lt (by omega)
  refine Sat.bind (getRipasLoop_sat hread (s2ttesPerS2tt - wi.index) wi.index down .EMPTY
    (by omega) (BitVec.le_refl _) (by omega)) ?_
  rintro ⟨top, v⟩ ⟨k, hk⟩
  have htop := hk.top
  dsimp only at htop ⊢
  refine Sat.pure ?_
  by_cases hzero : k = 0
  · -- the first entry has no RIPAS
    have htopeq : top = down := by
      apply BitVec.eq_of_toNat_eq
      rw [htop, hzero]
      omega
    rw [if_neg (not_not.mpr htopeq)]
    obtain hc | hnone | hc := hk.stop hzero
    · omega
    · rw [← hnone]
      exact h.ripasOf_leaf hleaf hstart
    · exact absurd rfl hc
  · have hsize : s2tteMapSize wi.lastLevel ≤ k * s2tteMapSize wi.lastLevel :=
      Nat.le_mul_of_pos_left _ (Nat.pos_of_ne_zero hzero)
    rw [Nat.add_mul, Nat.one_mul] at hupper
    have hne : top ≠ down := by
      rintro rfl
      have := s2tteMapSize_pos wi.lastLevel
      omega
    rw [if_pos hne]
    refine ⟨by rw [BitVec.lt_def]; omega, fun ipa h1 h2 h3 => ?_⟩
    rw [BitVec.le_def] at h1
    rw [BitVec.lt_def] at h2 h3
    -- the entry that the address is in is one of those scanned
    obtain ⟨j, hj⟩ : ∃ j, j = (ipa.toNat - down.toNat) / s2tteMapSize
        wi.lastLevel := ⟨_, rfl⟩
    have hpos := s2tteMapSize_pos wi.lastLevel
    have hjlow : j * s2tteMapSize wi.lastLevel ≤ ipa.toNat - down.toNat := by
      rw [hj]
      exact Nat.div_mul_le_self _ _
    have hjhigh : ipa.toNat - down.toNat < (j + 1) * s2tteMapSize wi.lastLevel := by
      rw [hj, Nat.add_mul, Nat.one_mul]
      exact Nat.lt_div_mul_add hpos
    have hjk : j < k := by
      rw [hj]
      exact (Nat.div_lt_iff_lt_mul hpos).mpr (by omega)
    have hkle := hk.le
    refine hw.ripasOf_entry h (j := wi.index + j) (by omega) (hk.same j hjk) ⟨?_, ?_⟩ (by omega)
    · rw [Nat.add_mul]
      omega
    · rw [Nat.add_assoc, Nat.add_mul]
      omega

/-- Legal ranges get a true answer, all others an error. -/
theorem handleRsiIpaStateGet_sat (h : Holds s F) (hrd : (s.granule r.gRd).state = .RD)
    (hctx : r.s2Ctx = (s.rd r.gRd).s2Ctx) :
    Sat (handleRsiIpaStateGet s r start end_) (fun res =>
      (QueryOk r start end_ → TrueAnswer s r.gRd start end_ res) ∧
      (¬ QueryOk r start end_ → res = rsiRet .ERROR_INPUT)) fun _ => False := by
  unfold handleRsiIpaStateGet
  refine Sat.ite (fun hbad => Sat.pure ?_) fun hgood => ?_
  · exact ⟨fun hq => absurd hbad ((queryOk_iff r start end_).mp hq), fun _ => rfl⟩
  · have hq := (queryOk_iff r start end_).mpr hgood
    refine Sat.bind (realmIpaGetRipas_sat h hrd hctx hq) ?_
    rintro (_ | ⟨top, v⟩) hout
    · exact Sat.pure ⟨fun _ => .inr ⟨rfl, hout⟩, fun hc => absurd hq hc⟩
    · obtain ⟨hlt, hsame⟩ := hout
      refine Sat.pure ⟨fun _ => .inl ⟨rfl, ?_⟩, fun hc => absurd hq hc⟩
      have hstart := hq.lt
      dsimp only
      split
      · next hclip =>
        refine ⟨hstart, BitVec.le_refl _, v, rfl, fun ipa h1 h2 => hsame ipa h1 ?_ h2⟩
        rw [BitVec.lt_def] at h2 hclip ⊢
        omega
      · next hclip =>
        rw [BitVec.not_lt] at hclip
        refine ⟨hlt, hclip, v, rfl, fun ipa h1 h2 => hsame ipa h1 h2 ?_⟩
        rw [BitVec.lt_def] at h2 ⊢
        rw [BitVec.le_def] at hclip
        omega

end

/-- Whatever the host and the realms have done, a realm that asks for a legal range gets a
true answer, from a table with any neighbours and also for a start inside a block. -/
theorem rsi_ipa_state_get_truth {ι : Type} [DecidableEq ι] {plat : Platform} {m : RunSmp ι}
    (hm : RunReachable plat m) {g : Word} (hg : (m.smp.mem.granule g).state = .REC)
    (start end_ : Word) :
    ∃ res, handleRsiIpaStateGet m.smp.mem (m.smp.mem.recs g) start end_ = .ok res ∧
      (QueryOk (m.smp.mem.recs g) start end_ →
        TrueAnswer m.smp.mem (m.smp.mem.recs g).gRd start end_ res) ∧
      (¬ QueryOk (m.smp.mem.recs g) start end_ → res = rsiRet .ERROR_INPUT) := by
  have h := (RunInv.reach hm).psci
  obtain ⟨F, hF⟩ := h.smp.wf
  have hsat := @handleRsiIpaStateGet_sat _ _ _ start end_ hF.holds (hF.recRd g hg) (h.ctx g hg)
  cases hres : handleRsiIpaStateGet m.smp.mem (m.smp.mem.recs g) start end_ with
  | ok res => exact ⟨res, rfl, hsat.of_ok hres⟩
  | error f => exact (hsat.of_error hres).elim

/-- The first entries of the realm are blocks; the answer goes to the end of the range. -/
theorem rsi_ipa_state_get_truth_block : ∃ (m : RunSmp ℕ) (res : RsiResult),
    RunReachable demoPlat m ∧
    handleRsiIpaStateGet m.smp.mem (m.smp.mem.recs (gr 22)) 0x1000#64 0x600000#64 = .ok res ∧
    res = ⟨.SUCCESS, 0x600000#64, 0#64, false⟩ ∧
    QueryOk (m.smp.mem.recs (gr 22)) 0x1000#64 0x600000#64 ∧
    TrueAnswer m.smp.mem (m.smp.mem.recs (gr 22)).gRd 0x1000#64 0x600000#64 res := by
  have hrun : ((runReplay runKeys demoPlat initRun runOneRec).any fun m =>
      decide ((m.smp.mem.granule (gr 22)).state = .REC ∧
        0x600000 ≤ recParSize (m.smp.mem.recs (gr 22))) &&
      match handleRsiIpaStateGet m.smp.mem (m.smp.mem.recs (gr 22)) 0x1000#64 0x600000#64 with
      | .ok res => decide (res = ⟨.SUCCESS, 0x600000#64, 0#64, false⟩)
      | .error _ => false) = true := by decide +kernel
  obtain ⟨m, hm, ht⟩ := (Option.any_eq_true _ _).mp hrun
  rw [Bool.and_eq_true, decide_eq_true_eq] at ht
  obtain ⟨⟨hrec, hpar⟩, ht⟩ := ht
  have hreach := runReplay_reachable _ .init hm
  have hq : QueryOk (m.smp.mem.recs (gr 22)) 0x1000#64 0x600000#64 :=
    ⟨by decide, by decide, by decide, hpar⟩
  obtain ⟨res, hres, hanswer, -⟩ := rsi_ipa_state_get_truth hreach hrec 0x1000#64 0x600000#64
  rw [hres] at ht
  exact ⟨m, res, hreach, hres, of_decide_eq_true ht, hq, hanswer hq⟩

end RmmCaec
