import RmmCaec.Walk
import RmmCaec.EntryKind
import RmmCaec.RadixForest
import RmmCaec.Outcome

/-!
# Stage 2 tables as a radix forest

The tables of all realms form one forest: its owners are the RD granules, its
nodes are the RTT granules, and the words of a table are the words of abstract
entries. Under this relation the monitor's walk never fails on a lock, and both
it and the hardware's walk end at the one leaf that covers the address.
-/
namespace RmmCaec

open RadixForest Outcome

/-- What follows an assertion may rely on it. -/
theorem assertThat_sat {α : Type} {b : Bool} {f : Fault} {k : Unit → Rmm α} {Q : α → Prop}
    {E : Fault → Prop} (hf : b = false → E f) (ht : b = true → Sat (k ()) Q E) :
    Sat (assertThat b f >>= k) Q E := by
  cases b with
  | true => exact ht rfl
  | false => exact Sat.error_bind (hf rfl)

theorem granuleLock_ok {s : State} {addr : Word} {expected : GranuleState}
    (h : (s.granule addr).state = expected) : granuleLock s addr expected = .ok () := by
  simp [granuleLock, assertThat, h]

/-- 512 entries for each table, pages of 4 KiB. -/
def rttShape : Shape := ⟨512, 4096, by decide, by decide⟩

/-- The level of a table whose entries have height `h`. -/
def levelOf (h : ℕ) : ℤ := 3 - h

theorem rttShape_fan : rttShape.fan = 512 := rfl

theorem levelLsb_levelOf (h : ℕ) : levelLsb (levelOf h) = h * 9 + 12 := by
  simp [levelLsb, levelOf]

theorem rttShape_span (h : ℕ) : rttShape.span h = s2tteMapSize (levelOf h) := by
  have h1 : h * 9 + 12 = 12 + 9 * h := by ring
  rw [s2tteMapSize, levelLsb_levelOf, h1, pow_add, pow_mul]
  rfl

theorem rttShape_span_pow (h : ℕ) : rttShape.span h = 2 ^ (h * 9 + 12) := by
  rw [rttShape_span, s2tteMapSize, levelLsb_levelOf]

theorem rttShape_span_zero : rttShape.span 0 = 4096 := rfl

/-- A table descriptor links to the table it points at. -/
def Entry.link : Entry → Option Word
  | .table pa => some pa
  | _ => none

@[simp] theorem Entry.link_eq_some {e : Entry} {k : Word} : e.link = some k ↔ e = .table k := by
  cases e <;> simp [Entry.link]

theorem Entry.link_eq_none {e : Entry} : e.link = none ↔ ∀ pa, e ≠ .table pa := by
  cases e <;> simp [Entry.link]

abbrev Table := Node Word Entry
abbrev Tables := Forest Word Word Entry

/-- The address space of a realm. -/
def plotOf (s : State) (rd : Word) : Option (Plot Word) :=
  if (s.granule rd).state = .RD then
    some ⟨(3 - (s.rd rd).s2Ctx.s2StartingLevel).toNat, 2 ^ (s.rd rd).s2Ctx.ipaBits,
      rootTable (s.rd rd).s2Ctx⟩
  else none

/-- The geometry that `smc_realm_create` accepts. -/
structure CtxOk (ctx : S2ttContext) : Prop where
  start_ge : -1 ≤ ctx.s2StartingLevel
  start_le : ctx.s2StartingLevel ≤ 2
  bits_le : ctx.ipaBits ≤ s2tteOaBits ctx.enableLpa2
  half : levelLsb ctx.s2StartingLevel + 1 ≤ ctx.ipaBits
  roots : ∀ j, j * 2 ^ (levelLsb ctx.s2StartingLevel + 9) < 2 ^ ctx.ipaBits ↔
    j < ctx.numRootRtts

/-- The forest describes the tables of the state. -/
structure Holds (s : State) (F : Tables) : Prop where
  rtt_iff : ∀ g, (s.granule g).state = .RTT ↔ ∃ n, F g = some n
  ok : Ok rttShape Entry.link F (plotOf s)
  ctx : ∀ rd, (s.granule rd).state = .RD → CtxOk (s.rd rd).s2Ctx
  word : ∀ t n, F t = some n → ∀ i < 512,
    (n.slot i).Valid (s.rd n.owner).s2Ctx (levelOf n.height) ∧
      s.rtt t i = (n.slot i).word (s.rd n.owner).s2Ctx (levelOf n.height)

theorem plotOf_eq_some {s : State} {rd : Word} {p : Plot Word} (h : plotOf s rd = some p) :
    (s.granule rd).state = .RD ∧
      p = ⟨(3 - (s.rd rd).s2Ctx.s2StartingLevel).toNat, 2 ^ (s.rd rd).s2Ctx.ipaBits,
        rootTable (s.rd rd).s2Ctx⟩ := by
  unfold plotOf at h
  split at h
  · exact ⟨‹_›, (Option.some.inj h).symm⟩
  · cases h

theorem plotOf_of_rd {s : State} {rd : Word} (h : (s.granule rd).state = .RD) :
    plotOf s rd = some ⟨(3 - (s.rd rd).s2Ctx.s2StartingLevel).toNat,
      2 ^ (s.rd rd).s2Ctx.ipaBits, rootTable (s.rd rd).s2Ctx⟩ := by
  rw [plotOf, if_pos h]

theorem CtxOk.levelOf_top {ctx : S2ttContext} (h : CtxOk ctx) :
    levelOf (3 - ctx.s2StartingLevel).toNat = ctx.s2StartingLevel := by
  have h1 := h.start_le
  unfold levelOf
  omega

theorem CtxOk.bits_le_52 {ctx : S2ttContext} (h : CtxOk ctx) : ctx.ipaBits ≤ 52 := by
  have h1 := h.bits_le
  unfold s2tteOaBits at h1
  split at h1 <;> omega

theorem span_top (ctx : S2ttContext) :
    rttShape.span ((3 - ctx.s2StartingLevel).toNat + 1) =
      2 ^ (levelLsb ctx.s2StartingLevel + 9) := by
  rw [rttShape_span_pow, levelLsb]
  congr 1
  ring

/-- Where a walk ends: in a table that covers the address, at its slot. -/
structure Walked (F : Tables) (rd : Word) (addr : Word) (wi : S2ttWalk) (n : Table) :
    Prop where
  table : F wi.gLlt = some n
  owner : n.owner = rd
  level : wi.lastLevel = levelOf n.height
  covers : n.Covers rttShape addr.toNat
  index : wi.index = n.slotOf rttShape addr.toNat

/-- The leaf that ends the translation of an address. -/
structure IsLeaf (F : Tables) (rd : Word) (a : ℕ) (t : Word) (n : Table) (i : ℕ) : Prop where
  table : F t = some n
  owner : n.owner = rd
  index : i < 512
  covers : n.SlotCovers rttShape i a
  leaf : (n.slot i).link = none

namespace Holds

variable {s : State} {F : Tables}

/-- What the forest says about one table. -/
theorem node (h : Holds s F) {t : Word} {n : Table} (ht : F t = some n) :
    (s.granule t).state = .RTT ∧ (s.granule n.owner).state = .RD ∧
      CtxOk (s.rd n.owner).s2Ctx ∧ (s.rd n.owner).s2Ctx.s2StartingLevel ≤ levelOf n.height ∧
      rttShape.span (n.height + 1) ∣ n.base ∧ n.base < 2 ^ (s.rd n.owner).s2Ctx.ipaBits := by
  obtain ⟨p, hp, htop, hdvd, hsz⟩ := h.ok.node ht
  obtain ⟨hrd, rfl⟩ := plotOf_eq_some hp
  have hc := h.ctx _ hrd
  have h1 := hc.start_le
  refine ⟨(h.rtt_iff t).mpr ⟨n, ht⟩, hrd, hc, ?_, hdvd, hsz⟩
  unfold levelOf
  simp only at htop
  omega

theorem height_le (h : Holds s F) {t : Word} {n : Table} (ht : F t = some n) : n.height ≤ 4 := by
  obtain ⟨_, _, hc, hl, _, _⟩ := h.node ht
  have h1 := hc.start_ge
  unfold levelOf at hl
  omega

/-- The entries of a last level table are leaves. -/
theorem link_page (h : Holds s F) {t : Word} {n : Table} (ht : F t = some n) (h0 : n.height = 0)
    {i : ℕ} (hi : i < 512) : (n.slot i).link = none := by
  rw [Entry.link_eq_none]
  intro pa he
  have hv := (h.word t n ht i hi).1
  rw [he, h0] at hv
  exact absurd hv.1 (by decide)

/-- The index arithmetic of the walk finds the slot of the address. -/
theorem s2AddrToIdx_eq (h : Holds s F) {t : Word} {n : Table} {addr : Word} (ht : F t = some n)
    (hc : n.Covers rttShape addr.toNat)
    (ha : addr.toNat < 2 ^ (s.rd n.owner).s2Ctx.ipaBits) :
    s2AddrToIdx addr (levelOf n.height) = n.slotOf rttShape addr.toNat := by
  obtain ⟨_, _, hctx, hl, ⟨q, hq⟩, hsz⟩ := h.node ht
  have hlt := hc.slotOf_lt
  have hle := hc.1
  have h52 : 2 ^ (s.rd n.owner).s2Ctx.ipaBits ≤ 2 ^ 52 :=
    Nat.pow_le_pow_right (by omega) hctx.bits_le_52
  have hspan : 2 ^ levelLsb (levelOf n.height) = rttShape.span n.height := by
    rw [rttShape_span, s2tteMapSize]
  rw [rttShape.span_succ, rttShape_fan] at hq
  unfold s2AddrToIdx Node.slotOf
  rw [hspan]
  by_cases hm : levelOf n.height < s2ttMinStartingLevel
  · -- only the single root table at level -1 is indexed by four bits
    have h4 : n.height = 4 := by
      have := h.height_le ht
      unfold levelOf s2ttMinStartingLevel at hm
      omega
    have hs4 : rttShape.span 4 = 2 ^ 48 := by decide
    rw [if_pos hm, h4, hs4]
    rw [h4, hs4] at hq
    have hq0 : q = 0 := by
      by_contra hne
      have : 1 ≤ q := Nat.one_le_iff_ne_zero.mpr hne
      have : 512 * 2 ^ 48 * 1 ≤ 512 * 2 ^ 48 * q := Nat.mul_le_mul_left _ this
      omega
    rw [hq0, Nat.mul_zero] at hq
    rw [hq, Nat.sub_zero]
    apply Nat.mod_eq_of_lt
    apply Nat.div_lt_of_lt_mul
    unfold s2ttesPerS2ttLm1
    omega
  · rw [if_neg hm]
    have hpos := rttShape.span_pos n.height
    have hsplit : addr.toNat = (addr.toNat - n.base) + rttShape.span n.height * (512 * q) := by
      have : rttShape.span n.height * (512 * q) = n.base := by rw [hq]; ring
      omega
    have hdiv : addr.toNat / rttShape.span n.height =
        (addr.toNat - n.base) / rttShape.span n.height + 512 * q := by
      conv_lhs => rw [hsplit]
      rw [Nat.add_mul_div_left _ _ hpos]
    rw [hdiv]
    unfold s2ttesPerS2tt
    rw [Nat.add_mul_mod_self_left]
    exact Nat.mod_eq_of_lt hlt

/-- Reading a table descriptor in a table above the last level. -/
theorem entryIsTable_iff (h : Holds s F) {t : Word} {n : Table} {i : ℕ} (ht : F t = some n)
    (hi : i < 512) (hh : 0 < n.height) (pa : Word) :
    (entryIsTable (s.rtt t i) = true ∧
        s2tteToPa (s.rtt t i) s2ttPageLevel (s.rd n.owner).s2Ctx.enableLpa2 = pa) ↔
      n.slot i = .table pa := by
  obtain ⟨hv, hw⟩ := h.word t n ht i hi
  have hl : levelOf n.height < 3 := by
    unfold levelOf
    omega
  rw [hw, Entry.entryIsTable_word hv hl]
  constructor
  · rintro ⟨⟨pa', he⟩, hpa⟩
    have hpa' := @Entry.s2ttePa_table (s.rd n.owner).s2Ctx (levelOf n.height) pa' (he ▸ hv)
    rw [s2ttePa, if_pos ((Entry.isTable_word (he ▸ hv)).mpr ⟨pa', rfl⟩)] at hpa'
    rw [he, hpa'] at hpa
    rw [he, hpa]
  · intro he
    have hpa' := @Entry.s2ttePa_table (s.rd n.owner).s2Ctx (levelOf n.height) pa (he ▸ hv)
    rw [s2ttePa, if_pos ((Entry.isTable_word (he ▸ hv)).mpr ⟨pa, rfl⟩)] at hpa'
    exact ⟨⟨pa, he⟩, by rw [he, hpa']⟩

/-- The hardware walk from a table that covers the address: it stops when its
fuel is spent or at a leaf, and the monitor's walk from there takes no failing
lock. -/
theorem translateFrom_spec (h : Holds s F) {addr : Word} (fuel : ℕ) {t : Word} {n : Table}
    (ht : F t = some n) (hc : n.Covers rttShape addr.toNat)
    (ha : addr.toNat < 2 ^ (s.rd n.owner).s2Ctx.ipaBits) (hf : fuel ≤ n.height) :
    walkFrom s (s.rd n.owner).s2Ctx addr fuel t (levelOf n.height) =
        .ok (translateFrom s.rtt (s.rd n.owner).s2Ctx addr fuel t (levelOf n.height)) ∧
      ∃ m, Walked F n.owner addr
          (translateFrom s.rtt (s.rd n.owner).s2Ctx addr fuel t (levelOf n.height)) m ∧
        n.height ≤ m.height + fuel ∧ m.height ≤ n.height ∧
        ((m.slot (m.slotOf rttShape addr.toNat)).link = none ∨ n.height = m.height + fuel) := by
  induction fuel generalizing t n with
  | zero =>
    refine ⟨rfl, n, ⟨ht, rfl, rfl, hc, ?_⟩, le_rfl, le_rfl, .inr rfl⟩
    exact h.s2AddrToIdx_eq ht hc ha
  | succ fuel ih =>
    have hidx := h.s2AddrToIdx_eq ht hc ha
    have hlt := hc.slotOf_lt
    by_cases htab : ∃ pa, n.slot (n.slotOf rttShape addr.toNat) = .table pa
    · obtain ⟨pa, hpa⟩ := htab
      obtain ⟨he, hpa'⟩ := (h.entryIsTable_iff ht hlt (by omega) pa).mpr hpa
      obtain ⟨m, hm, hmo, hmh, hmb⟩ := h.ok.child ht hlt (Entry.link_eq_some.mpr hpa)
      have hmc : m.Covers rttShape addr.toNat := by
        obtain ⟨h1, h2⟩ := hc.slotCovers
        rw [← hmb] at h1 h2
        rw [← hmh] at h2
        exact ⟨h1, h2⟩
      have hlock := granuleLock_ok (h.node hm).1
      have hlevel : levelOf n.height + 1 = levelOf m.height := by
        unfold levelOf
        omega
      obtain ⟨hw, m', hm', hlo, hhi, hstop⟩ := ih hm hmc (by rwa [hmo]) (by omega)
      rw [hmo] at hw hm'
      rw [walkFrom, translateFrom, hidx]
      simp only [he, if_true, hpa', hlock, hlevel]
      refine ⟨hw, m', hm', by omega, by omega, ?_⟩
      exact hstop.imp id (by omega)
    · have he : entryIsTable (s.rtt t (n.slotOf rttShape addr.toNat)) = false := by
        rw [Bool.eq_false_iff]
        intro he
        exact htab ⟨_, (h.entryIsTable_iff ht hlt (by omega) _).mp ⟨he, rfl⟩⟩
      rw [walkFrom, translateFrom, hidx]
      simp only [he, Bool.false_eq_true, if_false]
      refine ⟨trivial, n, ⟨ht, rfl, rfl, hc, rfl⟩, by omega, le_rfl, .inl ?_⟩
      rw [Entry.link_eq_none]
      exact fun pa hpa => htab ⟨pa, hpa⟩

/-- The root table of an address. -/
theorem walkRoot_spec (h : Holds s F) {rd addr : Word} (hrd : (s.granule rd).state = .RD)
    (ha : addr.toNat < 2 ^ (s.rd rd).s2Ctx.ipaBits) :
    ∃ n, F (walkRoot (s.rd rd).s2Ctx addr) = some n ∧ n.owner = rd ∧
      levelOf n.height = (s.rd rd).s2Ctx.s2StartingLevel ∧ n.Covers rttShape addr.toNat := by
  have hctx := h.ctx rd hrd
  have hplot := plotOf_of_rd hrd
  set ctx := (s.rd rd).s2Ctx with hctxdef
  set k := addr.toNat / 2 ^ (levelLsb ctx.s2StartingLevel + 9) with hk
  have hdm := Nat.div_add_mod addr.toNat (2 ^ (levelLsb ctx.s2StartingLevel + 9))
  have hmod := Nat.mod_lt addr.toNat (Nat.two_pow_pos (levelLsb ctx.s2StartingLevel + 9))
  rw [← hk, Nat.mul_comm] at hdm
  have hsl : s2SlAddrToIdx addr ctx.s2StartingLevel ctx.ipaBits / s2ttesPerS2tt = k := by
    rw [s2SlAddrToIdx, Nat.mod_eq_of_lt ha, Nat.div_div_eq_div_mul, hk, pow_add]
    rfl
  have hroot : walkRoot ctx addr = rootTable ctx k := by
    unfold walkRoot
    by_cases hbig : s2ttesPerS2tt ≤ s2SlAddrToIdx addr ctx.s2StartingLevel ctx.ipaBits
    · rw [if_pos hbig, hsl]
    · have hk0 : k = 0 := by
        rw [← hsl]
        exact Nat.div_eq_of_lt (by omega)
      rw [if_neg hbig]
      simp [rootTable, hk0]
  have hin : k * rttShape.span ((3 - ctx.s2StartingLevel).toNat + 1) < 2 ^ ctx.ipaBits := by
    rw [span_top]
    omega
  obtain ⟨n, hn, ho, hh, hb⟩ := h.ok.root hplot hin
  refine ⟨n, by rw [hroot]; exact hn, ho, ?_, ?_, ?_⟩
  · rw [hh]
    exact hctx.levelOf_top
  · rw [hb, span_top]
    omega
  · rw [hb, hh, span_top]
    omega

theorem gRtt_isRtt (h : Holds s F) {rd : Word} (hrd : (s.granule rd).state = .RD) :
    (s.granule (s.rd rd).s2Ctx.gRtt).state = .RTT := by
  obtain ⟨n, hn, _⟩ := h.ok.root (j := 0) (plotOf_of_rd hrd) (by simp)
  have : rootTable (s.rd rd).s2Ctx 0 = (s.rd rd).s2Ctx.gRtt := by simp [rootTable]
  simp only [this] at hn
  exact (h.node hn).1

/-- The monitor's walk. -/
theorem walk_sat (h : Holds s F) {rd addr : Word} (hrd : (s.granule rd).state = .RD) (level : ℤ)
    {E : Fault → Prop} (hE : E .walkArgs) :
    Sat (s2ttWalkLockUnlock s (s.rd rd).s2Ctx addr level)
      (fun wi => ∃ n, Walked F rd addr wi n ∧ addr.toNat < 2 ^ (s.rd rd).s2Ctx.ipaBits ∧
        wi.lastLevel ≤ level ∧ level ≤ 3 ∧
        ((n.slot wi.index).link = none ∨ wi.lastLevel = level)) E := by
  unfold s2ttWalkLockUnlock
  rw [granuleLock_ok (h.gRtt_isRtt hrd)]
  refine Sat.ok_bind (assertThat_sat (fun _ => hE) fun hargs => ?_)
  simp only [Bool.and_eq_true, decide_eq_true_eq] at hargs
  obtain ⟨⟨⟨hstart, hlevel⟩, ha⟩, _⟩ := hargs
  refine assertThat_sat (fun _ => hE) fun _ => ?_
  obtain ⟨n, hn, ho, hl, hc⟩ := h.walkRoot_spec hrd ha
  rw [granuleLock_ok (h.node hn).1]
  have hfuel : (level - (s.rd rd).s2Ctx.s2StartingLevel).toNat ≤ n.height := by
    rw [← hl]
    unfold levelOf
    unfold s2ttPageLevel at hlevel
    omega
  subst ho
  obtain ⟨hw, m, hm, hlo, hhi, hstop⟩ := h.translateFrom_spec _ hn hc ha hfuel
  rw [hl] at hw hm
  rw [hw]
  rw [← hl] at hlo hstart hstop
  refine Sat.ok_bind (Sat.ok ⟨m, hm, ha, ?_, hlevel, ?_⟩)
  · rw [hm.level]
    unfold levelOf at *
    omega
  · rw [hm.index]
    refine hstop.imp id fun hh => ?_
    rw [hm.level]
    unfold levelOf at *
    omega

theorem leaf_unique (h : Holds s F) {rd t t' : Word} {a i i' : ℕ} {n n' : Table}
    (hl : IsLeaf F rd a t n i) (hl' : IsLeaf F rd a t' n' i') : t = t' ∧ n = n' ∧ i = i' := by
  obtain ⟨ht, hi⟩ := h.ok.leaf_unique hl.table hl'.table
    (hl.owner.trans hl'.owner.symm) hl.index
    hl'.index hl.covers hl'.covers hl.leaf hl'.leaf
  subst ht
  have hn := hl.table
  rw [hl'.table] at hn
  exact ⟨rfl, (Option.some.inj hn).symm, hi⟩

theorem leafOf_spec (h : Holds s F) {rd addr : Word} (hrd : (s.granule rd).state = .RD)
    (ha : addr.toNat < 2 ^ (s.rd rd).s2Ctx.ipaBits) :
    ∃ t n i, IsLeaf F rd addr.toNat t n i ∧
      leafOf s.rtt (s.rd rd).s2Ctx addr =
        ((n.slot i).word (s.rd rd).s2Ctx (levelOf n.height), levelOf n.height) := by
  have hctx := h.ctx rd hrd
  obtain ⟨n, hn, ho, hl, hc⟩ := h.walkRoot_spec hrd ha
  subst ho
  have hfuel : (s2ttPageLevel - (s.rd n.owner).s2Ctx.s2StartingLevel).toNat = n.height := by
    rw [← hl]
    unfold levelOf s2ttPageLevel
    omega
  obtain ⟨_, m, hm, hlo, hhi, hstop⟩ := h.translateFrom_spec _ hn hc ha hfuel.le
  rw [hl] at hm
  have hlt := hm.covers.slotOf_lt
  have hleaf : (m.slot (m.slotOf rttShape addr.toNat)).link = none := by
    rcases hstop with hstop | hstop
    · exact hstop
    · exact h.link_page hm.table (by omega) hlt
  refine ⟨_, m, _, ⟨hm.table, hm.owner, hlt, hm.covers.slotCovers, hleaf⟩, ?_⟩
  obtain ⟨_, hw⟩ := h.word _ m hm.table _ hlt
  rw [hm.owner] at hw
  unfold leafOf
  simp only [hm.level, hm.index, hw]

/-- A walk to the last level ends at a leaf. -/
theorem walked_isLeaf (h : Holds s F) {rd addr : Word} {wi : S2ttWalk} {n : Table}
    (hw : Walked F rd addr wi n) (hstop : (n.slot wi.index).link = none ∨ wi.lastLevel = 3) :
    IsLeaf F rd addr.toNat wi.gLlt n wi.index := by
  have hlt : wi.index < 512 := by
    rw [hw.index]
    exact hw.covers.slotOf_lt
  refine ⟨hw.table, hw.owner, hlt, ?_, ?_⟩
  · rw [hw.index]
    exact hw.covers.slotCovers
  · rcases hstop with hstop | hstop
    · exact hstop
    · refine h.link_page hw.table ?_ hlt
      rw [hw.level] at hstop
      unfold levelOf at hstop
      omega

end Holds

end RmmCaec
