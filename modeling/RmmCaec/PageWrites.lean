import RmmCaec.Touched

/-!
# The pages that a call maps

A mapping of a protected page comes from one of three places: the host creates the
page, the creation is mirrored into the sharing partners, or a realm attaches a
region. Which pages those are can be read off the state before the call, and every
other mapping after the call was there before it, perhaps with another RIPAS that
the realm had asked for.
-/
namespace RmmCaec

open RadixForest Outcome Runs

/-- A page that the host creates. -/
structure CreatedPage where
  rd : Word
  ipa : Word
  page : Word
  measured : Bool
  deriving DecidableEq, Repr

def createdPage (plat : Platform) (s : State) : Act → Option CreatedPage
  | .dataCreate rdAddr dataAddr mapAddr srcAddr flags nsCopy =>
    if measuredAccepts plat s rdAddr dataAddr mapAddr srcAddr flags nsCopy then
      some ⟨rdAddr, mapAddr, dataAddr, true⟩
    else none
  | .dataCreateUnknown rdAddr dataAddr mapAddr =>
    if createAccepts plat s rdAddr dataAddr mapAddr false .done then
      some ⟨rdAddr, mapAddr, dataAddr, false⟩
    else none
  | _ => none

/-- The RIPAS of a created page: a measured page is RAM, an unknown one keeps what the
realm chose. -/
def CreatedPage.ripas (s : State) (c : CreatedPage) : Ripas :=
  if c.measured then .RAM
  else match translate s c.rd c.ipa with
    | some (.unassigned r) => r
    | _ => .EMPTY

/-- A page entry that a call writes. -/
structure PageWrite where
  rd : Word
  ipa : Word
  ripas : Ripas
  page : Word
  deriving DecidableEq, Repr

/-- The page of the master that an attach copies, with its place in the slave. -/
def attachWrite (s : State) (rdAddr : Word) (slave : SlaveMem) (m : MasterMem) (k : ℕ) :
    Option PageWrite :=
  (ramPage s slave.masterRdPa (pageAddr m.ipaStart k)).map fun pa =>
    ⟨rdAddr, pageAddr slave.ipaStart k, .RAM, pa⟩

/-- The entries that a call writes. -/
def pageWrites (plat : Platform) (s : State) : Act → List PageWrite
  | .rsi recAddr (.csmAttach x1) =>
    if recRunning s recAddr then
      match attachRegion plat s (s.recs recAddr).gRd x1 with
      | some (slave, m) =>
        (List.range (regionPages m)).filterMap (attachWrite s (s.recs recAddr).gRd slave m)
      | none => []
    else []
  | act =>
    match createdPage plat s act with
    | some c => ⟨c.rd, c.ipa, c.ripas s, c.page⟩ ::
        (csmTargets plat s c.rd c.ipa).map fun p => ⟨p.1, p.2, .RAM, c.page⟩
    | none => []

/-- The write maps an address on its page to a byte of the physical page. -/
def PageWrite.Maps (w : PageWrite) (rd : Word) (a : ℕ) (r : Ripas) (x : Word) : Prop :=
  w.rd = rd ∧ w.ipa.toNat / 4096 = a / 4096 ∧ w.ripas = r ∧
    x = w.page + BitVec.ofNat 64 (a % 4096)

/-- The call serves the request of a realm to change the RIPAS of an address. -/
def RipasServed (s : State) (act : Act) (rd : Word) (a : ℕ) (r : Ripas) : Prop :=
  ∃ recAddr base top, act = .rttSetRipas rd recAddr base top ∧
    (s.granule recAddr).state = .REC ∧ (s.recs recAddr).gRd = rd ∧
    (s.recs recAddr).setRipas.ripasVal = r ∧ base = (s.recs recAddr).setRipas.addr ∧
    top ≤ (s.recs recAddr).setRipas.top ∧ base.toNat ≤ a ∧ a < top.toNat

/-- The causes of a leaf edit. -/
inductive EditCause (plat : Platform) (s : State) (act : Act) (rd : Word) (a height : ℕ)
    (old : Entry) : Edit → Prop
  | remove : EditCause plat s act rd a height old .remove
  | assign {c : CreatedPage} {r : Ripas} (call : createdPage plat s act = some c)
      (realm : c.rd = rd)
      (addr : c.ipa.toNat = a) (leaf : height = 0)
      (ripas : CreatedRipas c.measured old r) :
      EditCause plat s act rd a height old (.assign r c.page)
  | mirror {w : PageWrite} (mem : w ∈ pageWrites plat s act) (realm : w.rd = rd)
      (addr : w.ipa.toNat = a) (leaf : height = 0) (ram : w.ripas = .RAM)
      (inside : a < 2 ^ (s.rd rd).s2Ctx.ipaBits) :
      EditCause plat s act rd a height old (.mirror w.page)
  | ripas {recAddr base top : Word} {r : Ripas} (call : act = .rttSetRipas rd recAddr base top)
      (isRec : (s.granule recAddr).state = .REC) (own : (s.recs recAddr).gRd = rd)
      (request : (s.recs recAddr).setRipas.ripasVal = r)
      (start : base = (s.recs recAddr).setRipas.addr) (stop : top ≤ (s.recs recAddr).setRipas.top)
      (aligned : rttShape.span height ∣ a) (lower : base.toNat ≤ a)
      (upper : a + rttShape.span height ≤ top.toNat)
      (destroyed : old.ripas = some .DESTROYED →
      (s.recs recAddr).setRipas.changeDestroyed = true) :
      EditCause plat s act rd a height old (.ripas r)
  | init (empty : old = .unassigned .EMPTY) : EditCause plat s act rd a height old (.ripas .RAM)
  | mapNs {desc : Word} (upper : ¬ a < 2 ^ (s.rd rd).s2Ctx.ipaBits / 2) :
      EditCause plat s act rd a height old (.mapNs desc)
  | unmapNs (upper : ¬ a < 2 ^ (s.rd rd).s2Ctx.ipaBits / 2) :
      EditCause plat s act rd a height old .unmapNs
  | keep : EditCause plat s act rd a height old .keep

section

variable {plat : Platform} {s : State} {rd : Word} {a height : ℕ} {old : Entry} {e : Edit}

theorem RemoveEffect.cause {act : Act} {places : List (Word × Word)}
    (h : RemoveEffect places (.edit rd a height old e)) :
      EditCause plat s act rd a height old e := by
  obtain hq | ⟨p, -, old', hl⟩ := h
  · cases hq
  · cases hl
    exact .remove

theorem CreateEffect.cause {act : Act} {c : CreatedPage} (hc : createdPage plat s act = some c)
    (hw : pageWrites plat s act = ⟨c.rd, c.ipa, c.ripas s, c.page⟩ ::
      (csmTargets plat s c.rd c.ipa).map fun p => ⟨p.1, p.2, .RAM, c.page⟩)
    (h : CreateEffect plat s c.rd c.page c.ipa c.measured (.edit rd a height old e)) :
    EditCause plat s act rd a height old e := by
  obtain hq | ⟨r, old', hl, hr⟩ | ⟨p, hp, old', hl, hin⟩ := h
  · cases hq
  · cases hl
    exact .assign hc rfl rfl rfl hr
  · cases hl
    refine .mirror (w := ⟨p.1, p.2, .RAM, c.page⟩) ?_ rfl rfl rfl rfl hin
    rw [hw]
    exact List.mem_cons_of_mem _ (List.mem_map.mpr ⟨p, hp, rfl⟩)

theorem RsiEffect.cause {recAddr : Word} {call : RsiCall} (hrun : recRunning s recAddr = true)
    (h : RsiEffect plat s (s.recs recAddr).gRd call (.edit rd a height old e)) :
    EditCause plat s (.rsi recAddr call) rd a height old e := by
  cases call with
  | csmAttach x1 =>
    obtain ⟨slave, m, hreg, p, -, old', pa, hl, ⟨k, hk, rfl, hpa⟩, hin⟩ := h
    cases hl
    refine .mirror (w := ⟨_, pageAddr slave.ipaStart k, .RAM, pa⟩) ?_ rfl rfl rfl rfl hin
    simp only [pageWrites, hrun, if_true, hreg]
    exact List.mem_filterMap.mpr ⟨k, List.mem_range.mpr hk, by rw [attachWrite, hpa]; rfl⟩
  | csmDetachAndFree x1 => exact RemoveEffect.cause h
  | csmRevoke x1 => exact RemoveEffect.cause h
  | _ => exact h.elim

theorem StepEffect.cause {act : Act} (h : StepEffect plat s act (.edit rd a height old e)) :
    EditCause plat s act rd a height old e := by
  cases act with
  | aptDestroy rdAddr aptAddr =>
    obtain ⟨-, -, -, h⟩ := h
    exact h.cause
  | dataCreate rdAddr dataAddr mapAddr srcAddr flags nsCopy =>
    obtain ⟨hacc, -, h⟩ := h
    have hc : createdPage plat s (.dataCreate rdAddr dataAddr mapAddr srcAddr flags nsCopy) =
        some ⟨rdAddr, mapAddr, dataAddr, true⟩ := by simp only [createdPage, hacc, if_true]
    exact CreateEffect.cause hc (by simp only [pageWrites, hc]) h
  | dataCreateUnknown rdAddr dataAddr mapAddr =>
    obtain ⟨hacc, -, h⟩ := h
    have hc : createdPage plat s (.dataCreateUnknown rdAddr dataAddr mapAddr) =
        some ⟨rdAddr, mapAddr, dataAddr, false⟩ := by simp only [createdPage, hacc, if_true]
    exact CreateEffect.cause hc (by simp only [pageWrites, hc]) h
  | dataDestroy rdAddr mapAddr =>
    obtain ⟨-, ⟨old', hl⟩ | hq | ⟨p, -, old', hl⟩⟩ := h
    · cases hl
      exact .remove
    · cases hq
    · cases hl
      exact .remove
  | rttMapUnprotected rdAddr mapAddr ulevel s2tte =>
    obtain ⟨a', ht, old', e', hl, hup, ⟨desc, rfl⟩ | rfl⟩ := h
    · cases hl
      exact .mapNs hup
    · cases hl
      exact .unmapNs hup
  | rttUnmapUnprotected rdAddr mapAddr ulevel =>
    obtain ⟨a', ht, old', e', hl, hup, ⟨desc, rfl⟩ | rfl⟩ := h
    · cases hl
      exact .mapNs hup
    · cases hl
      exact .unmapNs hup
  | rttInitRipas rdAddr base top =>
    obtain ⟨ht, a', hl, -⟩ := h
    cases hl
    exact .init rfl
  | rttSetRipas rdAddr recAddr base top =>
    obtain hq | ⟨hrec, hown, hbase, htop, ht, a', old', e', hl, hdvd, hlo, hhi,
        rfl | ⟨rfl, hd⟩⟩ := h
    · cases hq
    · cases hl
      exact .keep
    · cases hl
      exact .ripas rfl hrec hown rfl hbase htop hdvd hlo hhi hd
  | rsi recAddr call =>
    obtain hq | ⟨hrun, h⟩ := h
    · cases hq
    · exact h.cause hrun
  | rttCreate rdAddr rttAddr mapAddr ulevel =>
    obtain ⟨_, _, hq⟩ := h
    cases hq
  | rttFold rdAddr mapAddr ulevel =>
    obtain ⟨_, _, _, hq⟩ := h
    cases hq
  | rttDestroy rdAddr mapAddr ulevel =>
    obtain ⟨_, _, hq⟩ := h
    cases hq
  | _ => cases h

end

section

variable {plat : Platform} {s s' : State} {F F' : Tables} {act : Act}

/-- The offset of an address in a page slot. -/
theorem Holds.page_offset (h : Holds s F) {t : Word} {n : Table} {i a : ℕ} (ht : F t = some n)
    (h0 : n.height = 0) (hc : n.SlotCovers rttShape i a) :
    a - n.slotBase rttShape i = a % 4096 := by
  rw [← h.slot_offset ht hc, h0]
  rfl

/-- What an address translates to, if it is not an assigned page. -/
def PageView.free : PageView → Bool
  | .assigned _ _ => false
  | _ => true

/-- While a page is created no page is taken out of the tables. -/
def NoneFreed (s : State) (F F1 : Tables) : Prop :=
  ∀ rd a v, v.free = true → Translates F1 (s.rd rd).s2Ctx rd a v →
    Translates F (s.rd rd).s2Ctx rd a v

theorem EditStep.noneFreed {s0 : State} {F0 : Tables} {t : Word} {n : Table} {i a : ℕ} {e : Edit}
    (h : Holds s F) (st : EditStep s F t n i a e s' F') {pa : Word} (he : e.page = some pa)
    (hn : NoneFreed s0 F0 F) : NoneFreed s0 F0 F' := by
  intro rd b v hv hb
  rcases (st.translates_iff h _ rd b v).mp hb with ⟨-, hview⟩ | ⟨-, hold⟩
  · exfalso
    cases e with
    | assign r pa =>
      simp only [Edit.apply, Entry.view, Option.some.injEq] at hview
      rw [← hview] at hv
      cases hv
    | mirror pa =>
      simp only [Edit.apply, Entry.view, Option.some.injEq] at hview
      rw [← hview] at hv
      cases hv
    | _ => cases he
  · exact hn rd b v hv hold

/-- The RIPAS of a created page is determined by the state before the call. -/
theorem CreatedPage.ripas_eq (h : Holds s F) {c : CreatedPage} {F1 : Tables} (hn : NoneFreed s F F1)
    (hrd : (s.granule c.rd).state = .RD) (hin : c.ipa.toNat < 2 ^ (s.rd c.rd).s2Ctx.ipaBits)
    {t : Word} {n : Table} {i : ℕ} {r : Ripas} (hl : IsLeaf F1 c.rd c.ipa.toNat t n i)
    (hr : CreatedRipas c.measured (n.slot i) r) : c.ripas s = r := by
  have key : ∀ v, v.free = true →
      (n.slot i).view (s.rd c.rd).s2Ctx (levelOf n.height) (c.ipa.toNat - n.slotBase rttShape i) =
        some v → translate s c.rd c.ipa = some v := by
    intro v hv hview
    exact (translate_iff h hrd hin v).mpr (hn c.rd _ v hv ⟨t, n, i, hl, hview⟩)
  unfold CreatedPage.ripas
  unfold CreatedRipas at hr
  cases hm : c.measured with
  | true =>
    rw [hm] at hr
    exact hr.symm
  | false =>
    rw [hm] at hr
    simp only [Bool.false_eq_true, if_false] at hr ⊢
    rcases hr with hold | ⟨hold, rfl⟩
    · rw [key (.unassigned r) rfl (by rw [hold]; rfl)]
    · rw [key .unassignedNs rfl (by rw [hold]; rfl)]

/-- The checks and the writes of a creation that goes through. -/
theorem createdPage_spec {c : CreatedPage} (hc : createdPage plat s act = some c) :
    (∃ nsCopy, createAccepts plat s c.rd c.page c.ipa c.measured nsCopy = true) ∧
      pageWrites plat s act = ⟨c.rd, c.ipa, c.ripas s, c.page⟩ ::
        (csmTargets plat s c.rd c.ipa).map fun p => ⟨p.1, p.2, .RAM, c.page⟩ := by
  have hsaved := hc
  unfold createdPage at hc
  split at hc
  · rw [Option.ite_none_right_eq_some] at hc
    obtain ⟨hacc, hc⟩ := hc
    cases hc
    rw [measuredAccepts, Bool.and_eq_true] at hacc
    exact ⟨⟨_, hacc.2⟩, by simp only [pageWrites, hsaved]⟩
  · rw [Option.ite_none_right_eq_some] at hc
    obtain ⟨hacc, hc⟩ := hc
    cases hc
    exact ⟨⟨_, hacc⟩, by simp only [pageWrites, hsaved]⟩
  · cases hc

theorem CreateEffect.page {rdAddr dataAddr mapAddr rd : Word} {measured : Bool} {a height : ℕ}
    {old : Entry} {e : Edit}
    (h : CreateEffect plat s rdAddr dataAddr mapAddr measured (.edit rd a height old e)) :
    e.page = some dataAddr := by
  obtain hq | ⟨r, old', hl, -⟩ | ⟨p, -, old', hl, -⟩ := h
  · cases hq
  · cases hl
    rfl
  · cases hl
    rfl

/-- All edits of a creation map its page. -/
theorem StepEffect.page_of_created {c : CreatedPage} {rd : Word} {a height : ℕ} {old : Entry}
    {e : Edit} (hl : StepEffect plat s act (.edit rd a height old e))
    (hc : createdPage plat s act = some c) : e.page = some c.page := by
  unfold createdPage at hc
  split at hc
  · rw [Option.ite_none_right_eq_some] at hc
    cases hc.2
    exact hl.2.2.page
  · rw [Option.ite_none_right_eq_some] at hc
    cases hc.2
    exact hl.2.2.page
  · cases hc

theorem StepEffect.flat_of_created {c : CreatedPage} {l : Effect} (hl : StepEffect plat s act l)
    (hc : createdPage plat s act = some c) :
    (∃ rd a height old e, l = .edit rd a height old e) ∨
      ∃ claimed, l = .quiet none claimed := by
  have flat : ∀ {rdAddr dataAddr mapAddr : Word} {measured : Bool},
      CreateEffect plat s rdAddr dataAddr mapAddr measured l →
      (∃ rd a height old e, l = .edit rd a height old e) ∨
        ∃ claimed, l = .quiet none claimed := by
    intro rdAddr dataAddr mapAddr measured h
    obtain rfl | ⟨r, old, rfl, -⟩ | ⟨p, -, old, rfl, -⟩ := h
    · exact .inr ⟨_, rfl⟩
    · exact .inl ⟨_, _, _, _, _, rfl⟩
    · exact .inl ⟨_, _, _, _, _, rfl⟩
  unfold createdPage at hc
  split at hc
  · exact flat hl.2.2
  · exact flat hl.2.2
  · cases hc

/-- Where a mapping comes from: it was there before the call, the call writes it, or the
call serves a request for another RIPAS of a page that was there. -/
def MapsFrom (plat : Platform) (s : State) (F : Tables) (act : Act) (rd : Word)
    (a : ℕ) (r : Ripas)
    (x : Word) : Prop :=
  Maps F rd a r x ∨ (∃ w ∈ pageWrites plat s act, w.Maps rd a r x) ∨
    ((∃ r', Maps F rd a r' x) ∧ RipasServed s act rd a r)

/-- A call that serves a RIPAS request maps no page. -/
theorem pageWrites_of_served {rd : Word} {a : ℕ} {r : Ripas} (h : RipasServed s act rd a r) :
    pageWrites plat s act = [] := by
  obtain ⟨recAddr, base, top, rfl, -⟩ := h
  rfl

/-- An edit makes a mapping only for a cause. -/
theorem EditStep.mapsFrom {s1 s2 : State} {F1 F2 : Tables} {t : Word} {n : Table}
    {i a : ℕ} {e : Edit}
    (h : Holds s F) (h1 : Holds s1 F1) (st : EditStep s1 F1 t n i a e s2 F2)
    (hc : EditCause plat s act n.owner a n.height (n.slot i) e)
    (hold : ∀ rd b r x, Maps F1 rd b r x → MapsFrom plat s F act rd b r x)
    (hfree : (createdPage plat s act).isSome = true → NoneFreed s F F1) {rd : Word} {b : ℕ}
    {r : Ripas} {x : Word} (hm : Maps F2 rd b r x) : MapsFrom plat s F act rd b r x := by
  rcases (st.maps_iff h1 rd b r x).mp hm with ⟨⟨rfl, hcov⟩, pa, happly, hx⟩ | ⟨-, hm1⟩
  swap
  · exact hold rd b r x hm1
  have hpage : n.height = 0 → a / 4096 = b / 4096 ∧ b - n.slotBase rttShape i = b % 4096 := by
    intro h0
    exact ⟨slotCovers_page h1 st.leaf.table h0 st.leaf.covers hcov,
      h1.page_offset st.leaf.table h0 hcov⟩
  cases hc with
  | remove => exact absurd happly (remove_not_assigned _ _ _)
  | @assign c r' call realm addr leaf ripas =>
    cases happly
    obtain ⟨⟨ok, hacc⟩, hw⟩ := createdPage_spec call
    refine .inr
      (.inl ⟨⟨c.rd, c.ipa, c.ripas s, c.page⟩, by rw [hw]; exact List.mem_cons_self, realm,
      by rw [addr]; exact (hpage leaf).1, ?_, by rw [hx, (hpage leaf).2]⟩)
    have hleaf : IsLeaf F1 c.rd c.ipa.toNat t n i := by
      rw [realm, addr]
      exact st.leaf
    exact CreatedPage.ripas_eq h (hfree (by rw [call]; rfl)) (createAccepts_ready hacc).1
      (createAccepts_addr hacc).2 hleaf ripas
  | @mirror w mem realm addr leaf ram inside =>
    cases happly
    exact .inr (.inl ⟨w, mem, realm, by rw [addr]; exact (hpage leaf).1, ram,
      by rw [hx, (hpage leaf).2]⟩)
  | @ripas recAddr base top r' call isRec own request start stop aligned lower upper destroyed =>
    -- the page is the one that was mapped before
    have hbase := h1.eq_slotBase st.leaf.table st.leaf.covers aligned
    obtain ⟨r0, hr0, hr⟩ : ∃ r0, n.slot i = .assigned r0 pa ∧ r = r' := by
      cases hs : n.slot i with
      | assigned r0 pa0 =>
        rw [hs] at happly
        cases happly
        exact ⟨r0, rfl, rfl⟩
      | _ =>
        rw [hs] at happly
        cases happly
    have hserved : RipasServed s act n.owner b r := by
      obtain ⟨hc1, hc2⟩ := hcov
      rw [← hbase] at hc1 hc2
      exact ⟨recAddr, base, top, call, isRec, own, hr ▸ request, start,
        stop, by omega, by omega⟩
    have hm1 : Maps F1 n.owner b r0 x :=
      ⟨t, n, i, pa, ⟨st.leaf.table, rfl, st.leaf.index, hcov, st.leaf.leaf⟩, hr0, hx⟩
    rcases hold _ b r0 x hm1 with hF | ⟨w, hw, -⟩ | ⟨hF, -⟩
    · exact .inr (.inr ⟨⟨r0, hF⟩, hserved⟩)
    · rw [pageWrites_of_served hserved] at hw
      cases hw
    · exact .inr (.inr ⟨hF, hserved⟩)
  | init empty =>
    rw [empty] at happly
    cases happly
  | mapNs upper => cases happly
  | unmapNs upper => cases happly
  | keep =>
    exact hold _ b r x
      ⟨t, n, i, pa, ⟨st.leaf.table, rfl, st.leaf.index, hcov, st.leaf.leaf⟩, happly, hx⟩

/-- Every mapping after a call comes from somewhere. -/
theorem Effects.mapsFrom (h : Wf s F) (he : Effects plat s F act s' F') {rd : Word} {a : ℕ}
    {r : Ripas} {x : Word} (hm : Maps F' rd a r x) : MapsFrom plat s F act rd a r x := by
  obtain ⟨-, ls, hls, hC⟩ := he
  refine (Micros.invariant (fun _ F1 =>
    (∀ rd a r x, Maps F1 rd a r x → MapsFrom plat s F act rd a r x) ∧
      ((createdPage plat s act).isSome = true → NoneFreed s F F1))
      (StepEffect plat s act) ?_ hls hC
    ⟨fun _ _ _ _ => .inl, fun _ _ _ _ _ hv => hv⟩).1 rd a r x hm
  intro s1 F1 l s2 F2 hw hl hmic hJ
  have hmaps := fun hs rd a r x => (hmic.maps hw.holds hs rd a r x).mp
  cases hmic with
  | edit st source =>
    refine ⟨fun rd b r x hm => st.mapsFrom h.holds hw.holds hl.cause hJ.1 hJ.2 hm,
      fun hcr => ?_⟩
    obtain ⟨c, hc⟩ := Option.isSome_iff_exists.mp hcr
    exact st.noneFreed hw.holds (StepEffect.page_of_created hl hc) (hJ.2 hcr)
  | quiet q => exact hJ
  | _ =>
    -- the other effects change the trees, which a creation does not
    refine ⟨fun rd a r x hm => hJ.1 rd a r x (hmaps rfl rd a r x hm), fun hcr => ?_⟩
    obtain ⟨c, hc⟩ := Option.isSome_iff_exists.mp hcr
    obtain ⟨_, _, _, _, _, hl⟩ | ⟨_, hl⟩ := StepEffect.flat_of_created hl hc <;> cases hl

end

end RmmCaec
