import RmmCaec.Replay

/-!
# The pages that a call touches

A call takes assigned pages out of the tables only by removing them or by mirroring
other pages over them, and only at places that are known before the call from the
records of the realms. Every other assigned leaf keeps its page.
-/
namespace RmmCaec

open RadixForest Outcome Runs

/-- The places at which a call removes pages or writes over them. -/
def touchedPlaces (plat : Platform) (s : State) : Act → List (Word × Word)
  | .aptDestroy rdAddr aptAddr =>
    if (s.granule rdAddr).state = .RD ∧ (s.granule aptAddr).state = .APT ∧
        (s.rd rdAddr).aptPa = aptAddr then aptDestroyPlaces plat s rdAddr aptAddr
    else []
  | .dataCreate rdAddr dataAddr mapAddr srcAddr flags nsCopy =>
    if measuredAccepts plat s rdAddr dataAddr mapAddr srcAddr flags nsCopy then
      csmTargets plat s rdAddr mapAddr
    else []
  | .dataCreateUnknown rdAddr dataAddr mapAddr =>
    if createAccepts plat s rdAddr dataAddr mapAddr false .done then
      csmTargets plat s rdAddr mapAddr
    else []
  | .dataDestroy rdAddr mapAddr =>
    if destroyAccepts plat s rdAddr mapAddr then
      (rdAddr, mapAddr) :: csmTargets plat s rdAddr mapAddr
    else []
  | .rsi recAddr (.csmAttach x1) =>
    if recRunning s recAddr then
      match attachRegion plat s (s.recs recAddr).gRd x1 with
      | some (slave, m) => attachPlaces (s.recs recAddr).gRd slave (regionPages m)
      | none => []
    else []
  | .rsi recAddr (.csmDetachAndFree x1) =>
    if recRunning s recAddr then detachPlaces plat s (s.recs recAddr).gRd x1 else []
  | .rsi recAddr (.csmRevoke x1) =>
    if recRunning s recAddr then revokePlaces plat s (s.recs recAddr).gRd x1 else []
  | _ => []

/-- The edits that take an assigned page out of the tables. -/
def Edit.drops_page : Edit → Bool
  | .remove => true
  | .mirror _ => true
  | _ => false

/-- An edit stands at one of the places. -/
def EditAt (places : List (Word × Word)) (rd : Word) (a height : ℕ) : Prop :=
  height = 0 ∧ ∃ p ∈ places, p.1 = rd ∧ p.2.toNat = a

section

variable {plat : Platform} {s : State} {rd : Word} {a height : ℕ} {old : Entry} {e : Edit}

theorem RemoveEffect.editAt {places : List (Word × Word)}
    (h : RemoveEffect places (.edit rd a height old e)) : EditAt places rd a height := by
  obtain hq | ⟨p, hp, old', hl⟩ := h
  · cases hq
  · cases hl
    exact ⟨rfl, p, hp, rfl, rfl⟩

theorem CreateEffect.editAt {rdAddr dataAddr mapAddr : Word} {measured : Bool}
    (h : CreateEffect plat s rdAddr dataAddr mapAddr measured (.edit rd a height old e))
    (he : e.drops_page = true) : EditAt (csmTargets plat s rdAddr mapAddr) rd a height := by
  obtain hq | ⟨r, old', hl, -⟩ | ⟨p, hp, old', hl, -⟩ := h
  · cases hq
  · cases hl
    cases he
  · cases hl
    exact ⟨rfl, p, hp, rfl, rfl⟩

theorem DestroyEffect.editAt {rdAddr mapAddr : Word}
    (h : DestroyEffect plat s rdAddr mapAddr (.edit rd a height old e)) :
    EditAt ((rdAddr, mapAddr) :: csmTargets plat s rdAddr mapAddr) rd a height := by
  obtain ⟨old', hl⟩ | hq | ⟨p, hp, old', hl⟩ := h
  · cases hl
    exact ⟨rfl, _, List.mem_cons_self, rfl, rfl⟩
  · cases hq
  · cases hl
    exact ⟨rfl, p, List.mem_cons_of_mem _ hp, rfl, rfl⟩

theorem RsiEffect.editAt {recAddr : Word} {call : RsiCall} (hrun : recRunning s recAddr = true)
    (h : RsiEffect plat s (s.recs recAddr).gRd call (.edit rd a height old e)) :
    EditAt (touchedPlaces plat s (.rsi recAddr call)) rd a height := by
  cases call with
  | csmAttach x1 =>
    obtain ⟨slave, m, hreg, p, hp, old', pa, hl, -⟩ := h
    cases hl
    refine ⟨rfl, p, ?_, rfl, rfl⟩
    simpa only [touchedPlaces, hrun, if_true, hreg] using hp
  | csmDetachAndFree x1 =>
    simp only [touchedPlaces, hrun, if_true]
    exact RemoveEffect.editAt h
  | csmRevoke x1 =>
    simp only [touchedPlaces, hrun, if_true]
    exact RemoveEffect.editAt h
  | _ => exact h.elim

theorem RipasEffect.keeps_page {rdAddr : Word} {lo top ht : ℕ} {r : Ripas} {cd : Bool}
    (h : RipasEffect rdAddr lo top ht r cd (.edit rd a height old e)) : e.drops_page = false := by
  obtain ⟨a', old', e', hl, -, -, -, rfl | ⟨rfl, -⟩⟩ := h <;> cases hl <;> rfl

theorem NsEffect.keeps_page {rdAddr : Word} (h : NsEffect s rdAddr (.edit rd a height old e)) :
    e.drops_page = false := by
  obtain ⟨a', ht, old', e', hl, -, ⟨desc, rfl⟩ | rfl⟩ := h <;> cases hl <;> rfl

/-- A page is dropped at a touched place. -/
theorem StepEffect.editAt {act : Act} (h : StepEffect plat s act (.edit rd a height old e))
    (he : e.drops_page = true) : EditAt (touchedPlaces plat s act) rd a height := by
  cases act with
  | aptDestroy rdAddr aptAddr =>
    obtain ⟨h1, h2, h3, h⟩ := h
    rw [touchedPlaces, if_pos ⟨h1, h2, h3⟩]
    exact h.editAt
  | dataCreate rdAddr dataAddr mapAddr srcAddr flags nsCopy =>
    obtain ⟨hacc, -, h⟩ := h
    rw [touchedPlaces, if_pos hacc]
    exact h.editAt he
  | dataCreateUnknown rdAddr dataAddr mapAddr =>
    obtain ⟨hacc, -, h⟩ := h
    rw [touchedPlaces, if_pos hacc]
    exact h.editAt he
  | dataDestroy rdAddr mapAddr =>
    obtain ⟨hacc, h⟩ := h
    rw [touchedPlaces, if_pos hacc]
    exact h.editAt
  | rsi recAddr call =>
    obtain hq | ⟨hrun, h⟩ := h
    · cases hq
    · exact h.editAt hrun
  | rttMapUnprotected rdAddr mapAddr ulevel s2tte =>
    rw [NsEffect.keeps_page h] at he
    cases he
  | rttUnmapUnprotected rdAddr mapAddr ulevel =>
    rw [NsEffect.keeps_page h] at he
    cases he
  | rttInitRipas rdAddr base top =>
    obtain ⟨ht, a', hl, -⟩ := h
    cases hl
    cases he
  | rttSetRipas rdAddr recAddr base top =>
    obtain hq | ⟨-, -, -, -, ht, h⟩ := h
    · cases hq
    · rw [h.keeps_page] at he
      cases he
  | rttCreate rdAddr rttAddr mapAddr ulevel => obtain ⟨_, _, hl⟩ := h; cases hl
  | rttFold rdAddr mapAddr ulevel => obtain ⟨_, _, _, hl⟩ := h; cases hl
  | rttDestroy rdAddr mapAddr ulevel => obtain ⟨_, _, hl⟩ := h; cases hl
  | _ => cases h

end

/-- A call that touches places changes no table structure. -/
theorem StepEffect.flat {plat : Platform} {s : State} {act : Act} {l : Effect}
    (h : StepEffect plat s act l) (hne : touchedPlaces plat s act ≠ []) :
    (∃ rd a height old e, l = .edit rd a height old e) ∨
      ∃ freed claimed, l = .quiet freed claimed := by
  cases h.kind with
  | edit => exact .inl ⟨_, _, _, _, _, rfl⟩
  | idle => exact .inr ⟨_, _, rfl⟩
  | claim hc => exact .inr ⟨_, _, rfl⟩
  | free hact hacc => exact .inr ⟨_, _, rfl⟩
  | graft hact => exact absurd (by rw [hact]; rfl) hne
  | fold hact => exact absurd (by rw [hact]; rfl) hne
  | destroy hact => exact absurd (by rw [hact]; rfl) hne
  | plant hact => exact absurd (by rw [hact]; rfl) hne
  | fell hact => exact absurd (by rw [hact]; rfl) hne

/-- The height of the table whose leaf covers an address. -/
def HeightAt (F : Tables) (rd : Word) (a height : ℕ) : Prop :=
  ∃ t n i, IsLeaf F rd a t n i ∧ n.height = height

theorem EditStep.heightAt {s s' : State} {F F' : Tables} {t : Word} {n : Table}
    {i a : ℕ} {e : Edit}
    (st : EditStep s F t n i a e s' F') {rd : Word} {b height : ℕ} (h : HeightAt F rd b height) :
    HeightAt F' rd b height := by
  obtain ⟨t', n0, i', hl, hh⟩ := h
  obtain ⟨n', hn', ho, hh', hb, hs⟩ := Forest.setSlot_some t i (e.apply (n.slot i)) hl.table
  refine ⟨t', n', i', ⟨by rw [st.forest, hn'], ho.trans hl.owner, hl.index, ?_, ?_⟩,
    hh'.trans hh⟩
  · unfold Node.SlotCovers
    rw [slotBase_congr hh' hb, hh']
    exact hl.covers
  · rw [hs]
    split
    · exact st.allowed.link_apply
    · exact hl.leaf

/-- An address lies on the page of one of the places. -/
def OnPage (places : List (Word × Word)) (rd : Word) (a : ℕ) : Prop :=
  ∃ p ∈ places, p.1 = rd ∧ p.2.toNat / 4096 = a / 4096

instance (places : List (Word × Word)) (rd : Word) (a : ℕ) : Decidable (OnPage places rd a) :=
  inferInstanceAs (Decidable (∃ p ∈ places, p.1 = rd ∧ p.2.toNat / 4096 = a / 4096))

/-- An edit at some places keeps a page elsewhere. -/
theorem EditStep.page_kept {s s' : State} {F F' : Tables} {t : Word} {n : Table}
    {i a : ℕ} {e : Edit}
    (h : Holds s F) (st : EditStep s F t n i a e s' F') {places : List (Word × Word)}
    (hat : e.drops_page = true → EditAt places n.owner a n.height) {rd : Word} {b height : ℕ}
    {r : Ripas} {g : Word} (hm : Maps F rd b r g) (hh : HeightAt F rd b height)
    (hout : height = 0 → ¬ OnPage places rd b) : ∃ r', Maps F' rd b r' g := by
  obtain hk | ⟨hc, hdrop⟩ := st.maps_kept h hm
  · exact hk
  exfalso
  have hd : e.drops_page = true := by
    rcases hdrop with rfl | ⟨pa, rfl⟩ <;> rfl
  obtain ⟨h0, p, hp, hp1, hp2⟩ := hat hd
  -- the leaf at the address is the edited one, a page at a touched place
  obtain ⟨t', n0, i', hl, hheight⟩ := hh
  obtain ⟨rfl, rfl, rfl⟩ := h.leaf_unique hl
    ⟨st.leaf.table, hc.1.symm, st.leaf.index, hc.2, st.leaf.leaf⟩
  refine hout (hheight.symm.trans h0) ⟨p, hp, hp1.trans hc.1.symm, ?_⟩
  rw [hp2]
  exact slotCovers_page h st.leaf.table h0 st.leaf.covers hc.2

/-- A realm with an assigned leaf outlives every effect. -/
theorem Micro.realm_kept {s s' : State} {F F' : Tables} {l : Effect} (h : Holds s F)
    (hm : Micro s F l s' F') {rd : Word} {b : ℕ} {r : Ripas} {g : Word} (hmap : Maps F rd b r g) :
    (s'.granule rd).state = .RD ∧ (s'.rd rd).s2Ctx = (s.rd rd).s2Ctx := by
  obtain ⟨t', n', i', pa, hl, he, -⟩ := hmap
  have hrd : (s.granule rd).state = .RD := hl.owner ▸ (h.node hl.table).2.1
  cases hm with
  | edit st hsrc => exact ⟨((st.sameAll h).state rd).trans hrd, by rw [st.rd]⟩
  | quiet q => exact ⟨(q.rd rd).mpr hrd, q.ctx rd hrd⟩
  | graft st =>
    exact ⟨(st.state_iff h rd (by decide) (by decide)).mpr hrd, by rw [st.same.rd rd hrd]⟩
  | fold st _ _ _ =>
    exact ⟨(st.state_iff h rd (by decide) (by decide)).mpr hrd, by rw [st.same.rd rd hrd]⟩
  | destroy st _ _ _ =>
    exact ⟨(st.state_iff h rd (by decide) (by decide)).mpr hrd, by rw [st.same.rd rd hrd]⟩
  | plant st => exact ⟨(st.isRd rd).mpr (.inl hrd), st.ctx rd hrd⟩
  | @fell rd0 _ _ st =>
    have hne : rd ≠ rd0 := by
      rintro rfl
      have hdead := st.dead t' n' hl.table hl.owner i' hl.index
      rw [he] at hdead
      cases hdead
    exact ⟨(st.isRd rd).mpr ⟨hrd, hne⟩, st.ctx rd hrd hne⟩

/-- The effects of a call keep every page that it does not touch. -/
theorem Effects.page_kept {plat : Platform} {s s' : State} {F F' : Tables} {act : Act}
    (h : Effects plat s F act s' F') {rd : Word} {b height : ℕ} {r : Ripas} {g : Word}
    (hm : Maps F rd b r g) (hh : HeightAt F rd b height)
    (hout : height = 0 → ¬ OnPage (touchedPlaces plat s act) rd b) :
    (∃ r', Maps F' rd b r' g) ∧ (s'.rd rd).s2Ctx = (s.rd rd).s2Ctx := by
  obtain ⟨-, ls, hls, hC⟩ := h
  by_cases hnil : touchedPlaces plat s act = []
  · -- nothing is touched, so no effect drops a page
    refine Micros.invariant (fun s1 F => (∃ r, Maps F rd b r g) ∧
      (s1.rd rd).s2Ctx = (s.rd rd).s2Ctx)
      (StepEffect plat s act) ?_ hls hC ⟨⟨r, hm⟩, rfl⟩
    rintro s1 F1 l s2 F2 hw hl hmic ⟨⟨r1, hm1⟩, hctx⟩
    refine ⟨?_, (hmic.realm_kept hw.holds hm1).2.trans hctx⟩
    cases hst : l.structural with
    | true => exact ⟨r1, (hmic.maps hw.holds hst rd b r1 g).mpr hm1⟩
    | false =>
      cases hmic with
      | edit st hsrc =>
        obtain hk | ⟨-, hdrop⟩ := st.maps_kept hw.holds hm1
        · exact hk
        obtain ⟨-, p, hp, -⟩ := hl.editAt
          (by rcases hdrop with hd | ⟨pa, hd⟩ <;> rw [hd] <;> rfl)
        rw [hnil] at hp
        cases hp
      | _ => cases hst
  · have hkept := Micros.invariant (fun s1 F => (∃ r, Maps F rd b r g) ∧
      (s1.rd rd).s2Ctx = (s.rd rd).s2Ctx ∧ HeightAt F rd b height)
      (StepEffect plat s act) ?_ hls hC
        ⟨⟨r, hm⟩, rfl, hh⟩
    · exact ⟨hkept.1, hkept.2.1⟩
    rintro s1 F1 l s2 F2 hw hl hmic ⟨⟨r1, hm1⟩, hctx, hh1⟩
    have hctx' := (hmic.realm_kept hw.holds hm1).2.trans hctx
    obtain ⟨rd', a, ht, old, e, rfl⟩ | ⟨freed, claimed, rfl⟩ := hl.flat hnil
    · cases hmic with
      | edit st hsrc => exact ⟨st.page_kept hw.holds hl.editAt hm1 hh1 hout, hctx',
          st.heightAt hh1⟩
    · cases hmic with
      | quiet q => exact ⟨⟨r1, hm1⟩, hctx', hh1⟩

end RmmCaec
