import RmmCaec.TokenSignLaws

/-!
# Where a response is written

The context of a REC is written in the window into which the REC that pulls the response
maps it. The signature goes to the address that was stored while the owner was running,
and there the pulling CPU has its own REC. Where EL3 signs, no encoder gets a key, so no
run comes to the point at which a response is written.
-/
namespace RmmCaec
open Outcome Runs

/-- The granules of a REC. -/
def State.recGranules (s : State) (r : Word) : List Word := r :: (s.recs r).gAux

/-- Every granule that is written belongs to the REC that the response is for, and to no
other REC that pulls it. -/
def LandsRight (s : State) (currRec respGranule : Word) (written : List Word) : Prop :=
  ∀ g ∈ written, g ∈ s.recGranules respGranule ∧
    (respGranule ≠ currRec → g ∉ s.recGranules currRec)

/-- A signature for another REC, with its ticket and of a length that fits. -/
def CrossSignature (plat : Platform) (s : State) (data : Word → AttestData) (currRec : Word)
    (resp : El3Response) : Prop :=
  resp.cookie ≠ currRec ∧ lockable plat s resp.cookie .REC = true ∧
    (data resp.cookie).sign.reqTicket = resp.reqTicket ∧ 0 < resp.sigLen ∧
    resp.sigLen ≤ (data resp.cookie).sign.sigLen

theorem auxSlots_running {running target : List Word} {i : ℕ} (hi : i < maxRecAuxGranules) :
    auxSlots running target (slotRecAux0 + i) = running[i]? := by
  have h : slotRecAux0 ≤ slotRecAux0 + i ∧ slotRecAux0 + i < slotRtt :=
    ⟨Nat.le_add_right _ _, by unfold slotRtt; omega⟩
  rw [auxSlots, if_pos h, Nat.add_sub_cancel_left]

theorem auxSlots_target {running target : List Word} {i : ℕ} (hi : i < maxRecAuxGranules) :
    auxSlots running target (slotEl3TokenSignAux0 + i) = target[i]? := by
  have h1 : ¬ (slotRecAux0 ≤ slotEl3TokenSignAux0 + i ∧
      slotEl3TokenSignAux0 + i < slotRtt) := by
    unfold slotEl3TokenSignAux0
    omega
  have h2 : slotEl3TokenSignAux0 ≤ slotEl3TokenSignAux0 + i ∧
      slotEl3TokenSignAux0 + i < nrCpuSlots :=
    ⟨Nat.le_add_right _ _, by unfold nrCpuSlots; omega⟩
  rw [auxSlots, if_neg h1, if_pos h2, Nat.add_sub_cancel_left]

/-- Without another REC only the running one is mapped. -/
theorem auxSlots_nil {running : List Word} {slot : ℕ} {g : Word}
    (h : auxSlots running [] slot = some g) : g ∈ running := by
  unfold auxSlots at h
  split at h
  · exact List.mem_of_getElem? h
  · split at h <;> simp at h

theorem vaGranule_nil {running : List Word} {va : ℕ} {g : Word}
    (h : vaGranule (auxSlots running []) va = some g) : g ∈ running := by
  unfold vaGranule at h
  split at h
  · cases h
  · exact auxSlots_nil h

/-- An address in the window of a running REC with `n` auxiliary granules. -/
theorem vaGranule_running {running target : List Word} {va n : ℕ}
    (hlow : slotToVa slotRecAux0 ≤ va) (hhigh : va < slotToVa slotRecAux0 + 4096 * n)
    (hn : n ≤ maxRecAuxGranules) :
    ∃ i < n, vaGranule (auxSlots running target) va = running[i]? := by
  obtain ⟨k, rfl⟩ := Nat.exists_eq_add_of_le hlow
  have hdiv : 4096 * (k / 4096) + k % 4096 = k := Nat.div_add_mod k 4096
  have hi : k / 4096 < n := by omega
  refine ⟨k / 4096, hi, ?_⟩
  conv_lhs => rw [← hdiv, ← Nat.add_assoc]
  rw [vaGranule_slotToVa _ (Nat.mod_lt k (by omega)), auxSlots_running (by omega)]

/-- The seventh auxiliary granule holds the context. -/
theorem vaGranule_ctx {mapped : ℕ → Option Word} {slot : ℕ} :
    vaGranule mapped (slotToVa slot + recHeapSize + recPmuSize + recSimdSize) =
      mapped (slot + 6) := by
  have hva : slotToVa slot + recHeapSize + recPmuSize + recSimdSize =
      slotToVa slot + 4096 * 6 + 0 := by
    unfold recHeapSize recPmuSize recSimdSize
    omega
  rw [hva, vaGranule_slotToVa _ (by omega)]

section
variable {ι : Type} [DecidableEq ι] {plat : Platform}
  {hashOf : List (BitVec 8) → List (BitVec 8)} {m m' : TokenSmp ι} {a : TokenAct ι}

/-- The buffer that t_cose passes lies in the auxiliary granules of the caller, at the
address where they are mapped while it runs. -/
def SigBufferOwn (m : TokenSmp ι) (a : TokenAct ι) : Prop :=
  ∀ c r att push finished, a = .sign c (some att) push finished → m.smp.cpu c = .running r →
    slotToVa slotRecAux0 ≤ att.sigPtr ∧
      att.sigPtr + att.sigBufLen ≤ slotToVa slotRecAux0 + 4096 * (m.smp.mem.recs r).gAux.length

/-- What holds between any two steps. -/
structure LandingInv (m : TokenSmp ι) : Prop where
  smp : SmpInv m.smp
  buffer : ∀ r, 0 < (m.data r).sign.sigLen →
    slotToVa slotRecAux0 ≤ (m.data r).sign.sigBuffer ∧
      (m.data r).sign.sigBuffer + (m.data r).sign.sigLen ≤
        slotToVa slotRecAux0 + 4096 * (m.smp.mem.recs r).gAux.length

omit [DecidableEq ι] in
/-- Two RECs share no granule. -/
theorem LandingInv.apart (h : LandingInv m) {r k g : Word}
    (hr : (m.smp.mem.granule r).state = .REC) (hk : (m.smp.mem.granule k).state = .REC)
    (hg : g ∈ (m.smp.mem.recs r).gAux) (hne : r ≠ k) : g ∉ m.smp.mem.recGranules k := by
  obtain ⟨own, ha⟩ := h.smp.aux
  have howner := (ha.recs r g).mpr ⟨hr, hg⟩
  intro hc
  rcases List.mem_cons.mp hc with rfl | hc
  · have haux := ha.aux g (by simp [howner])
    rw [hk] at haux
    cases haux
  · rw [(ha.recs k g).mpr ⟨hk, hc⟩] at howner
    exact hne (Sum.inr.inj (Option.some.inj howner)).symm

/-- A step of the machine below. -/
theorem LandingInv.plain (h : LandingInv m) {b : SmpAct ι} {n : Smp ι}
    (hn : SmpNext plat m.smp b n) :
    LandingInv { m with smp := n, data := attestDataAfter m.smp.mem n.mem m.data } := by
  have hrecs : ∀ g, (m.smp.mem.granule g).state = .REC → (n.mem.granule g).state = .REC →
      (n.mem.recs g).gAux = (m.smp.mem.recs g).gAux := by
    intro g hg hg'
    obtain ⟨c, s, job, hmove, rfl⟩ | ⟨k, words, -, rfl⟩ := SmpNext.move h.smp hn
    · have heq : s.recs g = _ := hmove.recs_eq hg hg'
      show (s.recs g).gAux = _
      rw [heq]
    · rfl
  refine ⟨h.smp.step hn, fun r hr => ?_⟩
  simp only [attestDataAfter] at hr ⊢
  split at hr
  · next hboth =>
    rw [if_pos hboth, hrecs r hboth.2 hboth.1]
    exact h.buffer r hr
  · cases hr

omit [DecidableEq ι] in
/-- One REC changes its data. -/
theorem LandingInv.update (h : LandingInv m) {k : Word} {d : AttestData}
    (hd : 0 < d.sign.sigLen → slotToVa slotRecAux0 ≤ d.sign.sigBuffer ∧
      d.sign.sigBuffer + d.sign.sigLen ≤
        slotToVa slotRecAux0 + 4096 * (m.smp.mem.recs k).gAux.length) :
    LandingInv { m with data := Function.update m.data k d } := by
  refine ⟨h.smp, fun r hr => ?_⟩
  by_cases hrk : r = k
  · subst hrk
    simp only [Function.update_self] at hr ⊢
    exact hd hr
  · simp only [Function.update_of_ne hrk] at hr ⊢
    exact h.buffer r hr

theorem LandingInv.step (h : LandingInv m) (ht : TokenInv hashOf m) (ha : SigBufferOwn m a)
    (hn : TokenNext plat hashOf m a m') : LandingInv m' := by
  cases a with
  | plain b =>
    obtain ⟨n, hnext, rfl⟩ := hn
    exact h.plain hnext
  | init c heapOk signingKey payload =>
    obtain ⟨k, -, rfl⟩ := hn
    refine h.update fun hpos => ?_
    obtain hd | hd := (ht.data k).handleInit_sign heapOk signingKey payload <;>
    · rw [hd] at hpos
      cases hpos
  | sign c attempt push finished =>
    obtain ⟨k, hrun, -, d, ticket, req, err, hs, rfl⟩ := hn
    have hd : 0 < d.sign.sigLen → slotToVa slotRecAux0 ≤ d.sign.sigBuffer ∧
        d.sign.sigBuffer + d.sign.sigLen ≤
          slotToVa slotRecAux0 + 4096 * (m.smp.mem.recs k).gAux.length := by
      obtain ⟨hdata, -, -⟩ | ⟨att, -, rfl, hdone, -, -⟩ :=
        (attestRealmTokenSign_sat hashOf (m.data k) m.ticket attempt push finished).of_ok hs
      · dsimp only at hdata
        rw [hdata]
        exact h.buffer k
      · obtain ⟨h1, h2⟩ | ⟨h1, h2⟩ := hdone.buffer_cases
        · rw [h1, h2]
          exact h.buffer k
        · rw [h1, h2]
          exact fun _ => ha c k att push finished rfl hrun
    exact ⟨(h.update hd).smp, (h.update hd).buffer⟩
  | pull c resp =>
    obtain ⟨k, -, -, rfl⟩ := hn
    exact ⟨h.smp, h.buffer⟩
  | write c =>
    obtain ⟨k, -, resp, -, data, written, hs, rfl⟩ := hn
    have hinv : LandingInv { m with data := data } := by
      obtain ⟨hdata, -⟩ | ⟨-, -, ctx, bytes, hdone, hdata, -⟩ :=
        (writeResponseToRec_sat plat m.smp.mem m.data k resp).of_ok hs
      · dsimp only at hdata
        rw [hdata]
        exact h
      · dsimp only at hdata
        rw [hdata]
        refine h.update fun hpos => ?_
        obtain ⟨h1, h2⟩ := hdone.buffer_eq
        have hold := h.buffer resp.cookie (lt_of_lt_of_le hpos h2)
        dsimp only [AttestData.sign] at h1 h2 hold ⊢
        omega
    exact ⟨hinv.smp, hinv.buffer⟩
  | create c created copied =>
    obtain ⟨k, -, rfl⟩ := hn
    refine h.update ?_
    rw [attestCcaTokenCreate_sign]
    exact h.buffer k

omit [DecidableEq ι] in
theorem LandingInv.init : LandingInv (initToken : TokenSmp ι) :=
  ⟨.init, nofun⟩

/-- Runs in which t_cose passes buffers of the caller. -/
abbrev OwnBuffers (plat : Platform) (hashOf : List (BitVec 8) → List (BitVec 8)) :
    TokenSmp ι → Prop :=
  Reach initToken (TokenNext plat hashOf) SigBufferOwn

theorem LandingInv.reach (hm : OwnBuffers plat hashOf m) : LandingInv m := by
  refine hm.invariant .init fun s a s' hs h ha hn => ?_
  exact h.step (TokenInv.reach (hs.mono fun _ _ _ => trivial)) ha hn

omit [DecidableEq ι] in
/-- The context of another REC is written in one of its own granules. -/
theorem LandingInv.ctx_lands (h : LandingInv m) {currRec respGranule g : Word} {running : List Word}
    (hcur : (m.smp.mem.granule currRec).state = .REC)
    (hresp : (m.smp.mem.granule respGranule).state = .REC) (hne : respGranule ≠ currRec)
    (hg : vaGranule (auxSlots running (m.smp.mem.recs respGranule).gAux)
      (slotToVa slotEl3TokenSignAux0 + recHeapSize + recPmuSize + recSimdSize) = some g) :
    g ∈ m.smp.mem.recGranules respGranule ∧ g ∉ m.smp.mem.recGranules currRec := by
  rw [vaGranule_ctx, auxSlots_target (by decide)] at hg
  have hmem := List.mem_of_getElem? hg
  exact ⟨List.mem_cons_of_mem _ hmem, h.apart hresp hcur hmem hne⟩

omit [DecidableEq ι] in
/-- The signature for another REC is written in a granule of the running one. -/
theorem LandingInv.byte_lands (h : LandingInv m) {respGranule g : Word} {running target : List Word}
    {i : ℕ} (hi : i < (m.data respGranule).sign.sigLen)
    (hfits : (m.smp.mem.recs respGranule).gAux.length ≤ maxRecAuxGranules)
    (hg : vaGranule (auxSlots running target) ((m.data respGranule).sign.sigBuffer + i) = some g) :
    g ∈ running := by
  obtain ⟨hlow, hhigh⟩ := h.buffer respGranule (by omega)
  obtain ⟨j, -, hj⟩ := @vaGranule_running running target
    ((m.data respGranule).sign.sigBuffer + i) _
    (by omega) (by omega) hfits
  rw [hj] at hg
  exact List.mem_of_getElem? hg

/-- A response lands in the REC that it is for unless it is a signature for another REC
than the one that pulls it. -/
theorem response_lands_iff (hm : OwnBuffers plat hashOf m) {c : ι} {r : Word}
    (hrun : m.smp.cpu c = .running r) {resp : El3Response} {data : Word → AttestData}
    {written : List Word}
    (hs : writeResponseToRec plat m.smp.mem m.data r resp = .ok (data, written)) :
    LandsRight m.smp.mem r resp.cookie written ↔
      ¬ CrossSignature plat m.smp.mem m.data r resp := by
  have h := LandingInv.reach hm
  have hcur : (m.smp.mem.granule r).state = .REC := by
    rw [h.smp.refs.entered c r (by rw [hrun]; rfl)]
  obtain ⟨-, hw, hlock, -⟩ | ⟨hfound, hfits, ctx, bytes, hdone, -, hmapped, hw⟩ :=
    (writeResponseToRec_sat plat m.smp.mem m.data r resp).of_ok hs
  · dsimp only at hw
    subst hw
    refine ⟨fun _ hc => ?_, fun _ w hw => nomatch hw⟩
    rw [hc.2.1] at hlock
    cases hlock
  · dsimp only at hw
    by_cases hne : resp.cookie = r
    · -- the pulling REC is the only one that is mapped
      refine iff_of_true (fun g hg => ?_) fun hc => hc.1 hne
      obtain ⟨va, -, hva⟩ := (hw g).mp hg
      rw [responseTarget, if_neg (not_not.mpr hne)] at hva
      rw [hne]
      exact ⟨List.mem_cons_of_mem _ (vaGranule_nil hva), fun hc => absurd rfl hc⟩
    · have hresp : (m.smp.mem.granule resp.cookie).state = .REC := lockable_state (hfound hne)
      rw [responseTarget, if_pos hne] at hfits hmapped hw
      have hctx : ∀ g, g ∈ written → bytes = [] →
          g ∈ m.smp.mem.recGranules resp.cookie ∧
          (resp.cookie ≠ r → g ∉ m.smp.mem.recGranules r) := by
        rintro g hg rfl
        obtain ⟨va, hva, hget⟩ := (hw g).mp hg
        rw [responseVas, if_pos hne, List.map_nil, List.mem_singleton] at hva
        subst hva
        obtain ⟨h1, h2⟩ := h.ctx_lands hcur hresp hne hget
        exact ⟨h1, fun _ => h2⟩
      cases hdone with
      | dropped old => exact iff_of_true (fun g hg => hctx g hg rfl) fun hc => old hc.2.2.1
      | tooLong same long =>
        exact iff_of_true (fun g hg => hctx g hg rfl) fun hc => absurd hc.2.2.2.2 (not_le.mpr long)
      | signed same fits =>
        by_cases hpos : 0 < resp.sigLen
        · -- the first byte of the signature
          refine iff_of_false (fun hall => ?_) fun hc => hc ⟨hne, hfound hne, same, hpos, fits⟩
          have hva : (m.data resp.cookie).sign.sigBuffer + 0 ∈ responseVas r resp.cookie
              ((List.range resp.sigLen).map fun i =>
                ((m.data resp.cookie).sign.sigBuffer + i, resp.signatureBuf i)) :=
            List.mem_cons_of_mem _ (List.mem_map.mpr
              ⟨_, List.mem_map.mpr ⟨0, List.mem_range.mpr hpos, rfl⟩, rfl⟩)
          obtain ⟨g, hg⟩ := Option.isSome_iff_exists.mp (hmapped _ hva)
          have hrunning := h.byte_lands (lt_of_lt_of_le hpos fits) hfits hg
          exact (hall g ((hw g).mpr ⟨_, hva, hg⟩)).2 hne (List.mem_cons_of_mem _ hrunning)
        · have hzero : resp.sigLen = 0 := by omega
          exact iff_of_true (fun g hg => hctx g hg (by rw [hzero]; rfl)) fun hc => hpos hc.2.2.2.1

/-- The buffer of a call, tested. -/
def ownsSigBuffer (m : TokenSmp ι) : TokenAct ι → Bool
  | .sign c (some att) _ _ =>
    match m.smp.cpu c with
    | .running r => decide (slotToVa slotRecAux0 ≤ att.sigPtr ∧
        att.sigPtr + att.sigBufLen ≤ slotToVa slotRecAux0 + 4096 * (m.smp.mem.recs r).gAux.length)
    | _ => true
  | _ => true

omit [DecidableEq ι] in
theorem SigBufferOwn.of_owns (h : ownsSigBuffer m a = true) : SigBufferOwn m a := by
  rintro c r att push finished rfl hrun
  simp only [ownsSigBuffer, hrun] at h
  exact of_decide_eq_true h

end

/-- The first of two RECs has pulled the response for the second. -/
theorem tokenCrossPull_reached {test : TokenSmp ℕ → Bool}
    (h : (smpReplay tokenKeys demoPlat initSmp tokenTwoRecs).any (fun n =>
      (tokenReplay demoPlat (fun _ => emptyMapHash) ownsSigBuffer (withoutTokens n)
        tokenCrossPull).any test) = true) :
    ∃ m : TokenSmp ℕ, OwnBuffers demoPlat (fun _ => emptyMapHash) m ∧ test m = true := by
  obtain ⟨n, hn, hrest⟩ := (Option.any_eq_true _ _).mp h
  obtain ⟨m, hm, htest⟩ := (Option.any_eq_true _ _).mp hrest
  have hstart : OwnBuffers demoPlat (fun _ => emptyMapHash) (withoutTokens n) :=
    withoutTokens_reach (fun _ _ => nofun) (smpReplay_reachable _ .init hn)
  exact ⟨m, hstart.trans ((tokenReplay_reach _ .init hm).mono fun _ _ => .of_owns), htest⟩

/-- A REC runs, and a response that it writes passes a test. -/
def responseTest (m : TokenSmp ℕ) (c : ℕ) (r : Word) (resp : El3Response)
    (test : List Word → Bool) : Bool :=
  decide (m.smp.cpu c = .running r) &&
  match writeResponseToRec demoPlat m.smp.mem m.data r resp with
  | .error _ => false
  | .ok (_, written) => test written

theorem responseTest_ok {m : TokenSmp ℕ} {c : ℕ} {r : Word} {resp : El3Response}
    {test : List Word → Bool} (h : responseTest m c r resp test = true) :
    m.smp.cpu c = .running r ∧ ∃ data written,
      writeResponseToRec demoPlat m.smp.mem m.data r resp = .ok (data, written) ∧
      test written = true := by
  simp only [responseTest, Bool.and_eq_true, decide_eq_true_eq] at h
  refine ⟨h.1, ?_⟩
  have htest := h.2
  split at htest
  · cases htest
  · next data written hs => exact ⟨data, written, hs, htest⟩

/-- The first REC pulls a response for itself, which lands right, and the signature for the
second, which is written into the eighth auxiliary granule of the first. -/
theorem response_lands_iff_cross : ∃ (m : TokenSmp ℕ) (data data' : Word → AttestData)
    (written written' : List Word), OwnBuffers demoPlat (fun _ => emptyMapHash) m ∧
    writeResponseToRec demoPlat m.smp.mem m.data (gr 22) ⟨gr 22, 2, 96, fun _ => 0#8⟩ =
      .ok (data, written) ∧
    written ≠ [] ∧ LandsRight m.smp.mem (gr 22) (gr 22) written ∧
    writeResponseToRec demoPlat m.smp.mem m.data (gr 22) ⟨gr 56, 1, 96, fun _ => 0#8⟩ =
      .ok (data', written') ∧
    ¬ LandsRight m.smp.mem (gr 22) (gr 56) written' := by
  have hrun : (smpReplay tokenKeys demoPlat initSmp tokenTwoRecs).any (fun n =>
      (tokenReplay demoPlat (fun _ => emptyMapHash) ownsSigBuffer (withoutTokens n)
        tokenCrossPull).any fun m =>
          responseTest m 1 (gr 22) ⟨gr 22, 2, 96, fun _ => 0#8⟩
            (fun written => !written.isEmpty) &&
          responseTest m 1 (gr 22) ⟨gr 56, 1, 96, fun _ => 0#8⟩ (fun _ => true) &&
          (lockable demoPlat m.smp.mem (gr 56) .REC &&
            decide ((m.data (gr 56)).sign.reqTicket = 1) &&
            decide (96 ≤ (m.data (gr 56)).sign.sigLen))) = true := by
    decide +kernel
  obtain ⟨m, hm, htest⟩ := tokenCrossPull_reached hrun
  simp only [Bool.and_eq_true, decide_eq_true_eq] at htest
  obtain ⟨⟨hown, hcross⟩, ⟨hlock, hticket⟩, hlen⟩ := htest
  obtain ⟨hrun, data, written, hs, hne⟩ := responseTest_ok hown
  obtain ⟨-, data', written', hs', -⟩ := responseTest_ok hcross
  refine ⟨m, data, data', written, written', hm, hs, by simpa using hne,
    (response_lands_iff hm hrun hs).mpr fun hc => hc.1 rfl, hs', fun hland => ?_⟩
  exact (response_lands_iff hm hrun hs').mp hland
    ⟨by decide, hlock, hticket, by decide, hlen⟩

section
variable {ι : Type} [DecidableEq ι] {plat : Platform}
  {hashOf : List (BitVec 8) → List (BitVec 8)} {m m' : TokenSmp ι} {a : TokenAct ι}

/-- A granule that is written for a response, with the REC that has pulled the response and
the one that it names. -/
structure ResponseWrite where
  currRec : Word
  respGranule : Word
  granule : Word

/-- What a step writes for a response. -/
def responseWrites (plat : Platform) (m : TokenSmp ι) : TokenAct ι → List ResponseWrite
  | .write c =>
    match m.smp.cpu c, m.resp c with
    | .running r, some resp =>
      match writeResponseToRec plat m.smp.mem m.data r resp with
      | .ok (_, written) => written.map fun g => ⟨r, resp.cookie, g⟩
      | .error _ => []
    | _, _ => []
  | _ => []

/-- In a build with `ATTEST_EL3_TOKEN_SIGN` an encoder starts with the key that it gets there,
whether or not one is loaded. -/
def El3Build (m : TokenSmp ι) (a : TokenAct ι) : Prop :=
  SigBufferOwn m a ∧ ∀ c heapOk signingKey payload, a = .init c heapOk signingKey payload →
    ∃ attestKeyLoaded, signingKey = attestGetRealmSigningKey true attestKeyLoaded

/-- No token is created, and no REC waits for a signature. -/
structure NeverSigns (m : TokenSmp ι) : Prop where
  state : ∀ r, (m.data r).tokenSignCtx.state = .NOT_STARTED ∨
    (m.data r).tokenSignCtx.state = .INIT
  el3 : m.el3 = []
  resp : ∀ c, m.resp c = none

omit [DecidableEq ι] in
theorem NeverSigns.init : NeverSigns (initToken : TokenSmp ι) :=
  ⟨fun _ => .inl rfl, rfl, fun _ => rfl⟩

/-- Without a key a token is begun and not created. -/
theorem handleInit_noKey (d : AttestData) (r : Word) (heapOk : Bool)
    (payload : Option (List (BitVec 8))) :
    (handleRsiAttestTokenInit d r heapOk false payload).1.tokenSignCtx.state = .NOT_STARTED ∨
      (handleRsiAttestTokenInit d r heapOk false payload).1.tokenSignCtx.state = .INIT := by
  have hcreate : ∀ tok : TokenSignCntxt, attestRealmTokenCreate tok false payload =
      (tok, false) := by
    intro tok
    unfold attestRealmTokenCreate
    split <;> rfl
  unfold handleRsiAttestTokenInit attestTokenCtxInit
  by_cases hstate : d.tokenSignCtx.state = .INIT
  · rw [if_neg (not_not.mpr hstate)]
    simp only [hcreate]
    exact .inr hstate
  · rw [if_pos hstate]
    cases heapOk with
    | false => exact .inl rfl
    | true => simp [hcreate]

omit [DecidableEq ι] in
/-- One REC changes its data. -/
theorem NeverSigns.update (h : NeverSigns m) {k : Word} {d : AttestData}
    (hd : d.tokenSignCtx.state = .NOT_STARTED ∨ d.tokenSignCtx.state = .INIT) :
    NeverSigns { m with data := Function.update m.data k d } := by
  refine ⟨fun r => ?_, h.el3, h.resp⟩
  by_cases hr : r = k
  · subst hr
    simpa only [Function.update_self] using hd
  · simpa only [Function.update_of_ne hr] using h.state r

theorem NeverSigns.step (h : NeverSigns m) (ha : El3Build m a)
    (hn : TokenNext plat hashOf m a m') : NeverSigns m' := by
  have hstate : ∀ r {st : TokenState}, st ≠ .NOT_STARTED → st ≠ .INIT →
      (m.data r).tokenSignCtx.state ≠ st := by
    intro r st h1 h2 heq
    exact (h.state r).elim (fun hc => h1 (heq.symm.trans hc)) fun hc => h2 (heq.symm.trans hc)
  cases a with
  | plain b =>
    obtain ⟨n, -, rfl⟩ := hn
    have hdata : ∀ r, (attestDataAfter m.smp.mem n.mem m.data r).tokenSignCtx.state =
        .NOT_STARTED ∨ (attestDataAfter m.smp.mem n.mem m.data r).tokenSignCtx.state = .INIT := by
      intro r
      unfold attestDataAfter
      split
      · exact h.state r
      · exact .inl rfl
    exact ⟨hdata, h.el3, h.resp⟩
  | init c heapOk signingKey payload =>
    obtain ⟨k, -, rfl⟩ := hn
    obtain ⟨loaded, rfl⟩ := ha.2 c heapOk signingKey payload rfl
    exact h.update (handleInit_noKey _ _ _ _)
  | sign c attempt push finished =>
    obtain ⟨k, -, -, d, ticket, req, err, hs, rfl⟩ := hn
    unfold attestRealmTokenSign at hs
    dsimp only at hs
    rw [if_pos (hstate k (by decide) (by decide))] at hs
    cases hs
    rw [Function.update_eq_self]
    exact ⟨h.state, h.el3, h.resp⟩
  | pull c resp =>
    obtain ⟨k, -, ⟨q, hq, -⟩, -⟩ := hn
    rw [h.el3] at hq
    cases hq
  | write c =>
    obtain ⟨k, -, resp, hresp, -⟩ := hn
    rw [h.resp c] at hresp
    cases hresp
  | create c created copied =>
    obtain ⟨k, -, rfl⟩ := hn
    rw [attestCcaTokenCreate, if_pos (.inl (hstate k (by decide) (by decide))),
      Function.update_eq_self]
    exact h

omit [DecidableEq ι] in
theorem NeverSigns.responseWrites_eq (h : NeverSigns m) (a : TokenAct ι) :
    responseWrites plat m a = [] := by
  cases a with
  | write c =>
    simp only [responseWrites, h.resp c]
    split <;> simp_all
  | _ => rfl

/-- In every run of a build in which EL3 signs, whatever a step writes for a response belongs to
the REC that the response names, and to no other REC that has pulled it: EL3 is never asked,
since the encoder of a token gets no key, and so no response is written. -/
theorem response_lands (hm : Reach initToken (TokenNext plat hashOf) El3Build m) :
    (∀ a, ∀ w ∈ responseWrites plat m a, w.granule ∈ m.smp.mem.recGranules w.respGranule ∧
      (w.respGranule ≠ w.currRec → w.granule ∉ m.smp.mem.recGranules w.currRec)) ∧
    (∀ r, (m.data r).tokenSignCtx.state ≠ .SIGN) ∧ m.el3 = [] ∧ ∀ c, m.resp c = none := by
  have h : NeverSigns m := hm.invariant .init fun _ _ _ _ h ha hn => h.step ha hn
  refine ⟨fun a w hw => ?_, fun r hr => ?_, h.el3, h.resp⟩
  · rw [h.responseWrites_eq] at hw
    cases hw
  · obtain hc | hc := h.state r <;> rw [hr] at hc <;> cases hc

/-- The steps of such a build, tested. -/
def el3Builds (m : TokenSmp ι) (a : TokenAct ι) : Bool :=
  ownsSigBuffer m a &&
  match a with
  | .init _ _ signingKey _ => signingKey == attestGetRealmSigningKey true true
  | _ => true

omit [DecidableEq ι] in
theorem El3Build.of_builds (h : el3Builds m a = true) : El3Build m a := by
  unfold el3Builds at h
  obtain ⟨hown, hkey⟩ := Bool.and_eq_true_iff.mp h
  refine ⟨.of_owns hown, ?_⟩
  rintro c heapOk signingKey payload rfl
  exact ⟨true, beq_iff_eq.mp hkey⟩

end

/-- Two RECs that run ask for tokens and go on to signing, which is refused. -/
def tokenRefused : List (TokenAct ℕ) :=
  [.init 2 true false (some [0xA0#8]), .sign 2 (some tokenAttempt) .accepted none,
   .init 1 true false (some [0xA0#8]), .sign 1 (some tokenAttempt) .accepted none]

theorem response_lands_refused : ∃ m : TokenSmp ℕ,
    Reach initToken (TokenNext demoPlat fun _ => emptyMapHash) El3Build m ∧
    m.smp.cpu 1 = .running (gr 22) ∧ m.smp.cpu 2 = .running (gr 56) ∧
    (m.data (gr 22)).tokenSignCtx.state = .INIT ∧ m.el3 = [] := by
  have hrun : (smpReplay tokenKeys demoPlat initSmp tokenTwoRecs).any (fun n =>
      (tokenReplay demoPlat (fun _ => emptyMapHash) el3Builds (withoutTokens n) tokenRefused).any
        fun m => decide (m.smp.cpu 1 = .running (gr 22)) &&
          decide (m.smp.cpu 2 = .running (gr 56)) &&
          decide ((m.data (gr 22)).tokenSignCtx.state = .INIT)) = true := by
    decide +kernel
  obtain ⟨n, hn, hrest⟩ := (Option.any_eq_true _ _).mp hrun
  obtain ⟨m, hm, htest⟩ := (Option.any_eq_true _ _).mp hrest
  simp only [Bool.and_eq_true, decide_eq_true_eq] at htest
  have hstart : Reach initToken (TokenNext demoPlat fun _ => emptyMapHash) El3Build
      (withoutTokens n) :=
    withoutTokens_reach (fun _ _ => ⟨nofun, nofun⟩) (smpReplay_reachable _ .init hn)
  have hreach := hstart.trans ((tokenReplay_reach _ .init hm).mono fun _ _ => .of_builds)
  exact ⟨m, hreach, htest.1.1, htest.1.2, htest.2, (response_lands hreach).2.2.1⟩

end RmmCaec
