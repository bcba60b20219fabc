import RmmCaec.TokenSign

/-!
# Responses find their request

A context is marked signed only by the response to the request that was made for its
hash. Tickets are handed out once, so a response to an earlier request finds another
ticket in the context.
-/
namespace RmmCaec
open Outcome Runs

/-- The signing state of a REC. -/
abbrev AttestData.sign (d : AttestData) : SignState := d.tokenSignCtx.cryptoCtx

/-- What asking for a signature does: nothing but to set the call's data, or to take a
ticket, with or without EL3 accepting the request. -/
inductive SignDone (ctx : SignState) (ticket : ℕ) (call : SignCall) :
    SignState → ℕ → Option El3Request → Prop
  | kept {ctx1 : SignState} (data : ctx1 = ctx ∨ ctx1 = tCoseCryptoInitEl3CtxCrypto ctx call) :
      SignDone ctx ticket call ctx1 ticket none
  | deferred {ctx1 : SignState}
      (data : ctx1 = ctx ∨ ctx1 = tCoseCryptoInitEl3CtxCrypto ctx call)
      (idle : ctx.isReqQueued = false) :
      SignDone ctx ticket call { ctx1 with reqTicket := ticket } (ticket + 1) none
  | accepted {ctx1 : SignState}
      (data : ctx1 = ctx ∨ ctx1 = tCoseCryptoInitEl3CtxCrypto ctx call)
      (idle : ctx.isReqQueued = false) (full : ctx1.hash.length = 48) :
      SignDone ctx ticket call { ctx1 with reqTicket := ticket, isReqQueued := true } (ticket + 1)
        (some ⟨ctx1.cookie, ticket, ctx1.hash⟩)

namespace SignDone

variable {ctx ctx' : SignState} {ticket ticket' : ℕ} {call : SignCall} {req : Option El3Request}

theorem isSigValid_eq (h : SignDone ctx ticket call ctx' ticket' req) :
    ctx'.isSigValid = ctx.isSigValid := by
  cases h with
  | kept data | deferred data idle | accepted data idle full => rcases data with rfl | rfl <;> rfl

/-- A context whose request is queued keeps its ticket. -/
theorem of_queued (h : SignDone ctx ticket call ctx' ticket' req) (hq : ctx.isReqQueued = true) :
    ctx' = ctx ∨ ctx' = tCoseCryptoInitEl3CtxCrypto ctx call := by
  cases h with
  | kept data => exact data
  | deferred data idle | accepted data idle full => simp [hq] at idle

theorem reqTicket_cases (h : SignDone ctx ticket call ctx' ticket' req) :
    ctx'.reqTicket = ctx.reqTicket ∨ ctx'.reqTicket = ticket := by
  cases h with
  | kept data => exact .inl (by rcases data with rfl | rfl <;> rfl)
  | deferred data idle | accepted data idle full => exact .inr rfl

/-- The signature buffer is that of the call, or as before. -/
theorem buffer_cases (h : SignDone ctx ticket call ctx' ticket' req) :
    (ctx'.sigBuffer = ctx.sigBuffer ∧ ctx'.sigLen = ctx.sigLen) ∨
      (ctx'.sigBuffer = call.sigPtr ∧ ctx'.sigLen = call.sigBufLen) := by
  cases h with
  | kept data | deferred data idle | accepted data idle full =>
    rcases data with rfl | rfl
    · exact .inl ⟨rfl, rfl⟩
    · exact .inr ⟨rfl, rfl⟩

end SignDone

theorem tCoseCryptoEl3TokenSignRestart_sat (ctx : SignState) (ticket : ℕ) (call : SignCall)
    (push : El3Push) :
    Sat (tCoseCryptoEl3TokenSignRestart ctx ticket call push)
      (fun res => SignDone ctx ticket call res.1 res.2.1 res.2.2.1) fun _ => True := by
  unfold tCoseCryptoEl3TokenSignRestart
  refine Sat.ite (fun _ => Sat.pure (.kept (.inl rfl))) fun _ => ?_
  dsimp only
  generalize hctx1 : (if call.started = true then ctx else
    tCoseCryptoInitEl3CtxCrypto ctx call) = ctx1
  have data : ctx1 = ctx ∨ ctx1 = tCoseCryptoInitEl3CtxCrypto ctx call := by
    rw [← hctx1]
    split
    · exact .inl rfl
    · exact .inr rfl
  have hidle : ctx1.isReqQueued = ctx.isReqQueued := by
    rcases data with rfl | rfl <;> rfl
  refine Sat.ite (fun _ => ?_) fun hq => ?_
  · exact Sat.bind (Sat.self fun _ _ => trivial) fun _ _ => Sat.pure (.kept data)
  · rw [Bool.not_eq_true, hidle] at hq
    unfold el3TokenSignQueueTryEnqueue
    split_ifs with hinval
    · exact Sat.pure (.kept data)
    · have hfull : ctx1.hash.length = 48 := by
        simp only [not_or, ne_eq, not_not] at hinval
        exact hinval.2.2
      cases push with
      | accepted =>
        exact Sat.bind (Sat.self fun _ _ => trivial) fun _ _ =>
          Sat.pure (@SignDone.accepted ctx ticket call ctx1 data hq hfull)
      | again =>
        exact Sat.bind (Sat.self fun _ _ => trivial) fun _ _ =>
          Sat.pure (@SignDone.deferred ctx ticket call ctx1 data hq)
      | failed => exact Sat.pure (@SignDone.deferred ctx ticket call ctx1 data hq)

/-- The data of a REC after a call: its state of signing moves on, and the rest of its
context stays. -/
theorem attestRealmTokenSign_sat (hashOf : List (BitVec 8) → List (BitVec 8)) (d : AttestData)
    (ticket : ℕ) (attempt : Option SignAttempt) (push : El3Push) (finished : Option ℕ) :
    Sat (attestRealmTokenSign hashOf d ticket attempt push finished)
      (fun res => (res.1 = d ∧ res.2.1 = ticket ∧ res.2.2.1 = none) ∨
        ∃ att : SignAttempt, d.tokenSignCtx.state = .SIGN ∧ attempt = some att ∧
          SignDone d.sign ticket (att.call hashOf d.tokenSignCtx.signedPayload) res.1.sign res.2.1
            res.2.2.1 ∧
          res.1.tokenSignCtx.signedPayload = d.tokenSignCtx.signedPayload ∧
          (res.1.tokenSignCtx.state = .SIGN ∨ res.1.tokenSignCtx.state = .CREATE))
      fun _ => True := by
  unfold attestRealmTokenSign
  refine Sat.ite (fun _ => Sat.pure (.inl ⟨rfl, rfl, rfl⟩)) fun hstate => ?_
  rw [not_ne_iff] at hstate
  cases attempt with
  | none => exact Sat.pure (.inl ⟨rfl, rfl, rfl⟩)
  | some att =>
    refine Sat.bind (tCoseCryptoEl3TokenSignRestart_sat _ _ _ _) ?_
    rintro ⟨ctx, ticket', req, err⟩ hdone
    cases err with
    | SIG_IN_PROGRESS | FAIL | UNSUPPORTED_SIGNING_ALG =>
      exact Sat.pure (.inr ⟨att, hstate, rfl, hdone, rfl, .inl hstate⟩)
    | SUCCESS =>
      cases finished with
      | none => exact Sat.pure (.inr ⟨att, hstate, rfl, hdone, rfl, .inl hstate⟩)
      | some len => exact Sat.pure (.inr ⟨att, hstate, rfl, hdone, rfl, .inr rfl⟩)

/-- What a response does to a context: nothing, an error, or a signature. -/
inductive ResponseDone (ctx : SignState) (resp : El3Response) :
    SignState → List (ℕ × BitVec 8) → Prop
  | dropped (old : ctx.reqTicket ≠ resp.reqTicket) : ResponseDone ctx resp ctx []
  | tooLong (ticket : ctx.reqTicket = resp.reqTicket) (long : ctx.sigLen < resp.sigLen) :
      ResponseDone ctx resp { ctx with isEl3Err := true } []
  | signed (ticket : ctx.reqTicket = resp.reqTicket) (fits : resp.sigLen ≤ ctx.sigLen) :
      ResponseDone ctx resp { ctx with sigLen := resp.sigLen, isSigValid := true }
        ((List.range resp.sigLen).map fun i => (ctx.sigBuffer + i, resp.signatureBuf i))

namespace ResponseDone

variable {ctx ctx' : SignState} {resp : El3Response} {bytes : List (ℕ × BitVec 8)}

/-- A response changes neither the request nor its hash. -/
theorem request_eq (h : ResponseDone ctx resp ctx' bytes) :
    ctx'.reqTicket = ctx.reqTicket ∧ ctx'.hash = ctx.hash := by
  cases h <;> exact ⟨rfl, rfl⟩

theorem of_valid (h : ResponseDone ctx resp ctx' bytes) (hold : ctx.isSigValid = false)
    (hnew : ctx'.isSigValid = true) : ctx.reqTicket = resp.reqTicket := by
  cases h with
  | dropped old => simp [hold] at hnew
  | tooLong ticket long => simp [hold] at hnew
  | signed ticket fits => exact ticket

/-- The signature does not become longer. -/
theorem buffer_eq (h : ResponseDone ctx resp ctx' bytes) :
    ctx'.sigBuffer = ctx.sigBuffer ∧ ctx'.sigLen ≤ ctx.sigLen := by
  cases h with
  | dropped old => exact ⟨rfl, le_rfl⟩
  | tooLong ticket long => exact ⟨rfl, le_rfl⟩
  | signed ticket fits => exact ⟨rfl, fits⟩

end ResponseDone

theorem attestEl3TokenWriteResponseToCtx_sat (ctx : SignState) (resp : El3Response) :
    Sat (attestEl3TokenWriteResponseToCtx ctx resp resp.cookie)
      (fun res => ResponseDone ctx resp res.1 res.2.1) fun _ => True := by
  unfold attestEl3TokenWriteResponseToCtx
  rw [if_neg (not_not.mpr rfl)]
  refine Sat.ite (fun hne => ?_) fun heq => ?_
  · exact Sat.bind (Sat.self fun _ _ => trivial) fun _ _ => Sat.pure (.dropped hne)
  · rw [not_ne_iff] at heq
    refine Sat.ite (fun hlong => Sat.pure (.tooLong heq hlong)) fun hfits => ?_
    exact Sat.pure (.signed heq (not_lt.mp hfits))

/-- The addresses that are written for a response: the context, in the window where the CPU
has mapped it, and the bytes of the signature. -/
def responseVas (currRec respGranule : Word) (bytes : List (ℕ × BitVec 8)) : List ℕ :=
  (slotToVa (if respGranule ≠ currRec then slotEl3TokenSignAux0 else slotRecAux0) + recHeapSize +
    recPmuSize + recSimdSize) :: bytes.map Prod.fst

/-- The auxiliary granules of another REC that the CPU has mapped for a response. -/
def responseTarget (s : State) (currRec respGranule : Word) : List Word :=
  if respGranule ≠ currRec then (s.recs respGranule).gAux else []

theorem writeResponseToRec_sat (plat : Platform) (s : State) (data : Word → AttestData)
    (currRec : Word) (resp : El3Response) :
    Sat (writeResponseToRec plat s data currRec resp)
      (fun res => (res.1 = data ∧ res.2 = [] ∧ lockable plat s resp.cookie .REC = false ∧
          resp.cookie ≠ currRec) ∨
        ((resp.cookie ≠ currRec → lockable plat s resp.cookie .REC = true) ∧
          (responseTarget s currRec resp.cookie).length ≤ maxRecAuxGranules ∧ ∃ ctx bytes,
          ResponseDone (data resp.cookie).sign resp ctx bytes ∧
          res.1 = Function.update data resp.cookie { data resp.cookie with
            tokenSignCtx := { (data resp.cookie).tokenSignCtx with cryptoCtx := ctx } } ∧
          (∀ va ∈ responseVas currRec resp.cookie bytes, (vaGranule (auxSlots
            (s.recs currRec).gAux (responseTarget s currRec resp.cookie)) va).isSome = true) ∧
          ∀ g, g ∈ res.2 ↔ ∃ va ∈ responseVas currRec resp.cookie bytes,
            vaGranule (auxSlots
            (s.recs currRec).gAux (responseTarget s currRec resp.cookie)) va = some g))
      fun _ => True := by
  have lock : Sat (if resp.cookie ≠ currRec then findLockGranule plat s [] resp.cookie .REC
      else pure true)
      (fun found => (resp.cookie = currRec ∧ found = true) ∨
        (resp.cookie ≠ currRec ∧ found = lockable plat s resp.cookie .REC)) fun _ => True := by
    refine Sat.ite (fun hne => ?_) fun heq => Sat.pure (.inl ⟨not_not.mp heq, rfl⟩)
    rw [← bind_pure (findLockGranule plat s [] resp.cookie .REC)]
    exact findLockGranule_sat trivial (Sat.pure (.inr ⟨hne, rfl⟩))
  unfold writeResponseToRec
  refine Sat.bind lock fun found hfound => ?_
  refine Sat.ite (fun hnot => ?_) fun hyes => ?_
  · have hfalse : found = false := by simpa using hnot
    obtain ⟨-, htrue⟩ | ⟨hne, hlock⟩ := hfound
    · rw [hfalse] at htrue
      cases htrue
    · exact Sat.pure (.inl ⟨rfl, rfl, hlock.symm.trans hfalse, hne⟩)
  · have htrue : found = true := by simpa using hyes
    have hlock : resp.cookie ≠ currRec → lockable plat s resp.cookie .REC = true := by
      intro hne
      obtain ⟨heq, -⟩ | ⟨-, hlock⟩ := hfound
      · exact absurd heq hne
      · rw [← hlock, htrue]
    refine assertThat_sat (fun _ => trivial) fun hlen => ?_
    refine Sat.bind (attestEl3TokenWriteResponseToCtx_sat _ resp) ?_
    rintro ⟨ctx, bytes, done⟩ hdone
    refine assertThat_sat (fun _ => trivial) fun hall => ?_
    refine Sat.pure (.inr ⟨hlock, of_decide_eq_true hlen, ctx, bytes, hdone, rfl,
      ?_, fun g => ?_⟩)
    · intro va hva
      exact List.all_eq_true.mp hall _ (List.mem_map_of_mem hva)
    · unfold responseVas responseTarget
      rw [List.reduceOption_mem_iff, List.mem_map]

@[simp] theorem attestCcaTokenCreate_sign (d : AttestData) (created copied : Bool) :
    (attestCcaTokenCreate d created copied).sign = d.sign := by
  unfold attestCcaTokenCreate
  split <;> rfl

/-- What ties the context of a REC to the requests that EL3 has accepted. -/
structure TokenOk (hashOf : List (BitVec 8) → List (BitVec 8))
    (el3 : List El3Request) (ticket : ℕ)
    (r : Word) (d : AttestData) : Prop where
  lt : d.sign.reqTicket < ticket
  cookie : d.tokenSignCtx.state = .SIGN → d.sign.cookie = r
  clean : d.tokenSignCtx.state = .INIT → d.sign = tCoseCryptoEl3CtxInit r
  hash : d.sign.hash = [] ∨ d.sign.hash = hashOf d.tokenSignCtx.signedPayload
  queued : d.sign.isReqQueued = true → ⟨r, d.sign.reqTicket, d.sign.hash⟩ ∈ el3
  fresh : d.sign.isReqQueued = false → ∀ q ∈ el3, q.reqTicket ≠ d.sign.reqTicket
  valid : d.sign.isSigValid = true → d.sign.isReqQueued = true

/-- What EL3 has accepted so far. -/
structure El3Ok (el3 : List El3Request) (ticket : ℕ) : Prop where
  bound : ∀ q ∈ el3, 0 < q.reqTicket ∧ q.reqTicket < ticket
  unique : ∀ q ∈ el3, ∀ q' ∈ el3, q.reqTicket = q'.reqTicket → q = q'
  full : ∀ q ∈ el3, q.hashBuf.length = 48
  positive : 0 < ticket

namespace TokenOk

variable {hashOf : List (BitVec 8) → List (BitVec 8)} {el3 : List El3Request} {ticket : ℕ}
  {r : Word} {d : AttestData}

/-- A context without a request. -/
theorem of_clean (he : El3Ok el3 ticket) {d : AttestData} {k : Word}
    (hd : d.sign = tCoseCryptoEl3CtxInit k)
    (hsign : d.tokenSignCtx.state = .SIGN → k = r)
    (hinit : d.tokenSignCtx.state = .INIT → k = r) : TokenOk hashOf el3 ticket r d where
  lt := by
    rw [hd]
    exact he.positive
  cookie h := by
    rw [hd]
    exact hsign h
  clean h := by rw [hd, hinit h]
  hash := .inl (by rw [hd]; rfl)
  queued h := by
    rw [hd] at h
    cases h
  fresh _ q hq := by
    rw [hd]
    exact (he.bound q hq).1.ne'
  valid h := by
    rw [hd] at h
    cases h

theorem of_default (he : El3Ok el3 ticket) : TokenOk hashOf el3 ticket r default :=
  of_clean he (k := 0#64) rfl nofun nofun

/-- RSI_ATTESTATION_TOKEN_INIT leaves a clean context. -/
theorem handleInit_sign (h : TokenOk hashOf el3 ticket r d) (heapOk signingKey : Bool)
    (payload : Option (List (BitVec 8))) :
    (handleRsiAttestTokenInit d r heapOk signingKey payload).1 = default ∨
      (handleRsiAttestTokenInit d r heapOk signingKey payload).1.sign =
        tCoseCryptoEl3CtxInit r := by
  have create : ∀ tok : TokenSignCntxt, tok.cryptoCtx = tCoseCryptoEl3CtxInit r →
      (attestRealmTokenCreate tok signingKey payload).1.cryptoCtx = tCoseCryptoEl3CtxInit r := by
    intro tok hctx
    unfold attestRealmTokenCreate
    split
    · exact hctx
    · split
      · exact hctx
      · split <;> exact hctx
  unfold handleRsiAttestTokenInit attestTokenCtxInit
  by_cases hstate : d.tokenSignCtx.state = .INIT
  · rw [if_neg (not_not.mpr hstate)]
    exact .inr (create _ (h.clean hstate))
  · rw [if_pos hstate]
    cases heapOk with
    | false => exact .inl rfl
    | true => exact .inr (create ⟨.INIT, [], tCoseCryptoEl3CtxInit r⟩ rfl)

theorem handleInit (he : El3Ok el3 ticket) (h : TokenOk hashOf el3 ticket r d)
    (heapOk signingKey : Bool) (payload : Option (List (BitVec 8))) :
    TokenOk hashOf el3 ticket r (handleRsiAttestTokenInit d r heapOk signingKey payload).1 := by
  obtain hd | hd := h.handleInit_sign heapOk signingKey payload
  · rw [hd]
    exact of_default he
  · exact of_clean he hd (fun _ => rfl) fun _ => rfl

/-- No signature and no ticket are left. -/
theorem handleInit_unsigned (h : TokenOk hashOf el3 ticket r d) (heapOk signingKey : Bool)
    (payload : Option (List (BitVec 8))) :
    (handleRsiAttestTokenInit d r heapOk signingKey payload).1.sign.isSigValid = false ∧
      (handleRsiAttestTokenInit d r heapOk signingKey payload).1.sign.reqTicket = 0 := by
  obtain hd | hd := h.handleInit_sign heapOk signingKey payload <;> rw [hd] <;> exact ⟨rfl, rfl⟩

/-- EL3 accepts a request of another REC. -/
theorem other (h : TokenOk hashOf el3 ticket r d) {q : El3Request} (hq : q.reqTicket = ticket) :
    TokenOk hashOf (q :: el3) (ticket + 1) r d where
  lt := Nat.lt_succ_of_lt h.lt
  cookie := h.cookie
  clean := h.clean
  hash := h.hash
  queued hc := List.mem_cons_of_mem _ (h.queued hc)
  fresh hc q' hq' := by
    rcases List.mem_cons.mp hq' with rfl | hq'
    · have := h.lt
      omega
    · exact h.fresh hc q' hq'
  valid := h.valid

/-- A ticket is handed out. -/
theorem succ (h : TokenOk hashOf el3 ticket r d) : TokenOk hashOf el3 (ticket + 1) r d :=
  ⟨Nat.lt_succ_of_lt h.lt, h.cookie, h.clean, h.hash, h.queued, h.fresh, h.valid⟩

/-- The hash of a context with a request is that of its token. -/
theorem hash_eq (he : El3Ok el3 ticket) (h : TokenOk hashOf el3 ticket r d)
    (hq : d.sign.isReqQueued = true) : d.sign.hash = hashOf d.tokenSignCtx.signedPayload := by
  rcases h.hash with hnil | heq
  · have := he.full _ (h.queued hq)
    simp [hnil] at this
  · exact heq

/-- A REC asks for a signature. -/
theorem sign (he : El3Ok el3 ticket) (h : TokenOk hashOf el3 ticket r d) {d' : AttestData}
    {att : SignAttempt} {ticket' : ℕ} {req : Option El3Request}
    (hstate : d.tokenSignCtx.state = .SIGN)
    (hdone : SignDone d.sign ticket (att.call hashOf d.tokenSignCtx.signedPayload) d'.sign ticket'
      req)
    (hpayload : d'.tokenSignCtx.signedPayload = d.tokenSignCtx.signedPayload)
    (hstate' : d'.tokenSignCtx.state = .SIGN ∨ d'.tokenSignCtx.state = .CREATE) :
    TokenOk hashOf (req.toList ++ el3) ticket' r d' := by
  obtain ⟨len, state, payload, ctx⟩ := d'
  have hinit : state ≠ .INIT := by
    rcases hstate' with h1 | h1 <;> rintro rfl <;> cases h1
  subst hpayload
  have hcookie := h.cookie hstate
  -- the data of the call is that of the token, so a context with a request keeps its hash
  have hdata : ∀ {ctx1 : SignState}, ctx1 = d.sign ∨ ctx1 = tCoseCryptoInitEl3CtxCrypto d.sign
      (att.call hashOf d.tokenSignCtx.signedPayload) →
      ctx1.isReqQueued = d.sign.isReqQueued ∧ ctx1.isSigValid = d.sign.isSigValid ∧
      ctx1.reqTicket = d.sign.reqTicket ∧ ctx1.cookie = d.sign.cookie ∧
      (ctx1.hash = [] ∨ ctx1.hash = hashOf d.tokenSignCtx.signedPayload) ∧
      (d.sign.isReqQueued = true → ctx1.hash = d.sign.hash) := by
    rintro ctx1 (rfl | rfl)
    · exact ⟨rfl, rfl, rfl, rfl, h.hash, fun _ => rfl⟩
    · exact ⟨rfl, rfl, rfl, rfl, .inr rfl, fun hq => (h.hash_eq he hq).symm⟩
  cases hdone with
  | kept data =>
    obtain ⟨h1, h2, h3, h4, h5, h6⟩ := hdata data
    refine ⟨?_, fun _ => h4.trans hcookie, fun hc => absurd hc hinit, h5,
      fun hq => ?_, fun hq => ?_,
      fun hv => ?_⟩
    · exact h3.trans_lt h.lt
    · have hold := h.queued (h1.symm.trans hq)
      rwa [← h3, ← h6 (h1.symm.trans hq)] at hold
    · rw [show ctx.reqTicket = d.sign.reqTicket from h3]
      exact h.fresh (h1.symm.trans hq)
    · exact h1.trans (h.valid (h2.symm.trans hv))
  | @deferred ctx1 data idle =>
    obtain ⟨h1, h2, h3, h4, h5, -⟩ := hdata data
    refine ⟨Nat.lt_succ_self _, fun _ => h4.trans hcookie, fun hc => absurd hc hinit, h5,
      fun hq => ?_, fun _ q hq => ?_, fun hv => ?_⟩
    · exact absurd (h1.symm.trans hq) (by simp [idle])
    · exact (he.bound q hq).2.ne
    · exact absurd (h.valid (h2.symm.trans hv)) (by simp [idle])
  | @accepted ctx1 data idle full =>
    obtain ⟨h1, h2, h3, h4, h5, -⟩ := hdata data
    refine ⟨Nat.lt_succ_self _, fun _ => h4.trans hcookie, fun hc => absurd hc hinit, h5,
      fun _ => ?_, (fun hq => nomatch hq), fun _ => rfl⟩
    rw [h4, hcookie]
    exact List.mem_cons_self

/-- A ticket that EL3 has accepted is that of a context whose request is queued. -/
theorem queued_of_ticket (h : TokenOk hashOf el3 ticket r d) {q : El3Request} (hq : q ∈ el3)
    (hticket : d.sign.reqTicket = q.reqTicket) : d.sign.isReqQueued = true := by
  by_contra hc
  exact h.fresh (by simpa using hc) q hq hticket.symm

theorem not_init_of_queued (h : TokenOk hashOf el3 ticket r d) (hq : d.sign.isReqQueued = true) :
    d.tokenSignCtx.state ≠ .INIT := by
  intro hc
  rw [h.clean hc] at hq
  cases hq

/-- A response for the REC is written. -/
theorem write (h : TokenOk hashOf el3 ticket r d) {resp : El3Response} {ctx : SignState}
    {bytes : List (ℕ × BitVec 8)} (hdone : ResponseDone d.sign resp ctx bytes)
    (hq : ∃ q ∈ el3, resp.cookie = q.cookie ∧ resp.reqTicket = q.reqTicket) :
    TokenOk hashOf el3 ticket r
      { d with tokenSignCtx := { d.tokenSignCtx with cryptoCtx := ctx } } := by
  obtain ⟨q, hmem, -, hticket⟩ := hq
  cases hdone with
  | dropped old => exact h
  | tooLong same long =>
    have hqueued := h.queued_of_ticket hmem (same.trans hticket)
    exact ⟨h.lt, h.cookie, fun hc => absurd hc (h.not_init_of_queued hqueued), h.hash, h.queued,
      h.fresh, h.valid⟩
  | signed same fits =>
    have hqueued := h.queued_of_ticket hmem (same.trans hticket)
    exact ⟨h.lt, h.cookie, fun hc => absurd hc (h.not_init_of_queued hqueued), h.hash, h.queued,
      h.fresh, fun _ => hqueued⟩

/-- The token is done. -/
theorem ccaTokenCreate (h : TokenOk hashOf el3 ticket r d) (created copied : Bool) :
    TokenOk hashOf el3 ticket r (attestCcaTokenCreate d created copied) := by
  unfold attestCcaTokenCreate
  split
  · exact h
  · exact ⟨h.lt, nofun, nofun, h.hash, h.queued, h.fresh, h.valid⟩

end TokenOk

/-- A request is sent, or not. -/
theorem El3Ok.sign {el3 : List El3Request} {ticket : ℕ} (he : El3Ok el3 ticket)
    {ctx ctx' : SignState} {call : SignCall} {ticket' : ℕ} {req : Option El3Request}
    (hdone : SignDone ctx ticket call ctx' ticket' req) : El3Ok (req.toList ++ el3) ticket' := by
  cases hdone with
  | kept data => exact he
  | deferred data idle =>
    exact ⟨fun q hq => ⟨(he.bound q hq).1, Nat.lt_succ_of_lt (he.bound q hq).2⟩,
      he.unique, he.full,
      Nat.succ_pos _⟩
  | accepted data idle full =>
    refine ⟨fun q hq => ?_, fun q hq q' hq' heq => ?_, fun q hq => ?_, Nat.succ_pos _⟩
    · rcases List.mem_cons.mp hq with rfl | hq
      · exact ⟨he.positive, Nat.lt_succ_self _⟩
      · exact ⟨(he.bound q hq).1, Nat.lt_succ_of_lt (he.bound q hq).2⟩
    · rcases List.mem_cons.mp hq with rfl | hq <;> rcases List.mem_cons.mp hq' with rfl | hq'
      · rfl
      · exact absurd heq (he.bound q' hq').2.ne'
      · exact absurd heq (he.bound q hq).2.ne
      · exact he.unique q hq q' hq' heq
    · rcases List.mem_cons.mp hq with rfl | hq
      · exact full
      · exact he.full q hq

/-- Other contexts are not touched by a request. -/
theorem TokenOk.of_sign {hashOf : List (BitVec 8) → List (BitVec 8)} {el3 : List El3Request}
    {ticket : ℕ} {r : Word} {d : AttestData} (h : TokenOk hashOf el3 ticket r d)
    {ctx ctx' : SignState} {call : SignCall} {ticket' : ℕ} {req : Option El3Request}
    (hdone : SignDone ctx ticket call ctx' ticket' req) :
    TokenOk hashOf (req.toList ++ el3) ticket' r d := by
  cases hdone with
  | kept data => exact h
  | deferred data idle => exact h.succ
  | accepted data idle full => exact h.other rfl

section
variable {ι : Type} [DecidableEq ι] {plat : Platform}
  {hashOf : List (BitVec 8) → List (BitVec 8)} {m m' : TokenSmp ι} {a : TokenAct ι}

/-- What holds between any two steps. -/
structure TokenInv (hashOf : List (BitVec 8) → List (BitVec 8)) (m : TokenSmp ι) : Prop where
  el3 : El3Ok m.el3 m.ticket
  data : ∀ r, TokenOk hashOf m.el3 m.ticket r (m.data r)
  resp : ∀ c resp, m.resp c = some resp →
    ∃ q ∈ m.el3, resp.cookie = q.cookie ∧ resp.reqTicket = q.reqTicket

/-- What a step does to the data of one REC. -/
inductive TokenMove (hashOf : List (BitVec 8) → List (BitVec 8)) (m : TokenSmp ι) (r : Word)
    (d' : AttestData) : TokenAct ι → Prop
  | same {a : TokenAct ι} (eq : d' = m.data r) : TokenMove hashOf m r d' a
  | cleared {a : TokenAct ι} (eq : d' = default) : TokenMove hashOf m r d' a
  | init {c : ι} {heapOk signingKey : Bool} {payload : Option (List (BitVec 8))}
      (eq : d' = (handleRsiAttestTokenInit (m.data r) r heapOk signingKey payload).1) :
      TokenMove hashOf m r d' (.init c heapOk signingKey payload)
  | sign {c : ι} {att : SignAttempt} {push : El3Push} {finished : Option ℕ} {ticket' : ℕ}
      {req : Option El3Request} (state : (m.data r).tokenSignCtx.state = .SIGN)
      (done : SignDone (m.data r).sign m.ticket
        (att.call hashOf (m.data r).tokenSignCtx.signedPayload) d'.sign ticket' req) :
      TokenMove hashOf m r d' (.sign c (some att) push finished)
  | write {c : ι} {resp : El3Response} {bytes : List (ℕ × BitVec 8)}
      (pulled : m.resp c = some resp) (cookie : resp.cookie = r)
      (done : ResponseDone (m.data r).sign resp d'.sign bytes) : TokenMove hashOf m r d' (.write c)
  | create {c : ι} {created copied : Bool}
      (eq : d' = attestCcaTokenCreate (m.data r) created copied) :
      TokenMove hashOf m r d' (.create c created copied)

theorem TokenNext.tokenMove (hn : TokenNext plat hashOf m a m') (r : Word) :
    TokenMove hashOf m r (m'.data r) a := by
  cases a with
  | plain a =>
    obtain ⟨n, -, rfl⟩ := hn
    show TokenMove hashOf m r (attestDataAfter m.smp.mem n.mem m.data r) _
    unfold attestDataAfter
    split
    · exact .same rfl
    · exact .cleared rfl
  | init c heapOk signingKey payload =>
    obtain ⟨k, -, rfl⟩ := hn
    by_cases hr : r = k
    · subst hr
      exact .init (Function.update_self _ _ _)
    · exact .same (Function.update_of_ne hr _ _)
  | sign c attempt push finished =>
    obtain ⟨k, -, -, d, ticket, req, err, hs, rfl⟩ := hn
    by_cases hr : r = k
    · subst hr
      have hd :=
        (attestRealmTokenSign_sat hashOf (m.data r) m.ticket attempt push finished).of_ok hs
      have hself : Function.update m.data r d r = d := Function.update_self _ _ _
      obtain ⟨hdata, -, -⟩ | ⟨att, hstate, rfl, hdone, -, -⟩ := hd
      · exact .same (hself.trans hdata)
      · have hdone' : SignDone (m.data r).sign m.ticket
            (att.call hashOf (m.data r).tokenSignCtx.signedPayload)
            (Function.update m.data r d r).sign ticket req := by
          rw [hself]
          exact hdone
        exact .sign hstate hdone'
    · exact .same (Function.update_of_ne hr _ _)
  | pull c resp =>
    obtain ⟨k, -, -, rfl⟩ := hn
    exact .same rfl
  | write c =>
    obtain ⟨k, -, resp, hresp, data, written, hs, rfl⟩ := hn
    obtain ⟨hdata, -⟩ | ⟨-, -, ctx, bytes, hdone, hdata, -⟩ :=
      (writeResponseToRec_sat plat m.smp.mem m.data k resp).of_ok hs
    · exact .same (congrFun hdata r)
    · dsimp only at hdata
      by_cases hr : r = resp.cookie
      · have hdone' : ResponseDone (m.data r).sign resp (data r).sign bytes := by
          rw [hdata, hr, Function.update_self]
          exact hdone
        exact .write hresp hr.symm hdone'
      · refine .same ?_
        show data r = _
        rw [hdata, Function.update_of_ne hr]
  | create c created copied =>
    obtain ⟨k, -, rfl⟩ := hn
    by_cases hr : r = k
    · subst hr
      exact .create (Function.update_self _ _ _)
    · exact .same (Function.update_of_ne hr _ _)

omit [DecidableEq ι] in
/-- One REC changes its data, and EL3 hears nothing of it. -/
theorem TokenInv.update (h : TokenInv hashOf m) {k : Word} {d : AttestData}
    (hd : TokenOk hashOf m.el3 m.ticket k d) :
    TokenInv hashOf { m with data := Function.update m.data k d } := by
  refine ⟨h.el3, fun r => ?_, h.resp⟩
  by_cases hr : r = k
  · subst hr
    show TokenOk hashOf m.el3 m.ticket r (Function.update m.data r d r)
    rwa [Function.update_self]
  · show TokenOk hashOf m.el3 m.ticket r (Function.update m.data k d r)
    rw [Function.update_of_ne hr]
    exact h.data r

theorem TokenInv.step (h : TokenInv hashOf m) (hn : TokenNext plat hashOf m a m') :
    TokenInv hashOf m' := by
  cases a with
  | plain a =>
    obtain ⟨n, -, rfl⟩ := hn
    refine ⟨h.el3, fun r => ?_, h.resp⟩
    show TokenOk hashOf m.el3 m.ticket r (attestDataAfter m.smp.mem n.mem m.data r)
    unfold attestDataAfter
    split
    · exact h.data r
    · exact .of_default h.el3
  | init c heapOk signingKey payload =>
    obtain ⟨k, -, rfl⟩ := hn
    exact h.update ((h.data k).handleInit h.el3 heapOk signingKey payload)
  | sign c attempt push finished =>
    obtain ⟨k, -, -, d, ticket, req, err, hs, rfl⟩ := hn
    obtain ⟨hdata, hticket, hreq⟩ | ⟨att, hstate, -, hdone, hpayload, hstate'⟩ :=
      (attestRealmTokenSign_sat hashOf (m.data k) m.ticket attempt push finished).of_ok hs
    · dsimp only at hdata hticket hreq
      subst hdata hticket hreq
      exact h.update (h.data k)
    · refine ⟨h.el3.sign hdone, fun r => ?_, fun c resp hresp => ?_⟩
      · show TokenOk hashOf (req.toList ++ m.el3) ticket r (Function.update m.data k d r)
        by_cases hr : r = k
        · subst hr
          rw [Function.update_self]
          exact (h.data r).sign h.el3 hstate hdone hpayload hstate'
        · rw [Function.update_of_ne hr]
          exact (h.data r).of_sign hdone
      · obtain ⟨q, hq, heq⟩ := h.resp c resp hresp
        exact ⟨q, List.mem_append_right _ hq, heq⟩
  | pull c resp =>
    obtain ⟨k, -, hq, rfl⟩ := hn
    refine ⟨h.el3, h.data, fun c' resp' hresp => ?_⟩
    by_cases hc : c' = c
    · subst hc
      have : resp = resp' := by simpa using hresp
      exact this ▸ hq
    · exact h.resp c' resp' (by simpa [hc] using hresp)
  | write c =>
    obtain ⟨k, -, resp, hresp, data, written, hs, rfl⟩ := hn
    have hq := h.resp c resp hresp
    have hinv : TokenInv hashOf { m with data := data } := by
      obtain ⟨hdata, -⟩ | ⟨-, -, ctx, bytes, hdone, hdata, -⟩ :=
        (writeResponseToRec_sat plat m.smp.mem m.data k resp).of_ok hs
      · dsimp only at hdata
        subst hdata
        exact h
      · dsimp only at hdata
        rw [hdata]
        exact h.update ((h.data _).write hdone hq)
    refine ⟨hinv.el3, hinv.data, fun c' resp' hresp' => ?_⟩
    by_cases hc : c' = c
    · subst hc
      simp at hresp'
    · exact h.resp c' resp' (by simpa [hc] using hresp')
  | create c created copied =>
    obtain ⟨k, -, rfl⟩ := hn
    exact h.update ((h.data k).ccaTokenCreate created copied)

omit [DecidableEq ι] in
theorem TokenInv.init : TokenInv hashOf (initToken : TokenSmp ι) := by
  have he : El3Ok [] 1 := ⟨nofun, nofun, nofun, Nat.one_pos⟩
  exact ⟨he, fun _ => .of_default he, nofun⟩

theorem TokenInv.reach (hm : TokenReachable plat hashOf m) : TokenInv hashOf m :=
  hm.invariant .init fun _ _ _ _ h _ hn => h.step hn

/-- A context is marked signed by the response to the request for its hash. -/
theorem TokenInv.validated (h : TokenInv hashOf m) (hn : TokenNext plat hashOf m a m') {r : Word}
    (hold : (m.data r).sign.isSigValid = false) (hnew : (m'.data r).sign.isSigValid = true) :
    ∃ c resp, a = .write c ∧ m.resp c = some resp ∧ resp.cookie = r ∧
      resp.reqTicket = (m.data r).sign.reqTicket ∧
      ∀ q ∈ m.el3, q.reqTicket = resp.reqTicket →
        q = ⟨r, (m.data r).sign.reqTicket, (m.data r).sign.hash⟩ := by
  cases hn.tokenMove r with
  | same eq => simp [eq, hold] at hnew
  | cleared eq =>
    rw [eq] at hnew
    cases hnew
  | init eq => simp [eq, (h.data r).handleInit_unsigned] at hnew
  | sign state done => simp [done.isSigValid_eq, hold] at hnew
  | @write c resp bytes pulled cookie done =>
    have hticket := done.of_valid hold hnew
    obtain ⟨q, hq, -, hqt⟩ := h.resp c resp pulled
    have hqueued := (h.data r).queued_of_ticket hq (hticket.trans hqt)
    refine ⟨c, resp, rfl, pulled, cookie, hticket.symm, fun q' hq' heq => ?_⟩
    exact h.el3.unique q' hq' _ ((h.data r).queued hqueued) (heq.trans hticket.symm)
  | create eq => simp [eq, hold] at hnew

/-- A signed context keeps its request as long as it is signed. -/
theorem TokenInv.signed_kept (h : TokenInv hashOf m) (hn : TokenNext plat hashOf m a m') {r : Word}
    (hold : (m.data r).sign.isSigValid = true) (hnew : (m'.data r).sign.isSigValid = true) :
    (m'.data r).sign.reqTicket = (m.data r).sign.reqTicket ∧
      (m'.data r).sign.hash = (m.data r).sign.hash := by
  have hqueued := (h.data r).valid hold
  cases hn.tokenMove r with
  | same eq => exact ⟨by rw [eq], by rw [eq]⟩
  | cleared eq =>
    rw [eq] at hnew
    cases hnew
  | init eq => simp [eq, (h.data r).handleInit_unsigned] at hnew
  | sign state done =>
    obtain heq | heq := done.of_queued hqueued
    · exact ⟨by rw [heq], by rw [heq]⟩
    · refine ⟨by rw [heq]; rfl, ?_⟩
      rw [heq]
      exact ((h.data r).hash_eq h.el3 hqueued).symm
  | write pulled cookie done => exact done.request_eq
  | create eq =>
      exact ⟨by rw [eq, attestCcaTokenCreate_sign], by rw [eq, attestCcaTokenCreate_sign]⟩

/-- A new ticket is the next of the counter. -/
theorem TokenInv.reqTicket_cases (h : TokenInv hashOf m) (hn : TokenNext plat hashOf m a m')
    (r : Word) :
    (m'.data r).sign.reqTicket = (m.data r).sign.reqTicket ∨ (m'.data r).sign.reqTicket = 0 ∨
      (m'.data r).sign.reqTicket = m.ticket := by
  cases hn.tokenMove r with
  | same eq => exact .inl (by rw [eq])
  | cleared eq => exact .inr (.inl (by rw [eq]; rfl))
  | init eq =>
    rw [eq]
    exact .inr (.inl ((h.data r).handleInit_unsigned _ _ _).2)
  | sign state done => exact done.reqTicket_cases.imp_right .inr
  | write pulled cookie done => exact .inl done.request_eq.1
  | create eq => exact .inl (by rw [eq, attestCcaTokenCreate_sign])

/-- Whatever the order of requests, responses and restarts: a signed context has the
signature of its own hash, and tickets are not reused. -/
theorem token_sign_protocol (hm : TokenReachable plat hashOf m) :
    (∀ r, (m.data r).sign.isSigValid = true →
      ⟨r, (m.data r).sign.reqTicket, (m.data r).sign.hash⟩ ∈ m.el3 ∧
      (m.data r).sign.hash = hashOf (m.data r).tokenSignCtx.signedPayload ∧
      ∀ q ∈ m.el3, q.reqTicket = (m.data r).sign.reqTicket →
        q = ⟨r, (m.data r).sign.reqTicket, (m.data r).sign.hash⟩) ∧
    (∀ a m' r, TokenNext plat hashOf m a m' → (m.data r).sign.isSigValid = false →
      (m'.data r).sign.isSigValid = true →
      ∃ c resp, a = .write c ∧ m.resp c = some resp ∧ resp.cookie = r ∧
        resp.reqTicket = (m.data r).sign.reqTicket ∧
        ∀ q ∈ m.el3, q.reqTicket = resp.reqTicket →
          q = ⟨r, (m.data r).sign.reqTicket, (m.data r).sign.hash⟩) ∧
    (∀ a m' r, TokenNext plat hashOf m a m' → (m.data r).sign.isSigValid = true →
      (m'.data r).sign.isSigValid = true →
      (m'.data r).sign.reqTicket = (m.data r).sign.reqTicket ∧
        (m'.data r).sign.hash = (m.data r).sign.hash) ∧
    ∀ a m' r, TokenNext plat hashOf m a m' →
      (m'.data r).sign.reqTicket ≠ (m.data r).sign.reqTicket →
      (m'.data r).sign.reqTicket ≠ 0 →
      (∀ q ∈ m.el3, q.reqTicket < (m'.data r).sign.reqTicket) ∧
        ∀ r', (m.data r').sign.reqTicket < (m'.data r).sign.reqTicket := by
  have h := TokenInv.reach hm
  refine ⟨fun r hv => ?_, fun a m' r hn => h.validated hn, fun a m' r hn => h.signed_kept hn,
    fun a m' r hn hne hpos => ?_⟩
  · have hqueued := (h.data r).valid hv
    have hmem := (h.data r).queued hqueued
    exact ⟨hmem, (h.data r).hash_eq h.el3 hqueued, fun q hq heq => h.el3.unique q hq _ hmem heq⟩
  · obtain heq | heq | heq := h.reqTicket_cases hn r
    · exact absurd heq hne
    · exact absurd heq hpos
    · rw [heq]
      exact ⟨fun q hq => (h.el3.bound q hq).2, fun r' => (h.data r').lt⟩

end

/-- Create a REC of the realm at granule 16. -/
def tokenRec (recGr aux idx : ℕ) : List (SmpAct ℕ) :=
  .start 0 (.recCreate (gr 16) (gr recGr) (gr 0)
    (some ⟨(List.range 16).map fun k => gr (aux + k), some idx⟩)) ::
  List.replicate 17 (.resume 0)

/-- A realm with two RECs, both of which run. -/
def tokenTwoRecs : List (SmpAct ℕ) :=
  (List.range 41).map (fun k => .start 0 (.granuleDelegate (gr (16 + k)) true)) ++
  [.start 0 (.realmCreate (gr 16) (gr 0) (some (demoParams 17 1)))] ++
  tokenRec 22 24 0 ++ tokenRec 56 40 1 ++
  [.start 0 (.realmActivate (gr 16)),
   .start 1 (.recEnter (gr 22) (gr 0) .run false), .resume 1,
   .start 2 (.recEnter (gr 56) (gr 0) .run false), .resume 2]

def tokenKeys : Keys where
  granules := [gr 0, gr 16, gr 22, gr 56]
  rds := [gr 16]
  recs := [gr 22, gr 56]
  tables := []
  slots := []

/-- The SHA-384 hash of the structure that is signed for the payload of an empty map. -/
def emptyMapHash : List (BitVec 8) :=
  (List.range 48).map fun i =>
    (0x90b861b49f57bf286049b337050a11138f4712bb5ba08c5ddb9dee3eaa008c220dec988988ef6e430c468a2ad6066e67#384).extractLsb' (8 * (47 - i)) 8

/-- An ECDSA signature of 96 bytes, kept in the eighth auxiliary granule. -/
def tokenAttempt : SignAttempt where
  started := false
  psaAlgId := psaAlgEcdsaSha384
  sigPtr := slotToVa slotRecAux0 + 4096 * 7 + 256
  sigBufLen := 96

/-- Both RECs ask for a signature, and the first pulls the response for the second. -/
def tokenCrossPull : List (TokenAct ℕ) :=
  [.init 2 true true (some [0xA0#8]), .sign 2 (some tokenAttempt) .accepted none,
   .init 1 true true (some [0xA0#8]), .sign 1 (some tokenAttempt) .accepted none,
   .pull 1 ⟨gr 56, 1, 96, fun _ => 0#8⟩]

theorem token_sign_protocol_cross : ∃ m : TokenSmp ℕ,
    TokenReachable demoPlat (fun _ => emptyMapHash) m ∧
    (m.data (gr 56)).sign.isSigValid = true ∧
    ⟨gr 56, (m.data (gr 56)).sign.reqTicket, (m.data (gr 56)).sign.hash⟩ ∈ m.el3 := by
  have hrun : (smpReplay tokenKeys demoPlat initSmp tokenTwoRecs).any (fun n =>
      (tokenReplay demoPlat (fun _ => emptyMapHash) (fun _ _ => true) (withoutTokens n)
        (tokenCrossPull ++ [.write 1])).any fun m => (m.data (gr 56)).sign.isSigValid) = true := by
    decide +kernel
  obtain ⟨n, hn, hrest⟩ := (Option.any_eq_true _ _).mp hrun
  obtain ⟨m, hm, hvalid⟩ := (Option.any_eq_true _ _).mp hrest
  have hreach : TokenReachable demoPlat (fun _ => emptyMapHash) m :=
    (withoutTokens_reach (fun _ _ => trivial) (smpReplay_reachable _ .init hn)).trans
      ((tokenReplay_reach _ .init hm).mono fun _ _ _ => trivial)
  exact ⟨m, hreach, hvalid, ((token_sign_protocol hreach).1 _ hvalid).1⟩

end RmmCaec
