import Mathlib.Data.List.ReduceOption
import RmmCaec.SmpLaws
import RmmCaec.Slots

/-!
# Token signing by EL3

A REC asks EL3 to sign the hash of its token and goes on when the answer is there. The
answers of all RECs come through one queue: the REC that pulls an answer writes it into
the signing context of the REC that the answer is for, found by the cookie, if the
ticket is still that of the context. EL3 may answer any request that it has accepted, at
any time and more than once. What t_cose does around the calls that it makes here is
left to the steps as a parameter, and so is whether the encoder of a token gets a key.
-/
namespace RmmCaec
open Outcome Runs

structure El3Request where
  cookie : Word
  reqTicket : ℕ
  hashBuf : List (BitVec 8)
  deriving DecidableEq

structure El3Response where
  cookie : Word
  reqTicket : ℕ
  sigLen : ℕ
  signatureBuf : ℕ → BitVec 8

/-- The state of a `t_cose_el3_token_sign_ctx`. -/
structure SignState where
  isReqQueued : Bool
  isSigValid : Bool
  isEl3Err : Bool
  signAlgId : BitVec 32
  cookie : Word
  reqTicket : ℕ
  sigLen : ℕ
  sigBuffer : ℕ
  /-- The `hash_len` bytes at `hash_buffer`. -/
  hash : List (BitVec 8)
  deriving DecidableEq

/-- A zeroed context. -/
instance : Inhabited SignState := ⟨⟨false, false, false, 0#32, 0#64, 0, 0, 0, []⟩⟩

def psaAlgEcdsaSha384 : BitVec 32 := 0x0600060A#32

def psaAlgIsEcdsa (alg : BitVec 32) : Bool := (alg &&& ~~~0x1FF#32) == 0x06000600#32

/-- What EL3 says to a request. -/
inductive El3Push
  | accepted
  | again
  | failed
  deriving DecidableEq

inductive EnqueueRet
  | ok
  | EAGAIN
  | EINVAL
  | EPERM
  deriving DecidableEq

/-- The context, the ticket counter, and the request if EL3 has accepted it. The ticket
is taken before EL3 is asked. -/
def el3TokenSignQueueTryEnqueue (ctx : SignState) (ticket : ℕ) (push : El3Push) :
    SignState × ℕ × Option El3Request × EnqueueRet :=
  if 64 < ctx.hash.length ∨ ctx.signAlgId ≠ psaAlgEcdsaSha384 ∨ ctx.hash.length ≠ 48 then
    (ctx, ticket, none, .EINVAL)
  else
    let req : El3Request := ⟨ctx.cookie, ticket, ctx.hash⟩
    let ctx := { ctx with reqTicket := ticket }
    match push with
    | .accepted => (ctx, ticket + 1, some req, .ok)
    | .again => (ctx, ticket + 1, none, .EAGAIN)
    | .failed => (ctx, ticket + 1, none, .EPERM)

def tCoseCryptoEl3CtxInit (cookie : Word) : SignState :=
    { (default : SignState) with cookie := cookie }

/-- The arguments with which t_cose asks for a signature. -/
structure SignCall where
  started : Bool
  psaAlgId : BitVec 32
  hashToSign : List (BitVec 8)
  sigPtr : ℕ
  sigBufLen : ℕ

def tCoseCryptoInitEl3CtxCrypto (ctx : SignState) (call : SignCall) : SignState :=
  { ctx with
    signAlgId := call.psaAlgId
    sigLen := call.sigBufLen
    sigBuffer := call.sigPtr
    hash := call.hashToSign }

inductive TCoseErr
  | SUCCESS
  | SIG_IN_PROGRESS
  | FAIL
  | UNSUPPORTED_SIGNING_ALG
  deriving DecidableEq

/-- What `t_cose_crypto_el3_token_sign_restart` does once the request is queued or EL3 has
deferred it. -/
def signRestartReturn (ctx : SignState) (call : SignCall) : Rmm TCoseErr :=
  if ctx.isEl3Err then return .FAIL
  else if ctx.isSigValid then do
    assertThat ctx.isReqQueued .panic
    assertThat (decide (ctx.sigLen ≤ call.sigBufLen)) .panic
    return .SUCCESS
  else return .SIG_IN_PROGRESS

def tCoseCryptoEl3TokenSignRestart (ctx : SignState) (ticket : ℕ) (call : SignCall)
    (push : El3Push) : Rmm (SignState × ℕ × Option El3Request × TCoseErr) :=
  if !psaAlgIsEcdsa call.psaAlgId then return (ctx, ticket, none, .UNSUPPORTED_SIGNING_ALG)
  else
    let ctx1 := if call.started then ctx else tCoseCryptoInitEl3CtxCrypto ctx call
    if ctx1.isReqQueued then do
      let ret ← signRestartReturn ctx1 call
      return (ctx1, ticket, none, ret)
    else
      match el3TokenSignQueueTryEnqueue ctx1 ticket push with
      | (ctx2, ticket2, req, .ok) => do
        let ctx3 := { ctx2 with isReqQueued := true }
        let ret ← signRestartReturn ctx3 call
        return (ctx3, ticket2, req, ret)
      | (ctx2, ticket2, req, .EAGAIN) => do
        let ret ← signRestartReturn ctx2 call
        return (ctx2, ticket2, req, ret)
      | (ctx2, ticket2, req, _) => return (ctx2, ticket2, req, .FAIL)

inductive TokenState
  | NOT_STARTED
  | INIT
  | SIGN
  | CREATE
  deriving DecidableEq

/-- A `token_sign_cntxt`: the payload is what t_cose hashes. -/
structure TokenSignCntxt where
  state : TokenState
  signedPayload : List (BitVec 8)
  cryptoCtx : SignState
  deriving DecidableEq

instance : Inhabited TokenSignCntxt := ⟨⟨.NOT_STARTED, [], default⟩⟩

/-- The part of `rec_attest_data` that signing uses. -/
structure AttestData where
  rmmRealmTokenLen : ℕ
  tokenSignCtx : TokenSignCntxt
  deriving DecidableEq

instance : Inhabited AttestData := ⟨⟨0, default⟩⟩

/-- The context is cleared before the heap is set up, also when that fails. -/
def attestTokenCtxInit (tok : TokenSignCntxt) (heapOk : Bool) (cookie : Word) :
    TokenSignCntxt × Bool :=
  if tok.state ≠ .INIT then
    if !heapOk then (default, false)
    else ({ (default : TokenSignCntxt) with
      cryptoCtx := tCoseCryptoEl3CtxInit cookie, state := .INIT }, true)
  else (tok, true)

/-- `attest_get_realm_signing_key`, and whether it hands out a key: where EL3 signs, there is
none to ask for. -/
def attestGetRealmSigningKey (attestEl3TokenSign attestKeyLoaded : Bool) : Bool :=
  if attestEl3TokenSign then false else attestKeyLoaded

/-- The encoder starts with the signing key. The payload is what it makes of the claims, if it
succeeds. -/
def attestRealmTokenCreate (tok : TokenSignCntxt) (signingKey : Bool)
    (payload : Option (List (BitVec 8))) : TokenSignCntxt × Bool :=
  if tok.state ≠ .INIT then (tok, false)
  else if !signingKey then (tok, false)
  else match payload with
  | none => (tok, false)
  | some bytes => ({ tok with signedPayload := bytes, state := .SIGN }, true)

def handleRsiAttestTokenInit (d : AttestData) (recAddr : Word) (heapOk signingKey : Bool)
    (payload : Option (List (BitVec 8))) : AttestData × Bool :=
  match attestTokenCtxInit d.tokenSignCtx heapOk recAddr with
  | (tok, false) => (⟨0, tok⟩, false)
  | (tok, true) =>
    let (tok', created) := attestRealmTokenCreate tok signingKey payload
    (⟨0, tok'⟩, created)

inductive AttestErr
  | SUCCESS
  | INVALID_STATE
  | COSE_ERROR
  | COSE_SIGN_IN_PROGRESS
  | CBOR
  deriving DecidableEq

/-- How t_cose asks for a signature: it fails before, or it calls with these arguments and
the hash of the payload. -/
structure SignAttempt where
  started : Bool
  psaAlgId : BitVec 32
  sigPtr : ℕ
  sigBufLen : ℕ

/-- The call that an attempt makes, `hashOf` being the hash of the bytes to be signed. -/
def SignAttempt.call (att : SignAttempt) (hashOf : List (BitVec 8) → List (BitVec 8))
    (payload : List (BitVec 8)) : SignCall :=
  ⟨att.started, att.psaAlgId, hashOf payload, att.sigPtr, att.sigBufLen⟩

/-- `attest_realm_token_sign`, with the length of the token if the encoder finishes it. -/
def attestRealmTokenSign (hashOf : List (BitVec 8) → List (BitVec 8)) (d : AttestData)
    (ticket : ℕ) (attempt : Option SignAttempt) (push : El3Push) (finished : Option ℕ) :
    Rmm (AttestData × ℕ × Option El3Request × AttestErr) :=
  let tok := d.tokenSignCtx
  if tok.state ≠ .SIGN then return (d, ticket, none, .INVALID_STATE)
  else match attempt with
  | none => return (d, ticket, none, .COSE_ERROR)
  | some att => do
    let (ctx, ticket', req, err) ← tCoseCryptoEl3TokenSignRestart tok.cryptoCtx ticket
      (att.call hashOf tok.signedPayload) push
    let d' : AttestData := { d with tokenSignCtx := { tok with cryptoCtx := ctx } }
    match err with
    | .SIG_IN_PROGRESS => return (d', ticket', req, .COSE_SIGN_IN_PROGRESS)
    | .FAIL | .UNSUPPORTED_SIGNING_ALG => return (d', ticket', req, .COSE_ERROR)
    | .SUCCESS =>
      match finished with
      | none => return (d', ticket', req, .CBOR)
      | some len =>
        return (⟨len, { d'.tokenSignCtx with state := .CREATE }⟩, ticket', req, .SUCCESS)

/-- `attest_cca_token_create`, and whether the whole token has been copied to the realm. -/
def attestCcaTokenCreate (d : AttestData) (created copied : Bool) : AttestData :=
  if d.tokenSignCtx.state ≠ .CREATE ∨ created = false then d
  else ⟨if copied then 0 else d.rmmRealmTokenLen,
    { d.tokenSignCtx with state := .NOT_STARTED }⟩

/-- The context after a response, and the bytes that are copied to the signature buffer. -/
def attestEl3TokenWriteResponseToCtx (ctx : SignState) (resp : El3Response) (cookie : Word) :
    Rmm (SignState × List (ℕ × BitVec 8) × Bool) := do
  if cookie ≠ resp.cookie then return (ctx, [], false)
  else if ctx.reqTicket ≠ resp.reqTicket then
    assertThat (ctx.reqTicket == 0 || decide (resp.reqTicket ≤ ctx.reqTicket)) .panic
    return (ctx, [], true)
  else if ctx.sigLen < resp.sigLen then return ({ ctx with isEl3Err := true }, [], true)
  else
    return ({ ctx with sigLen := resp.sigLen, isSigValid := true },
      (List.range resp.sigLen).map fun i => (ctx.sigBuffer + i, resp.signatureBuf i), true)

def recHeapSize : ℕ := 2 * 4096
def recPmuSize : ℕ := 1 * 4096
def recSimdSize : ℕ := 3 * 4096

/-- The slots of a CPU that runs a REC, with the auxiliary granules of another REC in the
slots for signing. -/
def auxSlots (running target : List Word) (slot : ℕ) : Option Word :=
  if slotRecAux0 ≤ slot ∧ slot < slotRtt then running[slot - slotRecAux0]?
  else if slotEl3TokenSignAux0 ≤ slot ∧
    slot < nrCpuSlots then target[slot - slotEl3TokenSignAux0]?
  else none

/-- The signing data of all RECs after a response, and the granule behind each address that
is written, the context first. An address that is not mapped ends in a fault. -/
def writeResponseToRec (plat : Platform) (s : State) (data : Word → AttestData) (currRec : Word)
    (resp : El3Response) : Rmm ((Word → AttestData) × List Word) := do
  let respGranule := resp.cookie
  let found ← (if respGranule ≠ currRec then findLockGranule plat s [] respGranule .REC
    else pure true)
  if !found then return (data, [])
  else
    let target := if respGranule ≠ currRec then (s.recs respGranule).gAux else []
    assertThat (decide (target.length ≤ maxRecAuxGranules)) .outOfBounds
    let mapped := auxSlots (s.recs currRec).gAux target
    -- the pointer to the context is computed anew in the window where it is mapped
    let recAux := slotToVa (if respGranule ≠ currRec then slotEl3TokenSignAux0 else slotRecAux0)
    let attestData := recAux + recHeapSize + recPmuSize + recSimdSize
    let d := data respGranule
    let (ctx, bytes, _) ← attestEl3TokenWriteResponseToCtx d.tokenSignCtx.cryptoCtx
      resp respGranule
    let d' : AttestData := { d with tokenSignCtx := { d.tokenSignCtx with cryptoCtx := ctx } }
    let written := (attestData :: bytes.map Prod.fst).map (vaGranule mapped)
    assertThat (written.all Option.isSome) .panic
    return (Function.update data respGranule d', written.reduceOption)

/-- The memory and the CPUs, the signing data of the RECs, the ticket counter, the response
that each CPU has pulled and still has to write, and the requests that EL3 has accepted. -/
structure TokenSmp (ι : Type) where
  smp : Smp ι
  data : Word → AttestData
  ticket : ℕ
  resp : ι → Option El3Response
  el3 : List El3Request

inductive TokenAct (ι : Type)
  | plain (a : SmpAct ι)
  | init (c : ι) (heapOk signingKey : Bool) (payload : Option (List (BitVec 8)))
  | sign (c : ι) (attempt : Option SignAttempt) (push : El3Push) (finished : Option ℕ)
  | pull (c : ι) (resp : El3Response)
  | write (c : ι)
  | create (c : ι) (created copied : Bool)

/-- New RECs start with zeroed auxiliary granules, freed ones are zeroed. -/
def attestDataAfter (s s' : State) (data : Word → AttestData) : Word → AttestData := fun g =>
  if (s'.granule g).state = .REC ∧ (s.granule g).state = .REC then data g else default

section
variable {ι : Type} [DecidableEq ι]

/-- One step. The steps of a running REC are those of its RSI calls on tokens. -/
def TokenNext (plat : Platform) (hashOf : List (BitVec 8) → List (BitVec 8)) (m : TokenSmp ι)
    (a : TokenAct ι) (m' : TokenSmp ι) : Prop :=
  match a with
  | .plain a => ∃ n, SmpNext plat m.smp a n ∧
      m' = { m with smp := n, data := attestDataAfter m.smp.mem n.mem m.data }
  | .init c heapOk signingKey payload => ∃ r, m.smp.cpu c = .running r ∧
      m' = { m with
        data := Function.update m.data r
          (handleRsiAttestTokenInit (m.data r) r heapOk signingKey payload).1 }
  | .sign c attempt push finished => ∃ r, m.smp.cpu c = .running r ∧
      (m.data r).rmmRealmTokenLen = 0 ∧ ∃ d ticket req err,
        attestRealmTokenSign hashOf (m.data r) m.ticket attempt push finished =
          .ok (d, ticket, req, err) ∧
        m' = { m with
          data := Function.update m.data r d, ticket := ticket, el3 := req.toList ++ m.el3 }
  | .pull c resp => ∃ r, m.smp.cpu c = .running r ∧
      (∃ q ∈ m.el3, resp.cookie = q.cookie ∧ resp.reqTicket = q.reqTicket) ∧
      m' = { m with resp := Function.update m.resp c (some resp) }
  | .write c => ∃ r, m.smp.cpu c = .running r ∧ ∃ resp, m.resp c = some resp ∧
      ∃ data written,
        writeResponseToRec plat m.smp.mem m.data r resp = .ok (data, written) ∧
        m' = { m with data := data, resp := Function.update m.resp c none }
  | .create c created copied => ∃ r, m.smp.cpu c = .running r ∧
      m' = { m with
        data := Function.update m.data r (attestCcaTokenCreate (m.data r) created copied) }

def initToken : TokenSmp ι := ⟨initSmp, fun _ => default, 1, fun _ => none, []⟩

/-- The states that any requests and responses reach. -/
abbrev TokenReachable (plat : Platform) (hashOf : List (BitVec 8) → List (BitVec 8)) :
    TokenSmp ι → Prop :=
  Reach initToken (TokenNext plat hashOf) fun _ _ => True

/-- One step as a function. -/
def tokenStep (plat : Platform) (hashOf : List (BitVec 8) → List (BitVec 8)) (m : TokenSmp ι) :
    TokenAct ι → Option (TokenSmp ι)
  | .plain a => (smpStep plat m.smp a).map fun n =>
      { m with smp := n, data := attestDataAfter m.smp.mem n.mem m.data }
  | .init c heapOk signingKey payload =>
    match m.smp.cpu c with
    | .running r => some { m with
        data := Function.update m.data r
          (handleRsiAttestTokenInit (m.data r) r heapOk signingKey payload).1 }
    | _ => none
  | .sign c attempt push finished =>
    match m.smp.cpu c with
    | .running r =>
      if (m.data r).rmmRealmTokenLen = 0 then
        match attestRealmTokenSign hashOf (m.data r) m.ticket attempt push finished with
        | .error _ => none
        | .ok (d, ticket, req, _) => some { m with
            data := Function.update m.data r d, ticket := ticket, el3 := req.toList ++ m.el3 }
      else none
    | _ => none
  | .pull c resp =>
    match m.smp.cpu c with
    | .running _ =>
      if m.el3.any fun q => resp.cookie == q.cookie && resp.reqTicket == q.reqTicket then
        some { m with resp := Function.update m.resp c (some resp) }
      else none
    | _ => none
  | .write c =>
    match m.smp.cpu c, m.resp c with
    | .running r, some resp =>
      match writeResponseToRec plat m.smp.mem m.data r resp with
      | .error _ => none
      | .ok (data, _) => some { m with data := data, resp := Function.update m.resp c none }
    | _, _ => none
  | .create c created copied =>
    match m.smp.cpu c with
    | .running r => some { m with
        data := Function.update m.data r (attestCcaTokenCreate (m.data r) created copied) }
    | _ => none

theorem tokenStep_next {plat : Platform} {hashOf : List (BitVec 8) → List (BitVec 8)}
    {m m' : TokenSmp ι} {a : TokenAct ι} (h : tokenStep plat hashOf m a = some m') :
    TokenNext plat hashOf m a m' := by
  cases a with
  | plain a =>
    obtain ⟨n, hn, rfl⟩ := Option.map_eq_some_iff.mp h
    exact ⟨n, smpStep_next hn, rfl⟩
  | init c heapOk signingKey payload =>
    simp only [tokenStep] at h
    split at h
    · next r hrun =>
      cases h
      exact ⟨r, hrun, rfl⟩
    · cases h
  | sign c attempt push finished =>
    simp only [tokenStep] at h
    split at h
    · next r hrun =>
      split at h
      · next hlen =>
        split at h
        · cases h
        · next d ticket req err hs =>
          cases h
          exact ⟨r, hrun, hlen, d, ticket, req, err, hs, rfl⟩
      · cases h
    · cases h
  | pull c resp =>
    simp only [tokenStep] at h
    split at h
    · next r hrun =>
      split at h
      · next hany =>
        cases h
        obtain ⟨q, hq, heq⟩ := List.any_eq_true.mp hany
        exact ⟨r, hrun, ⟨q, hq, by simpa using heq⟩, rfl⟩
      · cases h
    · cases h
  | write c =>
    simp only [tokenStep] at h
    split at h
    · next r resp hrun hresp =>
      split at h
      · cases h
      · next data written hs =>
        cases h
        exact ⟨r, hrun, resp, hresp, data, written, hs, rfl⟩
    · cases h
  | create c created copied =>
    simp only [tokenStep] at h
    split at h
    · next r hrun =>
      cases h
      exact ⟨r, hrun, rfl⟩
    · cases h

/-- Follow a list of steps that pass a test. -/
def tokenReplay (plat : Platform) (hashOf : List (BitVec 8) → List (BitVec 8))
    (ok : TokenSmp ι → TokenAct ι → Bool) : TokenSmp ι → List (TokenAct ι) →
      Option (TokenSmp ι)
  | m, [] => some m
  | m, a :: rest =>
    if ok m a then (tokenStep plat hashOf m a).bind fun m' => tokenReplay plat hashOf ok m' rest
    else none

theorem tokenReplay_reach {plat : Platform} {hashOf : List (BitVec 8) → List (BitVec 8)}
    {ok : TokenSmp ι → TokenAct ι → Bool} (acts : List (TokenAct ι)) {m0 m m' : TokenSmp ι}
    (hm : Reach m0 (TokenNext plat hashOf) (fun m a => ok m a = true) m)
    (hr : tokenReplay plat hashOf ok m acts = some m') :
    Reach m0 (TokenNext plat hashOf) (fun m a => ok m a = true) m' := by
  induction acts generalizing m with
  | nil =>
    cases hr
    exact hm
  | cons a rest ih =>
    unfold tokenReplay at hr
    split at hr
    · next hok =>
      obtain ⟨m1, hstep, hrest⟩ := Option.bind_eq_some_iff.mp hr
      exact ih (.step hm hok (tokenStep_next hstep)) hrest
    · cases hr

/-- A state without tokens. -/
def withoutTokens (n : Smp ι) : TokenSmp ι := { (initToken : TokenSmp ι) with smp := n }

/-- Before the first token the machine is the one below. -/
theorem withoutTokens_reach {plat : Platform} {hashOf : List (BitVec 8) → List (BitVec 8)}
    {guard : TokenSmp ι → TokenAct ι → Prop}
    (hplain : ∀ m a, guard m (.plain a)) {n : Smp ι}
    (hn : SmpReachable plat n) : Reach initToken (TokenNext plat hashOf) guard
    (withoutTokens n) := by
  induction hn with
  | init => exact .init
  | @step s a s' before allowed taken ih =>
    refine .step ih (hplain _ a) ⟨s', taken, ?_⟩
    have hdata : attestDataAfter s.mem s'.mem (fun _ => default) = fun _ => default := by
      funext g
      exact ite_self _
    simp only [withoutTokens, initToken]
    rw [hdata]

end

end RmmCaec
