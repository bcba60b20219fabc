import RmmCaec.El3Interface
import RmmCaec.RecRun

/-!
# The attestation token goes to the realm in pieces

A realm asks for its token once and then fetches it by calls that name a buffer. The first
call that gets as far as the buffer makes the token of the signed realm token; it and the
calls after it copy what fits. Three lengths say where the REC is: that of the signed
realm token, the bytes that were copied, and the bytes that are left.
-/
namespace RmmCaec

open Outcome

/-- `rec_attest_data`, with the state of the signing context, and the buffer of the token. -/
structure RecAttestData where
  realmTokenBuf : ℕ → Byte
  realmTokenLen : ℕ
  ccaTokenCopiedLen : ℕ
  ccaTokenLen : ℕ
  state : TokenState
  ccaTokenBuf : ℕ → Byte

/-- `attest_cca_token_create` as a function of the signed realm token. The encoder stays
inside the buffer. -/
structure CcaEncoder where
  bufSize : ℕ
  create : List Byte → Option (List Byte)
  fits : ∀ realmToken token, create realmToken = some token → token.length ≤ bufSize

/-- How an attempt to sign ends: it goes on, it is done, or it fails. -/
inductive SignResult
  | inProgress
  | done (realmToken : List Byte)
  | failed
  deriving DecidableEq

/-- What the pull of a response does, when EL3 signs tokens. -/
inductive PullResult
  | retry
  | written
  | failed
  deriving DecidableEq

/-- One round of signing: the attempt, whether an interrupt is pending after it, and the
pull, if there is one. -/
structure SignRound where
  sign : SignResult
  irq : Bool
  pull : Option PullResult

/-- A call for a piece of the token: its registers, the rounds of signing, what the walk to
the buffer finds, and the memory of the realm. -/
structure ContinueCall where
  r : Rec
  ipa : Word
  offset : Word
  size : Word
  rounds : List SignRound
  walk : Rmm S2WalkResult
  mem : Word → ℕ → Byte

/-- How a call ends: with two result registers, in the realm or in the host after an
interrupt, or with a stage 2 fault and the registers as they were. -/
inductive ContinueReturn
  | toRealm (x0 x1 : Word)
  | toHost (x0 x1 : Word)
  | fault (rttLevel : ℤ)
  deriving DecidableEq

/-- The result of a call: the data of the REC, the memory of the realm, the bytes of the
token buffer that were read, and the realm tokens that were signed. -/
structure ContinueOutcome where
  ret : ContinueReturn
  data : RecAttestData
  mem : Word → ℕ → Byte
  read : Option (ℕ × ℕ)
  signed : List (List Byte)

def rsiIncomplete : Word := 3#64
def rsiErrorUnknown : Word := 4#64

/-- `handle_rsi_attest_token_init`, by whether the context and the realm token can be set up. -/
def handleRsiAttestTokenInitLens (d : RecAttestData) (heapOk created : Bool) :
    RecAttestData × Word :=
  let d := { d with realmTokenLen := 0, ccaTokenCopiedLen := 0, ccaTokenLen := 0 }
  if d.state ≠ .INIT ∧ !heapOk then ({ d with state := .NOT_STARTED }, rsiErrorUnknown)
  else if !created then ({ d with state := .INIT }, rsiErrorUnknown)
  else ({ d with state := .SIGN }, rsiSuccess)

/-- One attempt of `attest_realm_token_sign` that does not fail. -/
def signAttempt (d : RecAttestData) : SignResult → RecAttestData
  | .done realmToken =>
    { d with
      realmTokenBuf := storeBytes d.realmTokenBuf 0 realmToken
      realmTokenLen := realmToken.length
      state := .CREATE }
  | _ => d

def SignResult.signed : SignResult → List (List Byte)
  | .done realmToken => [realmToken]
  | _ => []

/-- The loop that signs the realm token: the result with which the handler returns, if it
does. It waits for more rounds as long as the token is not signed. -/
def signLoop (rounds : List SignRound) (d : RecAttestData) (signed : List (List Byte)) :
    Option (Option ContinueReturn × RecAttestData × List (List Byte)) :=
  if d.realmTokenLen ≠ 0 then some (none, d, signed)
  else if d.state ≠ .SIGN then some (some (.toRealm rsiErrorState 0#64), d, signed)
  else
    match rounds with
    | [] => none
    | round :: rest =>
      if round.sign = .failed then some (some (.toRealm rsiErrorUnknown 0#64), d, signed)
      else
        let d := signAttempt d round.sign
        let signed := signed ++ round.sign.signed
        if round.irq then some (some (.toHost rsiIncomplete 0#64), d, signed)
        else if round.pull = some .failed then
          some (some (.toRealm rsiErrorUnknown 0#64), d, signed)
        else signLoop rest d signed

/-- `attest_cca_token_create` and the length that the caller keeps. What a failed attempt
leaves in the buffer is never read. -/
def ccaTokenCreate (enc : CcaEncoder) (d : RecAttestData) : Option RecAttestData :=
  if d.state ≠ .CREATE then none
  else
    (enc.create (loadBytes d.realmTokenBuf 0 d.realmTokenLen)).map fun token =>
      { d with
        ccaTokenBuf := storeBytes d.ccaTokenBuf 0 token
        state := .NOT_STARTED
        ccaTokenLen := token.length }

def attestTokenContinueWriteState (enc : CcaEncoder) (d : RecAttestData) (c : ContinueCall)
    (signed : List (List Byte)) : Rmm ContinueOutcome := do
  match ← c.walk with
  | .WALK_INVALID_PARAMS => .error .panic
  | .WALK_FAIL .EMPTY _ => return ⟨.toRealm rsiErrorInput 0#64, d, c.mem, none, signed⟩
  | .WALK_FAIL _ level => return ⟨.fault level, d, c.mem, none, signed⟩
  | .WALK_SUCCESS pa =>
    if c.size = 0#64 then return ⟨.toRealm rsiIncomplete 0#64, d, c.mem, none, signed⟩
    else
      match if d.ccaTokenCopiedLen = 0 then ccaTokenCreate enc d else some d with
      | none => return ⟨.toRealm rsiErrorInput 0#64, d, c.mem, none, signed⟩
      | some d =>
        let length := if c.size.toNat < d.ccaTokenLen then c.size.toNat else d.ccaTokenLen
        let piece := loadBytes d.ccaTokenBuf d.ccaTokenCopiedLen length
        let mem := Function.update c.mem pa (storeBytes (c.mem pa) c.offset.toNat piece)
        let left := d.ccaTokenLen - length
        let read := some (d.ccaTokenCopiedLen, length)
        if left ≠ 0 then
          let d := { d with
            ccaTokenLen := left
            ccaTokenCopiedLen := d.ccaTokenCopiedLen + length }
          return ⟨.toRealm rsiIncomplete (BitVec.ofNat 64 length), d, mem, read, signed⟩
        else
          let d := { d with realmTokenLen := 0 }
          return ⟨.toRealm rsiSuccess (BitVec.ofNat 64 length), d, mem, read, signed⟩

/-- The result is empty as long as the handler waits for a signature. -/
def handleRsiAttestTokenContinue (enc : CcaEncoder) (d : RecAttestData) (c : ContinueCall) :
    Rmm (Option ContinueOutcome) :=
  if !granuleAligned c.ipa ∨ 4096#64 ≤ c.offset ∨ 4096#64 < c.offset + c.size ∨
      c.offset + c.size < c.offset then
    .ok (some ⟨.toRealm rsiErrorInput 0#64, d, c.mem, none, []⟩)
  else if !addrInRecPar c.r c.ipa then
    .ok (some ⟨.toRealm rsiErrorInput 0#64, d, c.mem, none, []⟩)
  else
    match signLoop c.rounds d [] with
    | none => .ok none
    | some (some ret, d, signed) => .ok (some ⟨ret, d, c.mem, none, signed⟩)
    | some (none, d, signed) => do
      let o ← attestTokenContinueWriteState enc d c signed
      return some o

/-- Calls that return, one after another. Between them the realm does what it likes. -/
inductive ContinueRun (enc : CcaEncoder) :
    RecAttestData → List (ContinueCall × ContinueOutcome) → Prop
  | nil (d : RecAttestData) : ContinueRun enc d []
  | cons {d : RecAttestData} {c : ContinueCall} {o : ContinueOutcome}
      {rest : List (ContinueCall × ContinueOutcome)}
      (hcall : handleRsiAttestTokenContinue enc d c = .ok (some o))
      (hrest : ContinueRun enc o.data rest) : ContinueRun enc d ((c, o) :: rest)

/-- The bytes that the realm finds in its buffer after a call: as many as `x1` says. -/
def pieceOf (c : ContinueCall) (o : ContinueOutcome) : List Byte :=
  match c.walk, o.ret with
  | .ok (.WALK_SUCCESS pa), .toRealm _ x1 => loadBytes (o.mem pa) c.offset.toNat x1.toNat
  | _, _ => []

/-- The call says that the token is complete. -/
def ContinueOutcome.Success (o : ContinueOutcome) : Prop := ∃ x1, o.ret = .toRealm rsiSuccess x1

/-- A call writes only the piece, at the offset, in the granule that the buffer is in, and
reads only the token buffer. -/
structure Confined (enc : CcaEncoder) (c : ContinueCall) (o : ContinueOutcome) : Prop where
  granule : ∀ g, c.walk ≠ .ok (.WALK_SUCCESS g) → o.mem g = c.mem g
  offset : ∀ g k, ¬ (c.offset.toNat ≤ k ∧ k < c.offset.toNat + (pieceOf c o).length) →
    o.mem g k = c.mem g k
  inside : pieceOf c o ≠ [] → c.offset.toNat + (pieceOf c o).length ≤ 4096
  reads : ∀ start n, o.read = some (start, n) → start + n ≤ enc.bufSize

/-- Where the data of a REC stands, with the realm tokens that were signed and the bytes
that the realm has got. -/
inductive Progress (enc : CcaEncoder) (d : RecAttestData) : List (List Byte) → List Byte → Prop
  | unsigned {signed : List (List Byte)} (hlen : d.realmTokenLen = 0)
      (hcopied : d.ccaTokenCopiedLen = 0)
      (hsigned : d.state = .SIGN → signed = []) : Progress enc d signed []
  | signed {r : List Byte} (hlen : d.realmTokenLen = r.length) (hne : r ≠ [])
      (hbuf : loadBytes d.realmTokenBuf 0 r.length = r) (hstate : d.state = .CREATE)
      (hcopied : d.ccaTokenCopiedLen = 0) : Progress enc d [r] []
  | created {r token : List Byte} (hcreate : enc.create r = some token)
      (hlen : d.realmTokenLen ≠ 0)
      (hbuf : loadBytes d.ccaTokenBuf 0 token.length = token)
      (hleft : d.ccaTokenCopiedLen + d.ccaTokenLen = token.length)
      (hcopied : d.ccaTokenCopiedLen ≠ 0) :
      Progress enc d [r] (token.take d.ccaTokenCopiedLen)

section
variable {enc : CcaEncoder} {d : RecAttestData} {signed : List (List Byte)} {got : List Byte}
  {c : ContinueCall} {o : ContinueOutcome}

/-- A return that gives no bytes and does not end the stream. -/
def ContinueReturn.Silent (ret : ContinueReturn) : Prop :=
  ∃ x0, x0 ≠ rsiSuccess ∧ (ret = .toRealm x0 0#64 ∨ ret = .toHost x0 0#64)

theorem signAttempt_progress (h : Progress enc d signed got) (hlen : d.realmTokenLen = 0)
    (hstate : d.state = .SIGN) (result : SignResult) :
    Progress enc (signAttempt d result) (signed ++ result.signed) got := by
  cases h with
  | unsigned _ hcopied hsigned =>
    rw [hsigned hstate]
    cases result with
    | done r =>
      by_cases hr : r = []
      · subst hr
        exact .unsigned rfl hcopied (by simp [signAttempt])
      · exact .signed rfl hr (loadBytes_storeBytes d.realmTokenBuf 0 r) rfl hcopied
    | inProgress => exact .unsigned hlen hcopied fun _ => rfl
    | failed => exact .unsigned hlen hcopied fun _ => rfl
  | signed hr hne => exact absurd (List.length_eq_zero_iff.mp (hr.symm.trans hlen)) hne
  | created _ hne => exact absurd hlen hne

theorem signLoop_progress {rounds : List SignRound} {res : Option ContinueReturn}
    {d' : RecAttestData} {more more' : List (List Byte)} (h : Progress enc d (signed ++ more) got)
    (hloop : signLoop rounds d more = some (res, d', more')) :
    Progress enc d' (signed ++ more') got ∧ (res = none → d'.realmTokenLen ≠ 0) ∧
      ∀ ret, res = some ret → ret.Silent := by
  have herror : ∀ x0 : Word, x0 ≠ rsiSuccess →
      ∀ ret, some (ContinueReturn.toRealm x0 0#64) = some ret →
      ret.Silent := by
    rintro x0 hx0 ret ⟨⟩
    exact ⟨x0, hx0, .inl rfl⟩
  induction rounds generalizing d more with
  | nil =>
    unfold signLoop at hloop
    split_ifs at hloop with hlen hstate
    · cases hloop
      exact ⟨h, fun _ => hlen, by simp⟩
    · cases hloop
      exact ⟨h, by simp, herror _ (by decide)⟩
  | cons round rest ih =>
    unfold signLoop at hloop
    by_cases hlen : d.realmTokenLen = 0
    · rw [if_neg (not_not.mpr hlen)] at hloop
      by_cases hstate : d.state = .SIGN
      · rw [if_neg (not_not.mpr hstate)] at hloop
        have hattempt := signAttempt_progress h hlen hstate round.sign
        rw [List.append_assoc] at hattempt
        dsimp only at hloop
        split_ifs at hloop
        · cases hloop
          exact ⟨h, by simp, herror _ (by decide)⟩
        · cases hloop
          refine ⟨hattempt, by simp, ?_⟩
          rintro ret ⟨⟩
          exact ⟨rsiIncomplete, by decide, .inr rfl⟩
        · cases hloop
          exact ⟨hattempt, by simp, herror _ (by decide)⟩
        · exact ih hattempt hloop
      · rw [if_pos hstate] at hloop
        cases hloop
        exact ⟨h, by simp, herror _ (by decide)⟩
    · rw [if_pos hlen] at hloop
      cases hloop
      exact ⟨h, fun _ => hlen, by simp⟩

/-- What a call does to the stream. -/
structure Steps (enc : CcaEncoder) (signed : List (List Byte)) (got : List Byte) (c : ContinueCall)
    (o : ContinueOutcome) : Prop where
  confined : Confined enc c o
  progress : ¬ o.Success → Progress enc o.data (signed ++ o.signed) (got ++ pieceOf c o)
  success : o.Success → ∃ r token, signed ++ o.signed = [r] ∧ enc.create r = some token ∧
    got ++ pieceOf c o = token

/-- A call that gives nothing. -/
theorem steps_silent {ret : ContinueReturn} {more : List (List Byte)}
    (hret : ret.Silent ∨ ∃ level, ret = .fault level)
    (h : Progress enc d (signed ++ more) got) :
    Steps enc signed got c ⟨ret, d, c.mem, none, more⟩ := by
  have hpiece : pieceOf c ⟨ret, d, c.mem, none, more⟩ = [] := by
    unfold pieceOf
    split
    · next hr =>
      obtain ⟨x0, -, rfl | rfl⟩ | ⟨level, rfl⟩ := hret
      · cases hr
        rfl
      · cases hr
      · cases hr
    · rfl
  refine ⟨⟨fun _ _ => rfl, fun _ _ _ => rfl, fun hne => absurd hpiece hne, by simp⟩,
    fun _ => ?_, ?_⟩
  · rwa [hpiece, List.append_nil]
  · rintro ⟨x1, hx1⟩
    dsimp only at hx1
    obtain ⟨x0, hx0, rfl | rfl⟩ | ⟨level, rfl⟩ := hret
    · cases hx1
      exact absurd rfl hx0
    · cases hx1
    · cases hx1

theorem loadBytes_take (mem : ℕ → Byte) {m n : ℕ} (h : m ≤ n) :
    (loadBytes mem 0 n).take m = loadBytes mem 0 m := by
  obtain ⟨k, rfl⟩ := Nat.exists_eq_add_of_le h
  rw [loadBytes_add, List.take_left' (loadBytes_length _ _ _)]

/-- The token is in the buffer, and a part of it was copied. -/
structure Ready (enc : CcaEncoder) (d : RecAttestData) (r token : List Byte) : Prop where
  create : enc.create r = some token
  signed : d.realmTokenLen ≠ 0
  buf : loadBytes d.ccaTokenBuf 0 token.length = token
  left : d.ccaTokenCopiedLen + d.ccaTokenLen = token.length

/-- A piece continues what was copied. -/
theorem Ready.piece {r token : List Byte} (h : Ready enc d r token) {n : ℕ}
    (hn : n ≤ d.ccaTokenLen) :
    token.take d.ccaTokenCopiedLen ++ loadBytes d.ccaTokenBuf d.ccaTokenCopiedLen n =
      token.take (d.ccaTokenCopiedLen + n) := by
  have hleft := h.left
  rw [← h.buf, loadBytes_take _ (by omega), loadBytes_take _ (by omega),
    loadBytes_add, Nat.zero_add]

/-- Before the first piece the token is made; then it is there. -/
theorem ready_of_progress (h : Progress enc d signed got) (hlen : d.realmTokenLen ≠ 0) :
    ∃ r, signed = [r] ∧
      ((if d.ccaTokenCopiedLen = 0 then ccaTokenCreate enc d else some d) = none ∨
      ∃ d' token, (if d.ccaTokenCopiedLen = 0 then ccaTokenCreate enc d else some d) = some d' ∧
        Ready enc d' r token ∧ got = token.take d'.ccaTokenCopiedLen) := by
  cases h with
  | unsigned h0 => exact absurd h0 hlen
  | @signed r hr hne hbuf hstate hcopied =>
    refine ⟨r, rfl, ?_⟩
    rw [if_pos hcopied, ccaTokenCreate, if_neg (not_not.mpr hstate), hr, hbuf]
    cases hcreate : enc.create r with
    | none => exact .inl rfl
    | some token =>
      refine .inr ⟨_, token, rfl, ⟨hcreate, ?_,
        loadBytes_storeBytes d.ccaTokenBuf 0 token, ?_⟩, ?_⟩
      · exact hr ▸ hlen
      · simp [hcopied]
      · simp [hcopied]
  | @created r token hcreate hne hbuf hleft hcopied =>
    exact ⟨r, rfl, .inr ⟨d, token, if_neg hcopied, ⟨hcreate, hne, hbuf, hleft⟩, rfl⟩⟩

/-- The memory of the realm after a piece of `n` bytes was copied. -/
def copyPiece (d : RecAttestData) (c : ContinueCall) (pa : Word) (n : ℕ) :
    Word → ℕ → Byte :=
  Function.update c.mem pa
    (storeBytes (c.mem pa) c.offset.toNat (loadBytes d.ccaTokenBuf d.ccaTokenCopiedLen n))

/-- A piece that was copied, with its length in `x1`. -/
theorem copied_piece {pa : Word} {n : ℕ} (hwalk : c.walk = .ok (.WALK_SUCCESS pa))
    (hn : n < 2 ^ 64)
    (hmem : o.mem = copyPiece d c pa n) {x0 : Word}
    (hret : o.ret = .toRealm x0 (BitVec.ofNat 64 n)) :
    pieceOf c o = loadBytes d.ccaTokenBuf d.ccaTokenCopiedLen n := by
  unfold pieceOf
  rw [hwalk, hret]
  dsimp only
  rw [hmem, copyPiece, Function.update_self, BitVec.toNat_ofNat, Nat.mod_eq_of_lt hn]
  have := loadBytes_storeBytes (c.mem pa) c.offset.toNat
    (loadBytes d.ccaTokenBuf d.ccaTokenCopiedLen n)
  rwa [loadBytes_length] at this

theorem copied_confined {pa : Word} {n : ℕ} {r token : List Byte} (h : Ready enc d r token)
    (hwalk : c.walk = .ok (.WALK_SUCCESS pa)) (hfit : c.offset.toNat + n ≤ 4096)
    (hn : n ≤ d.ccaTokenLen) (hmem : o.mem = copyPiece d c pa n)
    (hpiece : pieceOf c o = loadBytes d.ccaTokenBuf d.ccaTokenCopiedLen n)
    (hread : o.read = some (d.ccaTokenCopiedLen, n)) : Confined enc c o := by
  refine ⟨fun g hg => ?_, fun g k hk => ?_, fun _ => ?_, fun start m hm => ?_⟩
  · rw [hmem, copyPiece]
    refine Function.update_of_ne ?_ _ _
    rintro rfl
    exact hg hwalk
  · rw [hpiece, loadBytes_length] at hk
    rw [hmem, copyPiece]
    by_cases hg : g = pa
    · subst hg
      rw [Function.update_self, storeBytes]
      split_ifs with hle
      · rw [List.getElem?_eq_none (by rw [loadBytes_length]; omega), Option.getD_none]
      · rfl
    · rw [Function.update_of_ne hg]
  · rw [hpiece, loadBytes_length]
    exact hfit
  · rw [hread] at hm
    cases hm
    have := enc.fits _ _ h.create
    have := h.left
    omega

/-- The call after a piece was copied, of which the last one is the rest of the token. -/
theorem Ready.steps {r token : List Byte} (h : Ready enc d r token)
    (hone : signed ++ o.signed = [r])
    {pa : Word} {n : ℕ} (hwalk : c.walk = .ok (.WALK_SUCCESS pa))
    (hfit : c.offset.toNat + n ≤ 4096)
    (hn : n ≤ d.ccaTokenLen) (hmem : o.mem = copyPiece d c pa n)
    (hread : o.read = some (d.ccaTokenCopiedLen, n))
    (hend : (n = d.ccaTokenLen ∧ o.ret = .toRealm rsiSuccess (BitVec.ofNat 64 n)) ∨
      (n < d.ccaTokenLen ∧ n ≠ 0 ∧ o.ret = .toRealm rsiIncomplete (BitVec.ofNat 64 n) ∧
        o.data = { d with
          ccaTokenLen := d.ccaTokenLen - n
          ccaTokenCopiedLen := d.ccaTokenCopiedLen + n })) :
    Steps enc signed (token.take d.ccaTokenCopiedLen) c o := by
  have hnext := h.piece hn
  have hleft := h.left
  obtain ⟨hlast, hret⟩ | ⟨hlt, h0, hret, hdata⟩ := hend
  · have hpiece := copied_piece hwalk (by omega) hmem hret
    refine ⟨copied_confined h hwalk hfit hn hmem hpiece hread,
      fun hno => absurd ⟨_, hret⟩ hno, fun _ => ?_⟩
    refine ⟨r, token, hone, h.create, ?_⟩
    rw [hpiece, hnext, List.take_of_length_le (by omega)]
  · have hpiece := copied_piece hwalk (by omega) hmem hret
    refine ⟨copied_confined h hwalk hfit hn hmem hpiece hread, fun _ => ?_, ?_⟩
    · rw [hpiece, hnext, hone, hdata]
      exact .created h.create h.signed h.buf (by dsimp only; omega) (by dsimp only; omega)
    · rintro ⟨x1, hx1⟩
      rw [hret] at hx1
      cases hx1

theorem writeState_steps (hfit : c.offset.toNat + c.size.toNat ≤ 4096)
    {more : List (List Byte)} (h : Progress enc d (signed ++ more) got)
    (hlen : d.realmTokenLen ≠ 0)
    (ho : attestTokenContinueWriteState enc d c more = .ok o) : Steps enc signed got c o := by
  unfold attestTokenContinueWriteState at ho
  cases hwalk : c.walk with
  | error f =>
    rw [hwalk] at ho
    cases ho
  | ok w =>
    rw [hwalk] at ho
    cases w with
    | WALK_INVALID_PARAMS => cases ho
    | WALK_FAIL ripas level =>
      cases ripas with
      | EMPTY =>
        cases ho
        exact steps_silent (.inl ⟨rsiErrorInput, by decide, .inl rfl⟩) h
      | RAM =>
        cases ho
        exact steps_silent (.inr ⟨level, rfl⟩) h
      | DESTROYED =>
        cases ho
        exact steps_silent (.inr ⟨level, rfl⟩) h
    | WALK_SUCCESS pa =>
      obtain ⟨r, hone, hready⟩ := ready_of_progress h hlen
      simp only [bind, Except.bind] at ho
      by_cases hsize : c.size = 0#64
      · rw [if_pos hsize] at ho
        cases ho
        exact steps_silent (.inl ⟨rsiIncomplete, by decide, .inl rfl⟩) h
      · rw [if_neg hsize] at ho
        obtain hnone | ⟨d', token, hsome, hready, rfl⟩ := hready
        · rw [hnone] at ho
          cases ho
          exact steps_silent (.inl ⟨rsiErrorInput, by decide, .inl rfl⟩) h
        · rw [hsome] at ho
          dsimp only at ho
          obtain ⟨n, hn⟩ : ∃ n, n = if c.size.toNat < d'.ccaTokenLen then c.size.toNat
            else d'.ccaTokenLen := ⟨_, rfl⟩
          rw [← hn] at ho
          have hnleft : n ≤ d'.ccaTokenLen := by
            split_ifs at hn <;> omega
          have hnsize : n ≤ c.size.toNat := by
            split_ifs at hn <;> omega
          by_cases hdone : d'.ccaTokenLen - n = 0
          · rw [if_neg (not_not.mpr hdone)] at ho
            obtain rfl := Except.ok.inj ho
            exact hready.steps hone hwalk (by omega) hnleft rfl rfl (.inl ⟨by omega, rfl⟩)
          · rw [if_pos hdone] at ho
            obtain rfl := Except.ok.inj ho
            have h0 : n ≠ 0 := by
              have hpos : c.size.toNat ≠ 0 := fun h0 => hsize (BitVec.eq_of_toNat_eq h0)
              split_ifs at hn <;> omega
            exact hready.steps hone hwalk (by omega) hnleft rfl rfl
              (.inr ⟨by omega, h0, rfl, rfl⟩)

/-- One call of the handler. -/
theorem continue_steps (h : Progress enc d signed got)
    (ho : handleRsiAttestTokenContinue enc d c = .ok (some o)) : Steps enc signed got c o := by
  unfold handleRsiAttestTokenContinue at ho
  split_ifs at ho with hargs hpar
  · cases ho
    exact steps_silent (.inl ⟨rsiErrorInput, by decide, .inl rfl⟩) (by rwa [List.append_nil])
  · cases ho
    exact steps_silent (.inl ⟨rsiErrorInput, by decide, .inl rfl⟩) (by rwa [List.append_nil])
  · have hfit : c.offset.toNat + c.size.toNat ≤ 4096 := by
      simp only [not_or, BitVec.le_def, BitVec.lt_def, BitVec.toNat_add,
        BitVec.toNat_ofNat] at hargs
      omega
    split at ho
    · cases ho
    · next ret d' more hloop =>
      cases ho
      obtain ⟨hd, -, hret⟩ := signLoop_progress (by rwa [List.append_nil]) hloop
      exact steps_silent (.inl (hret ret rfl)) hd
    · next d' more hloop =>
      obtain ⟨hd, hlen, -⟩ := signLoop_progress (by rwa [List.append_nil]) hloop
      cases hstate : attestTokenContinueWriteState enc d' c more with
      | error f =>
        rw [hstate] at ho
        cases ho
      | ok o' =>
        rw [hstate] at ho
        cases ho
        exact writeState_steps hfit hd (hlen rfl) hstate

/-- The bytes that some calls deliver. -/
def delivered (outs : List (ContinueCall × ContinueOutcome)) : List Byte :=
  outs.flatMap fun p => pieceOf p.1 p.2

/-- The realm tokens that are signed during some calls. -/
def signedIn (outs : List (ContinueCall × ContinueOutcome)) : List (List Byte) :=
  outs.flatMap fun p => p.2.signed

/-- What calls deliver of which only the last one may end the stream. -/
structure Streams (enc : CcaEncoder) (signed : List (List Byte)) (got : List Byte)
    (outs : List (ContinueCall × ContinueOutcome)) : Prop where
  confined : ∀ p ∈ outs, Confined enc p.1 p.2
  complete : ∀ p, outs.getLast? = some p → p.2.Success → ∃ r token,
    signed ++ signedIn outs = [r] ∧ enc.create r = some token ∧ got ++ delivered outs = token
  partly : (∀ p ∈ outs, ¬ p.2.Success) →
    ∃ d, Progress enc d (signed ++ signedIn outs) (got ++ delivered outs)

theorem continueRun_streams {outs : List (ContinueCall × ContinueOutcome)}
    (h : Progress enc d signed got) (hrun : ContinueRun enc d outs)
    (hlast : ∀ p ∈ outs.dropLast, ¬ p.2.Success) : Streams enc signed got outs := by
  induction hrun generalizing signed got with
  | nil d => exact ⟨by simp, by simp, fun _ => ⟨d, by simpa [signedIn, delivered] using h⟩⟩
  | @cons d c o rest hcall hrest ih =>
    have hstep := continue_steps h hcall
    cases rest with
    | nil =>
      refine ⟨by simpa using hstep.confined, ?_, fun hno => ⟨o.data, ?_⟩⟩
      · simpa [signedIn, delivered] using hstep.success
      · simpa [signedIn, delivered] using hstep.progress (hno _ (List.mem_cons_self ..))
    | cons p rest =>
      rw [List.dropLast_cons_cons] at hlast
      have hnext := ih (hstep.progress (hlast _ (List.mem_cons_self ..)))
        fun q hq => hlast q (List.mem_cons_of_mem _ hq)
      refine ⟨fun q hq => ?_, fun q hq hsuccess => ?_, fun hno => ?_⟩
      · obtain rfl | hq := List.mem_cons.mp hq
        · exact hstep.confined
        · exact hnext.confined q hq
      · rw [List.getLast?_cons_cons] at hq
        simpa [signedIn, delivered, List.append_assoc] using hnext.complete q hq hsuccess
      · obtain ⟨d', hd'⟩ := hnext.partly fun q hq => hno q (List.mem_cons_of_mem _ hq)
        exact ⟨d', by simpa [signedIn, delivered, List.append_assoc] using hd'⟩

end

/-- Every start of the stream is one in which nothing is signed. -/
theorem init_progress (enc : CcaEncoder) (d : RecAttestData) (heapOk created : Bool) :
    Progress enc (handleRsiAttestTokenInitLens d heapOk created).1 [] [] := by
  unfold handleRsiAttestTokenInitLens
  dsimp only
  split_ifs
  · exact .unsigned rfl rfl fun _ => rfl
  · exact .unsigned rfl rfl fun _ => rfl
  · exact .unsigned rfl rfl fun _ => rfl

/-- The calls after the start, up to the one that says that the token is complete, deliver
the token that is made of the one realm token that was signed. Up to there they have
delivered a beginning of it. -/
theorem tokenStream_delivers (enc : CcaEncoder) (d : RecAttestData) (heapOk created : Bool)
    {outs : List (ContinueCall × ContinueOutcome)}
    (hrun : ContinueRun enc (handleRsiAttestTokenInitLens d heapOk created).1 outs)
    (hlast : ∀ p ∈ outs.dropLast, ¬ p.2.Success) :
    (∀ p ∈ outs, Confined enc p.1 p.2) ∧
    (∀ p, outs.getLast? = some p → p.2.Success → ∃ r, signedIn outs = [r] ∧
      enc.create r = some (delivered outs)) ∧
    ((∀ p ∈ outs, ¬ p.2.Success) → delivered outs = [] ∨
      ∃ r token, signedIn outs = [r] ∧
      enc.create r = some token ∧ delivered outs <+: token) := by
  have hstreams := continueRun_streams (init_progress enc d heapOk created) hrun hlast
  refine ⟨hstreams.confined, fun p hp hsuccess => ?_, fun hno => ?_⟩
  · obtain ⟨r, token, hsigned, hcreate, rfl⟩ := hstreams.complete p hp hsuccess
    exact ⟨r, hsigned, hcreate⟩
  · obtain ⟨d', hd'⟩ := hstreams.partly hno
    rw [List.nil_append, List.nil_append] at hd'
    generalize signedIn outs = signed at hd' ⊢
    generalize delivered outs = got at hd' ⊢
    cases hd' with
    | unsigned => exact .inl rfl
    | signed => exact .inl rfl
    | @created r token hcreate => exact .inr ⟨r, token, rfl, hcreate, List.take_prefix _ _⟩

/-- An encoder that puts a tag before the realm token and another one behind it. -/
def demoEncoder : CcaEncoder where
  bufSize := 4096
  create r := if r.length ≤ 16 then some (0xD9#8 :: r ++ [0xFF#8]) else none
  fits r token h := by
    split_ifs at h
    cases h
    simp only [List.cons_append, List.length_cons, List.length_append, List.length_nil]
    omega

def demoContinue (size : Word) : ContinueCall where
  r := { (default : Rec) with s2Ctx := { (default : S2ttContext) with ipaBits := 32 } }
  ipa := 0#64
  offset := 8#64
  size := size
  rounds := [⟨.inProgress, false, none⟩, ⟨.done [7#8], false, none⟩]
  walk := .ok (.WALK_SUCCESS 0x4000#64)
  mem _ _ := 0#8

/-- The result of a call in the examples. -/
def demoOutcome (d : RecAttestData) (c : ContinueCall) : ContinueOutcome :=
  match handleRsiAttestTokenContinue demoEncoder d c with
  | .ok (some o) => o
  | _ => ⟨.fault 0, d, c.mem, none, []⟩

def demoAttest : RecAttestData := ⟨fun _ => 0#8, 0, 0, 0, .NOT_STARTED, fun _ => 0#8⟩
def demoOutcome0 : ContinueOutcome :=
  demoOutcome (handleRsiAttestTokenInitLens demoAttest true true).1 (demoContinue 0#64)
def demoOutcome1 : ContinueOutcome := demoOutcome demoOutcome0.data (demoContinue 2#64)
def demoOutcome2 : ContinueOutcome := demoOutcome demoOutcome1.data (demoContinue 2#64)

/-- A token of three bytes that is fetched in two pieces, after a call with an empty buffer. -/
theorem tokenStream_delivers_pieces : demoEncoder.create [7#8] = some (delivered
    [(demoContinue 0#64, demoOutcome0), (demoContinue 2#64, demoOutcome1),
      (demoContinue 2#64, demoOutcome2)]) := by
  have hrun : ContinueRun demoEncoder (handleRsiAttestTokenInitLens demoAttest true true).1
      [(demoContinue 0#64, demoOutcome0), (demoContinue 2#64, demoOutcome1),
        (demoContinue 2#64, demoOutcome2)] :=
    .cons rfl (.cons rfl (.cons rfl (.nil _)))
  have h0 : demoOutcome0.ret = .toRealm rsiIncomplete 0#64 := by decide +kernel
  have h1 : demoOutcome1.ret = .toRealm rsiIncomplete 2#64 := by decide +kernel
  have h2 : demoOutcome2.ret = .toRealm rsiSuccess 1#64 := by decide +kernel
  have hsigned : signedIn [(demoContinue 0#64, demoOutcome0), (demoContinue 2#64, demoOutcome1),
      (demoContinue 2#64, demoOutcome2)] = [[7#8]] := by decide +kernel
  obtain ⟨r, hr, hcreate⟩ := (tokenStream_delivers demoEncoder demoAttest true true hrun (by
    rintro p hp ⟨x1, hx1⟩
    obtain rfl | rfl : p = (demoContinue 0#64, demoOutcome0) ∨
        p = (demoContinue 2#64, demoOutcome1) := by
      simpa using hp
    · cases h0.symm.trans hx1
    · cases h1.symm.trans hx1)).2.1 _ rfl ⟨1#64, h2⟩
  rw [hsigned, List.cons.injEq] at hr
  rwa [hr.1]

end RmmCaec
