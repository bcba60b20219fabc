import RmmCaec.ByteLayout
import RmmCaec.TokenSign

/-!
# The buffer that is shared with EL3

Requests to EL3 and its answers go through one page, behind one lock. Each user takes the
lock, calls EL3, and releases the lock by hand on every way out. What EL3 answers is a
parameter: three registers, and what it makes of the page.
-/
namespace RmmCaec

open ByteLayout

/-- The `n` bytes at an offset. -/
def loadBytes (mem : ℕ → Byte) (off n : ℕ) : List (Byte) :=
  (List.range n).map fun i => mem (off + i)

def storeBytes (mem : ℕ → Byte) (off : ℕ) (bytes : List (Byte)) : ℕ → Byte := fun k =>
  if off ≤ k then (bytes[k - off]?).getD (mem k) else mem k

@[simp] theorem loadBytes_length (mem : ℕ → Byte) (off n : ℕ) :
    (loadBytes mem off n).length = n := by
  simp [loadBytes]

theorem loadBytes_add (mem : ℕ → Byte) (off m n : ℕ) :
    loadBytes mem off (m + n) = loadBytes mem off m ++ loadBytes mem (off + m) n := by
  simp [loadBytes, List.range_add, Nat.add_assoc]

/-- What is stored is loaded. -/
theorem loadBytes_storeBytes (mem : ℕ → Byte) (off : ℕ) (bytes : List Byte) :
    loadBytes (storeBytes mem off bytes) off bytes.length = bytes := by
  refine List.ext_getElem (by simp) fun i hi hi' => ?_
  simp [loadBytes, storeBytes, hi']

/-- Nothing changes below the bytes that are stored. -/
theorem loadBytes_storeBytes_below (mem : ℕ → Byte) (off : ℕ) (bytes : List Byte) :
    loadBytes (storeBytes mem off bytes) 0 off = loadBytes mem 0 off := by
  refine List.map_congr_left fun i hi => ?_
  have := List.mem_range.mp hi
  rw [storeBytes, if_neg (by omega)]

def eRmmOk : ℤ := 0
def eRmmUnk : ℤ := -1
def eRmmAgain : ℤ := -6

/-- What the functions of the attestation library return: 0 or a negative error number. -/
inductive AttestRet
  | ok
  | EAGAIN
  | EINVAL
  | ENOMEM
  | ENOTSUP
  | EPERM
  deriving DecidableEq, Repr

/-- The result of an SMC, and its effect on the shared page. -/
structure El3Answer where
  x0 : Word
  x1 : Word
  x2 : Word
  buf : (ℕ → Byte) → ℕ → Byte

/-- `(int)x0`. -/
def El3Answer.ret (r : El3Answer) : ℤ := (r.x0.setWidth 32).toInt

/-- How a function ends: with a value, waiting for a lock that is never released, waiting
for EL3, or at an assertion. -/
inductive El3End
  | returned (ret : AttestRet)
  | spins
  | waits
  | asserts
  deriving DecidableEq

/-- How this build and this EL3 are configured. -/
structure El3Config where
  version : BitVec 32
  el3TokenSign : Bool
  platTokenSize : ℕ
  platTokenSize_lt : platTokenSize < 2 ^ 32

/-- The static data of the interface to EL3 and of the attestation library. -/
structure El3Ifc where
  sharedAreaLock : Bool
  sharedBuf : ℕ → Byte
  featReg : Word
  featRegRead : Bool
  ticket : ℕ
  tokenSignResponse : ℕ → ℕ → Byte
  attestKeyLoaded : Bool
  publicKey : List (Byte)
  publicKeyHash : List (Byte)
  platformTokenBuf : ℕ → Byte
  platformToken : Option Word

namespace El3Ifc

/-- The page after a call. -/
def called (ifc : El3Ifc) (r : El3Answer) : El3Ifc := { ifc with sharedBuf := r.buf ifc.sharedBuf }

def releaseSharedBuf (ifc : El3Ifc) : El3Ifc := { ifc with sharedAreaLock := false }

end El3Ifc

/-- Spin until the lock is free, and go on with the page. -/
def rmmEl3IfcGetSharedBufLocked (ifc : El3Ifc) (k : El3Ifc → El3End × El3Ifc) :
    El3End × El3Ifc :=
  if ifc.sharedAreaLock then (.spins, ifc) else k { ifc with sharedAreaLock := true }

/-- `rmm_el3_ifc_get_feat_register`: the value only if the call succeeds. -/
def rmmEl3IfcGetFeatRegister (cfg : El3Config) (feat : El3Answer) : ℤ × Option Word :=
  if cfg.version.extractLsb' 16 15 ≠ 0#15 ∨ cfg.version.extractLsb' 0 16 < 4#16 then
    (eRmmUnk, none)
  else if feat.x0 ≠ 0#64 then (feat.ret, none)
  else (0, some feat.x1)

/-- Whether EL3 signs tokens. The register is read once. -/
def rmmEl3IfcEl3TokenSignSupported (cfg : El3Config) (ifc : El3Ifc) (feat : El3Answer) :
    Bool × El3Ifc :=
  if ifc.featRegRead then (ifc.featReg &&& 1#64 != 0#64, ifc)
  else
    let (ret, value) := rmmEl3IfcGetFeatRegister cfg feat
    if ret ≠ 0 then (false, ifc)
    else
      let featReg := value.getD ifc.featReg
      (featReg &&& 1#64 != 0#64, { ifc with featReg := featReg, featRegRead := true })

/-- The calls for token signing have one shape: they fail if EL3 does not sign tokens, and
else give its return code. -/
def tokenSignCall (cfg : El3Config) (ifc : El3Ifc) (feat ans : El3Answer) : ℤ × El3Ifc :=
  match rmmEl3IfcEl3TokenSignSupported cfg ifc feat with
  | (false, ifc) => (eRmmUnk, ifc)
  | (true, ifc) => (ans.ret, ifc.called ans)

def rmmEl3IfcPushEl3TokenSignRequest := tokenSignCall
def rmmEl3IfcPullEl3TokenSignResponse := tokenSignCall
def rmmEl3IfcGetRealmAttestPubKeyFromEl3 := tokenSignCall

def rmmEl3IfcGetRealmAttestKey (ifc : El3Ifc) (ans : El3Answer) : ℤ × El3Ifc :=
  (ans.ret, ifc.called ans)

/-- The request as it lies in the page. -/
def requestBytes (mem : ℕ → Byte) (ctx : SignState) (ticket : ℕ) : ℕ → Byte :=
  let mem := storeBytes mem 0 (leBytes 4 0)
  let mem := storeBytes mem 0x8 (leBytes 8 ctx.cookie.toNat)
  let mem := storeBytes mem 0x18 (leBytes 4 1)
  let mem := storeBytes mem 0x20 ctx.hash
  storeBytes mem 0x10 (leBytes 8 ticket)

/-- `el3_token_sign_queue_try_enqueue`, as it uses the page. -/
def el3TokenSignQueuePush (cfg : El3Config) (ifc : El3Ifc) (ctx : SignState)
    (feat ans : El3Answer) : El3End × El3Ifc :=
  if 64 < ctx.hash.length ∨ ctx.signAlgId ≠ psaAlgEcdsaSha384 ∨ ctx.hash.length ≠ 48 then
    (.returned .EINVAL, ifc)
  else
    rmmEl3IfcGetSharedBufLocked ifc fun ifc =>
      let ifc := { ifc with
        sharedBuf := requestBytes ifc.sharedBuf ctx ifc.ticket
        ticket := ifc.ticket + 1 }
      let (ret, ifc) := rmmEl3IfcPushEl3TokenSignRequest cfg ifc feat ans
      let ifc := ifc.releaseSharedBuf
      if ret = eRmmAgain then (.returned .EAGAIN, ifc)
      else if ret ≠ 0 then (.returned .EPERM, ifc)
      else (.returned .ok, ifc)

/-- The size of a response. -/
def el3TokenSignResponseSize : ℕ := 0x218

/-- `attest_el3_token_sign_pull_response_from_el3` on a CPU. The error exit keeps the lock. -/
def attestEl3TokenSignPullResponseFromEl3 (cfg : El3Config) (ifc : El3Ifc) (cpu : ℕ)
    (feat ans : El3Answer) : El3End × El3Ifc :=
  rmmEl3IfcGetSharedBufLocked ifc fun ifc =>
    let (ret, ifc) := rmmEl3IfcPullEl3TokenSignResponse cfg ifc feat ans
    if ret = eRmmAgain then (.returned .EAGAIN, ifc.releaseSharedBuf)
    else if ret ≠ eRmmOk then (.returned .ENOTSUP, ifc)
    else
      let resp := storeBytes (ifc.tokenSignResponse cpu) 0
        (loadBytes ifc.sharedBuf 0 el3TokenSignResponseSize)
      let ifc := { ifc with tokenSignResponse := Function.update ifc.tokenSignResponse cpu resp }
      (.returned .ok, ifc.releaseSharedBuf)

/-- What the cryptographic library makes of a key: whether it imports it, the encoded
public key, and its hash. -/
structure KeyImport where
  imported : Bool
  encoded : Option (List Byte)
  hash : Option (List Byte)

/-- The rest of `attest_init_realm_attestation_key`, after the page was released. -/
def setupImportedKey (ifc : El3Ifc) (key : KeyImport) : El3End × El3Ifc :=
  if !key.imported then (.returned .EINVAL, ifc)
  else
    match key.encoded with
    | none => (.returned .EINVAL, ifc)
    | some bytes =>
      if bytes.length = 0 then (.asserts, ifc)
      else
        let ifc := { ifc with publicKey := bytes }
        match key.hash with
        | none => (.returned .EINVAL, ifc)
        | some hash => (.returned .ok, { ifc with publicKeyHash := hash, attestKeyLoaded := true })

/-- Without token signing in EL3 the page holds the private key, which is cleared. -/
def attestInitRealmAttestationKey (cfg : El3Config) (ifc : El3Ifc) (feat ans : El3Answer)
    (key : KeyImport) : El3End × El3Ifc :=
  if ifc.attestKeyLoaded then (.returned .EINVAL, ifc)
  else
    rmmEl3IfcGetSharedBufLocked ifc fun ifc =>
      if cfg.el3TokenSign then
        let (ret, ifc) := rmmEl3IfcGetRealmAttestPubKeyFromEl3 cfg ifc feat ans
        if ret ≠ 0 then (.returned .EINVAL, ifc.releaseSharedBuf)
        else
          let ifc := { ifc with publicKey := loadBytes ifc.sharedBuf 0 ans.x1.toNat }
          setupImportedKey ifc.releaseSharedBuf key
      else
        let (ret, ifc) := rmmEl3IfcGetRealmAttestKey ifc ans
        if ret ≠ 0 then (.returned .EINVAL, ifc.releaseSharedBuf)
        else
          let zeros := List.replicate ans.x1.toNat 0#8
          let ifc := { ifc with sharedBuf := storeBytes ifc.sharedBuf 0 zeros }
          setupImportedKey ifc.releaseSharedBuf key

/-- The variables of the loop that fetches the platform token. -/
structure TokenLoop where
  tokenHunkLen : Word
  remainingLen : Word
  hashLength : Word
  offset : Word

/-- A call for the platform token: the input in the page, and the answer. -/
structure PlatTokenCall where
  hashSize : Word
  input : List Byte
  answer : El3Answer

/-- What the loop has done: its calls, and where it has written to the token buffer. -/
structure TokenLog where
  calls : List PlatTokenCall
  writes : List (Word × Word)

/-- The lengths are written only if the call succeeds. -/
def rmmEl3IfcGetPlatformToken (ifc : El3Ifc) (l : TokenLoop) (ans : El3Answer) :
    ℤ × El3Ifc × TokenLoop :=
  if ans.x0 ≠ 0#64 then (ans.ret, ifc.called ans, l)
  else (ans.ret, ifc.called ans, { l with tokenHunkLen := ans.x1, remainingLen := ans.x2 })

/-- The hunk in the page goes to the token buffer. -/
def copyHunk (ifc : El3Ifc) (l : TokenLoop) : El3Ifc :=
  let hunk := loadBytes ifc.sharedBuf 0 l.tokenHunkLen.toNat
  { ifc with platformTokenBuf := storeBytes ifc.platformTokenBuf l.offset.toNat hunk }

/-- The loop of `attest_setup_platform_token`, for the answers that EL3 gives. -/
def platformTokenLoop (cfg : El3Config) :
    List El3Answer → El3Ifc → TokenLoop → TokenLog → El3End × El3Ifc × TokenLog
  | [], ifc, _, log => (.waits, ifc, log)
  | ans :: rest, ifc, l, log =>
    let log := { log with
      calls :=
        log.calls ++ [⟨l.hashLength, loadBytes ifc.sharedBuf 0 l.hashLength.toNat, ans⟩] }
    let (ret, ifc, l) := rmmEl3IfcGetPlatformToken ifc l ans
    if ret = eRmmAgain then platformTokenLoop cfg rest ifc l log
    else if ret ≠ eRmmOk then (.returned .EINVAL, ifc.releaseSharedBuf, log)
    else if l.tokenHunkLen = 0#64 then (.asserts, ifc, log)
    else if cfg.platTokenSize < (l.offset + l.tokenHunkLen + l.remainingLen).toNat then
      (.returned .ENOMEM, ifc.releaseSharedBuf, log)
    else
      let log := { log with writes := log.writes ++ [(l.offset, l.tokenHunkLen)] }
      let ifc := copyHunk ifc l
      let l := { l with offset := l.offset + l.tokenHunkLen, hashLength := 0#64 }
      if l.remainingLen ≠ 0#64 then platformTokenLoop cfg rest ifc l log
      else
        (.returned .ok, { ifc.releaseSharedBuf with platformToken := some l.offset }, log)

/-- `attest_setup_platform_token`. The hash of the public key is what EL3 gets first. -/
def attestSetupPlatformTokenLogged (cfg : El3Config) (ifc : El3Ifc) (answers : List El3Answer) :
    El3End × El3Ifc × TokenLog :=
  if !ifc.attestKeyLoaded then (.returned .EINVAL, ifc, ⟨[], []⟩)
  else if ifc.sharedAreaLock then (.spins, ifc, ⟨[], []⟩)
  else
    let ifc := { ifc with
      sharedAreaLock := true
      sharedBuf := storeBytes ifc.sharedBuf 0 ifc.publicKeyHash }
    platformTokenLoop cfg answers ifc ⟨0#64, 0#64, 32#64, 0#64⟩ ⟨[], []⟩

def attestSetupPlatformToken (cfg : El3Config) (ifc : El3Ifc) (answers : List El3Answer) :
    El3End × El3Ifc :=
  let (stop, ifc, _) := attestSetupPlatformTokenLogged cfg ifc answers
  (stop, ifc)

inductive El3Op
  | push (ctx : SignState) (feat ans : El3Answer)
  | pull (cpu : ℕ) (feat ans : El3Answer)
  | platformToken (answers : List El3Answer)
  | realmKey (feat ans : El3Answer) (key : KeyImport)

def El3Op.run (cfg : El3Config) (ifc : El3Ifc) : El3Op → El3End × El3Ifc
  | .push ctx feat ans => el3TokenSignQueuePush cfg ifc ctx feat ans
  | .pull cpu feat ans => attestEl3TokenSignPullResponseFromEl3 cfg ifc cpu feat ans
  | .platformToken answers => attestSetupPlatformToken cfg ifc answers
  | .realmKey feat ans key => attestInitRealmAttestationKey cfg ifc feat ans key

/-- A pull reaches an EL3 that signs tokens, and gets a response or is asked to retry. -/
def El3Op.Answered (cfg : El3Config) (ifc : El3Ifc) : El3Op → Prop
  | .pull _ feat ans => (rmmEl3IfcEl3TokenSignSupported cfg ifc feat).1 = true ∧
      (ans.ret = eRmmOk ∨ ans.ret = eRmmAgain)
  | _ => True

/-- What holds of each request of a sequence, in the state that it finds. A request that does
not return is the last one. -/
def EachOp (cfg : El3Config) (P : El3Ifc → El3Op → Prop) : El3Ifc → List El3Op → Prop
  | _, [] => True
  | ifc, op :: rest => P ifc op ∧
      ∀ ret, (op.run cfg ifc).1 = .returned ret → EachOp cfg P (op.run cfg ifc).2 rest

/-- A request got the lock; if it returns, the lock is free. -/
def Released (r : El3End × El3Ifc) : Prop :=
  r.1 ≠ .spins ∧ ∀ ret, r.1 = .returned ret → r.2.sharedAreaLock = false

section
variable {cfg : El3Config} {ifc : El3Ifc}

theorem getSharedBufLocked_free (h : ifc.sharedAreaLock = false) (k : El3Ifc → El3End × El3Ifc) :
    rmmEl3IfcGetSharedBufLocked ifc k = k { ifc with sharedAreaLock := true } := by
  simp [rmmEl3IfcGetSharedBufLocked, h]

@[simp] theorem releaseSharedBuf_lock (ifc : El3Ifc) :
    ifc.releaseSharedBuf.sharedAreaLock = false := rfl

@[simp] theorem called_lock (ifc : El3Ifc) (ans : El3Answer) :
    (ifc.called ans).sharedAreaLock = ifc.sharedAreaLock := rfl

@[simp] theorem supported_lock (cfg : El3Config) (ifc : El3Ifc) (feat : El3Answer) :
    (rmmEl3IfcEl3TokenSignSupported cfg ifc feat).2.sharedAreaLock = ifc.sharedAreaLock := by
  unfold rmmEl3IfcEl3TokenSignSupported
  split
  · rfl
  · dsimp only
    split <;> rfl

@[simp] theorem tokenSignCall_lock (cfg : El3Config) (ifc : El3Ifc) (feat ans : El3Answer) :
    (tokenSignCall cfg ifc feat ans).2.sharedAreaLock = ifc.sharedAreaLock := by
  have := supported_lock cfg ifc feat
  unfold tokenSignCall
  split <;> simp_all

theorem tokenSignCall_ret (cfg : El3Config) (ifc : El3Ifc) (feat ans : El3Answer) :
    (tokenSignCall cfg ifc feat ans).1 =
      if (rmmEl3IfcEl3TokenSignSupported cfg ifc feat).1 then ans.ret else eRmmUnk := by
  unfold tokenSignCall
  split <;> simp_all

theorem released_of_free {stop : El3End} (hstop : stop ≠ .spins)
    (h : ifc.sharedAreaLock = false) :
    Released (stop, ifc) := ⟨hstop, fun _ _ => h⟩

theorem push_released (h : ifc.sharedAreaLock = false) (ctx : SignState) (feat ans : El3Answer) :
    Released (el3TokenSignQueuePush cfg ifc ctx feat ans) := by
  unfold el3TokenSignQueuePush
  split_ifs
  · exact released_of_free (by simp) h
  · rw [getSharedBufLocked_free h]
    dsimp only
    split_ifs <;> exact released_of_free (by simp) (releaseSharedBuf_lock _)

theorem setupImportedKey_released (h : ifc.sharedAreaLock = false) (key : KeyImport) :
    Released (setupImportedKey ifc key) := by
  unfold setupImportedKey
  split_ifs
  · exact released_of_free (by simp) h
  · split
    · exact released_of_free (by simp) h
    · split_ifs
      · exact released_of_free (by simp) h
      · split <;> exact released_of_free (by simp) h

theorem realmKey_released (h : ifc.sharedAreaLock = false) (feat ans : El3Answer)
    (key : KeyImport) :
    Released (attestInitRealmAttestationKey cfg ifc feat ans key) := by
  unfold attestInitRealmAttestationKey
  by_cases hloaded : ifc.attestKeyLoaded = true
  · rw [if_pos hloaded]
    exact released_of_free (by simp) h
  · rw [if_neg hloaded, getSharedBufLocked_free h]
    dsimp only
    split_ifs
    · exact released_of_free (by simp) (releaseSharedBuf_lock _)
    · exact setupImportedKey_released (releaseSharedBuf_lock _) key
    · exact released_of_free (by simp) (releaseSharedBuf_lock _)
    · exact setupImportedKey_released (releaseSharedBuf_lock _) key

/-- The loop runs with the lock, and every way out of it but an assertion releases it. -/
theorem platformTokenLoop_released (answers : List El3Answer) (ifc : El3Ifc) (l : TokenLoop)
    (log : TokenLog) : Released ((platformTokenLoop cfg answers ifc l log).1,
      (platformTokenLoop cfg answers ifc l log).2.1) := by
  induction answers generalizing ifc l log with
  | nil => exact ⟨by simp [platformTokenLoop], by simp [platformTokenLoop]⟩
  | cons ans rest ih =>
    unfold platformTokenLoop
    dsimp only
    split_ifs
    · exact ih _ _ _
    · exact released_of_free (by simp) (releaseSharedBuf_lock _)
    · exact ⟨by simp, by simp⟩
    · exact released_of_free (by simp) (releaseSharedBuf_lock _)
    · exact ih _ _ _
    · exact released_of_free (by simp) rfl

theorem platformToken_released (h : ifc.sharedAreaLock = false) (answers : List El3Answer) :
    Released (attestSetupPlatformToken cfg ifc answers) := by
  unfold attestSetupPlatformToken attestSetupPlatformTokenLogged
  by_cases hloaded : ifc.attestKeyLoaded = true
  · simp only [hloaded, h, Bool.not_true, Bool.false_eq_true, if_false]
    exact platformTokenLoop_released _ _ _ _
  · simp only [hloaded, Bool.not_false, if_true]
    exact released_of_free (by simp) h

theorem supported_locked (cfg : El3Config) (ifc : El3Ifc) (feat : El3Answer) (lock : Bool) :
    (rmmEl3IfcEl3TokenSignSupported cfg { ifc with sharedAreaLock := lock } feat).1 =
      (rmmEl3IfcEl3TokenSignSupported cfg ifc feat).1 := by
  unfold rmmEl3IfcEl3TokenSignSupported
  dsimp only
  split_ifs <;> rfl

/-- A pull releases the lock if EL3 has answered it, and only then. -/
theorem pull_released_iff (h : ifc.sharedAreaLock = false) (cpu : ℕ) (feat ans : El3Answer) :
    Released (attestEl3TokenSignPullResponseFromEl3 cfg ifc cpu feat ans) ↔
      El3Op.Answered cfg ifc (.pull cpu feat ans) := by
  have hret := tokenSignCall_ret cfg { ifc with sharedAreaLock := true } feat ans
  have hlock := tokenSignCall_lock cfg { ifc with sharedAreaLock := true } feat ans
  rw [supported_locked] at hret
  unfold attestEl3TokenSignPullResponseFromEl3
  rw [getSharedBufLocked_free h]
  dsimp only [rmmEl3IfcPullEl3TokenSignResponse, El3Op.Answered]
  by_cases hagain : (tokenSignCall cfg { ifc with sharedAreaLock := true } feat ans).1 = eRmmAgain
  · rw [if_pos hagain]
    refine iff_of_true (released_of_free (by simp) (releaseSharedBuf_lock _)) ?_
    rw [hagain] at hret
    split_ifs at hret with hsup
    · exact ⟨hsup, .inr hret.symm⟩
    · cases hret
  · rw [if_neg hagain]
    by_cases hok : (tokenSignCall cfg { ifc with sharedAreaLock := true } feat ans).1 = eRmmOk
    · rw [if_neg (not_not.mpr hok)]
      refine iff_of_true (released_of_free (by simp) (releaseSharedBuf_lock _)) ?_
      rw [hok] at hret
      split_ifs at hret with hsup
      · exact ⟨hsup, .inl hret.symm⟩
      · cases hret
    · rw [if_pos hok]
      refine iff_of_false (fun hrel => ?_) ?_
      · exact Bool.noConfusion ((hrel.2 _ rfl).symm.trans hlock)
      · rintro ⟨hsup, hans⟩
        rw [if_pos hsup] at hret
        rw [hret] at hok hagain
        exact hans.elim hok hagain

theorem released_iff (h : ifc.sharedAreaLock = false) (op : El3Op) :
    Released (op.run cfg ifc) ↔ op.Answered cfg ifc := by
  cases op with
  | push ctx feat ans => exact iff_of_true (push_released h ctx feat ans) trivial
  | pull cpu feat ans => exact pull_released_iff h cpu feat ans
  | platformToken answers => exact iff_of_true (platformToken_released h answers) trivial
  | realmKey feat ans key => exact iff_of_true (realmKey_released h feat ans key) trivial

/-- The lock is free after each request if and only if EL3 answers each pull. -/
theorem sharedBuf_released_iff (cfg : El3Config) {ifc : El3Ifc} (h : ifc.sharedAreaLock = false)
    (ops : List El3Op) :
    EachOp cfg (fun ifc op => Released (op.run cfg ifc)) ifc ops ↔
      EachOp cfg (fun ifc op => op.Answered cfg ifc) ifc ops := by
  induction ops generalizing ifc with
  | nil => exact Iff.rfl
  | cons op rest ih =>
    unfold EachOp
    rw [← released_iff h op]
    refine and_congr_right fun hrel => forall₂_congr fun ret hret => ?_
    exact ih (hrel.2 ret hret)

end

def demoEl3Config : El3Config := ⟨4#32, true, 0x1000, by decide⟩

/-- An interface at boot, and an EL3 that signs tokens. -/
def demoEl3Ifc : El3Ifc :=
  ⟨false, fun _ => 0#8, 1#64, true, 1, fun _ _ => 0#8, false, [], [], fun _ => 0#8, none⟩

def demoEl3Answer (x0 : Word) : El3Answer := ⟨x0, 0#64, 0#64, id⟩

/-- A pull that is asked to retry, and one that gets its response. -/
theorem sharedBuf_released_answered :
    EachOp demoEl3Config (fun ifc op => Released (op.run demoEl3Config ifc)) demoEl3Ifc
      [.pull 0 (demoEl3Answer 0#64) (demoEl3Answer 0xFFFFFFFFFFFFFFFA#64),
        .pull 0 (demoEl3Answer 0#64) (demoEl3Answer 0#64)] := by
  refine (sharedBuf_released_iff demoEl3Config rfl _).mpr ?_
  exact ⟨⟨by decide, .inr (by decide)⟩,
    fun _ _ => ⟨⟨by decide, .inl (by decide)⟩, fun _ _ => trivial⟩⟩

/-- A pull that EL3 rejects keeps the lock, and the next request waits for ever. -/
theorem sharedBuf_rejected_pull : ¬ ∀ (cfg : El3Config) (ifc : El3Ifc) (ops : List El3Op),
    ifc.sharedAreaLock = false →
    EachOp cfg (fun ifc op => Released (op.run cfg ifc)) ifc ops := by
  intro h
  have hpull := h demoEl3Config demoEl3Ifc
    [.pull 0 (demoEl3Answer 0#64) (demoEl3Answer 0xFFFFFFFFFFFFFFFB#64),
      .realmKey (demoEl3Answer 0#64) (demoEl3Answer 0#64) ⟨true, none, none⟩] rfl
  exact (hpull.2 .ENOTSUP (by decide)).1.1 (by decide)

end RmmCaec
