import RmmCaec.El3Interface

/-!
# The platform token

EL3 hands over the platform token in hunks, each of which comes with the length of what
remains. The loop goes by the sum of the offset, the hunk and the rest, in 64 bits; what
it should go by is the sum itself.
-/
namespace RmmCaec

/-- An answer of EL3: it is busy, it gives a hunk and says how much remains, or it fails
with a code. -/
inductive TokenAnswer
  | busy
  | hunk (bytes : List Byte) (remaining : Word)
  | error (x0 : Word)

/-- Hunks fit in the page and are not empty, and an error is neither success nor busy. -/
def TokenAnswer.Valid : TokenAnswer → Prop
  | .busy => True
  | .hunk bytes _ => 0 < bytes.length ∧ bytes.length ≤ 4096
  | .error x0 => x0 ≠ 0#64 ∧ x0 ≠ 0xFFFFFFFFFFFFFFFA#64

/-- The registers and the page after an answer. -/
def TokenAnswer.result : TokenAnswer → El3Answer
  | .busy => ⟨0xFFFFFFFFFFFFFFFA#64, 0#64, 0#64, id⟩
  | .hunk bytes remaining =>
    ⟨0#64, BitVec.ofNat 64 bytes.length, remaining, fun mem => storeBytes mem 0 bytes⟩
  | .error x0 => ⟨x0, 0#64, 0#64, id⟩

def TokenAnswer.bytes : TokenAnswer → List Byte
  | .hunk bytes _ => bytes
  | _ => []

def TokenAnswer.isHunk : TokenAnswer → Bool
  | .hunk _ _ => true
  | _ => false

def TokenAnswer.isError : TokenAnswer → Bool
  | .error _ => true
  | _ => false

/-- The hunks of some answers, one after another. -/
def hunksOf (answers : List TokenAnswer) : List Byte := answers.flatMap TokenAnswer.bytes

/-- An answer is a hunk after which nothing remains. -/
def TokenAnswer.Last (a : TokenAnswer) : Prop := ∃ bytes, a = .hunk bytes 0#64

/-- The code of an error, cut to 32 bits, is neither that of success nor that of busy. -/
def NotCut (x0 : Word) : Prop := x0.setWidth 32 ≠ 0#32 ∧ x0.setWidth 32 ≠ 0xFFFFFFFA#32

instance (x0 : Word) : Decidable (NotCut x0) :=
  inferInstanceAs (Decidable (x0.setWidth 32 ≠ 0#32 ∧ x0.setWidth 32 ≠ 0xFFFFFFFA#32))

/-- No answer that the loop comes to, from an offset on, is a hunk that ends beyond a buffer
of `size` bytes with a rest for which the sum wraps around and passes, and none is an error
that passes for another answer in 32 bits. -/
def NoWrap (size : ℕ) : ℕ → List TokenAnswer → Prop
  | _, [] => True
  | off, .busy :: rest => NoWrap size off rest
  | _, .error x0 :: _ => NotCut x0
  | off, .hunk bytes remaining :: rest =>
    if size < (off + bytes.length + remaining.toNat) % 2 ^ 64 then True
    else off + bytes.length ≤ size ∧
      (remaining ≠ 0#64 → NoWrap size (off + bytes.length) rest)

/-- What is asked of the platform token, with the answers that were used. -/
structure TokenAssembled (size : ℕ) (hash : List Byte) (answers : List TokenAnswer)
    (r : El3End × El3Ifc × TokenLog) : Prop where
  inBounds : ∀ w ∈ r.2.2.writes, w.1.toNat + w.2.toNat ≤ size
  /-- The token is there if and only if the last answer says that nothing remains and all
  hunks fit. -/
  returns : r.1 = .returned .ok ↔
    ((∃ a, (answers.take r.2.2.calls.length).getLast? = some a ∧ a.Last) ∧
      (hunksOf (answers.take r.2.2.calls.length)).length ≤ size)
  stored : r.1 = .returned .ok → ∃ len, r.2.1.platformToken = some len ∧
    loadBytes r.2.1.platformTokenBuf 0 len.toNat = hunksOf (answers.take r.2.2.calls.length)
  answered : r.2.2.calls.map (·.answer) = (answers.take r.2.2.calls.length).map TokenAnswer.result
  /-- The hash is the input until there is a hunk. -/
  hashed : ∀ i c, r.2.2.calls[i]? = some c →
    if (answers.take i).any TokenAnswer.isHunk then c.hashSize = 0#64 ∧ c.input = []
    else c.hashSize = 32#64 ∧ c.input = hash
  /-- After an error there is no other call, and the caller gets an error. -/
  stops : ∀ i a, (answers.take r.2.2.calls.length)[i]? = some a → a.isError = true →
    r.2.2.calls.length = i + 1 ∧ r.1 = .returned .EINVAL

section
variable {cfg : El3Config} {size : ℕ} {hash : List Byte} {used rest : List TokenAnswer}
  {ifc : El3Ifc} {l : TokenLoop} {log : TokenLog}

@[simp] theorem hunksOf_append (as bs : List TokenAnswer) :
    hunksOf (as ++ bs) = hunksOf as ++ hunksOf bs := List.flatMap_append

@[simp] theorem hunksOf_single (a : TokenAnswer) : hunksOf [a] = a.bytes := by simp [hunksOf]

/-- The log of the calls with some answers. -/
structure CallsLogged (size : ℕ) (hash : List Byte) (used : List TokenAnswer)
    (log : TokenLog) : Prop where
  inBounds : ∀ w ∈ log.writes, w.1.toNat + w.2.toNat ≤ size
  answered : log.calls.map (·.answer) = used.map TokenAnswer.result
  hashed : ∀ i c, log.calls[i]? = some c →
    if (used.take i).any TokenAnswer.isHunk then c.hashSize = 0#64 ∧ c.input = []
    else c.hashSize = 32#64 ∧ c.input = hash

/-- The invariant of the loop, before the call that follows some answers. -/
structure Fetching (cfg : El3Config) (hash : List Byte) (used : List TokenAnswer) (ifc : El3Ifc)
    (l : TokenLoop) (log : TokenLog) : Prop where
  logged : CallsLogged cfg.platTokenSize hash used log
  offset : l.offset.toNat = (hunksOf used).length
  fits : (hunksOf used).length ≤ cfg.platTokenSize
  stored : loadBytes ifc.platformTokenBuf 0 (hunksOf used).length = hunksOf used
  input : if used.any TokenAnswer.isHunk then l.hashLength = 0#64
    else l.hashLength = 32#64 ∧ loadBytes ifc.sharedBuf 0 32 = hash
  unfinished : ∀ a, used.getLast? = some a → ¬ a.Last
  noError : ∀ a ∈ used, a.isError = false

theorem CallsLogged.length_eq (h : CallsLogged size hash used log) :
    log.calls.length = used.length := by
  have := congrArg List.length h.answered
  simpa using this

/-- One more call. -/
theorem Fetching.call (h : Fetching cfg hash used ifc l log) (a : TokenAnswer) :
    CallsLogged cfg.platTokenSize hash (used ++ [a]) { log with
      calls := log.calls ++ [⟨l.hashLength, loadBytes ifc.sharedBuf 0 l.hashLength.toNat,
        a.result⟩] } := by
  have hlen := h.logged.length_eq
  refine ⟨h.logged.inBounds, by simp [h.logged.answered], fun i c hc => ?_⟩
  by_cases hi : i < log.calls.length
  · rw [List.getElem?_append_left hi] at hc
    rw [List.take_append_of_le_length (by omega)]
    exact h.logged.hashed i c hc
  · rw [List.getElem?_append_right (by omega)] at hc
    obtain ⟨hlt, rfl⟩ := List.getElem?_eq_some_iff.mp hc
    obtain rfl : i = used.length := by
      simp only [List.length_singleton] at hlt
      omega
    have hinput := h.input
    simp only [List.take_left', List.getElem_singleton]
    split_ifs at hinput ⊢ with hany
    · simp [hinput, loadBytes]
    · simpa [hinput.1] using hinput.2

/-- The outcome of the loop, from its log. -/
theorem CallsLogged.assembled (h : CallsLogged size hash used log) {answers : List TokenAnswer}
    (hpre : used <+: answers) {stop : El3End} {ifc : El3Ifc}
    (hret : stop = .returned .ok ↔
      (∃ a, used.getLast? = some a ∧ a.Last) ∧ (hunksOf used).length ≤ size)
    (hstored : stop = .returned .ok → ∃ len, ifc.platformToken = some len ∧
      loadBytes ifc.platformTokenBuf 0 len.toNat = hunksOf used)
    (hstops : ∀ i a, used[i]? = some a → a.isError = true →
      used.length = i + 1 ∧ stop = .returned .EINVAL) :
    TokenAssembled size hash answers (stop, ifc, log) := by
  have hused : answers.take log.calls.length = used := by
    rw [h.length_eq]
    exact (List.prefix_iff_eq_take.mp hpre).symm
  refine ⟨h.inBounds, ?_, ?_, ?_, fun i c hc => ?_, ?_⟩
  · dsimp only
    rwa [hused]
  · dsimp only
    rwa [hused]
  · dsimp only
    rw [hused, h.answered]
  · have hlt : i < used.length := by
      rw [← h.length_eq]
      exact (List.getElem?_eq_some_iff.mp hc).1
    have htake : answers.take i = used.take i := by
      rw [← hused, List.take_take, h.length_eq, Nat.min_eq_left (by omega)]
    rw [htake]
    exact h.hashed i c hc
  · dsimp only
    rw [hused, h.length_eq]
    exact hstops

theorem getPlatformToken_busy (ifc : El3Ifc) (l : TokenLoop) :
    rmmEl3IfcGetPlatformToken ifc l TokenAnswer.busy.result = (eRmmAgain, ifc, l) := rfl

/-- What the loop makes of the code of an error. -/
theorem getPlatformToken_error (ifc : El3Ifc) (l : TokenLoop) {x0 : Word}
    (h : (TokenAnswer.error x0).Valid) :
    rmmEl3IfcGetPlatformToken ifc l (TokenAnswer.error x0).result =
      ((x0.setWidth 32).toInt, ifc, l) := if_pos h.1

theorem notCut_iff (x0 : Word) :
    NotCut x0 ↔ (x0.setWidth 32).toInt ≠ eRmmAgain ∧ (x0.setWidth 32).toInt ≠ eRmmOk := by
  have hagain : (0xFFFFFFFA#32).toInt = eRmmAgain := by decide
  have hok : (0#32).toInt = eRmmOk := by decide
  rw [NotCut, ← hagain, ← hok]
  simp only [ne_eq, BitVec.toInt_inj]
  exact and_comm

theorem getPlatformToken_hunk (ifc : El3Ifc) (l : TokenLoop) (bytes : List Byte)
    (remaining : Word) :
    rmmEl3IfcGetPlatformToken ifc l (TokenAnswer.hunk bytes remaining).result =
      (eRmmOk, { ifc with sharedBuf := storeBytes ifc.sharedBuf 0 bytes },
        { l with tokenHunkLen := BitVec.ofNat 64 bytes.length, remainingLen := remaining }) := rfl

theorem Fetching.noError_append (h : Fetching cfg hash used ifc l log) {a : TokenAnswer}
    (ha : a.isError = false) : ∀ b ∈ used ++ [a], b.isError = false := by
  intro b hb
  obtain hold | hnew := List.mem_append.mp hb
  · exact h.noError b hold
  · rwa [List.mem_singleton.mp hnew]

/-- Answers without an error ask for nothing at their end. -/
theorem stops_of_noError {stop : El3End} (hno : ∀ a ∈ used, a.isError = false) (i : ℕ)
    (a : TokenAnswer) (ha : used[i]? = some a) (herr : a.isError = true) :
    used.length = i + 1 ∧ stop = .returned .EINVAL := by
  rw [hno a (List.mem_of_getElem? ha)] at herr
  cases herr

theorem Fetching.busy (h : Fetching cfg hash used ifc l log) {log' : TokenLog}
    (hlog : CallsLogged cfg.platTokenSize hash (used ++ [.busy]) log') :
    Fetching cfg hash (used ++ [.busy]) ifc l log' := by
  have hhunks : hunksOf (used ++ [.busy]) = hunksOf used := by simp [TokenAnswer.bytes]
  refine ⟨hlog,
    by rw [hhunks, h.offset], by rw [hhunks]; exact h.fits, by rw [hhunks, h.stored], ?_,
    fun a ha => ?_, h.noError_append rfl⟩
  · simpa [TokenAnswer.isHunk] using h.input
  · simp only [List.getLast?_append, List.getLast?_singleton, Option.some_or,
      Option.some.injEq] at ha
    rintro ⟨b, rfl⟩
    cases ha

/-- A hunk that fits goes behind the hunks before it. -/
theorem Fetching.copied (h : Fetching cfg hash used ifc l log) {bytes : List Byte}
    {remaining : Word}
    (hlen : bytes.length ≤ 4096) :
    (l.offset + BitVec.ofNat 64 bytes.length).toNat =
      (hunksOf (used ++ [.hunk bytes remaining])).length ∧
    loadBytes (copyHunk { ifc with sharedBuf := storeBytes ifc.sharedBuf 0 bytes }
      ⟨BitVec.ofNat 64 bytes.length, remaining, l.hashLength, l.offset⟩).platformTokenBuf 0
      (hunksOf (used ++ [.hunk bytes remaining])).length =
        hunksOf (used ++ [.hunk bytes remaining]) := by
  have hsize := cfg.platTokenSize_lt
  have hoff := h.offset
  have hfits := h.fits
  have hn : (BitVec.ofNat 64 bytes.length).toNat = bytes.length := by
    rw [BitVec.toNat_ofNat]
    omega
  have hbytes : (TokenAnswer.hunk bytes remaining).bytes = bytes := rfl
  simp only [hunksOf_append, hunksOf_single, hbytes, List.length_append, copyHunk, hn, hoff]
  refine ⟨?_, ?_⟩
  · rw [BitVec.toNat_add, hn, hoff]
    omega
  · rw [loadBytes_storeBytes, loadBytes_add, loadBytes_storeBytes_below, h.stored, Nat.zero_add,
      loadBytes_storeBytes]

/-- The state after a hunk was copied. -/
theorem Fetching.hunk (h : Fetching cfg hash used ifc l log) {bytes : List Byte} {remaining : Word}
    (hlen : bytes.length ≤ 4096) (hfits : (hunksOf used).length + bytes.length ≤
      cfg.platTokenSize)
    (hrem : remaining ≠ 0#64) {log' : TokenLog}
    (hlog : CallsLogged cfg.platTokenSize hash (used ++ [.hunk bytes remaining]) log') :
    Fetching cfg hash (used ++ [.hunk bytes remaining])
      (copyHunk { ifc with sharedBuf := storeBytes ifc.sharedBuf 0 bytes }
        ⟨BitVec.ofNat 64 bytes.length, remaining, l.hashLength, l.offset⟩)
      ⟨BitVec.ofNat 64 bytes.length, remaining, 0#64,
        l.offset + BitVec.ofNat 64 bytes.length⟩ log' := by
  obtain ⟨hoff, hstored⟩ := h.copied hlen
  refine ⟨hlog, hoff, ?_, hstored, ?_, fun a ha => ?_, h.noError_append rfl⟩
  · simpa [TokenAnswer.bytes] using hfits
  · simp [TokenAnswer.isHunk]
  · simp only [List.getLast?_append, List.getLast?_singleton, Option.some_or,
      Option.some.injEq] at ha
    rintro ⟨b, rfl⟩
    simp only [TokenAnswer.hunk.injEq] at ha
    exact hrem ha.2

/-- The log of a hunk that fits. -/
theorem Fetching.written (h : Fetching cfg hash used ifc l log) {bytes : List Byte}
    {remaining : Word}
    (hlen : bytes.length ≤ 4096) (hfits : (hunksOf used).length + bytes.length ≤
      cfg.platTokenSize) :
    CallsLogged cfg.platTokenSize hash (used ++ [.hunk bytes remaining])
      ⟨log.calls ++ [⟨l.hashLength, loadBytes ifc.sharedBuf 0 l.hashLength.toNat,
        (TokenAnswer.hunk bytes remaining).result⟩],
        log.writes ++ [(l.offset, BitVec.ofNat 64 bytes.length)]⟩ := by
  have hcall := h.call (.hunk bytes remaining)
  refine ⟨fun w hw => ?_, hcall.answered, hcall.hashed⟩
  obtain hold | hnew := List.mem_append.mp hw
  · exact h.logged.inBounds w hold
  · rw [List.mem_singleton.mp hnew]
    dsimp only
    rw [BitVec.toNat_ofNat, h.offset]
    omega

/-- The loop at a hunk. -/
theorem platformTokenLoop_hunk {bytes : List Byte}
    (hvalid : ∀ r, (TokenAnswer.hunk bytes r).Valid)
    {off : ℕ} (hoff : l.offset.toNat = off) (remaining : Word) (answers : List El3Answer) :
    platformTokenLoop cfg ((TokenAnswer.hunk bytes remaining).result :: answers) ifc l log =
      let ifc' := { ifc with sharedBuf := storeBytes ifc.sharedBuf 0 bytes }
      let n := BitVec.ofNat 64 bytes.length
      let calls := log.calls ++ [⟨l.hashLength, loadBytes ifc.sharedBuf 0 l.hashLength.toNat,
        (TokenAnswer.hunk bytes remaining).result⟩]
      if cfg.platTokenSize < (off + bytes.length + remaining.toNat) % 2 ^ 64 then
        (.returned .ENOMEM, ifc'.releaseSharedBuf, ⟨calls, log.writes⟩)
      else
        let log' := ⟨calls, log.writes ++ [(l.offset, n)]⟩
        let ifc'' := copyHunk ifc' ⟨n, remaining, l.hashLength, l.offset⟩
        if remaining ≠ 0#64 then
          platformTokenLoop cfg answers ifc'' ⟨n, remaining, 0#64, l.offset + n⟩ log'
        else (.returned .ok, { ifc''.releaseSharedBuf with platformToken := some (l.offset + n) },
          log') := by
  obtain ⟨hpos, hlen⟩ := hvalid remaining
  have hn : (BitVec.ofNat 64 bytes.length).toNat = bytes.length := by
    rw [BitVec.toNat_ofNat]
    omega
  have hne : BitVec.ofNat 64 bytes.length ≠ 0#64 := by
    intro h0
    rw [h0] at hn
    simp only [BitVec.toNat_ofNat] at hn
    omega
  have hsum : (l.offset + BitVec.ofNat 64 bytes.length + remaining).toNat =
      (off + bytes.length + remaining.toNat) % 2 ^ 64 := by
    rw [BitVec.toNat_add, BitVec.toNat_add, hn, hoff]
    omega
  rw [platformTokenLoop, getPlatformToken_hunk]
  dsimp only
  rw [if_neg (by decide), if_neg (by decide), if_neg hne, hsum]

theorem platformTokenLoop_assembled (hvalid : ∀ a ∈ rest, a.Valid)
    (h : Fetching cfg hash used ifc l log)
    (hno : NoWrap cfg.platTokenSize (hunksOf used).length rest) :
    TokenAssembled cfg.platTokenSize hash (used ++ rest)
      (platformTokenLoop cfg (rest.map TokenAnswer.result) ifc l log) := by
  induction rest generalizing used ifc l log with
  | nil =>
    refine h.logged.assembled (by simp) (iff_of_false (by simp) ?_) (by simp)
      (stops_of_noError h.noError)
    rintro ⟨⟨a, ha, hlast⟩, -⟩
    exact h.unfinished a ha hlast
  | cons a rest ih =>
    have hcall := h.call a
    have hnext : ∀ b ∈ rest, b.Valid := fun b hb => hvalid b (List.mem_cons_of_mem _ hb)
    have hpre : used ++ [a] <+: used ++ a :: rest := ⟨rest, by simp⟩
    rw [List.map_cons]
    cases a with
    | busy =>
      rw [platformTokenLoop, getPlatformToken_busy]
      dsimp only
      rw [if_pos rfl, List.append_cons]
      exact ih hnext (h.busy hcall) (by simpa [TokenAnswer.bytes, NoWrap] using hno)
    | error x0 =>
      obtain ⟨hagain, hok⟩ := (notCut_iff x0).mp hno
      rw [platformTokenLoop, getPlatformToken_error ifc l (hvalid _ (List.mem_cons_self ..))]
      dsimp only
      rw [if_neg hagain, if_pos hok]
      refine hcall.assembled hpre (iff_of_false (by simp) ?_) (by simp) fun i b hb
        herr => ⟨?_, rfl⟩
      · rintro ⟨⟨b, hb, c, rfl⟩, -⟩
        simp at hb
      · have hlt := (List.getElem?_eq_some_iff.mp hb).1
        rw [List.length_append, List.length_singleton] at hlt ⊢
        by_contra hne
        rw [List.getElem?_append_left (by omega)] at hb
        rw [h.noError b (List.mem_of_getElem? hb)] at herr
        cases herr
    | hunk bytes remaining =>
      have hhunk := hvalid _ (List.mem_cons_self ..)
      have hlen : bytes.length ≤ 4096 := hhunk.2
      rw [platformTokenLoop_hunk (fun _ => hhunk) h.offset]
      dsimp only
      unfold NoWrap at hno
      by_cases hbig : cfg.platTokenSize <
          ((hunksOf used).length + bytes.length + remaining.toNat) % 2 ^ 64
      · rw [if_pos hbig]
        refine hcall.assembled hpre (iff_of_false (by simp) ?_) (by simp)
          (stops_of_noError (h.noError_append rfl))
        rintro ⟨⟨b, hb, c, rfl⟩, htotal⟩
        simp only [List.getLast?_append, List.getLast?_singleton, Option.some_or, Option.some.injEq,
          TokenAnswer.hunk.injEq] at hb
        obtain ⟨rfl, rfl⟩ := hb
        simp only [hunksOf_append, hunksOf_single, TokenAnswer.bytes, List.length_append] at htotal
        simp only [BitVec.toNat_ofNat] at hbig
        omega
      · rw [if_neg hbig] at hno ⊢
        have hlog := @Fetching.written _ _ _ _ _ _ h bytes remaining hlen hno.1
        by_cases hrem : remaining = 0#64
        · subst hrem
          obtain ⟨hoff, hstored⟩ := h.copied hlen
          rw [if_neg (not_not.mpr rfl)]
          refine hlog.assembled hpre (iff_of_true rfl ⟨⟨_, by simp, bytes, rfl⟩, ?_⟩)
            (fun _ => ⟨_, rfl, ?_⟩) (stops_of_noError (h.noError_append rfl))
          · simpa [TokenAnswer.bytes] using hno.1
          · rw [hoff]
            exact hstored
        · rw [if_pos hrem, List.append_cons]
          refine ih hnext (h.hunk hlen hno.1 hrem hlog) ?_
          simpa [TokenAnswer.bytes] using hno.2 hrem

/-- The log only grows. -/
theorem platformTokenLoop_grows (answers : List El3Answer) (ifc : El3Ifc) (l : TokenLoop)
    (log : TokenLog) :
    log.calls <+: (platformTokenLoop cfg answers ifc l log).2.2.calls ∧
      log.writes <+: (platformTokenLoop cfg answers ifc l log).2.2.writes := by
  induction answers generalizing ifc l log with
  | nil => exact ⟨List.prefix_rfl, List.prefix_rfl⟩
  | cons ans rest ih =>
    have hcall := List.prefix_append log.calls
      [(⟨l.hashLength, loadBytes ifc.sharedBuf 0 l.hashLength.toNat, ans⟩ : PlatTokenCall)]
    unfold platformTokenLoop
    dsimp only
    split_ifs
    · obtain ⟨hcalls, hwrites⟩ := ih _ _ ⟨_, _⟩
      exact ⟨hcall.trans hcalls, hwrites⟩
    · exact ⟨hcall, List.prefix_rfl⟩
    · exact ⟨hcall, List.prefix_rfl⟩
    · exact ⟨hcall, List.prefix_rfl⟩
    · obtain ⟨hcalls, hwrites⟩ := ih _ _ ⟨_, _⟩
      exact ⟨hcall.trans hcalls, (List.prefix_append _ _).trans hwrites⟩
    · exact ⟨hcall, List.prefix_append _ _⟩

/-- An answer that is there makes a call. -/
theorem platformTokenLoop_first (ans : El3Answer) (answers : List El3Answer) (ifc : El3Ifc)
    (l : TokenLoop) (log : TokenLog) :
    log.calls.length <
      (platformTokenLoop cfg (ans :: answers) ifc l log).2.2.calls.length := by
  have hcall : log.calls.length < (log.calls ++
      [(⟨l.hashLength, loadBytes ifc.sharedBuf 0 l.hashLength.toNat, ans⟩ :
        PlatTokenCall)]).length := by simp
  unfold platformTokenLoop
  dsimp only
  split_ifs
  · exact hcall.trans_le (platformTokenLoop_grows _ _ _ ⟨_, _⟩).1.length_le
  · exact hcall
  · exact hcall
  · exact hcall
  · exact hcall.trans_le (platformTokenLoop_grows _ _ _ ⟨_, _⟩).1.length_le
  · exact hcall

/-- The loop does not end with an error before its next call. -/
theorem platformTokenLoop_calls (answers : List El3Answer)
    (hret : (platformTokenLoop cfg answers ifc l log).1 = .returned .EINVAL) :
    log.calls.length < (platformTokenLoop cfg answers ifc l log).2.2.calls.length := by
  cases answers with
  | nil => cases hret
  | cons ans rest => exact platformTokenLoop_first ..

/-- After an answer that passes for success or for busy it makes another call before that. -/
theorem platformTokenLoop_passed {ans : El3Answer} (answers : List El3Answer)
    (hpass : (rmmEl3IfcGetPlatformToken ifc l ans).1 = eRmmAgain ∨
      (rmmEl3IfcGetPlatformToken ifc l ans).1 = eRmmOk)
    (hret : (platformTokenLoop cfg (ans :: answers) ifc l log).1 = .returned .EINVAL) :
    log.calls.length + 1 <
      (platformTokenLoop cfg (ans :: answers) ifc l log).2.2.calls.length := by
  have hmore : log.calls.length + 1 = (log.calls ++
      [(⟨l.hashLength, loadBytes ifc.sharedBuf 0 l.hashLength.toNat, ans⟩ :
        PlatTokenCall)]).length := by simp
  unfold platformTokenLoop at hret ⊢
  dsimp only at hret ⊢
  split_ifs at hret ⊢ with hagain hfail
  · exact hmore.trans_lt (platformTokenLoop_calls answers hret)
  · exact absurd hpass (not_or.mpr ⟨hagain, hfail⟩)
  · cases hret
  · exact hmore.trans_lt (platformTokenLoop_calls answers hret)
  · cases hret

/-- Where the sum wraps around and passes, the hunk is written beyond the buffer, and an error
that passes for another answer is not the end. -/
theorem platformTokenLoop_wraps (hvalid : ∀ a ∈ rest, a.Valid)
    (h : Fetching cfg hash used ifc l log)
    (hwrap : ¬ NoWrap cfg.platTokenSize (hunksOf used).length rest) :
    ¬ TokenAssembled cfg.platTokenSize hash (used ++ rest)
      (platformTokenLoop cfg (rest.map TokenAnswer.result) ifc l log) := by
  induction rest generalizing used ifc l log with
  | nil => exact absurd trivial hwrap
  | cons a rest ih =>
    have hcall := h.call a
    have hnext : ∀ b ∈ rest, b.Valid := fun b hb => hvalid b (List.mem_cons_of_mem _ hb)
    rw [List.map_cons]
    cases a with
    | busy =>
      rw [platformTokenLoop, getPlatformToken_busy]
      dsimp only
      rw [if_pos rfl, List.append_cons]
      exact ih hnext (h.busy hcall) (by simpa [TokenAnswer.bytes, NoWrap] using hwrap)
    | error x0 =>
      have hget := getPlatformToken_error ifc l (hvalid _ (List.mem_cons_self ..))
      have hpass : (rmmEl3IfcGetPlatformToken ifc l (TokenAnswer.error x0).result).1 = eRmmAgain ∨
          (rmmEl3IfcGetPlatformToken ifc l (TokenAnswer.error x0).result).1 = eRmmOk := by
        rw [hget]
        by_contra hno
        exact hwrap ((notCut_iff x0).mpr (not_or.mp hno))
      intro hok
      have hmore := @platformTokenLoop_passed cfg ifc l log _ (rest.map TokenAnswer.result) hpass
      have hlen : log.calls.length = used.length := h.logged.length_eq
      obtain ⟨r, hr⟩ : ∃ r, r = platformTokenLoop cfg
          ((TokenAnswer.error x0).result :: rest.map TokenAnswer.result) ifc l log := ⟨_, rfl⟩
      rw [← hr] at hok hmore
      have hfirst : log.calls.length < r.2.2.calls.length := by
        rw [hr]
        exact platformTokenLoop_first ..
      have herr : ((used ++ TokenAnswer.error x0 :: rest).take r.2.2.calls.length)[used.length]? =
          some (.error x0) := by
        rw [List.getElem?_take_of_lt (hlen ▸ hfirst), List.getElem?_append_right (Nat.le_refl _),
          Nat.sub_self]
        rfl
      obtain ⟨hlast, hret⟩ := hok.stops _ _ herr rfl
      have := hmore hret
      omega
    | hunk bytes remaining =>
      have hhunk := hvalid _ (List.mem_cons_self ..)
      have hlen : bytes.length ≤ 4096 := hhunk.2
      rw [platformTokenLoop_hunk (fun _ => hhunk) h.offset]
      dsimp only
      unfold NoWrap at hwrap
      by_cases hbig : cfg.platTokenSize <
          ((hunksOf used).length + bytes.length + remaining.toNat) % 2 ^ 64
      · rw [if_pos hbig] at hwrap
        exact absurd trivial hwrap
      · rw [if_neg hbig] at hwrap ⊢
        by_cases hfits : (hunksOf used).length + bytes.length ≤ cfg.platTokenSize
        · obtain ⟨hrem, hlater⟩ := Classical.not_imp.mp fun hno => hwrap ⟨hfits, hno⟩
          rw [if_pos hrem, List.append_cons]
          refine ih hnext (h.hunk hlen hfits hrem (h.written hlen hfits)) ?_
          simpa [TokenAnswer.bytes] using hlater
        · intro hok
          have hin := hok.inBounds (l.offset, BitVec.ofNat 64 bytes.length) ?_
          · dsimp only at hin
            rw [BitVec.toNat_ofNat, h.offset] at hin
            omega
          · split_ifs
            · exact (platformTokenLoop_grows _ _ _ _).2.subset (by simp)
            · simp

end

/-- The state before the first call. -/
theorem fetching_start (cfg : El3Config) {ifc : El3Ifc} (hhash : ifc.publicKeyHash.length = 32) :
    Fetching cfg ifc.publicKeyHash []
      { ifc with sharedAreaLock := true, sharedBuf := storeBytes ifc.sharedBuf 0 ifc.publicKeyHash }
      ⟨0#64, 0#64, 32#64, 0#64⟩ ⟨[], []⟩ := by
  refine ⟨⟨by simp, rfl, by simp⟩, rfl, by simp [hunksOf], rfl, ?_, by simp, by simp⟩
  simp only [List.any_nil, Bool.false_eq_true, if_false, true_and]
  rw [← hhash]
  exact loadBytes_storeBytes _ _ _

/-- With a key and a free lock the loop runs. -/
theorem attestSetupPlatformToken_loop (cfg : El3Config) {ifc : El3Ifc}
    (hfree : ifc.sharedAreaLock = false) (hloaded : ifc.attestKeyLoaded = true)
    (answers : List El3Answer) :
    attestSetupPlatformTokenLogged cfg ifc answers = platformTokenLoop cfg answers
      { ifc with sharedAreaLock := true, sharedBuf := storeBytes ifc.sharedBuf 0 ifc.publicKeyHash }
      ⟨0#64, 0#64, 32#64, 0#64⟩ ⟨[], []⟩ := by
  unfold attestSetupPlatformTokenLogged
  rw [if_neg (by simp [hloaded]), if_neg (by simp [hfree])]

theorem not_assembled_of_wrap {cfg : El3Config} {ifc : El3Ifc} (hfree : ifc.sharedAreaLock = false)
    (hloaded : ifc.attestKeyLoaded = true) (hhash : ifc.publicKeyHash.length = 32)
    {answers : List TokenAnswer} (hvalid : ∀ a ∈ answers, a.Valid)
    (hwrap : ¬ NoWrap cfg.platTokenSize 0 answers) :
    ¬ TokenAssembled cfg.platTokenSize ifc.publicKeyHash answers
      (attestSetupPlatformTokenLogged cfg ifc (answers.map TokenAnswer.result)) := by
  intro hok
  rw [attestSetupPlatformToken_loop cfg hfree hloaded] at hok
  exact platformTokenLoop_wraps hvalid (fetching_start cfg hhash) hwrap hok

/-- The token is assembled as it should be if and only if no sum wraps around and passes, and no
error passes for another answer. -/
theorem platformToken_assembled_iff (cfg : El3Config) {ifc : El3Ifc}
    (hfree : ifc.sharedAreaLock = false)
    (hhash : ifc.publicKeyHash.length = 32) {answers : List TokenAnswer}
    (hvalid : ∀ a ∈ answers, a.Valid) :
    TokenAssembled cfg.platTokenSize ifc.publicKeyHash answers
      (attestSetupPlatformTokenLogged cfg ifc (answers.map TokenAnswer.result)) ↔
    (ifc.attestKeyLoaded = true → NoWrap cfg.platTokenSize 0 answers) := by
  by_cases hloaded : ifc.attestKeyLoaded = true
  · constructor
    · intro hok _
      by_contra hwrap
      exact not_assembled_of_wrap hfree hloaded hhash hvalid hwrap hok
    · intro hno
      rw [attestSetupPlatformToken_loop cfg hfree hloaded]
      exact platformTokenLoop_assembled hvalid (fetching_start cfg hhash) (hno hloaded)
  · refine iff_of_true ?_ fun h => absurd h hloaded
    unfold attestSetupPlatformTokenLogged
    rw [if_pos (by simp [hloaded])]
    have hempty : CallsLogged cfg.platTokenSize ifc.publicKeyHash [] ⟨[], []⟩ :=
      ⟨by simp, rfl, by simp⟩
    exact hempty.assembled (by simp) (iff_of_false (by simp) (by simp)) (by simp)
      (stops_of_noError (by simp))

/-- The interface after the key was loaded. -/
def demoKeyIfc : El3Ifc :=
  { demoEl3Ifc with attestKeyLoaded := true, publicKeyHash := List.replicate 32 7#8 }

/-- EL3 is busy once, and then gives a token of two bytes in two hunks. -/
theorem platformToken_assembled_hunks :
    TokenAssembled 0x1000 (List.replicate 32 7#8) [.hunk [1#8] 1#64, .busy, .hunk [2#8] 0#64]
      (attestSetupPlatformTokenLogged demoEl3Config demoKeyIfc
        ([.hunk [1#8] 1#64, .busy, .hunk [2#8] 0#64].map TokenAnswer.result)) := by
  refine (@platformToken_assembled_iff demoEl3Config demoKeyIfc rfl (by decide) _ ?_).mpr fun _ =>
    ?_
  · simp [TokenAnswer.Valid]
  · simp [NoWrap, demoEl3Config]

/-- The rest after the first byte makes the sum wrap, and the second hunk, with a rest of the
same kind, ends one byte beyond the buffer. -/
theorem platformToken_wrapping_rest : ¬ ∀ (cfg : El3Config) (ifc : El3Ifc)
    (answers : List TokenAnswer),
    ifc.sharedAreaLock = false → ifc.publicKeyHash.length = 32 →
      (∀ a ∈ answers, a.Valid) →
    TokenAssembled cfg.platTokenSize ifc.publicKeyHash answers
      (attestSetupPlatformTokenLogged cfg ifc (answers.map TokenAnswer.result)) := by
  intro h
  obtain ⟨page, hpage⟩ : ∃ page, page = List.replicate 0x1000 2#8 := ⟨_, rfl⟩
  have hlen : page.length = 0x1000 := by rw [hpage, List.length_replicate]
  have hvalid : ∀ a ∈ [TokenAnswer.hunk [1#8] 0xFFFFFFFFFFFFFFFF#64,
      .hunk page 0xFFFFFFFFFFFFEFFF#64],
      a.Valid := by
    simp [TokenAnswer.Valid, hlen]
  refine @not_assembled_of_wrap demoEl3Config demoKeyIfc rfl rfl (by decide) _ hvalid ?_
    (h demoEl3Config demoKeyIfc _ rfl (by decide) hvalid)
  simp [NoWrap, demoEl3Config, hlen]

end RmmCaec
