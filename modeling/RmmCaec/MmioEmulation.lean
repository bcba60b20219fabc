import RmmCaec.HostCompletions

/-!
# Emulated accesses

An access to unprotected memory leaves to the host with what it stores, and the host passes
what it loads with the next entry. The register arithmetic of the completion is compared
with extensions of the accessed bits, and every completion with the exit that it belongs to.
-/
namespace RmmCaec
open RadixForest Outcome Runs

theorem xor_two_pow_of_lt {u j : ℕ} (h : u < 2 ^ j) : u ^^^ 2 ^ j = u + 2 ^ j := by
  apply Nat.eq_of_testBit_eq
  intro i
  rw [Nat.testBit_xor, Nat.testBit_two_pow, Nat.add_comm]
  obtain hi | rfl | hi := Nat.lt_trichotomy i j
  · rw [Nat.testBit_two_pow_add_gt hi]
    simp [show j ≠ i by omega]
  · simp [Nat.testBit_two_pow_add_eq]
  · have h1 : u < 2 ^ i := h.trans_le (Nat.pow_le_pow_right (by omega) hi.le)
    have h2 : 2 ^ j + u < 2 ^ i := by
      have : 2 ^ (j + 1) ≤ 2 ^ i := Nat.pow_le_pow_right (by omega) hi
      rw [Nat.pow_succ] at this
      omega
    rw [Nat.testBit_lt_two_pow h1, Nat.testBit_lt_two_pow h2]
    simp [show j ≠ i by omega]

/-- Flipping the sign bit and taking its value off again extends the sign. -/
theorem xor_sub_signBit {n : ℕ} (low : BitVec (n + 1)) (hn : n < 64) :
    (low.setWidth 64 ^^^ 1#64 <<< n) - 1#64 <<< n = low.signExtend 64 := by
  have hsucc : 2 ^ (n + 1) = 2 * 2 ^ n := by
    rw [Nat.pow_succ, Nat.mul_comm]
  have hlow : low.toNat < 2 * 2 ^ n := by
    have := low.isLt
    rwa [hsucc] at this
  have hpow : 2 * 2 ^ n ≤ 2 ^ 64 := by
    rw [← hsucc]
    exact Nat.pow_le_pow_right (by omega) hn
  have hbit : (1#64 <<< n).toNat = 2 ^ n := by
    rw [BitVec.toNat_shiftLeft, Nat.shiftLeft_eq, BitVec.toNat_ofNat, Nat.mod_eq_of_lt (by omega)]
    rw [Nat.mod_eq_of_lt (by omega), Nat.one_mul]
  apply BitVec.eq_of_toNat_eq
  rw [BitVec.toNat_sub, BitVec.toNat_xor, hbit, BitVec.toNat_setWidth, BitVec.toNat_signExtend,
    BitVec.toNat_setWidth, BitVec.msb_eq_decide, Nat.add_sub_cancel, hsucc,
    Nat.mod_eq_of_lt (show low.toNat < 2 ^ 64 by omega)]
  by_cases hsign : 2 ^ n ≤ low.toNat
  · obtain ⟨u, hu⟩ := Nat.exists_eq_add_of_le' hsign
    have hx : low.toNat ^^^ 2 ^ n = u := by
      rw [hu, ← xor_two_pow_of_lt (by omega), Nat.xor_assoc, Nat.xor_self, Nat.xor_zero]
    rw [hx, if_pos (by simpa using hsign)]
    omega
  · rw [xor_two_pow_of_lt (by omega), if_neg (by simpa using hsign)]
    omega

theorem and_lowMask {x mask : Word} {n : ℕ} (hmask : mask = BitVec.ofNat 64 (2 ^ n - 1))
    (hn : n ≤ 64) : x &&& mask = (x.setWidth n).setWidth 64 := by
  have hpow : 2 ^ n ≤ 2 ^ 64 := Nat.pow_le_pow_right (by omega) hn
  have hpos : 0 < 2 ^ n := Nat.two_pow_pos n
  have hlow : x.toNat % 2 ^ n < 2 ^ 64 := (Nat.mod_lt _ hpos).trans_le hpow
  apply BitVec.eq_of_toNat_eq
  rw [hmask, BitVec.toNat_and, BitVec.toNat_ofNat, Nat.mod_eq_of_lt (by omega),
    Nat.and_two_pow_sub_one_eq_mod, BitVec.toNat_setWidth, BitVec.toNat_setWidth,
    Nat.mod_eq_of_lt hlow]

/-- The number of bits of an access. -/
def accessBits (esr : Word) : ℕ := 8 * accessLen esr

theorem accessBits_cases (esr : Word) : accessBits esr = 8 ∧ accessMask esr = 0xff#64 ∨
    accessBits esr = 16 ∧ accessMask esr = 0xffff#64 ∨
    accessBits esr = 32 ∧ accessMask esr = 0xffffffff#64 ∨
    accessBits esr = 64 ∧ accessMask esr = BitVec.allOnes 64 := by
  unfold accessBits accessLen accessMask
  split <;> simp

/-- The low bits of a register that an access carries. -/
def accessed (esr x : Word) : BitVec (accessBits esr) := x.setWidth (accessBits esr)

theorem and_accessMask (esr x : Word) : x &&& accessMask esr = (accessed esr x).setWidth 64 := by
  have h : accessMask esr = BitVec.ofNat 64 (2 ^ accessBits esr - 1) ∧ accessBits esr ≤ 64 := by
    obtain ⟨hb, hm⟩ | ⟨hb, hm⟩ | ⟨hb, hm⟩ | ⟨hb, hm⟩ := accessBits_cases esr <;>
      rw [hb, hm] <;> decide
  exact and_lowMask h.1 h.2

/-- What a load of the low bits of `x` leaves in its register. A load to a register of 32
bits clears the other half. -/
def loaded (esr x : Word) : Word :=
  if esrSignExtend esr then
    if esrSixtyFour esr then (accessed esr x).signExtend 64
    else ((accessed esr x).signExtend 32).setWidth 64
  else (accessed esr x).setWidth 64

theorem mmioValue_eq (esr x : Word) : mmioValue esr x = loaded esr x := by
  obtain ⟨n, hn, hlt⟩ : ∃ n, accessBits esr = n + 1 ∧ n < 64 := by
    obtain ⟨hb, -⟩ | ⟨hb, -⟩ | ⟨hb, -⟩ | ⟨hb, -⟩ := accessBits_cases esr <;>
      exact ⟨accessBits esr - 1, by omega, by omega⟩
  have hshift : accessLen esr * 8 - 1 = n := by
    unfold accessBits at hn
    omega
  have hsign : ((accessed esr x).setWidth 64 ^^^ 1#64 <<< n) - 1#64 <<< n =
      (accessed esr x).signExtend 64 := by
    generalize accessed esr x = low
    revert low
    rw [hn]
    exact fun low => xor_sub_signBit low hlt
  have hword : ∀ y : Word, y &&& 0xFFFFFFFF#64 = (y.setWidth 32).setWidth 64 :=
    fun y => and_lowMask rfl (by decide)
  -- the low half of a sign extension is a sign extension
  have hhalf : ((accessed esr x).signExtend 64).setWidth 32 = (accessed esr x).signExtend 32 := by
    apply BitVec.eq_of_getLsbD_eq
    intro i hi
    rw [BitVec.getLsbD_setWidth, BitVec.getLsbD_signExtend, BitVec.getLsbD_signExtend]
    simp [hi, show i < 64 by omega]
  unfold mmioValue loaded
  simp only [and_accessMask, hshift, hsign, hword]
  split
  · cases esrSixtyFour esr with
    | true => rfl
    | false => simp [hhalf]
  · rfl

/-- A load writes its register unless that is the zero register, a store writes none, and
the realm goes on behind the instruction. -/
def afterAccess (v : RunVcpu) (value : Word) : RunVcpu :=
  let esr := v.lastRunInfo.esr
  { v with
    gprs := fun i => if esrIsWrite esr = false ∧ i.val = esrSrt esr then loaded esr value
      else v.gprs i
    pc := v.pc + 4#64 }

theorem mmioDone_eq (v : RunVcpu) (e : RmiRecEnter) : mmioDone v e = afterAccess v (e.gprs 0) := by
  have hgprs : (if esrIsWrite v.lastRunInfo.esr = true then v.gprs
      else writeGpr v.gprs (esrSrt v.lastRunInfo.esr)
        (mmioValue v.lastRunInfo.esr (e.gprs 0))) = (afterAccess v (e.gprs 0)).gprs := by
    funext i
    cases hw : esrIsWrite v.lastRunInfo.esr <;> simp [afterAccess, hw, writeGpr, mmioValue_eq]
  unfold mmioDone
  rw [hgprs]
  rfl

theorem completeMmioEmulation_eq {v : RunVcpu} {e : RmiRecEnter}
    (hflag : e.has recEntryFlagEmulMmio = true) (hsea : e.has recEntryFlagInjectSea = false) :
    completeMmioEmulation v e =
      if ecOf v.lastRunInfo.esr = esrEl2EcDataAbort ∧ esrIsv v.lastRunInfo.esr = true
      then some (afterAccess v (e.gprs 0)) else none := by
  split
  · next hw =>
    rw [← mmioDone_eq]
    exact @completeMmioEmulation_of_waits default v e hw hflag hsea
  · next hw =>
    have hnot : ecOf v.lastRunInfo.esr ≠ esrEl2EcDataAbort ∨
        esrIsv v.lastRunInfo.esr = false := by
      rw [← Bool.not_eq_true]
      exact not_and_or.mp hw
    simp only [completeMmioEmulation, hflag, hsea, Bool.not_true, Bool.false_eq_true, if_false,
      if_pos hnot]

section
variable {s : State} {r : Rec} {v : RunVcpu} {data : Word → Word} {e : RmiRecEnter}

/-- With a data abort behind it, an entry completes no other request. -/
theorem enterCompletions_emul (h : RequestInv r v) (hflag : e.has recEntryFlagEmulMmio = true)
    (hsea : e.has recEntryFlagInjectSea = false) :
    enterCompletions s r v data e = .ok (if Waits r v .mmio
      then ⟨.run, resetLastRunInfo (afterAccess v (e.gprs 0)), data, 0#64⟩
      else ⟨.refused, v, data, 0#64⟩) := by
  have hskip : completeSeaInsertion r v e = some v := by
    simp [completeSeaInsertion, hsea]
  unfold enterCompletions
  rw [hskip]
  dsimp only
  rw [completeMmioEmulation_eq hflag hsea]
  by_cases hw : Waits r v .mmio
  · have hw' : ecOf v.lastRunInfo.esr = esrEl2EcDataAbort ∧ esrIsv v.lastRunInfo.esr = true := hw
    rw [if_pos hw, if_pos hw']
    have hno : ¬ (v.pending = true ∨ v.hostCall = true ∨ r.Asks) :=
      fun hopen => absurd ((h.smc hopen).symm.trans hw.1) (by decide)
    rw [not_or, not_or, Bool.not_eq_true, Bool.not_eq_true] at hno
    have hsys : ¬ Waits r (afterAccess v (e.gprs 0)) .sysreg :=
      fun hs => absurd (hs.1.symm.trans hw.1) (by decide)
    exact completeRequests_of_not (v := afterAccess v (e.gprs 0)) hno.2.1 hno.2.2 hsys
  · have hw' : ¬ (ecOf v.lastRunInfo.esr = esrEl2EcDataAbort ∧
        esrIsv v.lastRunInfo.esr = true) := hw
    rw [if_neg hw, if_neg hw']
    rfl

theorem recEnterCompletions_emul {recAddr : Word} (h : RequestInv (s.recs recAddr) v)
    (hflag : e.has recEntryFlagEmulMmio = true) (hsea : e.has recEntryFlagInjectSea = false) :
    Sat (recEnterCompletions s recAddr v data (some e)) (fun o => o.data = data ∧
      ((o.entry ≠ .run ∧ o.vcpu = v) ∨
        (o.entry = .run ∧ (s.rd (s.recs recAddr).gRd).state = .ACTIVE ∧
          Waits (s.recs recAddr) v .mmio ∧
          o.vcpu = resetLastRunInfo (afterAccess v (e.gprs 0))))) fun _ => True := by
  have refused : Sat (pure ⟨.refused, v, data, 0#64⟩ : Rmm EnterOutcome) (fun o =>
      o.data = data ∧ ((o.entry ≠ .run ∧ o.vcpu = v) ∨
        (o.entry = .run ∧ (s.rd (s.recs recAddr).gRd).state = .ACTIVE ∧
          Waits (s.recs recAddr) v .mmio ∧
          o.vcpu = resetLastRunInfo (afterAccess v (e.gprs 0))))) fun _ => True :=
    Sat.pure ⟨rfl, .inl ⟨by simp, rfl⟩⟩
  unfold recEnterCompletions
  dsimp only
  cases hactive : (s.rd (s.recs recAddr).gRd).state with
  | NEW | SYSTEM_OFF =>
    rw [hactive] at refused
    exact refused
  | ACTIVE =>
    rw [hactive] at refused
    refine Sat.ite (fun _ => refused) fun _ => ?_
    refine Sat.ite (fun _ => refused) fun _ => ?_
    refine Sat.ite (fun _ => refused) fun _ => ?_
    rw [enterCompletions_emul h hflag hsea]
    split
    · next hw => exact Sat.ok ⟨rfl, .inr ⟨rfl, rfl, hw, rfl⟩⟩
    · exact refused

end

/-- The exit information that a data abort fills. -/
structure AbortExit where
  esr : Word
  far : Word
  hpfar : Word
  gpr0 : Word
  deriving DecidableEq, Repr

/-- A register as an operand: number 31 reads as zero. -/
def readGpr (gprs : Fin 31 → Word) (rt : ℕ) : Word :=
  if h : rt < 31 then gprs ⟨rt, h⟩ else 0#64

def getDabtWriteValue (v : RunVcpu) (esr : Word) : Word :=
  let rt := esrSrt esr
  if rt = 31 then 0#64 else readGpr v.gprs rt &&& accessMask esr

/-- `handle_data_abort` with all it writes: the REC, the exit information and whether the
realm goes on. -/
def handleDataAbortExit (s : State) (r : Rec) (v : RunVcpu) (exit : AbortExit) (h : Syndrome) :
    Rmm (RunVcpu × AbortExit × Bool) := do
  match handleSyncExternalAbort v exit.esr h with
  | some res => return (res.vcpu, { exit with esr := res.exitEsr }, res.handled)
  | none =>
    let fipa := hpfarFipa h.hpfar
    let empty ← if recIpaSize r ≤ fipa.toNat then pure true else ipaIsEmpty s r fipa
    if empty then return (injectSyncIdabort v h esrEl2AbortFscSea, exit, true)
    else if v.pstate &&& spsrEl2NrwAarch32 ≠ 0#64 then
      return (v, ⟨(h.esr &&& ~~~esrEl2AbortIsvBit) &&& esrNonemulatedAbortMask, 0#64, h.hpfar,
        0#64⟩, false)
    else if addrInRecPar r fipa then
      return (v, ⟨h.esr &&& esrNonemulatedAbortMask, 0#64, h.hpfar, 0#64⟩, false)
    else
      let writeVal := if esrIsWrite h.esr then getDabtWriteValue v h.esr else 0#64
      return (v, ⟨h.esr &&& esrEmulatedAbortMask, h.far &&& 0xfff#64, h.hpfar, writeVal⟩, false)

/-- The exit handler of the machine keeps the syndrome of this one. -/
theorem handleDataAbort_eq (s : State) (r : Rec) (v : RunVcpu) (exit : AbortExit) (h : Syndrome) :
    handleDataAbort s r v exit.esr h = (do
      let (v', exit', handled) ← handleDataAbortExit s r v exit h
      return ⟨v', exit'.esr, handled⟩) := by
  unfold handleDataAbort handleDataAbortExit
  cases handleSyncExternalAbort v exit.esr h with
  | some res => rfl
  | none =>
    have rest : ∀ empty : Bool, (if empty = true then
        return ⟨injectSyncIdabort v h esrEl2AbortFscSea, exit.esr, true⟩
      else if v.pstate &&& spsrEl2NrwAarch32 ≠ 0#64 then
        return ⟨v, (h.esr &&& ~~~esrEl2AbortIsvBit) &&& esrNonemulatedAbortMask, false⟩
      else if addrInRecPar r (hpfarFipa h.hpfar) = true then
        return ⟨v, h.esr &&& esrNonemulatedAbortMask, false⟩
      else return ⟨v, h.esr &&& esrEmulatedAbortMask, false⟩ : Rmm Handled) = (do
      let (v', exit', handled) ← (if empty = true then
          return (injectSyncIdabort v h esrEl2AbortFscSea, exit, true)
        else if v.pstate &&& spsrEl2NrwAarch32 ≠ 0#64 then
          return (v, ⟨(h.esr &&& ~~~esrEl2AbortIsvBit) &&& esrNonemulatedAbortMask, 0#64,
            h.hpfar, 0#64⟩, false)
        else if addrInRecPar r (hpfarFipa h.hpfar) = true then
          return (v, ⟨h.esr &&& esrNonemulatedAbortMask, 0#64, h.hpfar, 0#64⟩, false)
        else
          let writeVal := if esrIsWrite h.esr then getDabtWriteValue v h.esr else 0#64
          return (v, ⟨h.esr &&& esrEmulatedAbortMask, h.far &&& 0xfff#64, h.hpfar, writeVal⟩,
            false) : Rmm (RunVcpu × AbortExit × Bool))
      return ⟨v', exit'.esr, handled⟩) := by
      intro empty
      split
      · rfl
      split
      · rfl
      split <;> rfl
    dsimp only
    split
    · exact rest true
    · cases ipaIsEmpty s r (hpfarFipa h.hpfar) with
      | error err => rfl
      | ok empty => exact rest empty

/-- What the host sees of an access that it may emulate. -/
def accessExit (v : RunVcpu) (h : Syndrome) : AbortExit where
  esr := h.esr &&& esrEmulatedAbortMask
  far := h.far &&& 0xfff#64
  hpfar := h.hpfar
  gpr0 := if esrIsWrite h.esr then (accessed h.esr (readGpr v.gprs (esrSrt h.esr))).setWidth 64
    else 0#64

theorem getDabtWriteValue_eq (v : RunVcpu) (esr : Word) :
    getDabtWriteValue v esr = (accessed esr (readGpr v.gprs (esrSrt esr))).setWidth 64 := by
  unfold getDabtWriteValue
  rw [← and_accessMask]
  dsimp only
  split
  · next hrt => simp [readGpr, hrt]
  · rfl

/-- A data abort with a valid syndrome is seen as the access that it is. -/
theorem handleDataAbortExit_isv {s : State} {r : Rec} {v : RunVcpu} {exit : AbortExit}
    {h : Syndrome} (hx : esrIsv exit.esr = false) :
    Sat (handleDataAbortExit s r v exit h)
      (fun res => esrIsv res.2.1.esr = true → res = (v, accessExit v h, false))
      fun _ => True := by
  have masked : ∀ esr : Word, esrIsv (esr &&& esrNonemulatedAbortMask) = true → False := by
    intro esr hisv
    rw [esrIsv_nonemulated] at hisv
    cases hisv
  have unseen : esrIsv exit.esr = true → False := by
    rw [hx]
    exact nofun
  have rest : ∀ empty : Bool, Sat (if empty = true then
        return (injectSyncIdabort v h esrEl2AbortFscSea, exit, true)
      else if v.pstate &&& spsrEl2NrwAarch32 ≠ 0#64 then
        return (v, ⟨(h.esr &&& ~~~esrEl2AbortIsvBit) &&& esrNonemulatedAbortMask, 0#64,
          h.hpfar, 0#64⟩, false)
      else if addrInRecPar r (hpfarFipa h.hpfar) = true then
        return (v, ⟨h.esr &&& esrNonemulatedAbortMask, 0#64, h.hpfar, 0#64⟩, false)
      else
        let writeVal := if esrIsWrite h.esr then getDabtWriteValue v h.esr else 0#64
        return (v, ⟨h.esr &&& esrEmulatedAbortMask, h.far &&& 0xfff#64, h.hpfar, writeVal⟩,
          false) : Rmm (RunVcpu × AbortExit × Bool))
      (fun res => esrIsv res.2.1.esr = true → res = (v, accessExit v h, false))
      fun _ => True := by
    intro empty
    refine Sat.ite (fun _ => Sat.pure fun hisv => (unseen hisv).elim) fun _ => ?_
    refine Sat.ite (fun _ => Sat.pure fun hisv => (masked _ hisv).elim) fun _ => ?_
    refine Sat.ite (fun _ => Sat.pure fun hisv => (masked _ hisv).elim) fun _ => ?_
    refine Sat.pure fun _ => ?_
    simp only [accessExit, getDabtWriteValue_eq]
  unfold handleDataAbortExit
  cases hea : handleSyncExternalAbort v exit.esr h with
  | some res =>
    refine Sat.pure fun hisv => ?_
    unfold handleSyncExternalAbort at hea
    dsimp only at hea hisv
    split at hea
    · cases hea
    repeat' split at hea
    all_goals cases hea
    · exact (masked _ hisv).elim
    · exact (masked _ hisv).elim
    · exact (unseen hisv).elim
  | none =>
    dsimp only
    refine Sat.ite (fun _ => Sat.ok_bind (rest true)) fun _ => ?_
    exact Sat.bind (Q := fun _ => True) (sat_trivial _) fun empty _ => rest empty

/-- A data abort that leaves to the host, in the exit handler. -/
theorem handleRealmExit_abort {plat : Platform} {s s' : State} {recAddr : Word} {v : RunVcpu}
    {exitEsr : Word} {h : Syndrome} {env : TrapEnv} {res : Handled}
    (hd : handleRealmExit plat s recAddr v exitEsr (.sync h) env = .ok (s', res))
    (hec : ecOf h.esr = esrEl2EcDataAbort) (hleft : res.handled = false) :
    ∃ res0, handleDataAbort s (s.recs recAddr) v exitEsr h = .ok res0 ∧
      res0.handled = false ∧ res.exitEsr = res0.exitEsr ∧
      res.vcpu.lastRunInfo = recordSync h res0.exitEsr := by
  obtain ⟨hwfx, hhvc, hsmc, hsysreg, hinst⟩ : esrEl2EcDataAbort ≠ esrEl2EcWfx ∧
      esrEl2EcDataAbort ≠ esrEl2EcHvc ∧ esrEl2EcDataAbort ≠ esrEl2EcSmc ∧
      esrEl2EcDataAbort ≠ esrEl2EcSysreg ∧ esrEl2EcDataAbort ≠ esrEl2EcInstAbort := by decide
  have hsync : handleExceptionSync plat s recAddr v exitEsr h env = (do
      let res ← handleDataAbort s (s.recs recAddr) v exitEsr h
      return (s, res)) := by
    unfold handleExceptionSync
    dsimp only
    rw [hec, if_neg hwfx, if_neg hhvc, if_neg hsmc, if_neg hsysreg, if_neg hinst, if_pos rfl]
  unfold handleRealmExit at hd
  dsimp only at hd
  rw [hsync] at hd
  cases habort : handleDataAbort s (s.recs recAddr) v exitEsr h with
  | error err =>
    rw [habort] at hd
    cases hd
  | ok res0 =>
    rw [habort] at hd
    change (if res0.handled = true then .ok (s, res0) else
      .ok (s, { res0 with vcpu := { res0.vcpu with
        lastRunInfo := recordSync h res0.exitEsr } })) = Except.ok (s', res) at hd
    refine ⟨res0, rfl, ?_⟩
    split at hd
    · next hh =>
      cases hd
      rw [hleft] at hh
      cases hh
    · next hh =>
      cases hd
      exact ⟨by simpa using hh, rfl, rfl⟩

section
variable {ι : Type} [DecidableEq ι] {plat : Platform} {m m' : RunSmp ι} {g : Word}

/-- No CPU runs the REC. -/
def Stopped (g : Word) (m : RunSmp ι) (_ : RunAct ι) : Prop := ∀ c, m.smp.cpu c ≠ .running g

/-- The last exit of a REC was an access that the host may emulate: an AArch64 data abort
with a valid syndrome outside the protected memory of the realm. The host has seen it with
the value of a store, and the REC has not run since. -/
structure AccessLeft (plat : Platform) (m : RunSmp ι) (g : Word) (m0 : RunSmp ι) (c : ι)
    (h : Syndrome) (env : TrapEnv) (m1 : RunSmp ι) : Prop where
  before : RunReachable plat m0
  ran : m0.smp.cpu c = .running g
  exits : RunNext plat m0 (.trap c (.sync h) env) m1
  left : m1.smp.cpu c = .leaving g rmiSuccess
  since : Reach m1 (RunNext plat) (Stopped g) m
  access : Emulatable (m0.smp.mem.recs g) (m0.vcpu g) h
  recorded : (m.vcpu g).lastRunInfo.esr = h.esr
  reported : ∀ exit : AbortExit, exit.esr = m0.exitEsr c →
    handleDataAbortExit m0.smp.mem (m0.smp.mem.recs g) (m0.vcpu g) exit h =
      .ok (m0.vcpu g, accessExit (m0.vcpu g) h, false)
  seen : m1.exitEsr c = (accessExit (m0.vcpu g) h).esr

/-- The exception that makes a REC wait for an emulation. -/
theorem RunInv.accessLeft (h : RunInv m) (hm : RunReachable plat m) {c : ι}
    {exception : RealmException} {env : TrapEnv}
    (hn : RunNext plat m (.trap c exception env) m') (hrun : m.smp.cpu c = .running g)
    (hw : Waits (m'.smp.mem.recs g) (m'.vcpu g) .mmio) :
    ∃ h, exception = .sync h ∧ AccessLeft plat m' g m c h env m' := by
  have hstep := hn
  obtain ⟨g', hrun', hgen, s, res, hexit, rfl⟩ := hn
  obtain rfl := Job.running.inj (hrun.symm.trans hrun')
  have hvcpu : (m.trapped c g s res).vcpu g = res.vcpu := Function.update_self _ _ _
  have hesr : (m.trapped c g s res).exitEsr c = res.exitEsr := Function.update_self _ _ _
  rw [hvcpu] at hw
  obtain ⟨hleft, hopen⟩ :=
    (h.trapped hrun hgen ((handleRealmExit_sat exception env).of_ok hexit)).2 .mmio hw
  cases exception with
  | sync h1 =>
    obtain ⟨res0, habort, hres0, hx, hinfo⟩ := handleRealmExit_abort hexit hopen.1 hleft
    have hx0 : m.exitEsr c = 0#64 := (h.running c g hrun).2.2
    have hisv : esrIsv res0.exitEsr = true := by
      by_contra hc
      have hno := @recordSync_isv h1 res0.exitEsr (by simpa using hc)
      rw [← hinfo, hw.2] at hno
      cases hno
    have hreport : ∀ exit : AbortExit, exit.esr = m.exitEsr c →
        handleDataAbortExit m.smp.mem (m.smp.mem.recs g) (m.vcpu g) exit h1 =
          .ok (m.vcpu g, accessExit (m.vcpu g) h1, false) ∧
        res0.exitEsr = (accessExit (m.vcpu g) h1).esr := by
      intro exit hexit0
      have heq := handleDataAbort_eq m.smp.mem (m.smp.mem.recs g) (m.vcpu g) exit h1
      rw [hexit0, habort] at heq
      cases hfull : handleDataAbortExit m.smp.mem (m.smp.mem.recs g) (m.vcpu g) exit h1 with
      | error err =>
        rw [hfull] at heq
        cases heq
      | ok full =>
        rw [hfull] at heq
        have hres : res0 = ⟨full.1, full.2.1.esr, full.2.2⟩ := Except.ok.inj heq
        have hexit : esrIsv exit.esr = false := by
          rw [hexit0, hx0]
          decide
        rw [hres] at hisv
        have hfields := (handleDataAbortExit_isv hexit).of_ok hfull hisv
        rw [hfields] at hres ⊢
        exact ⟨rfl, by rw [hres]⟩
    refine ⟨h1, rfl, hm, hrun, hstep, ?_, .init, hopen, ?_, fun exit hexit0 => ?_, ?_⟩
    · have hl : res.handled = false := hleft
      show (m.smp.put c s _).cpu c = _
      simp [Smp.put, hl]
    · rw [hvcpu, hinfo, recordSync, if_pos hisv]
    · exact (hreport exit hexit0).1
    · rw [hesr, hx]
      exact (hreport ⟨m.exitEsr c, 0#64, 0#64, 0#64⟩ rfl).2
  | serror h1 => exact hopen.elim
  | irq => exact hopen.elim
  | fiq => exact hopen.elim
  | other => exact hopen.elim

/-- A REC that waits for an emulation left with such an access. -/
theorem accessLeft_of_waits (hm : RunReachable plat m) (hg : (m.smp.mem.granule g).state = .REC)
    (hw : Waits (m.smp.mem.recs g) (m.vcpu g) .mmio) :
    ∃ m0 c h env m1, AccessLeft plat m g m0 c h env m1 := by
  induction hm with
  | init => cases hg
  | @step m a m' before allowed taken ih =>
    have hinv := RunInv.reach before
    cases taken.move hinv hg with
    | kept was info pend call ask =>
      have hw' : Waits (m.smp.mem.recs g) (m.vcpu g) .mmio := by
        rw [Waits, info] at hw
        exact hw
      obtain ⟨m0, c, h, env, m1, hleft⟩ := ih was hw'
      refine ⟨m0, c, h, env, m1, { hleft with
        since := .step hleft.since (fun c' hrun => ?_) taken
        recorded := info.trans hleft.recorded }⟩
      exact (hinv.running c' g hrun).1 .mmio hw'
    | clear info none => exact absurd hw (none .mmio)
    | @trapped c exception env s res runs genuine done eq =>
      obtain ⟨h, rfl, hleft⟩ := hinv.accessLeft before taken runs hw
      exact ⟨m, c, h, env, m', hleft⟩

/-- An entry that asks for an emulation is one, or comes back. -/
theorem RunInv.emulates (h : RunInv m) {c : ι} {e : RmiRecEnter}
    (hflag : e.has recEntryFlagEmulMmio = true) (hsea : e.has recEntryFlagInjectSea = false)
    (hn : RunNext plat m (.enter c (some e)) m') :
    ∃ g, (m.smp.cpu c).inside = some g ∧ (∀ g', g' ≠ g → m'.vcpu g' = m.vcpu g') ∧
      m'.data = m.data ∧
      ((m'.vcpu g = m.vcpu g ∧ ∀ r, m'.smp.cpu c ≠ .running r) ∨
        (m'.smp.cpu c = .running g ∧ Waits (m.smp.mem.recs g) (m.vcpu g) .mmio ∧
          m'.vcpu g = resetLastRunInfo (afterAccess (m.vcpu g) (e.gprs 0)))) := by
  obtain ⟨g, o, hjob, hcomplete, s, job, reply, hbody, rfl⟩ := hn
  have hin : (m.smp.cpu c).inside = some g := by
    rw [hjob]
    rfl
  have hinv := h.requests g (h.isRec hin)
  obtain ⟨hdata, hcase⟩ := (recEnterCompletions_emul hinv hflag hsea).of_ok hcomplete
  obtain ⟨-, -, hrunning, hruns⟩ := (recEnterBody_noRequest g o.entry _).of_ok hbody
  have hcpu : (m.smp.put c s job).cpu c = job := Function.update_self _ _ _
  refine ⟨g, hin, fun g' hne => Function.update_of_ne hne _ _, hdata, ?_⟩
  dsimp only
  rw [Function.update_self, hcpu]
  obtain ⟨hentry, hv⟩ | ⟨hentry, hactive, hw, hv⟩ := hcase
  · exact .inl ⟨hv, fun r hr => hentry (hrunning r hr).2.1⟩
  · exact .inr ⟨hruns hentry hactive, hw, hv⟩

/-- The completion of an access is architectural. For every syndrome and every value of the
host it is refused unless the syndrome is that of a data abort with its valid bit set. Else
a load leaves the accessed low bits of the value in its register, with the extension that
the syndrome asks for, no other register changes, and the realm goes on behind the
instruction. In every run an entry that asks for it comes back with the REC as it was, or
completes the last exit of the REC, an AArch64 access outside the protected memory of the
realm, of which the host has seen the accessed bits of the register of a store. -/
theorem mmioEmulation_architectural (hm : RunReachable plat m) :
    (∀ (v : RunVcpu) (e : RmiRecEnter), e.has recEntryFlagEmulMmio = true →
      e.has recEntryFlagInjectSea = false → completeMmioEmulation v e =
        if ecOf v.lastRunInfo.esr = esrEl2EcDataAbort ∧ esrIsv v.lastRunInfo.esr = true
        then some (afterAccess v (e.gprs 0)) else none) ∧
    ∀ c e m', e.has recEntryFlagEmulMmio = true → e.has recEntryFlagInjectSea = false →
      RunNext plat m (.enter c (some e)) m' →
      ∃ g, (m.smp.cpu c).inside = some g ∧ (∀ g', g' ≠ g → m'.vcpu g' = m.vcpu g') ∧
        m'.data = m.data ∧
        ((m'.vcpu g = m.vcpu g ∧ ∀ r, m'.smp.cpu c ≠ .running r) ∨
          (m'.smp.cpu c = .running g ∧
            (∃ m0 c0 h env m1, AccessLeft plat m g m0 c0 h env m1) ∧
            m'.vcpu g = resetLastRunInfo (afterAccess (m.vcpu g) (e.gprs 0)))) := by
  have hinv := RunInv.reach hm
  refine ⟨fun v e hflag hsea => completeMmioEmulation_eq hflag hsea, ?_⟩
  intro c e m' hflag hsea hn
  obtain ⟨g, hin, hothers, hdata, hback | ⟨hrun, hw, hv⟩⟩ := hinv.emulates hflag hsea hn
  · exact ⟨g, hin, hothers, hdata, .inl hback⟩
  · exact ⟨g, hin, hothers, hdata, .inr
      ⟨hrun, accessLeft_of_waits hm (hinv.isRec hin) hw, hv⟩⟩

end

/-- A load of one byte to `w3` with its sign. -/
def signedByteEsr : Word :=
  esrEl2EcDataAbort ||| esrEl2AbortIsvBit ||| esrEl2AbortSseBit ||| 0x30004#64

/-- Of `0x1f0` a signed byte in `w3` is `0xfffffff0`. -/
theorem mmioEmulation_architectural_signedByte : ∃ (m m' : RunSmp ℕ) (v : RunVcpu),
    RunReachable demoPlat m ∧
    RunNext demoPlat m (.enter 1 (hostEnters recEntryFlagEmulMmio 0x1f0#64)) m' ∧
    m'.smp.cpu 1 = .running (gr 22) ∧ v = m'.vcpu (gr 22) ∧ v.gprs 3 = 0xfffffff0#64 ∧
    v = resetLastRunInfo (afterAccess (m.vcpu (gr 22)) 0x1f0#64) ∧
    ∃ m0 c0 h env m1, AccessLeft demoPlat m (gr 22) m0 c0 h env m1 := by
  have hrun : runEnters signedByteEsr (hostEnters recEntryFlagEmulMmio 0x1f0#64)
      (fun _ _ => true) (fun _ m' => decide ((m'.vcpu (gr 22)).gprs 3 = 0xfffffff0#64 ∧
        m'.smp.cpu 1 = .running (gr 22))) = true := by
    decide +kernel
  obtain ⟨m, m', hm, hin, -, hn, hafter⟩ := runEnters_reached hrun
  obtain ⟨hval, hcpu⟩ := of_decide_eq_true hafter
  refine ⟨m, m', _, hm, hn, hcpu, rfl, hval, ?_⟩
  obtain ⟨g, hin', -, -, ⟨-, hback⟩ | ⟨-, hleft, hv⟩⟩ :=
    (mmioEmulation_architectural hm).2 1 _ m' (by decide) (by decide) hn
  · exact absurd hcpu (hback _)
  · obtain rfl := Option.some.inj (hin.symm.trans hin')
    exact ⟨hv, hleft⟩

end RmmCaec
