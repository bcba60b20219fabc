import RmmCaec.RecRun
import RmmCaec.RipasRequests

/-!
# What the host can complete

An exit leaves at most one request open for the host: a PSCI call, a host call, a RIPAS
change, an access to emulate or a register to read. A host call, a RIPAS change and a
PSCI call come with the syndrome of an SMC, the other two with their own class, so the
completions of an entry cannot meet.
-/
namespace RmmCaec
open RadixForest Outcome Runs

theorem ecOf_clearIsv (esr : Word) : ecOf (esr &&& ~~~esrEl2AbortIsvBit) = ecOf esr := by
  have hmask : ~~~esrEl2AbortIsvBit &&& esrEl2EcMask = esrEl2EcMask := by decide
  rw [ecOf, BitVec.and_assoc, hmask, ecOf]

theorem esrIsv_mask {mask : Word} (h : mask &&& esrEl2AbortIsvBit = 0#64) (esr : Word) :
    esrIsv (esr &&& mask) = false := by
  rw [esrIsv, BitVec.and_assoc, h]
  simp

theorem esrIsv_clearIsv (esr : Word) : esrIsv (esr &&& ~~~esrEl2AbortIsvBit) = false :=
  esrIsv_mask (by decide) esr

theorem esrIsv_nonemulated (esr : Word) : esrIsv (esr &&& esrNonemulatedAbortMask) = false :=
  esrIsv_mask (by decide) esr

/-- A recorded syndrome keeps its class. -/
theorem recordSync_ec (h : Syndrome) (exitEsr : Word) :
    ecOf (recordSync h exitEsr).esr = ecOf h.esr := by
  unfold recordSync
  split
  · rfl
  · exact ecOf_clearIsv h.esr

/-- The valid bit is recorded only if the host sees it. -/
theorem recordSync_isv {h : Syndrome} {exitEsr : Word} (hx : esrIsv exitEsr = false) :
    esrIsv (recordSync h exitEsr).esr = false := by
  rw [recordSync, if_neg (by rw [hx]; decide)]
  exact esrIsv_clearIsv h.esr

/-- What a REC may wait for. -/
inductive HostRequest
  | psci
  | hostCall
  | ripas
  | mmio
  | sysreg
  deriving DecidableEq, Repr

instance : Fintype HostRequest :=
  ⟨{.psci, .hostCall, .ripas, .mmio, .sysreg}, fun p => by cases p <;> decide⟩

/-- The state of a REC in which a request is open. -/
def Waits (r : Rec) (v : RunVcpu) : HostRequest → Prop
  | .psci => v.pending = true
  | .hostCall => v.hostCall = true
  | .ripas => r.Asks
  | .mmio => ecOf v.lastRunInfo.esr = esrEl2EcDataAbort ∧ esrIsv v.lastRunInfo.esr = true
  | .sysreg => ecOf v.lastRunInfo.esr = esrEl2EcSysreg ∧
      esrEl2SysregIsWrite v.lastRunInfo.esr = false

instance (r : Rec) (v : RunVcpu) : (p : HostRequest) → Decidable (Waits r v p)
  | .psci => inferInstanceAs (Decidable (v.pending = true))
  | .hostCall => inferInstanceAs (Decidable (v.hostCall = true))
  | .ripas => inferInstanceAs (Decidable (r.setRipas.base ≠ r.setRipas.top))
  | .mmio => inferInstanceAs (Decidable (ecOf v.lastRunInfo.esr = esrEl2EcDataAbort ∧
      esrIsv v.lastRunInfo.esr = true))
  | .sysreg => inferInstanceAs (Decidable (ecOf v.lastRunInfo.esr = esrEl2EcSysreg ∧
      esrEl2SysregIsWrite v.lastRunInfo.esr = false))

def OneRequest (r : Rec) (v : RunVcpu) : Prop := ∀ p q, Waits r v p → Waits r v q → p = q

def NoRequest (r : Rec) (v : RunVcpu) : Prop := ∀ p, ¬ Waits r v p

/-- The requests by RSI and PSCI calls exclude each other and come with an SMC. -/
structure RequestInv (r : Rec) (v : RunVcpu) : Prop where
  smc : v.pending = true ∨ v.hostCall = true ∨ r.Asks → ecOf v.lastRunInfo.esr = esrEl2EcSmc
  pendingCall : v.pending = true → v.hostCall = false
  pendingAsk : v.pending = true → ¬ r.Asks
  callAsk : v.hostCall = true → ¬ r.Asks

namespace RequestInv

variable {r r' : Rec} {v v' : RunVcpu}

theorem oneRequest (h : RequestInv r v) : OneRequest r v := by
  have hclass : ∀ p, Waits r v p → ecOf v.lastRunInfo.esr = match p with
      | .psci | .hostCall | .ripas => esrEl2EcSmc
      | .mmio => esrEl2EcDataAbort
      | .sysreg => esrEl2EcSysreg := by
    intro p hp
    cases p with
    | psci => exact h.smc (.inl hp)
    | hostCall => exact h.smc (.inr (.inl hp))
    | ripas => exact h.smc (.inr (.inr hp))
    | mmio => exact hp.1
    | sysreg => exact hp.1
  have hpc : ¬ (Waits r v .psci ∧ Waits r v .hostCall) := by
    rintro ⟨hp, hc⟩
    have := h.pendingCall hp
    rw [hc] at this
    cases this
  have hpa : ¬ (Waits r v .psci ∧ Waits r v .ripas) := fun ⟨hp, ha⟩ => h.pendingAsk hp ha
  have hca : ¬ (Waits r v .hostCall ∧ Waits r v .ripas) := fun ⟨hc, ha⟩ => h.callAsk hc ha
  intro p q hp hq
  have heq := (hclass p hp).symm.trans (hclass q hq)
  cases p <;> cases q <;> first
    | rfl
    | exact absurd heq (by decide)
    | exact (hpc ⟨hp, hq⟩).elim
    | exact (hpc ⟨hq, hp⟩).elim
    | exact (hpa ⟨hp, hq⟩).elim
    | exact (hpa ⟨hq, hp⟩).elim
    | exact (hca ⟨hp, hq⟩).elim
    | exact (hca ⟨hq, hp⟩).elim

/-- Fewer requests with the same syndrome. -/
theorem mono (h : RequestInv r v) (hinfo : v'.lastRunInfo.esr = v.lastRunInfo.esr)
    (hpend : v'.pending = true → v.pending = true)
    (hcall : v'.hostCall = true → v.hostCall = true) (hask : r'.Asks → r.Asks) :
    RequestInv r' v' := by
  refine ⟨fun hw => ?_, fun hp => ?_, fun hp ha => ?_, fun hc ha => ?_⟩
  · rw [hinfo]
    exact h.smc (hw.imp hpend (Or.imp hcall hask))
  · have hno := h.pendingCall (hpend hp)
    by_contra hc
    rw [hcall (by simpa using hc)] at hno
    cases hno
  · exact h.pendingAsk (hpend hp) (hask ha)
  · exact h.callAsk (hcall hc) (hask ha)

end RequestInv

theorem noRequest_of_info {r : Rec} {v : RunVcpu} (hinfo : v.lastRunInfo.esr = 0#64)
    (hpend : v.pending ≠ true) (hcall : v.hostCall ≠ true) (hask : ¬ r.Asks) :
      NoRequest r v := by
  intro p hp
  cases p with
  | psci => exact hpend hp
  | hostCall => exact hcall hp
  | ripas => exact hask hp
  | mmio =>
    rw [Waits, hinfo] at hp
    exact absurd hp.1 (by decide)
  | sysreg =>
    rw [Waits, hinfo] at hp
    exact absurd hp.1 (by decide)

theorem NoRequest.mono {r r' : Rec} {v v' : RunVcpu} (h : NoRequest r v)
    (hinfo : v'.lastRunInfo.esr = v.lastRunInfo.esr)
    (hpend : v'.pending = true → v.pending = true)
    (hcall : v'.hostCall = true → v.hostCall = true) (hask : r'.Asks → r.Asks) :
    NoRequest r' v' := by
  intro p hp
  cases p with
  | psci => exact h .psci (hpend hp)
  | hostCall => exact h .hostCall (hcall hp)
  | ripas => exact h .ripas (hask hp)
  | mmio =>
    refine h .mmio ?_
    rw [Waits, hinfo] at hp
    exact hp
  | sysreg =>
    refine h .sysreg ?_
    rw [Waits, hinfo] at hp
    exact hp

theorem writeGpr_zr (gprs : Fin 31 → Word) (val : Word) : writeGpr gprs 31 val = gprs := by
  funext i
  rw [writeGpr, if_neg (by omega)]

/-- The REC after an emulated access. -/
def mmioDone (v : RunVcpu) (e : RmiRecEnter) : RunVcpu :=
  { v with
    gprs := if esrIsWrite v.lastRunInfo.esr then v.gprs
      else writeGpr v.gprs (esrSrt v.lastRunInfo.esr) (mmioValue v.lastRunInfo.esr (e.gprs 0))
    pc := v.pc + 4#64 }

/-- The REC after an emulated register read. -/
def sysregDone (v : RunVcpu) (e : RmiRecEnter) : RunVcpu :=
  { v with gprs := writeGpr v.gprs (esrEl2SysregIssRt v.lastRunInfo.esr) (e.gprs 0) }

/-- One completion: the REC, up to its record of the last exit, and the memory of the
realm behind it. -/
inductive Completed (s : State) (r : Rec) (v : RunVcpu) (data : Word → Word) (e : RmiRecEnter) :
    RunVcpu → (Word → Word) → Prop
  | nothing : Completed s r v data e v data
  | injected (flag : e.has recEntryFlagInjectSea = true)
      (abort : ecOf v.lastRunInfo.esr = esrEl2EcDataAbort)
      (outside : addrInRecPar r (hpfarFipa v.lastRunInfo.hpfar) = false) :
      Completed s r v data e (injectSyncIdabortRec v esrEl2AbortFscSea) data
  | mmio (waits : Waits r v .mmio) (flag : e.has recEntryFlagEmulMmio = true) :
      Completed s r v data e (mmioDone v e) data
  | sysreg (waits : Waits r v .sysreg) : Completed s r v data e (sysregDone v e) data
  | ripas (waits : Waits r v .ripas) :
      Completed s r v data e
        (setRipasRegs { r.setRipas with reject := e.has recEntryFlagRipasResponse } v) data
  | hostCall {pa : Word} (waits : Waits r v .hostCall)
      (page : realmIpaToPa s r (hostCallPage (v.gprs 1)) = .ok (.WALK_SUCCESS pa)) :
      Completed s r v data e
        { v with gprs := writeGpr v.gprs 0 rsiSuccess, hostCall := false }
        (storeHostCall data (pa + (v.gprs 1 - hostCallPage (v.gprs 1))) e.gprs)
  | hostCallEmpty {level : ℤ} (waits : Waits r v .hostCall)
      (page : realmIpaToPa s r (hostCallPage (v.gprs 1)) = .ok (.WALK_FAIL .EMPTY level)) :
      Completed s r v data e { v with hostCall := false } data

/-- How an entry ends that nothing refuses beforehand. -/
inductive Entered (s : State) (r : Rec) (v : RunVcpu) (data : Word → Word) (e : RmiRecEnter) :
    EnterOutcome → Prop
  | refused {o : EnterOutcome} (entry : o.entry = .refused) (vcpu : o.vcpu = v)
      (mem : o.data = data) : Entered s r v data e o
  | aborted {o : EnterOutcome} (entry : o.entry = .aborted) (vcpu : o.vcpu = v)
      (mem : o.data = data) : Entered s r v data e o
  | run {o : EnterOutcome} {v' : RunVcpu} (entry : o.entry = .run)
      (done : Completed s r v data e v' o.data) (calls : v'.hostCall = false)
      (vcpu : o.vcpu = resetLastRunInfo v') (esr : o.exitEsr = 0#64) : Entered s r v data e o

section
variable {s : State} {r : Rec} {v : RunVcpu} {data : Word → Word} {e : RmiRecEnter}

theorem setRipasRegs_of_not {request : SetRipas} (h : request.base = request.top) :
    setRipasRegs request v = v := if_pos h

theorem completeSysregEmulation_of_not (h : ¬ Waits r v .sysreg) :
    completeSysregEmulation v e = v := by
  unfold completeSysregEmulation
  by_cases hec : ecOf v.lastRunInfo.esr = esrEl2EcSysreg
  · have hwrite : esrEl2SysregIsWrite v.lastRunInfo.esr = true := by
      by_contra hw
      exact h ⟨hec, by simpa using hw⟩
    rw [if_neg (not_not.mpr hec), if_pos hwrite]
  · rw [if_pos hec]

theorem completeSysregEmulation_of_waits (h : Waits r v .sysreg) :
    completeSysregEmulation v e = sysregDone v e := by
  obtain ⟨hec, hwrite⟩ := h
  unfold completeSysregEmulation sysregDone
  rw [if_neg (not_not.mpr hec), if_neg (by rw [hwrite]; decide)]
  split
  · rfl
  · next hrt =>
    rw [not_not.mp hrt, writeGpr_zr]

theorem completeMmioEmulation_of_waits (h : Waits r v .mmio)
    (hflag : e.has recEntryFlagEmulMmio = true) (hsea : e.has recEntryFlagInjectSea = false) :
    completeMmioEmulation v e = some (mmioDone v e) := by
  obtain ⟨hec, hisv⟩ := h
  have hno : ¬ (ecOf v.lastRunInfo.esr ≠ esrEl2EcDataAbort ∨
      esrIsv v.lastRunInfo.esr = false) := by
    simp [hec, hisv]
  simp only [completeMmioEmulation, hflag, hsea, Bool.not_true, Bool.false_eq_true, if_false,
    if_neg hno, mmioDone, Option.some.injEq]
  cases hw : esrIsWrite v.lastRunInfo.esr with
  | true => simp
  | false =>
    by_cases hrt : esrSrt v.lastRunInfo.esr = 31
    · simp [hrt, writeGpr_zr]
    · simp [hrt]

theorem completeHostCall_of_not (h : v.hostCall = false) :
    completeHostCall s r v data e = .ok (v, data, .done) := by
  unfold completeHostCall
  rw [h]
  rfl

/-- Nothing is open. -/
theorem completeRequests_of_not (hcall : v.hostCall = false) (hask : ¬ r.Asks)
    (hsys : ¬ Waits r v .sysreg) :
    completeRequests s r v data e = .ok ⟨.run, resetLastRunInfo v, data, 0#64⟩ := by
  have hreq : setRipasRegs { r.setRipas with reject := e.has recEntryFlagRipasResponse } v = v :=
    setRipasRegs_of_not (not_not.mp hask)
  simp only [completeRequests, hreq, completeSysregEmulation_of_not hsys,
    completeHostCall_of_not hcall]
  rfl

theorem setRipasRegs_kept {request : SetRipas} :
    (setRipasRegs request v).lastRunInfo = v.lastRunInfo ∧
      (setRipasRegs request v).hostCall = v.hostCall := by
  unfold setRipasRegs
  split <;> exact ⟨rfl, rfl⟩

theorem RequestInv.no_hostCall (h : RequestInv r v) (hask : r.Asks) : v.hostCall = false := by
  by_contra hc
  exact h.callAsk (by simpa using hc) hask

/-- An open RIPAS request is answered. -/
theorem completeRequests_of_asks (h : RequestInv r v) (hask : r.Asks) :
    completeRequests s r v data e = .ok ⟨.run, resetLastRunInfo
      (setRipasRegs { r.setRipas with reject := e.has recEntryFlagRipasResponse } v),
        data, 0#64⟩ := by
  have hregs := @setRipasRegs_kept v { r.setRipas with
    reject := e.has recEntryFlagRipasResponse }
  have hsys : ¬ Waits r (setRipasRegs { r.setRipas with
      reject := e.has recEntryFlagRipasResponse } v) .sysreg := by
    rw [Waits, hregs.1, h.smc (.inr (.inr hask))]
    exact fun hc => absurd hc.1 (by decide)
  simp only [completeRequests, completeSysregEmulation_of_not hsys,
    completeHostCall_of_not (hregs.2.trans (h.no_hostCall hask))]
  rfl

/-- The end of an entry that goes on with a host call. -/
theorem completeHostCall_sat (hcall : v.hostCall = true) :
    Sat (do
      match ← completeHostCall s r v data e with
      | (v2, data', .aborted level) =>
        return ⟨.aborted, v2, data', emulateStage2DataAbort level⟩
      | (v2, data', .done) => return ⟨.run, resetLastRunInfo v2, data', 0#64⟩)
      (Entered s r v data e) fun _ => True := by
  unfold completeHostCall
  simp only [hcall, Bool.not_true, Bool.false_eq_true, if_false]
  cases hwalk : realmIpaToPa s r (hostCallPage (v.gprs 1)) with
  | error err => exact Sat.error_bind trivial
  | ok walk =>
    cases walk with
    | WALK_SUCCESS pa => exact Sat.ok (.run rfl (.hostCall hcall hwalk) rfl rfl rfl)
    | WALK_FAIL ripas level =>
      cases ripas with
      | EMPTY => exact Sat.ok (.run rfl (.hostCallEmpty hcall hwalk) rfl rfl rfl)
      | RAM | DESTROYED => exact Sat.ok (.aborted rfl rfl rfl)
    | WALK_INVALID_PARAMS => exact Sat.error trivial

/-- The completions that no entry is refused for. -/
theorem completeRequests_sat (h : RequestInv r v) :
    Sat (completeRequests s r v data e) (Entered s r v data e) fun _ => True := by
  have hsmc : ecOf v.lastRunInfo.esr = esrEl2EcSmc → ¬ Waits r v .sysreg := by
    rintro hec ⟨hsys, -⟩
    exact absurd (hec.symm.trans hsys) (by decide)
  by_cases hask : r.Asks
  · rw [completeRequests_of_asks h hask]
    exact Sat.ok (.run rfl (.ripas hask) (setRipasRegs_kept.2.trans (h.no_hostCall hask)) rfl rfl)
  cases hcall : v.hostCall with
  | true =>
    have hreq : setRipasRegs { r.setRipas with reject := e.has recEntryFlagRipasResponse } v = v :=
      setRipasRegs_of_not (not_not.mp hask)
    simp only [completeRequests, hreq,
      completeSysregEmulation_of_not (hsmc (h.smc (.inr (.inl hcall))))]
    exact completeHostCall_sat hcall
  | false =>
    by_cases hsys : Waits r v .sysreg
    · have hreq : setRipasRegs { r.setRipas with reject := e.has recEntryFlagRipasResponse } v =
          v := setRipasRegs_of_not (not_not.mp hask)
      have hdone : (sysregDone v e).hostCall = false := hcall
      simp only [completeRequests, hreq, completeSysregEmulation_of_waits hsys,
        completeHostCall_of_not hdone]
      exact Sat.pure (.run rfl (.sysreg hsys) hdone rfl rfl)
    · rw [completeRequests_of_not hcall hask hsys]
      exact Sat.ok (.run rfl .nothing hcall rfl rfl)

/-- What the completions of an entry make of a REC with at most one request. -/
theorem enterCompletions_sat (h : RequestInv r v) :
    Sat (enterCompletions s r v data e) (Entered s r v data e) fun _ => True := by
  have refused : Sat (pure ⟨.refused, v, data, 0#64⟩ : Rmm EnterOutcome) (Entered s r v data e)
      fun _ => True := Sat.pure (.refused rfl rfl rfl)
  -- a data abort leaves nothing else open
  have alone : ∀ v1 : RunVcpu, ecOf v.lastRunInfo.esr = esrEl2EcDataAbort →
      v1.lastRunInfo = v.lastRunInfo → v1.hostCall = v.hostCall →
      Completed s r v data e v1 data →
      Sat (completeRequests s r v1 data e) (Entered s r v data e) fun _ => True := by
    intro v1 hec hinfo hcall hdone
    have hsmc : ¬ (v.pending = true ∨ v.hostCall = true ∨ r.Asks) := by
      intro hw
      have := (h.smc hw).symm.trans hec
      exact absurd this (by decide)
    rw [not_or, not_or, Bool.not_eq_true, Bool.not_eq_true] at hsmc
    have hsys : ¬ Waits r v1 .sysreg := by
      rintro ⟨hsys, -⟩
      rw [hinfo, hec] at hsys
      exact absurd hsys (by decide)
    rw [completeRequests_of_not (hcall.trans hsmc.2.1) hsmc.2.2 hsys]
    exact Sat.ok (.run rfl hdone (hcall.trans hsmc.2.1) rfl rfl)
  unfold enterCompletions completeSeaInsertion
  cases hsea : e.has recEntryFlagInjectSea with
  | true =>
    simp only [Bool.not_true, Bool.false_eq_true, if_false]
    by_cases hec : ecOf v.lastRunInfo.esr = esrEl2EcDataAbort
    swap
    · rw [if_pos hec]
      exact refused
    rw [if_neg (not_not.mpr hec)]
    cases hpar : addrInRecPar r (hpfarFipa v.lastRunInfo.hpfar) with
    | true => exact refused
    | false =>
      have hskip : completeMmioEmulation (injectSyncIdabortRec v esrEl2AbortFscSea) e =
          some (injectSyncIdabortRec v esrEl2AbortFscSea) := by
        simp [completeMmioEmulation, hsea]
      simp only [Bool.false_eq_true, if_false, hskip]
      exact alone _ hec rfl rfl (.injected hsea hec hpar)
  | false =>
    simp only [Bool.not_false, if_true]
    cases hmmio : e.has recEntryFlagEmulMmio with
    | true =>
      by_cases hw : Waits r v .mmio
      · rw [completeMmioEmulation_of_waits hw hmmio hsea]
        exact alone _ hw.1 rfl rfl (.mmio hw hmmio)
      · have hnone : completeMmioEmulation v e = none := by
          have hnot : ecOf v.lastRunInfo.esr ≠ esrEl2EcDataAbort ∨
              esrIsv v.lastRunInfo.esr = false := by
            rw [← Bool.not_eq_true]
            exact not_and_or.mp hw
          simp only [completeMmioEmulation, hmmio, hsea, Bool.not_true, Bool.false_eq_true,
            if_false, if_pos hnot]
        rw [hnone]
        exact refused
    | false =>
      have hskip : completeMmioEmulation v e = some v := by
        simp [completeMmioEmulation, hmmio]
      rw [hskip]
      exact completeRequests_sat h

/-- With an open RIPAS request an entry comes back and changes nothing, or answers the
request. -/
theorem enterCompletions_of_asks (h : RequestInv r v) (hask : r.Asks) :
    enterCompletions s r v data e = .ok ⟨.refused, v, data, 0#64⟩ ∨
    enterCompletions s r v data e = .ok ⟨.run, resetLastRunInfo
      (setRipasRegs { r.setRipas with reject := e.has recEntryFlagRipasResponse } v), data,
        0#64⟩ := by
  have hec : ecOf v.lastRunInfo.esr ≠ esrEl2EcDataAbort := by
    rw [h.smc (.inr (.inr hask))]
    decide
  unfold enterCompletions completeSeaInsertion
  cases hsea : e.has recEntryFlagInjectSea with
  | true =>
    simp only [Bool.not_true, Bool.false_eq_true, if_false, if_pos hec]
    exact .inl rfl
  | false =>
    simp only [Bool.not_false, if_true]
    cases hmmio : e.has recEntryFlagEmulMmio with
    | true =>
      have hnone : completeMmioEmulation v e = none := by
        simp only [completeMmioEmulation, hmmio, hsea, Bool.not_true, Bool.false_eq_true,
          if_false, if_pos (Or.inl hec)]
      rw [hnone]
      exact .inl rfl
    | false =>
      have hskip : completeMmioEmulation v e = some v := by
        simp [completeMmioEmulation, hmmio]
      rw [hskip]
      exact .inr (completeRequests_of_asks h hask)

theorem Completed.flags {v' : RunVcpu} {data' : Word → Word}
    (h : Completed s r v data e v' data') :
      v'.runnable = v.runnable ∧ v'.pending = v.pending := by
  cases h with
  | ripas waits =>
    unfold setRipasRegs
    split <;> exact ⟨rfl, rfl⟩
  | _ => exact ⟨rfl, rfl⟩

/-- Without a request and with no data abort behind it, an entry completes nothing. -/
theorem Completed.eq_of_noRequest {v' : RunVcpu} {data' : Word → Word}
    (h : Completed s r v data e v' data') (hno : NoRequest r v)
    (hec : ecOf v.lastRunInfo.esr ≠ esrEl2EcDataAbort) : v' = v ∧ data' = data := by
  cases h with
  | nothing => exact ⟨rfl, rfl⟩
  | injected flag abort outside => exact absurd abort hec
  | mmio waits flag => exact absurd waits (hno _)
  | sysreg waits | ripas waits | hostCall waits page | hostCallEmpty waits page =>
    exact absurd waits (hno _)

/-- Without a request an entry leaves the general registers and the memory alone. -/
theorem Completed.gprs_of_noRequest {v' : RunVcpu} {data' : Word → Word}
    (h : Completed s r v data e v' data') (hno : NoRequest r v) :
    v'.gprs = v.gprs ∧ data' = data := by
  cases h with
  | nothing => exact ⟨rfl, rfl⟩
  | injected flag abort outside => exact ⟨rfl, rfl⟩
  | mmio waits flag => exact absurd waits (hno _)
  | sysreg waits | ripas waits | hostCall waits page | hostCallEmpty waits page =>
    exact absurd waits (hno _)

/-- How an entry ends. -/
inductive EntryDone (s : State) (r : Rec) (v : RunVcpu) (data : Word → Word)
    (host : Option RmiRecEnter) (o : EnterOutcome) : Prop
  | back (entry : o.entry ≠ .run)
      (off : v.runnable = false ∨ v.pending = true → o.entry = .unreadable ∨
        o.entry = .refused)
      (vcpu : o.vcpu = v) (mem : o.data = data)
  | run {e : RmiRecEnter} {v' : RunVcpu} (read : host = some e)
      (active : (s.rd r.gRd).state = .ACTIVE) (on : v.runnable = true) (ready : v.pending = false)
      (entry : o.entry = .run) (done : Completed s r v data e v' o.data)
      (calls : v'.hostCall = false) (vcpu : o.vcpu = resetLastRunInfo v') (esr : o.exitEsr = 0#64)

theorem recEnterCompletions_sat {recAddr : Word} {host : Option RmiRecEnter}
    (h : RequestInv (s.recs recAddr) v) :
    Sat (recEnterCompletions s recAddr v data host)
      (EntryDone s (s.recs recAddr) v data host) fun _ => True := by
  have refused : Sat (pure ⟨.refused, v, data, 0#64⟩ : Rmm EnterOutcome)
      (EntryDone s (s.recs recAddr) v data host) fun _ => True :=
    Sat.pure (.back (by simp) (fun _ => .inr rfl) rfl rfl)
  unfold recEnterCompletions
  cases host with
  | none => exact Sat.pure (.back (by simp) (fun _ => .inl rfl) rfl rfl)
  | some e =>
    dsimp only
    cases hactive : (s.rd (s.recs recAddr).gRd).state with
    | NEW | SYSTEM_OFF => exact refused
    | ACTIVE =>
      refine Sat.ite (fun _ => refused) fun hon => ?_
      refine Sat.ite (fun _ => refused) fun hready => ?_
      refine Sat.ite (fun _ => refused) fun _ => ?_
      have hon' : v.runnable = true := by simpa using hon
      have hready' : v.pending = false := by simpa using hready
      refine (enterCompletions_sat h).mono (fun o ho => ?_) fun _ => id
      cases ho with
      | refused entry vcpu mem => exact .back (by simp [entry]) (fun _ => .inr entry) vcpu mem
      | aborted entry vcpu mem =>
        exact .back (by simp [entry]) (by simp [hon', hready']) vcpu mem
      | run entry done calls vcpu esr =>
        exact .run rfl hactive hon' hready' entry done calls vcpu esr

theorem recEnterCompletions_of_asks {recAddr : Word} {host : Option RmiRecEnter}
    (h : RequestInv (s.recs recAddr) v) (hask : (s.recs recAddr).Asks) :
    Sat (recEnterCompletions s recAddr v data host) (fun o =>
      (o.entry = .unreadable ∨ o.entry = .refused) ∨
      (o.entry = .run ∧ ∃ e, host = some e ∧
        o.vcpu = resetLastRunInfo (setRipasRegs { (s.recs recAddr).setRipas with
          reject := e.has recEntryFlagRipasResponse } v))) fun _ => True := by
  have refused : Sat (pure ⟨.refused, v, data, 0#64⟩ : Rmm EnterOutcome) (fun o =>
      (o.entry = .unreadable ∨ o.entry = .refused) ∨
      (o.entry = .run ∧ ∃ e, host = some e ∧
        o.vcpu = resetLastRunInfo (setRipasRegs { (s.recs recAddr).setRipas with
          reject := e.has recEntryFlagRipasResponse } v))) fun _ => True :=
    Sat.pure (.inl (.inr rfl))
  unfold recEnterCompletions
  cases host with
  | none => exact Sat.pure (.inl (.inl rfl))
  | some e =>
    dsimp only
    cases (s.rd (s.recs recAddr).gRd).state with
    | NEW | SYSTEM_OFF => exact refused
    | ACTIVE =>
      refine Sat.ite (fun _ => refused) fun _ => ?_
      refine Sat.ite (fun _ => refused) fun _ => ?_
      refine Sat.ite (fun _ => refused) fun _ => ?_
      obtain heq | heq := @enterCompletions_of_asks s (s.recs recAddr) v data e h hask
      · rw [heq]
        exact refused
      · rw [heq]
        exact Sat.ok (.inr ⟨rfl, e, rfl, rfl⟩)

namespace EntryDone

variable {host : Option RmiRecEnter} {o : EnterOutcome}

/-- A REC that starts to run has nothing open and no record of its last exit. -/
theorem spent {r' : Rec} (h : EntryDone s r v data host o) (hrun : o.entry = .run)
    (hask : ¬ r'.Asks) :
    o.vcpu.lastRunInfo.esr = 0#64 ∧ o.exitEsr = 0#64 ∧ NoRequest r' o.vcpu := by
  cases h with
  | back entry off vcpu mem => exact absurd hrun entry
  | run read active on ready entry done calls vcpu esr =>
    have hinfo : o.vcpu.lastRunInfo.esr = 0#64 := by
      rw [vcpu]
      rfl
    have hpend : o.vcpu.pending = false := by
      rw [vcpu]
      exact done.flags.2.trans ready
    have hcall : o.vcpu.hostCall = false := by
      rw [vcpu]
      exact calls
    exact ⟨hinfo, esr, noRequest_of_info hinfo (by simp [hpend]) (by simp [hcall]) hask⟩

/-- The entry that the machine below sees. -/
theorem entry_eq (h : EntryDone s r v data host o) :
    recEnterEntry v.toVcpu o.entry = o.entry := by
  unfold recEnterEntry
  split
  · next hoff =>
    cases h with
    | back entry off vcpu mem =>
      obtain hu | hr := off hoff.2
      · exact absurd hu hoff.1
      · exact hr.symm
    | run read active on ready entry done calls vcpu esr => simp [on, ready] at hoff
  · rfl

/-- The registers that the machine below sees. -/
theorem regs_eq {recAddr : Word} (h : EntryDone s (s.recs recAddr) v data host o) :
    recEnterRegs s recAddr v.toVcpu o.entry o.vcpu.toRegs = o.vcpu.toVcpu := by
  unfold recEnterRegs
  cases h with
  | back entry off vcpu mem =>
    rw [vcpu]
    split <;> rfl
  | @run e v' read active on ready entry done calls vcpu esr =>
    have hflags := done.flags
    rw [if_pos ⟨by simp [entry], active, on, ready⟩, vcpu]
    show _ = v'.toVcpu
    rw [← hflags.1, ← hflags.2]
    rfl

end EntryDone

end

theorem esrIsv_of_mask {esr mask : Word} (h : esrIsv (esr &&& mask) = true) :
    esrIsv esr = true := by
  by_contra hc
  rw [Bool.not_eq_true, esrIsv, bne_eq_false_iff_eq] at hc
  have hz : esr &&& mask &&& esrEl2AbortIsvBit = 0#64 := by
    rw [BitVec.and_assoc, BitVec.and_comm mask, ← BitVec.and_assoc, hc, BitVec.zero_and]
  rw [esrIsv, hz] at h
  cases h

/-- An access that the host may emulate: it is no protected one, and the syndrome says
what it was. -/
def Emulatable (r : Rec) (v : RunVcpu) (h : Syndrome) : Prop :=
  ecOf h.esr = esrEl2EcDataAbort ∧ esrIsv h.esr = true ∧
    v.pstate &&& spsrEl2NrwAarch32 = 0#64 ∧ addrInRecPar r (hpfarFipa h.hpfar) = false

/-- The request that an exception of the realm may open. -/
def Opens (r : Rec) (v : RunVcpu) : RealmException → HostRequest → Prop
  | .sync h, .psci => ecOf h.esr = esrEl2EcSmc ∧ isPsciCall v.toVcpu = true
  | .sync h, .hostCall => ecOf h.esr = esrEl2EcSmc ∧ rsiFunctionId v = smcRsiHostCall
  | .sync h, .ripas => ecOf h.esr = esrEl2EcSmc ∧ rsiFunctionId v = smcRsiIpaStateSet
  | .sync h, .mmio => Emulatable r v h
  | .sync h, .sysreg => ecOf h.esr = esrEl2EcSysreg ∧ esrEl2SysregIsWrite h.esr = false
  | _, _ => False

/-- What a synchronous exception does to the REC, before it is recorded. -/
inductive SyncDone (plat : Platform) (s : State) (recAddr : Word) (v : RunVcpu) (exitEsr : Word)
    (h : Syndrome) : State → Handled → Prop
  | psci {s1 : State} {v1 : Vcpu} {goesOn : Bool} (smc : ecOf h.esr = esrEl2EcSmc)
      (call : isPsciCall v.toVcpu = true)
      (done : psciCall s recAddr v.toVcpu = .ok (s1, v1, goesOn)) :
      SyncDone plat s recAddr v exitEsr h s1 ⟨{ v with toVcpu := v1 }, exitEsr, goesOn⟩
  | rsi {s1 : State} {call : RsiCall} {res : RsiResult} {regs : Regs}
      (smc : ecOf h.esr = esrEl2EcSmc) (calls : rsiCallOf v = some call)
      (done : rsiHandler plat s recAddr call = .ok (s1, res)) :
      SyncDone plat s recAddr v exitEsr h s1
        ⟨{ v with toRegs := regs }, exitEsr, !res.exitToHost⟩
  | hostCall {regs : Regs} (smc : ecOf h.esr = esrEl2EcSmc)
      (fid : rsiFunctionId v = smcRsiHostCall) :
      SyncDone plat s recAddr v exitEsr h s
        ⟨{ v with toRegs := regs, hostCall := true }, exitEsr, false⟩
  | regs {regs : Regs} {el1 : El1Regs} {esr : Word} {handled : Bool}
      (keeps : handled = true → esr = exitEsr)
      (isv : ecOf h.esr = esrEl2EcDataAbort → esrIsv esr = true →
        esrIsv exitEsr = true ∨ Emulatable (s.recs recAddr) v h) :
      SyncDone plat s recAddr v exitEsr h s
        ⟨{ v with toRegs := regs, el1 := el1 }, esr, handled⟩

section
variable {plat : Platform} {s : State} {recAddr : Word} {v : RunVcpu} {exitEsr : Word}
  {h : Syndrome}

/-- The REC is as before. -/
theorem SyncDone.same {esr : Word} {handled : Bool} (keeps : handled = true → esr = exitEsr)
    (isv : ecOf h.esr = esrEl2EcDataAbort → esrIsv esr = true →
      esrIsv exitEsr = true ∨ Emulatable (s.recs recAddr) v h) :
    SyncDone plat s recAddr v exitEsr h s ⟨v, esr, handled⟩ :=
  @SyncDone.regs plat s recAddr v exitEsr h v.toRegs v.el1 esr handled keeps isv

theorem SyncDone.finish (hec : ecOf h.esr ≠ esrEl2EcDataAbort) (outcome : RsiOutcome) :
    SyncDone plat s recAddr v exitEsr h s (finishRsi v exitEsr outcome) := by
  cases outcome with
  | UPDATE_REC_RETURN_TO_REALM gprs =>
    exact @SyncDone.regs plat s recAddr v exitEsr h { v with gprs := gprs, pc := v.pc + 4#64 }
      v.el1 _ _ (fun _ => rfl) fun hc => absurd hc hec
  | UPDATE_REC_EXIT_TO_HOST gprs =>
    exact @SyncDone.regs plat s recAddr v exitEsr h { v with gprs := gprs, pc := v.pc + 4#64 }
      v.el1 _ _ (fun _ => rfl) fun hc => absurd hc hec
  | EXIT_TO_HOST =>
    exact @SyncDone.regs plat s recAddr v exitEsr h { v with pc := v.pc + 4#64 } v.el1 _ _
      (fun _ => rfl) fun hc => absurd hc hec
  | STAGE_2_TRANSLATION_FAULT level => exact .same nofun fun hc => absurd hc hec

theorem handleRealmSmc_sat (hsmc : ecOf h.esr = esrEl2EcSmc) (other : RsiOutcome) :
    Sat (handleRealmSmc plat s recAddr v exitEsr other)
      (fun res => SyncDone plat s recAddr v exitEsr h res.1 res.2) fun _ => True := by
  have hec : ecOf h.esr ≠ esrEl2EcDataAbort := by
    rw [hsmc]
    decide
  have finish : ∀ outcome, Sat (pure (s, finishRsi v exitEsr outcome) : Rmm (State × Handled))
      (fun res => SyncDone plat s recAddr v exitEsr h res.1 res.2) fun _ => True :=
    fun outcome => Sat.pure (.finish hec outcome)
  unfold handleRealmSmc
  refine Sat.ite (fun hpsci => ?_) fun _ => ?_
  · exact Sat.bind (Sat.self fun _ _ => trivial) fun res hcall => Sat.pure (.psci hsmc hpsci hcall)
  cases hrsi : rsiCallOf v with
  | some call =>
    refine Sat.bind (Sat.self fun _ _ => trivial) fun res hcall => Sat.pure ?_
    have hdone : ∀ regs : Regs, SyncDone plat s recAddr v exitEsr h res.1
        ⟨{ v with toRegs := regs }, exitEsr, !res.2.exitToHost⟩ :=
      fun regs => .rsi hsmc hrsi hcall
    unfold RsiResult.outcome
    cases hexit : res.2.exitToHost with
    | true =>
      rw [hexit] at hdone
      exact hdone { v with gprs := rsiResultGprs v.gprs res.2, pc := v.pc + 4#64 }
    | false =>
      rw [hexit] at hdone
      exact hdone { v with gprs := rsiResultGprs v.gprs res.2, pc := v.pc + 4#64 }
  | none =>
    refine Sat.ite (fun hfid => ?_) fun _ => ?_
    · unfold handleRsiHostCall
      dsimp only
      split
      · exact Sat.ok_bind (finish _)
      · cases realmIpaToPa s (s.recs recAddr) (hostCallPage (v.gprs 1)) with
        | error err => exact Sat.error_bind trivial
        | ok walk =>
          cases walk with
          | WALK_SUCCESS pa =>
            exact Sat.ok (@SyncDone.hostCall plat s recAddr v exitEsr h
              { v with pc := v.pc + 4#64 } hsmc hfid)
          | WALK_FAIL ripas level =>
            cases ripas with
            | EMPTY | RAM | DESTROYED => exact finish _
          | WALK_INVALID_PARAMS => exact Sat.error trivial
    · refine Sat.ite (fun _ => finish _) fun _ => ?_
      exact Sat.ite (fun _ => finish _) fun _ => finish _

/-- External aborts are reported without the valid bit. -/
theorem handleSyncExternalAbort_done {res : Handled}
    (hres : handleSyncExternalAbort v exitEsr h = some res) :
    SyncDone plat s recAddr v exitEsr h s res := by
  have hmask : ecOf h.esr = esrEl2EcDataAbort →
      esrIsv (h.esr &&& esrNonemulatedAbortMask) = true →
      esrIsv exitEsr = true ∨ Emulatable (s.recs recAddr) v h := by
    intro _ hisv
    rw [esrIsv_nonemulated] at hisv
    cases hisv
  unfold handleSyncExternalAbort at hres
  split at hres
  · cases hres
  dsimp only at hres
  split at hres
  · cases hres
    exact .regs nofun hmask
  split at hres
  · cases hres
    exact .same nofun hmask
  · cases hres
    exact .same nofun fun _ => .inl

theorem handleDataAbort_sat :
    Sat (handleDataAbort s (s.recs recAddr) v exitEsr h)
      (fun res => SyncDone plat s recAddr v exitEsr h s res) fun _ => True := by
  have hmask : ∀ esr : Word, ecOf h.esr = esrEl2EcDataAbort →
      esrIsv (esr &&& esrNonemulatedAbortMask) = true →
      esrIsv exitEsr = true ∨ Emulatable (s.recs recAddr) v h := by
    intro esr _ hisv
    rw [esrIsv_nonemulated] at hisv
    cases hisv
  have rest : ∀ empty : Bool, Sat (if empty then
      return ⟨injectSyncIdabort v h esrEl2AbortFscSea, exitEsr, true⟩
      else if v.pstate &&& spsrEl2NrwAarch32 ≠ 0#64 then
        return ⟨v, (h.esr &&& ~~~esrEl2AbortIsvBit) &&& esrNonemulatedAbortMask, false⟩
      else if addrInRecPar (s.recs recAddr) (hpfarFipa h.hpfar) then
        return ⟨v, h.esr &&& esrNonemulatedAbortMask, false⟩
      else return ⟨v, h.esr &&& esrEmulatedAbortMask, false⟩ : Rmm Handled)
      (fun res => SyncDone plat s recAddr v exitEsr h s res) fun _ => True := by
    intro empty
    refine Sat.ite (fun _ => Sat.pure (.regs (fun _ => rfl) fun _ => .inl)) fun _ => ?_
    refine Sat.ite (fun _ => Sat.pure (.same nofun (hmask _))) fun hstate => ?_
    refine Sat.ite (fun _ => Sat.pure (.same nofun (hmask _))) fun hpar => ?_
    refine Sat.pure (.same nofun fun hec hisv => .inr ⟨hec, esrIsv_of_mask hisv, ?_, ?_⟩)
    · exact not_ne_iff.mp hstate
    · simpa using hpar
  unfold handleDataAbort
  cases hea : handleSyncExternalAbort v exitEsr h with
  | some res => exact Sat.pure (handleSyncExternalAbort_done hea)
  | none =>
    dsimp only
    refine Sat.ite (fun _ => Sat.ok_bind (rest true)) fun _ => ?_
    exact Sat.bind (Q := fun _ => True) (sat_trivial _) fun empty _ => rest empty

theorem handleInstructionAbort_sat (hec : ecOf h.esr = esrEl2EcInstAbort) :
    Sat (handleInstructionAbort s (s.recs recAddr) v exitEsr h)
      (fun res => SyncDone plat s recAddr v exitEsr h s res) fun _ => True := by
  have hne : ecOf h.esr ≠ esrEl2EcDataAbort := by
    rw [hec]
    decide
  have rest : ∀ empty : Bool, Sat (if empty then
      return ⟨injectSyncIdabort v h esrEl2AbortFscSea, exitEsr, true⟩
      else if h.esr &&& esrEl2AbortFscMask &&& ~~~3#64 ≠ esrEl2AbortFscTranslationFault then
        return ⟨v, exitEsr, false⟩
      else return ⟨v, h.esr &&& esrNonemulatedAbortMask, false⟩ : Rmm Handled)
      (fun res => SyncDone plat s recAddr v exitEsr h s res) fun _ => True := by
    intro empty
    refine Sat.ite (fun _ => Sat.pure (.regs (fun _ => rfl) fun _ => .inl)) fun _ => ?_
    exact Sat.ite (fun _ => Sat.pure (.same nofun fun _ => .inl))
      fun _ => Sat.pure (.same nofun fun hc => absurd hc hne)
  unfold handleInstructionAbort
  cases hea : handleSyncExternalAbort v exitEsr h with
  | some res => exact Sat.pure (handleSyncExternalAbort_done hea)
  | none =>
    dsimp only
    refine Sat.ite (fun _ => Sat.ok_bind (rest true)) fun _ => ?_
    exact Sat.bind (Q := fun _ => True) (sat_trivial _) fun empty _ => rest empty

/-- An access to a register of the translation changes registers only. -/
theorem openccaSysregAccess_regs (v : RunVcpu) (esr : Word) (env : TrapEnv) :
    ∃ (regs : Regs) (el1 : El1Regs),
      openccaSysregAccess v esr env = { v with toRegs := regs, el1 := el1 } := by
  unfold openccaSysregAccess
  dsimp only
  split
  · split
    · next x hx =>
      unfold RunVcpu.writeSysreg
      split
      · exact ⟨_, v.el1, rfl⟩
      · exact ⟨v.toRegs, _, rfl⟩
      · exact ⟨v.toRegs, _, rfl⟩
      · exact ⟨v.toRegs, v.el1, rfl⟩
    · exact ⟨v.toRegs, v.el1, rfl⟩
  · exact ⟨_, v.el1, rfl⟩

theorem handleExceptionSync_sat (env : TrapEnv) :
    Sat (handleExceptionSync plat s recAddr v exitEsr h env)
      (fun res => SyncDone plat s recAddr v exitEsr h res.1 res.2) fun _ => True := by
  unfold handleExceptionSync
  refine Sat.ite (fun hec => ?_) fun _ => ?_
  · exact Sat.pure (@SyncDone.regs plat s recAddr v exitEsr h { v with pc := v.pc + 4#64 } v.el1
      _ _ nofun fun hc => absurd (hec.symm.trans hc) (by decide))
  refine Sat.ite (fun _ => Sat.pure (.regs (fun _ => rfl) fun _ => .inl)) fun _ => ?_
  refine Sat.ite (fun hec => handleRealmSmc_sat hec env.rsi) fun _ => ?_
  refine Sat.ite (fun hec => Sat.pure ?_) fun _ => ?_
  · have hne : ecOf h.esr ≠ esrEl2EcDataAbort := by
      rw [hec]
      decide
    have done : ∀ (regs : Regs) (el1 : El1Regs) (esr : Word) (handled : Bool),
        (handled = true → esr = exitEsr) → SyncDone plat s recAddr v exitEsr h s
          ⟨advancePc { v with toRegs := regs, el1 := el1 }, esr, handled⟩ :=
      fun regs el1 esr handled hk => @SyncDone.regs plat s recAddr v exitEsr h
        { regs with pc := regs.pc + 4#64 } el1 esr handled hk fun hc => absurd hc hne
    unfold handleSysregAccessTrap
    dsimp only
    split
    · split
      · exact done v.toRegs v.el1 _ _ fun _ => rfl
      · exact done _ v.el1 _ _ fun _ => rfl
    split
    · exact done v.toRegs v.el1 _ _ nofun
    split
    · obtain ⟨regs, el1, hv⟩ := openccaSysregAccess_regs v h.esr env
      rw [hv]
      exact done _ _ _ _ fun _ => rfl
    split
    · exact done _ v.el1 _ _ fun _ => rfl
    · exact done v.toRegs v.el1 _ _ fun _ => rfl
  refine Sat.ite (fun hec => ?_) fun _ => ?_
  · exact Sat.bind (handleInstructionAbort_sat hec) fun res hres => Sat.pure hres
  refine Sat.ite (fun _ => ?_) fun _ => ?_
  · exact Sat.bind handleDataAbort_sat fun res hres => Sat.pure hres
  refine Sat.ite (fun _ => Sat.pure ?_) fun _ => Sat.pure (.same nofun fun _ => .inl)
  unfold simdExceptionHandled
  split
  · exact .regs (fun _ => rfl) fun _ => .inl
  · exact .same (fun _ => rfl) fun _ => .inl

/-- The REC with the record of an exit, if it left. -/
def recorded (h : Syndrome) (res : Handled) : Handled :=
  if res.handled then res
  else { res with vcpu := { res.vcpu with lastRunInfo := recordSync h res.exitEsr } }

/-- What an exception of the realm does. -/
inductive ExitDone (plat : Platform) (s : State) (recAddr : Word) (v : RunVcpu) (exitEsr : Word) :
    RealmException → State → Handled → Prop
  | sync {h : Syndrome} {s1 : State} {res : Handled}
      (done : SyncDone plat s recAddr v exitEsr h s1 res) :
      ExitDone plat s recAddr v exitEsr (.sync h) s1 (recorded h res)
  | serror {h : Syndrome} {esr : Word} :
      ExitDone plat s recAddr v exitEsr (.serror h) s ⟨{ v with lastRunInfo := h }, esr, false⟩
  | plain {exception : RealmException} (kind : exception = .irq ∨ exception = .fiq ∨
      exception = .other) : ExitDone plat s recAddr v exitEsr exception s ⟨v, exitEsr, false⟩

theorem handleRealmExit_sat (exception : RealmException) (env : TrapEnv) :
    Sat (handleRealmExit plat s recAddr v exitEsr exception env)
      (fun res => ExitDone plat s recAddr v exitEsr exception res.1 res.2) fun _ => True := by
  unfold handleRealmExit
  cases exception with
  | sync h =>
    refine Sat.bind (handleExceptionSync_sat env) ?_
    rintro ⟨s1, res⟩ hres
    have hdone : ExitDone plat s recAddr v exitEsr (.sync h) s1 (recorded h res) := .sync hres
    unfold recorded at hdone
    dsimp only
    split
    · next hh =>
      rw [if_pos hh] at hdone
      exact Sat.pure hdone
    · next hh =>
      rw [if_neg hh] at hdone
      exact Sat.pure hdone
  | serror h =>
    have hserror : ∀ esr, ExitDone plat s recAddr v exitEsr (.serror h) s
        ⟨{ v with lastRunInfo := h }, esr, false⟩ := fun esr => .serror
    unfold handleExceptionSerrorLel
    dsimp only
    split
    · exact Sat.pure (hserror _)
    · exact Sat.pure (hserror _)
  | irq => exact Sat.pure (.plain (.inl rfl))
  | fiq => exact Sat.pure (.plain (.inr (.inl rfl)))
  | other => exact Sat.pure (.plain (.inr (.inr rfl)))

theorem recordSync_write (h : Syndrome) (exitEsr : Word) :
    esrEl2SysregIsWrite (recordSync h exitEsr).esr = esrEl2SysregIsWrite h.esr := by
  unfold recordSync
  split
  · rfl
  · have hbit : ~~~esrEl2AbortIsvBit &&& 1#64 = 1#64 := by decide
    simp only [esrEl2SysregIsWrite]
    rw [BitVec.and_assoc, hbit]

/-- The function ids that `handle_realm_rsi` takes for PSCI. -/
def isPsciFid (fid : Word) : Bool :=
  (decide (smc32PsciFid 0 ≤ fid) && decide (fid ≤ smc32PsciFid 0x14)) ||
    (decide (smc64PsciFid 0 ≤ fid) && decide (fid ≤ smc64PsciFid 0x14))

theorem isPsciCall_eq : isPsciCall v.toVcpu = isPsciFid (rsiFunctionId v) := rfl

/-- The calls of a realm do not overlap. -/
theorem not_isPsciCall (hfid : rsiFunctionId v = smcRsiHostCall ∨
    rsiFunctionId v = smcRsiIpaStateSet) : isPsciCall v.toVcpu = false := by
  rw [isPsciCall_eq]
  rcases hfid with h | h <;> rw [h] <;> decide

/-- The ids of the calls about memory. -/
theorem rsiCallOf_fid {call : RsiCall} (hcall : rsiCallOf v = some call) :
    ((∃ x1 x2 x3 x4, call = .ipaStateSet x1 x2 x3 x4) ∧ rsiFunctionId v = smcRsiIpaStateSet) ∨
      ((∀ x1 x2 x3 x4, call ≠ .ipaStateSet x1 x2 x3 x4) ∧
        ∃ n ∈ [0xa, 0xb, 0xc, 0xd, 0xe, 0xf, 0x10], rsiFunctionId v = smc64RsiFid n) := by
  unfold rsiCallOf at hcall
  dsimp only at hcall
  split at hcall
  · next hfid =>
    cases hcall
    exact .inl ⟨⟨_, _, _, _, rfl⟩, hfid⟩
  right
  repeat' split at hcall
  all_goals cases hcall
  all_goals
    refine ⟨nofun, _, ?_, by assumption⟩
    decide

theorem PsciCalled.recs {s' : State} {v v' : Vcpu} {goesOn : Bool}
    (h : PsciCalled s recAddr v s' v' goesOn) : s'.recs = s.recs := by
  cases h <;> rfl

namespace SyncDone

variable {F : Tables} {s1 : State} {res : Handled}

/-- A REC that goes on has no record of an exit. -/
theorem info (hd : SyncDone plat s recAddr v exitEsr h s1 res) :
    res.vcpu.lastRunInfo = v.lastRunInfo ∧ (res.handled = true → res.exitEsr = exitEsr) := by
  cases hd with
  | psci smc call done => exact ⟨rfl, fun _ => rfl⟩
  | rsi smc calls done => exact ⟨rfl, fun _ => rfl⟩
  | hostCall smc fid => exact ⟨rfl, fun _ => rfl⟩
  | regs keeps isv => exact ⟨rfl, keeps⟩

/-- The requests by calls. -/
theorem calls (hd : SyncDone plat s recAddr v exitEsr h s1 res) (hw : Wf s F)
    (hrec : (s.granule recAddr).state = .REC) (hno : NoRequest (s.recs recAddr) v) :
    (res.vcpu.pending = true → res.handled = false ∧
      Opens (s.recs recAddr) v (.sync h) .psci) ∧
    (res.vcpu.hostCall = true →
      res.handled = false ∧ Opens (s.recs recAddr) v (.sync h) .hostCall) ∧
    ((s1.recs recAddr).Asks →
      res.handled = false ∧ Opens (s.recs recAddr) v (.sync h) .ripas) := by
  have hpend : v.pending ≠ true := hno .psci
  have hcall : v.hostCall ≠ true := hno .hostCall
  have hask : ¬ (s.recs recAddr).Asks := hno .ripas
  cases hd with
  | @psci s1 v1 goesOn smc call done =>
    have hc := (psciCall_sat s recAddr v.toVcpu).of_ok done
    refine ⟨fun hp => ⟨?_, smc, call⟩, fun hp => absurd hp hcall, fun ha => ?_⟩
    · cases hgo : goesOn with
      | false => rfl
      | true =>
        rw [hgo] at hc
        exact absurd (hc.flags_of_goesOn.2.symm.trans hp) hpend
    · have hsame : (s1.recs recAddr).Asks = (s.recs recAddr).Asks := by rw [hc.recs]
      rw [hsame] at ha
      exact absurd ha hask
  | @rsi s1 call res regs smc calls done =>
    have hrsi := (rsiHandler_sat hw hrec call).of_ok done
    refine ⟨fun hp => absurd hp hpend, fun hp => absurd hp hcall, fun ha => ?_⟩
    obtain hold | ⟨-, hexit, x1, x2, x3, x4, rfl⟩ := hrsi.asks ha
    · exact absurd hold hask
    · have hstop : (!res.exitToHost) = false := congrArg (!·) hexit
      obtain ⟨-, hfid⟩ | ⟨hne, -⟩ := rsiCallOf_fid calls
      · exact ⟨hstop, smc, hfid⟩
      · exact absurd rfl (hne x1 x2 x3 x4)
  | hostCall smc fid =>
    exact ⟨fun hp => absurd hp hpend, fun _ => ⟨rfl, smc, fid⟩, fun ha => absurd ha hask⟩
  | regs keeps isv =>
    exact ⟨fun hp => absurd hp hpend, fun hp => absurd hp hcall, fun ha => absurd ha hask⟩

/-- The request by an access. -/
theorem access (hd : SyncDone plat s recAddr v exitEsr h s1 res)
    (hec : ecOf h.esr = esrEl2EcDataAbort) (hx : esrIsv exitEsr = false)
    (hisv : esrIsv res.exitEsr = true) : Emulatable (s.recs recAddr) v h := by
  cases hd with
  | psci smc | rsi smc | hostCall smc => exact absurd (smc.symm.trans hec) (by decide)
  | regs keeps isv =>
    obtain hc | he := isv hec hisv
    · rw [hx] at hc
      cases hc
    · exact he

end SyncDone

namespace ExitDone

variable {F : Tables} {s1 : State} {res : Handled} {exception : RealmException}

/-- A REC that goes on has no record of an exit. -/
theorem info (hd : ExitDone plat s recAddr v exitEsr exception s1 res)
    (hres : res.handled = true) :
    res.vcpu.lastRunInfo = v.lastRunInfo ∧ res.exitEsr = exitEsr := by
  cases hd with
  | @sync h s1 res done =>
    unfold recorded at hres ⊢
    split at hres
    · next hh =>
      rw [if_pos hh]
      exact ⟨done.info.1, done.info.2 hh⟩
    · next hh => exact absurd hres hh
  | serror => cases hres
  | plain kind => cases hres

/-- Every request behind an exception was opened by it. -/
theorem opens (hd : ExitDone plat s recAddr v exitEsr exception s1 res) (hw : Wf s F)
    (hrec : (s.granule recAddr).state = .REC) (hno : NoRequest (s.recs recAddr) v)
    (hinfo : v.lastRunInfo.esr = 0#64) (hx : exitEsr = 0#64) (hgen : exception.Genuine)
    {p : HostRequest} (hp : Waits (s1.recs recAddr) res.vcpu p) :
    res.handled = false ∧ Opens (s.recs recAddr) v exception p := by
  cases hd with
  | @sync h s1 res done =>
    obtain ⟨hpsci, hcall, hripas⟩ := done.calls hw hrec hno
    unfold recorded at hp ⊢
    by_cases hh : res.handled = true
    · -- nothing is open
      rw [if_pos hh] at hp
      have hno' : NoRequest (s1.recs recAddr) res.vcpu := by
        refine noRequest_of_info (by rw [done.info.1, hinfo]) (fun h1 => ?_) (fun h1 => ?_)
          fun h1 => ?_
        · exact absurd hh (by simp [(hpsci h1).1])
        · exact absurd hh (by simp [(hcall h1).1])
        · exact absurd hh (by simp [(hripas h1).1])
      exact absurd hp (hno' p)
    · rw [if_neg hh] at hp ⊢
      refine ⟨by simpa using hh, ?_⟩
      cases p with
      | psci => exact (hpsci hp).2
      | hostCall => exact (hcall hp).2
      | ripas => exact (hripas hp).2
      | mmio =>
        obtain ⟨hec, hisv⟩ := hp
        rw [recordSync_ec] at hec
        refine done.access hec (by rw [hx]; decide) ?_
        by_contra hc
        rw [recordSync_isv (by simpa using hc)] at hisv
        cases hisv
      | sysreg =>
        obtain ⟨hec, hwrite⟩ := hp
        rw [recordSync_ec] at hec
        rw [recordSync_write] at hwrite
        exact ⟨hec, hwrite⟩
  | serror =>
    cases p with
    | psci => exact absurd hp (hno .psci)
    | hostCall => exact absurd hp (hno .hostCall)
    | ripas => exact absurd hp (hno .ripas)
    | mmio => exact absurd (hgen.symm.trans hp.1) (by decide)
    | sysreg => exact absurd (hgen.symm.trans hp.1) (by decide)
  | plain kind => exact absurd hp (hno p)

/-- The class of the exception is recorded. -/
theorem ec {h : Syndrome} (hd : ExitDone plat s recAddr v exitEsr (.sync h) s1 res)
    (hres : res.handled = false) : ecOf res.vcpu.lastRunInfo.esr = ecOf h.esr := by
  cases hd with
  | @sync h s1 res done =>
    unfold recorded at hres ⊢
    split at hres
    · next hh =>
      rw [hh] at hres
      cases hres
    · next hh =>
      rw [if_neg hh]
      exact recordSync_ec h res.exitEsr
  | plain kind => rcases kind with h | h | h <;> cases h

theorem requestInv (hd : ExitDone plat s recAddr v exitEsr exception s1 res) (hw : Wf s F)
    (hrec : (s.granule recAddr).state = .REC) (hno : NoRequest (s.recs recAddr) v)
    (hinfo : v.lastRunInfo.esr = 0#64) (hx : exitEsr = 0#64) (hgen : exception.Genuine) :
    RequestInv (s1.recs recAddr) res.vcpu := by
  have hopen : ∀ p, Waits (s1.recs recAddr) res.vcpu p →
      res.handled = false ∧ Opens (s.recs recAddr) v exception p :=
    fun p hp => hd.opens hw hrec hno hinfo hx hgen hp
  -- a call is recorded with the class of an SMC
  have hsmc : ∀ {h : Syndrome}, exception = .sync h → res.handled = false →
      ecOf h.esr = esrEl2EcSmc → ecOf res.vcpu.lastRunInfo.esr = esrEl2EcSmc := by
    rintro h rfl hres hec
    rw [hd.ec hres, hec]
  refine ⟨?_, fun hp => ?_, fun hp ha => ?_, fun hc ha => ?_⟩
  · rintro (hp | hc | ha)
    · obtain ⟨hres, ho⟩ := hopen .psci hp
      cases exception with
      | sync h => exact hsmc rfl hres ho.1
      | _ => exact ho.elim
    · obtain ⟨hres, ho⟩ := hopen .hostCall hc
      cases exception with
      | sync h => exact hsmc rfl hres ho.1
      | _ => exact ho.elim
    · obtain ⟨hres, ho⟩ := hopen .ripas ha
      cases exception with
      | sync h => exact hsmc rfl hres ho.1
      | _ => exact ho.elim
  · by_contra hc
    rw [Bool.not_eq_false] at hc
    have h1 := (hopen .psci hp).2
    have h2 := (hopen .hostCall hc).2
    cases exception with
    | sync h => exact absurd h1.2 (by simp [not_isPsciCall (.inl h2.2)])
    | _ => exact h1.elim
  · have h1 := (hopen .psci hp).2
    have h2 := (hopen .ripas ha).2
    cases exception with
    | sync h => exact absurd h1.2 (by simp [not_isPsciCall (.inr h2.2)])
    | _ => exact h1.elim
  · have h1 := (hopen .hostCall hc).2
    have h2 := (hopen .ripas ha).2
    cases exception with
    | sync h => exact absurd (h1.2.symm.trans h2.2) (by decide)
    | _ => exact h1.elim

end ExitDone

/-- A call about shared memory opens nothing. -/
theorem not_opens_of_csm {r : Rec} {call : RsiCall} (hsmc : ecOf h.esr = esrEl2EcSmc)
    (hcall : rsiCallOf v = some call) (hne : ∀ x1 x2 x3 x4, call ≠ .ipaStateSet x1 x2 x3 x4)
    (p : HostRequest) : ¬ Opens r v (.sync h) p := by
  obtain ⟨⟨x1, x2, x3, x4, heq⟩, -⟩ | ⟨-, n, hn, hfid⟩ := rsiCallOf_fid hcall
  · exact absurd heq (hne x1 x2 x3 x4)
  have hids : isPsciFid (smc64RsiFid n) = false ∧ smc64RsiFid n ≠ smcRsiHostCall ∧
      smc64RsiFid n ≠ smcRsiIpaStateSet := by
    clear hfid
    revert n
    decide
  cases p with
  | psci =>
    rintro ⟨-, hpsci⟩
    rw [isPsciCall_eq, hfid, hids.1] at hpsci
    cases hpsci
  | hostCall => exact fun ho => hids.2.1 (hfid.symm.trans ho.2)
  | ripas => exact fun ho => hids.2.2 (hfid.symm.trans ho.2)
  | mmio => exact fun ho => absurd (hsmc.symm.trans ho.1) (by decide)
  | sysreg => exact fun ho => absurd (hsmc.symm.trans ho.1) (by decide)

/-- A protected access opens nothing. -/
theorem not_opens_of_protected {r : Rec} (hec : ecOf h.esr = esrEl2EcDataAbort)
    (hpar : addrInRecPar r (hpfarFipa h.hpfar) = true) (p : HostRequest) :
    ¬ Opens r v (.sync h) p := by
  cases p with
  | psci | hostCall | ripas | sysreg => exact fun ho => absurd (hec.symm.trans ho.1) (by decide)
  | mmio =>
    rintro ⟨-, -, -, hout⟩
    rw [hpar] at hout
    cases hout

end

end RmmCaec
