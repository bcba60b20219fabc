import RmmCaec.PsciLaws

/-!
# Completions of PSCI requests

`handle_psci` tells the requests apart by the low half of their function id, and
`psci_complete_request` by all of it. A completion therefore always comes to an end only
while the requests that wait have nothing in the high half. When a completion fails, it
has no effect unless the host denies a CPU_ON of a REC that is on or in use.
-/
namespace RmmCaec
open Outcome Runs

/-- The function ids of AFFINITY_INFO. -/
def IsAffinityInfo (fid : Word) : Prop :=
    fid = smc32PsciAffinityInfo ∨ fid = smc64PsciAffinityInfo

instance (fid : Word) : Decidable (IsAffinityInfo fid) := inferInstanceAs (Decidable (_ ∨ _))

/-- A call that its handler accepts and leaves to the host. -/
def AsksHost (s : State) (r : Rec) (v : Vcpu) : Prop :=
  mpidrToRecIdx (v.gprs 1) < (s.rd r.gRd).recCount ∧ mpidrToRecIdx (v.gprs 1) ≠ r.recIdx ∧
    (IsCpuOn (lowWord (v.gprs 0)) ∧ addrInRecPar r (v.gprs 2) = true ∨
      IsAffinityInfo (lowWord (v.gprs 0)) ∧ v.gprs 2 = 0#64)

section
variable {s : State} {r : Rec} {v : Vcpu}

/-- CPU_ON leaves the REC as it is or waits for the host. -/
theorem psciCpuOn_cases (hfid : IsCpuOn (lowWord (v.gprs 0))) :
    (psciCpuOn s r v).1 = v ∨ AsksHost s r v := by
  unfold psciCpuOn
  split
  · exact .inl rfl
  · next hpar =>
    split
    · exact .inl rfl
    · next hidx =>
      split
      · exact .inl rfl
      · next hself => exact .inr ⟨by omega, hself, .inl ⟨hfid, by simpa using hpar⟩⟩

theorem psciAffinityInfo_cases (hfid : IsAffinityInfo (lowWord (v.gprs 0))) :
    (psciAffinityInfo s r v).1 = v ∨ AsksHost s r v := by
  unfold psciAffinityInfo
  split
  · exact .inl rfl
  · next hzero =>
    split
    · exact .inl rfl
    · next hidx =>
      split
      · exact .inl rfl
      · next hself => exact .inr ⟨by omega, hself, .inr ⟨hfid, by simpa using hzero⟩⟩

/-- A handler that does not ask the host leaves `psci_info.pending` alone. -/
theorem handlePsci_pending (recAddr : Word) :
    Sat (handlePsci s recAddr v) (fun res => res.2.1.pending = v.pending ∨
      AsksHost s (s.recs recAddr) v) fun _ => True := by
  unfold handlePsci
  dsimp only
  refine Sat.ite (fun _ => Sat.pure (.inl rfl)) fun _ => ?_
  refine Sat.ite (fun _ => Sat.pure (.inl rfl)) fun _ => ?_
  refine Sat.ite (fun _ => Sat.pure (.inl rfl)) fun _ => ?_
  refine Sat.ite (fun hon => Sat.pure ?_) fun _ => ?_
  · obtain heq | hasks := psciCpuOn_cases (s := s) (r := s.recs recAddr) hon
    · exact .inl (congrArg Vcpu.pending heq)
    · exact .inr hasks
  refine Sat.ite (fun haff => Sat.pure ?_) fun _ => ?_
  · obtain heq | hasks := psciAffinityInfo_cases (s := s) (r := s.recs recAddr) haff
    · exact .inl (congrArg Vcpu.pending heq)
    · exact .inr hasks
  refine Sat.ite (fun _ => ?_) fun _ => ?_
  · unfold psciSystemOffReset
    exact Sat.bind (sat_trivial _) fun s1 _ => Sat.pure (.inl rfl)
  · exact Sat.ite (fun _ => Sat.pure (.inl rfl)) fun _ => Sat.pure (.inl rfl)

theorem psciCall_pending (recAddr : Word) :
    Sat (psciCall s recAddr v) (fun res => res.2.1.pending = v.pending ∨
      AsksHost s (s.recs recAddr) v) fun _ => True := by
  unfold psciCall
  refine Sat.bind (handlePsci_pending recAddr) ?_
  rintro ⟨s1, v1, res⟩ h
  exact Sat.pure h

end

/-- The requests that `psci_complete_request` knows. -/
def IsHostRequest (fid : Word) : Prop := IsCpuOn fid ∨ IsAffinityInfo fid

theorem AsksHost.fid {s : State} {r : Rec} {v : Vcpu} (h : AsksHost s r v) :
    IsHostRequest (lowWord (v.gprs 0)) := by
  obtain ⟨-, -, ⟨hfid, -⟩ | ⟨hfid, -⟩⟩ := h
  · exact .inl hfid
  · exact .inr hfid

theorem psciCompleteRequest_ok {callingRec targetRec : Rec} {targetCount : ℕ}
    {calling target : Vcpu} (status : Word)
    (h : calling.pending = true → IsHostRequest (calling.gprs 0)) :
    Sat (psciCompleteRequest callingRec targetRec targetCount calling target status)
      (fun _ => True) fun _ => False := by
  unfold psciCompleteRequest
  refine Sat.ite (fun _ => Sat.pure trivial) fun hpending => ?_
  have hfid := h (by simpa using hpending)
  refine Sat.ite (fun _ => Sat.pure trivial) fun _ => ?_
  refine Sat.ite (fun _ => Sat.pure trivial) fun _ => ?_
  refine Sat.ite (fun _ => ?_) fun hon => ?_
  · exact Sat.ite (fun _ => Sat.pure trivial) fun _ => Sat.pure trivial
  · refine Sat.ite (fun _ => ?_) fun haff => ?_
    · exact Sat.ite (fun _ => Sat.pure trivial) fun _ => Sat.pure trivial
    · exact absurd hfid (not_or.mpr ⟨hon, haff⟩)

theorem smcPsciComplete_ok {plat : Platform} {s : State} {vcpu : Word → Vcpu}
    {callingAddr : Word} (targetAddr status : Word)
    (h : (vcpu callingAddr).pending = true → IsHostRequest ((vcpu callingAddr).gprs 0)) :
    Sat (smcPsciComplete plat s vcpu callingAddr targetAddr status) (fun _ => True)
      fun _ => False := by
  unfold smcPsciComplete
  refine Sat.ite (fun _ => Sat.pure trivial) fun _ => ?_
  refine Sat.ite (fun _ => Sat.pure trivial) fun _ => ?_
  exact Sat.bind (psciCompleteRequest_ok status h) fun _ _ => Sat.pure trivial

section
variable {ι : Type} [DecidableEq ι] {plat : Platform} {m m' : PsciSmp ι} {a : PsciAct ι}

/-- The high half of a register. -/
def highWord (w : Word) : Word := w >>> 32

theorem lowWord_eq_self {w : Word} (h : highWord w = 0#64) : lowWord w = w := by
  have hlt : w.toNat < 2 ^ 32 := by
    have h0 := congrArg BitVec.toNat h
    rw [highWord, BitVec.toNat_ushiftRight, Nat.shiftRight_eq_div_pow, BitVec.toNat_zero] at h0
    omega
  have hmask : (0xFFFFFFFF#64).toNat = 2 ^ 32 - 1 := rfl
  apply BitVec.eq_of_toNat_eq
  rw [lowWord, BitVec.toNat_and, hmask, Nat.and_two_pow_sub_one_eq_mod, Nat.mod_eq_of_lt hlt]

/-- A REC that calls the host has nothing in the high half of the function id. -/
def LowFids (m : PsciSmp ι) (a : PsciAct ι) : Prop := ∀ c r, a = .psci c →
  m.smp.cpu c = .running r → AsksHost m.smp.mem (m.smp.mem.recs r) (m.vcpu r) →
    highWord ((m.vcpu r).gprs 0) = 0#64

/-- Every REC that waits has a request that a completion knows. -/
def KnownRequests (m : PsciSmp ι) : Prop :=
  ∀ r, (m.vcpu r).pending = true → IsHostRequest ((m.vcpu r).gprs 0)

theorem PsciNext.knownRequests (h : PsciInv m) (hk : KnownRequests m) (hlow : LowFids m a)
    (hn : PsciNext plat m a m') : KnownRequests m' := by
  intro r hr
  by_cases hwas : (m.vcpu r).pending = true
  · have hrec : (m'.smp.mem.granule r).state = .REC := (h.step hn).isRec_of_pending hr
    obtain heq | ⟨c, targetAddr, status, recRet, rfl, heq⟩ := hn.pending_cases h hwas hrec
    · rw [heq]
      exact hk r hwas
    · simp [heq, psciAnswer] at hr
  · have hnot : (m.vcpu r).pending = false := by simpa using hwas
    cases hn.vcpuMove h r with
    | same stays eq => simp [eq, hnot] at hr
    | made was is eq => simp [eq, initVcpu] at hr
    | freed gone eq => simp [eq, default] at hr
    | regs is on ready eq => simp [eq, hnot] at hr
    | called runs call next =>
      obtain ⟨-, heq, -⟩ := call.of_pending hnot hr
      obtain ⟨r', hrun, -, s, v, goesOn, hcall, rfl⟩ := hn
      obtain rfl : r' = r := by simpa [hrun] using runs
      dsimp only at hr heq ⊢
      rw [Function.update_self] at hr heq
      have hasks := ((psciCall_pending r').of_ok hcall).resolve_left (by simp [hr, hnot])
      rw [Function.update_self, heq]
      dsimp only
      rw [← lowWord_eq_self (hlow _ r' rfl hrun hasks)]
      exact hasks.fid
    | answered names mem told eq => simp [eq, psciAnswer] at hr
    | granted names mem request unused off eq => simp [eq, turnedOn, psciResetRec, hnot] at hr

/-- A realm that keeps the high half of its function ids clear cannot stop the monitor: a
completion returns a status in every state. -/
theorem psciComplete_returns (hm : Reach initPsci (PsciNext plat) LowFids m)
    (callingAddr targetAddr status : Word) : ∃ vcpu ret,
      smcPsciComplete plat m.smp.mem m.vcpu callingAddr targetAddr status = .ok (vcpu, ret) := by
  have hinv : PsciInv m ∧ KnownRequests m := by
    refine hm.invariant (I := fun n => PsciInv n ∧ KnownRequests n) ⟨.init, nofun⟩ ?_
    intro n a n' _ hi hlow hn
    exact ⟨hi.1.step hn, hn.knownRequests hi.1 hi.2 hlow⟩
  have hok := @smcPsciComplete_ok plat m.smp.mem m.vcpu callingAddr targetAddr status
    (hinv.2 callingAddr)
  cases heq : smcPsciComplete plat m.smp.mem m.vcpu callingAddr targetAddr status with
  | ok res => exact ⟨res.1, res.2, rfl⟩
  | error e => exact (hok.of_error heq).elim

end

/-- What a test says about the calls of the first two CPUs. -/
def lowFidsTest (m : PsciSmp ℕ) : Bool :=
  [0, 1].all fun c =>
    match m.smp.cpu c with
    | .running r => decide (highWord ((m.vcpu r).gprs 0) = 0#64)
    | _ => true

theorem lowFids_of_test {m : PsciSmp ℕ} {a : PsciAct ℕ} (h : lowFidsTest m = true)
    (ha : ∀ c, a = .psci c → c < 2) : LowFids m a := by
  intro c r hact hrun _
  have hc : c ∈ [0, 1] := by
    have := ha c hact
    simp
    omega
  have htest := List.all_eq_true.mp h c hc
  simpa [hrun] using htest

set_option maxRecDepth 100000 in
/-- The first REC asks for the third one, and the completion returns. -/
theorem psciComplete_returns_one : ∃ m : PsciSmp ℕ, PsciReachable demoPlat m ∧
    Asks m (gr 22) (gr 57) ∧ ∃ vcpu ret,
      smcPsciComplete demoPlat m.smp.mem m.vcpu (gr 22) (gr 57) psciReturnSuccess =
        .ok (vcpu, ret) := by
  let acts := psciThreeRecs ++ psciVisit 1 22 (psciArgs smc64PsciCpuOn 2#64 0x1000#64 7#64)
  have hacts : ∀ a ∈ acts, ∀ c, a = .psci c → c < 2 := by
    have hall : acts.all (fun a => match a with
        | .psci c => decide (c < 2)
        | _ => true) = true := by decide +kernel
    rintro a ha c rfl
    simpa using List.all_eq_true.mp hall _ ha
  have hrun : (psciReplay psciKeys demoPlat lowFidsTest initPsci acts).any (fun m =>
      decide (Asks m (gr 22) (gr 57))) = true := by decide +kernel
  obtain ⟨m, hm, hasks⟩ := (Option.any_eq_true _ _).mp hrun
  have hreach := psciReplay_guarded acts hacts .init hm
  exact ⟨m, hreach.mono fun _ _ _ => trivial, by simpa using hasks,
    psciComplete_returns (hreach.mono fun n a h => lowFids_of_test h.1 h.2) _ _ _⟩

set_option maxRecDepth 100000 in
/-- The function id of the request is CPU_ON with one bit of the high half set. -/
theorem psciComplete_panics : ¬ ∀ (m : PsciSmp ℕ) (callingAddr targetAddr status : Word),
    PsciReachable demoPlat m → ∃ vcpu ret,
      smcPsciComplete demoPlat m.smp.mem m.vcpu callingAddr targetAddr status =
        .ok (vcpu, ret) := by
  intro hall
  have hrun : (psciReplay psciKeys demoPlat (fun _ => true) initPsci (psciThreeRecs ++
      psciVisit 1 22 (psciArgs 0x1C4000003#64 2#64 0x1000#64 7#64))).any (fun m =>
        (smcPsciComplete demoPlat m.smp.mem m.vcpu (gr 22) (gr 57) psciReturnSuccess).toOption
          |>.isNone) = true := by decide +kernel
  obtain ⟨m, hm, hfails⟩ := (Option.any_eq_true _ _).mp hrun
  have hreach := psciReplay_reach _ .init hm
  obtain ⟨vcpu, ret, hret⟩ := hall m (gr 22) (gr 57) psciReturnSuccess
    (hreach.mono fun _ _ _ => trivial)
  rw [hret] at hfails
  cases hfails

/-- The host denies a CPU_ON of a REC that is on or in use. -/
def DeniesUsed (callingRec targetRec : Rec) (targetCount : ℕ) (calling target : Vcpu)
    (status : Word) : Prop :=
  calling.pending = true ∧ callingRec.gRd = targetRec.gRd ∧
    mpidrToRecIdx (calling.gprs 1) = targetRec.recIdx ∧ IsCpuOn (calling.gprs 0) ∧
    status = psciReturnDenied ∧ (targetCount ≠ 0 ∨ target.runnable = true)

/-- A target that is off is not said to be on. -/
theorem completePsciCpuOn_off {targetCount : ℕ} {target : Vcpu} {status : Word}
    (hused : ¬ (targetCount ≠ 0 ∨ target.runnable = true))
    (entryPointAddress contextId callerSctlrEl1 : Word) :
    (completePsciCpuOn targetCount target entryPointAddress contextId callerSctlrEl1 status).2 ≠
      psciReturnAlreadyOn := by
  rw [completePsciCpuOn, if_neg hused]
  split
  · change psciReturnDenied ≠ psciReturnAlreadyOn
    decide
  · change psciReturnSuccess ≠ psciReturnAlreadyOn
    decide

/-- A denial of a REC that is on or in use is the one failure that answers the caller. -/
theorem psciCompleteRequest_failed {callingRec targetRec : Rec} {targetCount : ℕ}
    {calling target : Vcpu} {status : Word} :
    Sat (psciCompleteRequest callingRec targetRec targetCount calling target status) (fun res =>
      (res = (calling, target, rmiErrorInput) ∨ res.2.2 = rmiSuccess) ∧
        ¬ DeniesUsed callingRec targetRec targetCount calling target status ∨
      res = (psciAnswer calling psciReturnAlreadyOn, target, rmiErrorInput) ∧
        DeniesUsed callingRec targetRec targetCount calling target status) fun _ => True := by
  unfold psciCompleteRequest
  refine Sat.ite (fun hpending => Sat.pure (.inl ⟨.inl rfl, fun h => ?_⟩)) fun hpending => ?_
  · simp [h.1] at hpending
  refine Sat.ite (fun hrealm => Sat.pure (.inl ⟨.inl rfl, fun h => hrealm h.2.1⟩))
    fun hrealm => ?_
  refine Sat.ite (fun hnamed => Sat.pure (.inl ⟨.inl rfl, fun h => hnamed h.2.2.1⟩))
    fun hnamed => ?_
  refine Sat.ite (fun hon => ?_) fun hon => ?_
  · refine Sat.ite (fun hstatus => Sat.pure (.inl ⟨.inl rfl, ?_⟩)) fun hstatus => ?_
    · rintro ⟨-, -, -, -, hdenied, -⟩
      exact hstatus.2 hdenied
    · by_cases hused : targetCount ≠ 0 ∨ target.runnable = true
      · rw [completePsciCpuOn, if_pos hused]
        by_cases hdenied : status = psciReturnDenied
        · refine Sat.pure
            (.inr ⟨?_, by simpa using hpending, not_not.mp hrealm, not_not.mp hnamed,
            hon, hdenied, hused⟩)
          simp [hdenied]
        · refine Sat.pure (.inl ⟨.inr ?_, fun h => hdenied h.2.2.2.2.1⟩)
          simp [hdenied]
      · have hanswer := @completePsciCpuOn_off _ _ status hused (calling.gprs 2)
          (calling.gprs 3) calling.sctlrEl1
        refine Sat.pure (.inl ⟨.inr ?_, fun h => hused h.2.2.2.2.2⟩)
        exact if_neg fun h => hanswer h.2
  · refine Sat.ite (fun _ => ?_) fun _ => Sat.error trivial
    refine Sat.ite (fun _ => Sat.pure (.inl ⟨.inl rfl, fun h => hon h.2.2.2.1⟩)) fun _ => ?_
    exact Sat.pure (.inl ⟨.inr rfl, fun h => hon h.2.2.2.1⟩)

section
variable {ι : Type}

/-- A completion that passes the checks of `smc_psci_complete` and denies a REC in use. -/
def DeniedInUse (plat : Platform) (m : PsciSmp ι) (callingAddr targetAddr status : Word) : Prop :=
  findLockTwoGranules plat m.smp.mem callingAddr .REC targetAddr .REC = true ∧
    (m.smp.mem.granule callingAddr).refcount = 0 ∧
    DeniesUsed (m.smp.mem.recs callingAddr) (m.smp.mem.recs targetAddr)
      (m.smp.mem.granule targetAddr).refcount (m.vcpu callingAddr) (m.vcpu targetAddr) status

theorem smcPsciComplete_failed (plat : Platform) (m : PsciSmp ι)
    (callingAddr targetAddr status : Word) :
    Sat (smcPsciComplete plat m.smp.mem m.vcpu callingAddr targetAddr status) (fun res =>
      (res.1 = m.vcpu ∨ res.2 = rmiSuccess) ∧
        ¬ DeniedInUse plat m callingAddr targetAddr status ∨
      (res.1 callingAddr).pending = false ∧ res.2 = rmiErrorInput ∧
        DeniedInUse plat m callingAddr targetAddr status) fun _ => True := by
  unfold smcPsciComplete
  refine Sat.ite (fun hlock => Sat.pure (.inl ⟨.inl rfl, fun hd => ?_⟩)) fun hlock => ?_
  · simp [hd.1] at hlock
  refine Sat.ite (fun hcount => Sat.pure (.inl ⟨.inl rfl, fun hd => hcount hd.2.1⟩))
    fun hcount => ?_
  have hne : callingAddr ≠ targetAddr := (findLockTwoGranules_iff (by simpa using hlock)).1
  refine Sat.bind psciCompleteRequest_failed ?_
  rintro ⟨calling, target, ret⟩ (⟨heq | hret, hnot⟩ | ⟨heq, hdenies⟩)
  · cases heq
    refine Sat.pure (.inl ⟨.inl ?_, fun hd => hnot hd.2.2⟩)
    simp
  · exact Sat.pure (.inl ⟨.inr hret, fun hd => hnot hd.2.2⟩)
  · cases heq
    refine Sat.pure (.inr ⟨?_, rfl, by simpa using hlock, not_not.mp hcount, hdenies⟩)
    simp [hne, psciAnswer]

/-- A completion that fails leaves the RECs alone unless it is a denial of a REC that is on
or in use, which clears the request. -/
theorem psciComplete_failed_iff (plat : Platform) (m : PsciSmp ι)
    (callingAddr targetAddr status : Word) {vcpu : Word → Vcpu} {ret : ReturnCode}
    (h : smcPsciComplete plat m.smp.mem m.vcpu callingAddr targetAddr status = .ok (vcpu, ret)) :
    (ret ≠ rmiSuccess → vcpu = m.vcpu) ↔
      ¬ DeniedInUse plat m callingAddr targetAddr status := by
  obtain ⟨heq | hret, hnot⟩ | ⟨hcleared, hret, hdenied⟩ :=
    (smcPsciComplete_failed plat m callingAddr targetAddr status).of_ok h
  · exact ⟨fun _ => hnot, fun _ _ => heq⟩
  · exact ⟨fun _ => hnot, fun _ hne => absurd hret hne⟩
  · dsimp only at hcleared hret
    refine ⟨fun hkeeps => ?_, fun hnot => absurd hdenied hnot⟩
    have heq : vcpu = m.vcpu := hkeeps (by rw [hret]; decide)
    have hpending := hdenied.2.2.1
    rw [← heq, hcleared] at hpending
    cases hpending

end

/-- The first REC asks for the second one, which is on already. -/
def psciAsksRunning : List (PsciAct ℕ) :=
  psciThreeRecs ++ psciVisit 1 22 (psciArgs smc64PsciCpuOn 1#64 0x1000#64 7#64)

/-- How the completion of a request ends, and whether the caller still waits. -/
def completes (plat : Platform) (m : PsciSmp ℕ) (callingAddr targetAddr status : Word)
    (ret : ReturnCode) (waits : Bool) : Bool :=
  match smcPsciComplete plat m.smp.mem m.vcpu callingAddr targetAddr status with
  | .error _ => false
  | .ok (vcpu, r) => decide (r = ret) && (vcpu callingAddr).pending == waits

theorem completes_ok {plat : Platform} {m : PsciSmp ℕ} {callingAddr targetAddr status : Word}
    {ret : ReturnCode} {waits : Bool}
    (h : completes plat m callingAddr targetAddr status ret waits = true) :
    ∃ vcpu, smcPsciComplete plat m.smp.mem m.vcpu callingAddr targetAddr status =
      .ok (vcpu, ret) ∧ (vcpu callingAddr).pending = waits := by
  unfold completes at h
  split at h
  · cases h
  · next vcpu r heq =>
    simp only [Bool.and_eq_true, decide_eq_true_eq, beq_iff_eq] at h
    obtain ⟨rfl, hwaits⟩ := h
    exact ⟨vcpu, heq, hwaits⟩

set_option maxRecDepth 100000 in
/-- A status that the host may not give is refused, a denial clears the request. -/
theorem psciAsksRunning_ends : ∃ m : PsciSmp ℕ, PsciReachable demoPlat m ∧
    Asks m (gr 22) (gr 56) ∧
    completes demoPlat m (gr 22) (gr 56) 5#64 rmiErrorInput true = true ∧
    completes demoPlat m (gr 22) (gr 56) psciReturnDenied rmiErrorInput false = true := by
  have hrun : (psciReplay psciKeys demoPlat (fun _ => true) initPsci psciAsksRunning).any (fun m =>
      decide (Asks m (gr 22) (gr 56)) &&
        (completes demoPlat m (gr 22) (gr 56) 5#64 rmiErrorInput true &&
          completes demoPlat m (gr 22) (gr 56) psciReturnDenied rmiErrorInput false)) = true := by
    decide +kernel
  obtain ⟨m, hm, htest⟩ := (Option.any_eq_true _ _).mp hrun
  simp only [Bool.and_eq_true, decide_eq_true_eq] at htest
  exact ⟨m, (psciReplay_reach _ .init hm).mono fun _ _ _ => trivial, htest⟩

/-- A status that the host may not give leaves the request in place. -/
theorem psciComplete_failed_status : ∃ (m : PsciSmp ℕ) (vcpu : Word → Vcpu),
    PsciReachable demoPlat m ∧ Asks m (gr 22) (gr 56) ∧
    smcPsciComplete demoPlat m.smp.mem m.vcpu (gr 22) (gr 56) 5#64 = .ok (vcpu, rmiErrorInput) ∧
    vcpu = m.vcpu := by
  obtain ⟨m, hm, hasks, hrefused, -⟩ := psciAsksRunning_ends
  obtain ⟨vcpu, hret, -⟩ := completes_ok hrefused
  refine ⟨m, vcpu, hm, hasks, hret, ?_⟩
  refine (psciComplete_failed_iff demoPlat m _ _ _ hret).mpr ?_ (by decide)
  rintro ⟨-, -, -, -, -, -, hdenied, -⟩
  exact absurd hdenied (by decide)

theorem psciComplete_denied_clears : ¬ ∀ (m : PsciSmp ℕ) (callingAddr targetAddr status : Word)
    (vcpu : Word → Vcpu) (ret : ReturnCode), PsciReachable demoPlat m →
    smcPsciComplete demoPlat m.smp.mem m.vcpu callingAddr targetAddr status = .ok (vcpu, ret) →
    ret ≠ rmiSuccess → vcpu callingAddr = m.vcpu callingAddr ∧
      vcpu targetAddr = m.vcpu targetAddr := by
  intro hall
  obtain ⟨m, hm, hasks, -, hdenied⟩ := psciAsksRunning_ends
  obtain ⟨vcpu, hret, hcleared⟩ := completes_ok hdenied
  obtain ⟨heq, -⟩ := hall m _ _ _ vcpu _ hm hret (by decide)
  have hpending := hasks.1
  simp [← heq, hcleared] at hpending

end RmmCaec
