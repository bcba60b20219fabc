import RmmCaec.RecMpidr

/-!
# The CPU_ON protocol

A REC that waits for the host keeps its registers and is not entered, and a REC that is
off is turned on only by the completion of a request that names it.
-/
namespace RmmCaec
open Outcome Runs

/-- The function ids of CPU_ON. -/
def IsCpuOn (fid : Word) : Prop := fid = smc32PsciCpuOn ∨ fid = smc64PsciCpuOn

instance (fid : Word) : Decidable (IsCpuOn fid) := inferInstanceAs (Decidable (_ ∨ _))

/-- What a PSCI call of a REC does to it. -/
inductive PsciCalled (s : State) (recAddr : Word) (v : Vcpu) : State → Vcpu → Bool → Prop
  | answered {v' : Vcpu} {goesOn : Bool} (runnable : v'.runnable = v.runnable)
      (pending : v'.pending = v.pending) : PsciCalled s recAddr v s v' goesOn
  | turnedOff {v' : Vcpu} (fid : lowWord (v.gprs 0) = smc32PsciCpuOff)
      (pending : v'.pending = v.pending) : PsciCalled s recAddr v s v' false
  | waits (entry : IsCpuOn (v.gprs 0) → addrInRecPar (s.recs recAddr) (v.gprs 2) = true) :
      PsciCalled s recAddr v s { v with pc := v.pc + 4#64, pending := true } false
  | systemOff {v' : Vcpu} (runnable : v'.runnable = v.runnable) (pending : v'.pending = v.pending) :
      PsciCalled s recAddr v (s.setRd (s.recs recAddr).gRd
        { s.rd (s.recs recAddr).gRd with state := .SYSTEM_OFF }) v' false

namespace PsciCalled

variable {s s' : State} {recAddr : Word} {v v' : Vcpu} {goesOn : Bool}

/-- No granule changes its state. -/
theorem stays (h : PsciCalled s recAddr v s' v' goesOn) {g : Word}
    (hg : (s.granule g).state = .REC) : (s'.granule g).state = .REC := by
  cases h <;> exact hg

/-- A REC that goes on is as before. -/
theorem flags_of_goesOn (h : PsciCalled s recAddr v s' v' true) :
    v'.runnable = v.runnable ∧ v'.pending = v.pending := by
  cases h with
  | answered runnable pending => exact ⟨runnable, pending⟩

/-- A REC begins to wait with its registers in place. -/
theorem of_pending (h : PsciCalled s recAddr v s' v' goesOn) (hv : v.pending = false)
    (hv' : v'.pending = true) :
    s' = s ∧ v' = { v with pc := v.pc + 4#64, pending := true } ∧
      (IsCpuOn (v.gprs 0) → addrInRecPar (s.recs recAddr) (v.gprs 2) = true) := by
  cases h with
  | answered runnable pending => simp [pending, hv] at hv'
  | turnedOff fid pending => simp [pending, hv] at hv'
  | waits entry => exact ⟨rfl, rfl, entry⟩
  | systemOff runnable pending => simp [pending, hv] at hv'

/-- Only CPU_OFF turns the caller off. -/
theorem runnable_eq (h : PsciCalled s recAddr v s' v' goesOn)
    (hfid : lowWord (v.gprs 0) ≠ smc32PsciCpuOff) : v'.runnable = v.runnable := by
  cases h with
  | answered runnable pending => exact runnable
  | turnedOff fid pending => exact absurd fid hfid
  | waits entry => rfl
  | systemOff runnable pending => exact runnable

end PsciCalled

theorem lowWord_cpuOn {fid : Word} (h : IsCpuOn fid) : lowWord fid = fid := by
  rcases h with rfl | rfl <;> decide

/-- The remainder of `handle_realm_rsi` when a handler has answered the realm. -/
theorem psciCall_answer {s : State} {recAddr : Word} {v : Vcpu} {res : PsciResult}
    (h : handlePsci s recAddr v = .ok (s, v, res)) :
    Sat (psciCall s recAddr v) (fun r => PsciCalled s recAddr v r.1 r.2.1 r.2.2) fun _ => True := by
  unfold psciCall
  rw [h]
  exact Sat.ok_bind (Sat.pure (.answered rfl rfl))

theorem psciCall_sat (s : State) (recAddr : Word) (v : Vcpu) :
    Sat (psciCall s recAddr v) (fun r => PsciCalled s recAddr v r.1 r.2.1 r.2.2) fun _ => True := by
  have waits : ∀ hentry : IsCpuOn (v.gprs 0) → addrInRecPar (s.recs recAddr) (v.gprs 2) = true,
      handlePsci s recAddr v = .ok (s, psciPend v) →
      Sat (psciCall s recAddr v) (fun r => PsciCalled s recAddr v r.1 r.2.1 r.2.2)
        fun _ => True := by
    intro hentry h
    unfold psciCall
    rw [h]
    exact Sat.ok_bind (Sat.pure (.waits hentry))
  by_cases h1 : lowWord (v.gprs 0) = smc32PsciVersion
  · exact psciCall_answer (by rw [handlePsci, if_pos h1]; rfl)
  by_cases h2 : lowWord (v.gprs 0) = smc32PsciCpuSuspend ∨
    lowWord (v.gprs 0) = smc64PsciCpuSuspend
  · exact psciCall_answer (by rw [handlePsci, if_neg h1, if_pos h2]; rfl)
  by_cases h3 : lowWord (v.gprs 0) = smc32PsciCpuOff
  · have h : handlePsci s recAddr v = .ok (s, psciCpuOff v) := by
      rw [handlePsci, if_neg h1, if_neg h2, if_pos h3]
      rfl
    unfold psciCall
    rw [h]
    exact Sat.ok_bind (Sat.pure (.turnedOff h3 rfl))
  by_cases h4 : lowWord (v.gprs 0) = smc32PsciCpuOn ∨ lowWord (v.gprs 0) = smc64PsciCpuOn
  · have h : handlePsci s recAddr v = .ok (s, psciCpuOn s (s.recs recAddr) v) := by
      rw [handlePsci, if_neg h1, if_neg h2, if_neg h3, if_pos h4]
      rfl
    unfold psciCpuOn at h
    split at h
    · exact psciCall_answer h
    · next hpar =>
      split at h
      · exact psciCall_answer h
      · split at h
        · exact psciCall_answer h
        · exact waits (fun _ => by simpa using hpar) h
  by_cases h5 : lowWord (v.gprs 0) = smc32PsciAffinityInfo ∨
      lowWord (v.gprs 0) = smc64PsciAffinityInfo
  · have h : handlePsci s recAddr v = .ok (s, psciAffinityInfo s (s.recs recAddr) v) := by
      rw [handlePsci, if_neg h1, if_neg h2, if_neg h3, if_neg h4, if_pos h5]
      rfl
    have hfid : ¬ IsCpuOn (v.gprs 0) := by
      intro hc
      rw [lowWord_cpuOn hc] at h4
      exact h4 hc
    unfold psciAffinityInfo at h
    split at h
    · exact psciCall_answer h
    · split at h
      · exact psciCall_answer h
      · split at h
        · exact psciCall_answer h
        · exact waits (fun hc => absurd hc hfid) h
  by_cases h6 : lowWord (v.gprs 0) = smc32PsciSystemOff ∨
    lowWord (v.gprs 0) = smc32PsciSystemReset
  · have h : handlePsci s recAddr v = psciSystemOffReset s (s.recs recAddr) v := by
      rw [handlePsci, if_neg h1, if_neg h2, if_neg h3, if_neg h4, if_neg h5, if_pos h6]
    unfold psciCall
    rw [h]
    unfold psciSystemOffReset systemOffReboot granuleLock assertThat
    split
    · exact Sat.ok_bind (Sat.pure (.systemOff rfl rfl))
    · exact Sat.error_bind trivial
  by_cases h7 : lowWord (v.gprs 0) = smc32PsciFeatures
  · exact psciCall_answer (by
      rw [handlePsci, if_neg h1, if_neg h2, if_neg h3, if_neg h4, if_neg h5, if_neg h6, if_pos h7]
      rfl)
  · exact psciCall_answer (by
      rw [handlePsci, if_neg h1, if_neg h2, if_neg h3, if_neg h4, if_neg h5, if_neg h6, if_neg h7]
      rfl)

/-- A completion is for a request that names the target. -/
structure Names (s : State) (vcpu : Word → Vcpu) (callingAddr targetAddr : Word) : Prop where
  ne : callingAddr ≠ targetAddr
  calling : (s.granule callingAddr).state = .REC
  target : (s.granule targetAddr).state = .REC
  idle : (s.granule callingAddr).refcount = 0
  pending : (vcpu callingAddr).pending = true
  realm : (s.recs callingAddr).gRd = (s.recs targetAddr).gRd
  named : mpidrToRecIdx ((vcpu callingAddr).gprs 1) = (s.recs targetAddr).recIdx

/-- The target of a request that is granted. -/
def turnedOn (calling target : Vcpu) : Vcpu :=
  { psciResetRec target calling.sctlrEl1 with
    gprs := Function.update target.gprs 0 (calling.gprs 3)
    pc := calling.gprs 2
    runnable := true }

/-- What a completion by the host does. -/
inductive PsciCompleted (s : State) (vcpu : Word → Vcpu) (callingAddr targetAddr : Word) :
    (Word → Vcpu) → ReturnCode → Prop
  | refused : PsciCompleted s vcpu callingAddr targetAddr vcpu rmiErrorInput
  | answered {recRet : Word} {ret : ReturnCode} (names : Names s vcpu callingAddr targetAddr)
      (told : IsCpuOn ((vcpu callingAddr).gprs 0) → recRet ≠ psciReturnSuccess) :
      PsciCompleted s vcpu callingAddr targetAddr
        (Function.update vcpu callingAddr (psciAnswer (vcpu callingAddr) recRet)) ret
  | granted (names : Names s vcpu callingAddr targetAddr)
      (request : IsCpuOn ((vcpu callingAddr).gprs 0))
      (unused : (s.granule targetAddr).refcount = 0)
      (off : (vcpu targetAddr).runnable = false) :
      PsciCompleted s vcpu callingAddr targetAddr
        (Function.update (Function.update vcpu callingAddr
          (psciAnswer (vcpu callingAddr) psciReturnSuccess)) targetAddr
          (turnedOn (vcpu callingAddr) (vcpu targetAddr))) rmiSuccess

/-- A request is granted only to a target that is off and unused. -/
theorem completePsciCpuOn_cases (count : ℕ) (calling target : Vcpu) (status : Word) :
    (∃ recRet, recRet ≠ psciReturnSuccess ∧ completePsciCpuOn count target (calling.gprs 2)
      (calling.gprs 3) calling.sctlrEl1 status = (target, recRet)) ∨
    (count = 0 ∧ target.runnable = false ∧ completePsciCpuOn count target (calling.gprs 2)
      (calling.gprs 3) calling.sctlrEl1 status = (turnedOn calling target, psciReturnSuccess)) := by
  unfold completePsciCpuOn
  split
  · exact .inl ⟨_, by decide, rfl⟩
  · next hused =>
    rw [not_or, not_ne_iff, Bool.not_eq_true] at hused
    split
    · exact .inl ⟨_, by decide, rfl⟩
    · exact .inr ⟨hused.1, hused.2, rfl⟩

theorem smcPsciComplete_sat (plat : Platform) (s : State) (vcpu : Word → Vcpu)
    (callingAddr targetAddr status : Word) :
    Sat (smcPsciComplete plat s vcpu callingAddr targetAddr status)
      (fun r => PsciCompleted s vcpu callingAddr targetAddr r.1 r.2) fun _ => True := by
  unfold smcPsciComplete
  refine Sat.ite (fun _ => Sat.pure .refused) fun hlock => ?_
  refine Sat.ite (fun _ => Sat.pure .refused) fun hidle => ?_
  rw [not_ne_iff] at hidle
  simp only [findLockTwoGranules, Bool.not_eq_true', Bool.and_eq_false_iff, bne_eq_false_iff_eq,
    beq_eq_false_iff_ne, not_or, ne_eq, not_not, Bool.not_eq_false] at hlock
  obtain ⟨⟨⟨⟨hne, -⟩, hcalling⟩, -⟩, htarget⟩ := hlock
  have same : ∀ v : Vcpu, Function.update (Function.update vcpu callingAddr v) targetAddr
      (vcpu targetAddr) = Function.update vcpu callingAddr v := by
    intro v
    rw [Function.update_eq_self_iff, Function.update_of_ne (Ne.symm hne)]
  -- what the handler does with the registers and the status that a request leaves
  have refused : ∀ {k : Vcpu × Vcpu × ReturnCode → Rmm ((Word → Vcpu) × ReturnCode)},
      (∀ calling target ret, k (calling, target, ret) =
        pure (Function.update (Function.update vcpu callingAddr calling) targetAddr
          target, ret)) →
      Sat (pure (vcpu callingAddr, vcpu targetAddr, rmiErrorInput) >>= k)
        (fun r => PsciCompleted s vcpu callingAddr targetAddr r.1 r.2) fun _ => True := by
    intro k hk
    refine Sat.ok_bind ?_
    rw [hk, same, Function.update_eq_self]
    exact Sat.pure .refused
  unfold psciCompleteRequest
  by_cases hpending : (vcpu callingAddr).pending = true
  swap
  · rw [if_pos (by simpa using hpending)]
    exact refused fun _ _ _ => rfl
  by_cases hrealm : (s.recs callingAddr).gRd = (s.recs targetAddr).gRd
  swap
  · rw [if_neg (by simpa using hpending), if_pos hrealm]
    exact refused fun _ _ _ => rfl
  by_cases hnamed : mpidrToRecIdx ((vcpu callingAddr).gprs 1) = (s.recs targetAddr).recIdx
  swap
  · rw [if_neg (by simpa using hpending), if_neg (not_not.mpr hrealm), if_pos hnamed]
    exact refused fun _ _ _ => rfl
  have names : Names s vcpu callingAddr targetAddr :=
    ⟨hne, hcalling, htarget, hidle, hpending, hrealm, hnamed⟩
  rw [if_neg (by simpa using hpending), if_neg (not_not.mpr hrealm), if_neg (not_not.mpr hnamed)]
  by_cases hon : (vcpu callingAddr).gprs 0 = smc32PsciCpuOn ∨
      (vcpu callingAddr).gprs 0 = smc64PsciCpuOn
  · rw [if_pos hon]
    split
    · exact refused fun _ _ _ => rfl
    · obtain ⟨recRet, hret, heq⟩ | ⟨hcount, hoff, heq⟩ := completePsciCpuOn_cases
        (s.granule targetAddr).refcount (vcpu callingAddr) (vcpu targetAddr) status
      · rw [heq]
        refine Sat.ok_bind (Sat.pure ?_)
        dsimp only
        rw [same]
        exact .answered names fun _ => hret
      · rw [heq]
        refine Sat.ok_bind (Sat.pure ?_)
        have hret : ¬ (status = psciReturnDenied ∧ psciReturnSuccess = psciReturnAlreadyOn) :=
          fun hc => absurd hc.2 (by decide)
        dsimp only
        rw [if_neg hret]
        exact .granted names hon hcount hoff
  · rw [if_neg hon]
    split
    · split
      · exact refused fun _ _ _ => rfl
      · refine Sat.ok_bind (Sat.pure ?_)
        rw [same]
        exact .answered names fun hc => absurd hc hon
    · exact Sat.error_bind trivial

/-- An entry reaches the realm only if the REC is on and waits for nothing. -/
theorem recEnterBody_spec (s : State) (recAddr : Word) (v : Vcpu) (entry : RecEntry)
    (reject : Bool) :
    Sat (recEnterBody s recAddr (recEnterEntry v entry) reject)
      (fun res => res.1.granule = s.granule ∧ ∀ r, res.2.1 = .running r →
        r = recAddr ∧ v.runnable = true ∧ v.pending = false) fun _ => True := by
  have done : ∀ {job' : Job} {s' : State} {reply : Option Reply}, s'.granule = s.granule →
      (∀ r, job' ≠ .running r) →
      Sat (pure (s', job', reply) : Sec) (fun res => res.1.granule = s.granule ∧ ∀ r,
        res.2.1 = .running r → r = recAddr ∧ v.runnable = true ∧ v.pending = false)
        fun _ => True :=
    fun hs hne => Sat.pure ⟨hs, fun r hr => absurd hr (hne r)⟩
  unfold recEnterBody
  refine Sat.ite (fun _ => done rfl nofun) fun _ => ?_
  dsimp only
  cases (s.rd (s.recs recAddr).gRd).state with
  | NEW | SYSTEM_OFF => exact done rfl nofun
  | ACTIVE =>
    cases hentry : recEnterEntry v entry with
    | unreadable | refused | aborted => exact done rfl nofun
    | run =>
      refine Sat.pure ⟨rfl, fun r hr => ⟨(Job.running.inj hr).symm, ?_⟩⟩
      unfold recEnterEntry at hentry
      split at hentry
      · cases hentry
      · next hoff =>
        subst hentry
        simpa using hoff

section
variable {ι : Type} [DecidableEq ι] {plat : Platform} {m m' : PsciSmp ι} {a : PsciAct ι}

/-- What a step does to one REC. -/
inductive VcpuMove (m : PsciSmp ι) (m' : PsciSmp ι) (g : Word) : PsciAct ι → Prop
  | same {a : PsciAct ι}
      (stays : (m.smp.mem.granule g).state = .REC → (m'.smp.mem.granule g).state = .REC)
      (eq : m'.vcpu g = m.vcpu g) : VcpuMove m m' g a
  | made {a : PsciAct ι} {p : VcpuParams} (was : (m.smp.mem.granule g).state ≠ .REC)
      (is : (m'.smp.mem.granule g).state = .REC) (eq : m'.vcpu g = initVcpu p) : VcpuMove m m' g a
  | freed {a : PsciAct ι} (gone : (m'.smp.mem.granule g).state ≠ .REC)
      (eq : m'.vcpu g = default) : VcpuMove m m' g a
  | regs {a : PsciAct ι} {regs : Regs} (is : (m'.smp.mem.granule g).state = .REC)
      (on : (m.vcpu g).runnable = true)
      (ready : (m.vcpu g).pending = false)
      (eq : m'.vcpu g = { m.vcpu g with toRegs := regs }) : VcpuMove m m' g a
  | called {c : ι} {goesOn : Bool} (runs : m.smp.cpu c = .running g)
      (call : PsciCalled m.smp.mem g (m.vcpu g) m'.smp.mem (m'.vcpu g) goesOn)
      (next : m'.smp.cpu c = if goesOn then .running g else .leaving g rmiSuccess) :
      VcpuMove m m' g (.psci c)
  | answered {c : ι} {targetAddr status recRet : Word}
      (names : Names m.smp.mem m.vcpu g targetAddr) (mem : m'.smp = m.smp)
      (told : IsCpuOn ((m.vcpu g).gprs 0) → recRet = psciReturnSuccess →
        (m.vcpu targetAddr).runnable = false ∧ (m'.vcpu targetAddr).runnable = true)
      (eq : m'.vcpu g = psciAnswer (m.vcpu g) recRet) :
      VcpuMove m m' g (.complete c g targetAddr status)
  | granted {c : ι} {callingAddr status : Word} (names : Names m.smp.mem m.vcpu callingAddr g)
      (mem : m'.smp = m.smp) (request : IsCpuOn ((m.vcpu callingAddr).gprs 0))
      (unused : (m.smp.mem.granule g).refcount = 0) (off : (m.vcpu g).runnable = false)
      (eq : m'.vcpu g = turnedOn (m.vcpu callingAddr) (m.vcpu g)) :
      VcpuMove m m' g (.complete c callingAddr g status)

/-- What holds between any two steps. -/
structure PsciInv (m : PsciSmp ι) : Prop where
  smp : SmpInv m.smp
  ctx : m.smp.mem.CtxAgree
  blank : ∀ g, (m.smp.mem.granule g).state ≠ .REC → m.vcpu g = default
  running : ∀ c r, m.smp.cpu c = .running r →
    (m.vcpu r).runnable = true ∧ (m.vcpu r).pending = false
  waits : ∀ r, (m.vcpu r).pending = true → (m.vcpu r).runnable = true
  entry : ∀ r, (m.vcpu r).pending = true → IsCpuOn ((m.vcpu r).gprs 0) →
    addrInRecPar (m.smp.mem.recs r) ((m.vcpu r).gprs 2) = true

omit [DecidableEq ι] in
theorem PsciInv.of_running (h : PsciInv m) {c : ι} {r : Word} (hr : m.smp.cpu c = .running r) :
    m.smp.mem.granule r = ⟨.REC, 1⟩ :=
  h.smp.refs.entered c r (by rw [hr]; rfl)

omit [DecidableEq ι] in
/-- Only a REC waits. -/
theorem PsciInv.isRec_of_pending (h : PsciInv m) {r : Word} (hr : (m.vcpu r).pending = true) :
    (m.smp.mem.granule r).state = .REC := by
  by_contra hne
  rw [h.blank r hne] at hr
  cases hr

theorem PsciNext.vcpuMove (h : PsciInv m) (hn : PsciNext plat m a m') (g : Word) :
    VcpuMove m m' g a := by
  cases a with
  | plain a p =>
    obtain ⟨-, n, -, rfl⟩ := hn
    by_cases h1 : (n.mem.granule g).state = .REC
    · by_cases h2 : (m.smp.mem.granule g).state = .REC
      · exact .same (fun _ => h1) (by simp [vcpusAfter, h1, h2])
      · exact .made (p := p) h2 h1 (by simp [vcpusAfter, h1, h2])
    · exact .freed h1 (by simp [vcpusAfter, h1])
  | enter c regs =>
    obtain ⟨recAddr, entry, reject, hent, s, job, reply, hbody, rfl⟩ := hn
    have hrec := h.smp.refs.entered c recAddr (by rw [hent]; rfl)
    have hgran : s.granule = m.smp.mem.granule :=
      ((recEnterBody_spec m.smp.mem recAddr _ entry reject).of_ok hbody).1
    have stays : (m.smp.mem.granule g).state = .REC → (s.granule g).state = .REC := by
      rw [hgran]
      exact id
    by_cases hg : g = recAddr
    · subst hg
      by_cases hon : entry ≠ .unreadable ∧
          (m.smp.mem.rd (m.smp.mem.recs g).gRd).state = .ACTIVE ∧
          (m.vcpu g).runnable = true ∧ (m.vcpu g).pending = false
      · have hregs : Function.update m.vcpu g (recEnterRegs m.smp.mem g (m.vcpu g) entry regs) g =
            { m.vcpu g with toRegs := regs } := by
          simp [recEnterRegs, if_pos hon]
        exact .regs (stays (by rw [hrec])) hon.2.2.1 hon.2.2.2 hregs
      · exact .same stays (by simp [recEnterRegs, if_neg hon])
    · exact .same stays (Function.update_of_ne hg _ _)
  | guest c regs =>
    obtain ⟨recAddr, hrun, rfl⟩ := hn
    by_cases hg : g = recAddr
    · subst hg
      obtain ⟨h1, h2⟩ := h.running c g hrun
      have hregs : Function.update m.vcpu g { m.vcpu g with toRegs := regs } g =
          { m.vcpu g with toRegs := regs } := Function.update_self _ _ _
      exact .regs (by rw [h.of_running hrun]) h1 h2 hregs
    · exact .same id (Function.update_of_ne hg _ _)
  | psci c =>
    obtain ⟨recAddr, hrun, -, s, v, goesOn, hcall, rfl⟩ := hn
    have hc := (psciCall_sat m.smp.mem recAddr (m.vcpu recAddr)).of_ok hcall
    by_cases hg : g = recAddr
    · subst hg
      have hcalled : PsciCalled m.smp.mem g (m.vcpu g) s (Function.update m.vcpu g v g) goesOn := by
        rw [Function.update_self]
        exact hc
      exact .called hrun hcalled (Function.update_self _ _ _)
    · exact .same hc.stays (Function.update_of_ne hg _ _)
  | complete c callingAddr targetAddr status =>
    obtain ⟨-, vcpu, ret, hs, rfl⟩ := hn
    have hd := (smcPsciComplete_sat plat m.smp.mem m.vcpu callingAddr targetAddr status).of_ok hs
    cases hd with
    | refused => exact .same id rfl
    | @answered recRet ret names told =>
      by_cases hg : g = callingAddr
      · subst hg
        exact .answered names rfl (fun hon hret => absurd hret (told hon))
          (Function.update_self _ _ _)
      · exact .same id (Function.update_of_ne hg _ _)
    | granted names request unused off =>
      by_cases ht : g = targetAddr
      · subst ht
        exact .granted names rfl request unused off (Function.update_self _ _ _)
      · by_cases hg : g = callingAddr
        · subst hg
          have hanswer : Function.update (Function.update m.vcpu g
              (psciAnswer (m.vcpu g) psciReturnSuccess)) targetAddr
              (turnedOn (m.vcpu g) (m.vcpu targetAddr)) g =
                psciAnswer (m.vcpu g) psciReturnSuccess := by
            simp [ht]
          refine .answered names rfl (fun _ _ => ⟨off, ?_⟩) hanswer
          simp [turnedOn]
        · exact .same id (by simp [ht, hg])

/-- The machine below takes a step of its own or none. -/
theorem PsciNext.smpMove (h : PsciInv m) (hn : PsciNext plat m a m') :
    (∃ c s job, Move m.smp.mem (m.smp.cpu c).holds s job.holds ∧ m'.smp = m.smp.put c s job) ∨
      ∃ g words, m.smp.Writable g ∧ m'.smp = ⟨m.smp.mem.setTable g words, m.smp.cpu⟩ := by
  obtain ⟨F, hw⟩ := h.smp.wf
  have stay : ∀ c, ∃ c s job, Move m.smp.mem (m.smp.cpu c).holds s job.holds ∧
      m.smp = m.smp.put c s job :=
    fun c => ⟨c, m.smp.mem, m.smp.cpu c, .steady hw (.refl _) (.refl _), by simp [Smp.put]⟩
  cases a with
  | plain a p =>
    obtain ⟨-, n, hnext, rfl⟩ := hn
    exact SmpNext.move h.smp hnext
  | enter c regs =>
    obtain ⟨recAddr, entry, reject, hjob, s, job, reply, hbody, rfl⟩ := hn
    have hrec := h.smp.refs.entered c recAddr (by rw [hjob]; rfl)
    have hmove := (recEnterBody_moves hw (by rw [hrec]) _ reject).of_ok hbody
    refine .inl ⟨c, s, job, ?_, rfl⟩
    rw [hjob]
    exact hmove
  | guest c regs =>
    obtain ⟨recAddr, hrun, rfl⟩ := hn
    exact .inl (stay c)
  | psci c =>
    obtain ⟨recAddr, hrun, -, s, v, goesOn, hcall, rfl⟩ := hn
    have hrec := h.smp.refs.entered c recAddr (by rw [hrun]; rfl)
    have hd := (psciCall_sat m.smp.mem recAddr (m.vcpu recAddr)).of_ok hcall
    have hjob : (if goesOn then Job.running recAddr else Job.leaving recAddr rmiSuccess).holds =
        (m.smp.cpu c).holds := by
      rw [hrun]
      split <;> rfl
    refine .inl ⟨c, s, _, ?_, rfl⟩
    rw [hjob]
    cases hd with
    | answered | turnedOff | waits => exact .steady hw (.refl _) (.refl _)
    | systemOff =>
      have hoff : RsiDone plat m.smp.mem F recAddr _ ⟨.SUCCESS, 0#64, 0#64, true⟩
          .systemOff := rfl
      obtain ⟨F', hwf, -⟩ := RsiDone.effects hw (by simp [recRunning, hrec]) hoff
      exact .steady hwf hoff.steady hoff.onward
  | complete c callingAddr targetAddr status =>
    obtain ⟨-, vcpu, ret, -, rfl⟩ := hn
    exact .inl (stay c)

/-- RECs that stay keep their realm, index and context. -/
theorem PsciNext.recs_eq (h : PsciInv m) (hn : PsciNext plat m a m') {g : Word}
    (hg : (m.smp.mem.granule g).state = .REC) (hg' : (m'.smp.mem.granule g).state = .REC) :
    m'.smp.mem.recs g =
      { m.smp.mem.recs g with setRipas := (m'.smp.mem.recs g).setRipas } := by
  obtain ⟨c, s, job, hmove, heq⟩ | ⟨k, words, -, heq⟩ := hn.smpMove h
  · rw [heq] at hg' ⊢
    exact hmove.recs_eq hg hg'
  · rw [heq]
    rfl

/-- A REC runs on if it ran, and starts to run if it is on and waits for nothing. -/
theorem PsciNext.running_cases (hn : PsciNext plat m a m') {c : ι} {r : Word}
    (hr : m'.smp.cpu c = .running r) :
    m.smp.cpu c = .running r ∨
      ((m.smp.cpu c).inside = some r ∧ (m.vcpu r).runnable = true ∧
      (m.vcpu r).pending = false) := by
  -- a CPU that does not move keeps its job
  have other : ∀ {c' : ι} {s : State} {job : Job}, (m.smp.put c' s job).cpu c = .running r →
      (c = c' → job = .running r → m.smp.cpu c = .running r ∨
        ((m.smp.cpu c).inside = some r ∧ (m.vcpu r).runnable = true ∧
          (m.vcpu r).pending = false)) →
      m.smp.cpu c = .running r ∨
        ((m.smp.cpu c).inside = some r ∧ (m.vcpu r).runnable = true ∧
          (m.vcpu r).pending = false) := by
    intro c' s job hput hself
    by_cases hc : c = c'
    · refine hself hc ?_
      rw [hc] at hput
      simpa [Smp.put] using hput
    · exact .inl (by simpa [Smp.put, hc] using hput)
  cases a with
  | plain a p =>
    obtain ⟨henters, n, hnext, rfl⟩ := hn
    cases a with
    | start c' act =>
      obtain ⟨-, s, job, reply, hs, rfl⟩ := hnext
      exact other hr fun _ hjob => absurd hjob ((handlerStart_job plat m.smp.mem act).of_ok hs r)
    | resume c' =>
      obtain ⟨s, job, reply, hs, rfl⟩ := hnext
      refine other hr fun hc hjob => .inl ?_
      rw [hc]
      refine (handlerResume_job plat m.smp.mem (m.smp.cpu c') ?_).of_ok hs r hjob
      intro recAddr entry reject he
      simp [SmpAct.enters, he] at henters
    | rsi c' call =>
      obtain ⟨recAddr, hrun, s, res, -, rfl⟩ := hnext
      refine other hr fun hc hjob => .inl ?_
      rw [hc, hrun]
      split at hjob
      · cases hjob
      · exact hjob
    | exit c' =>
      obtain ⟨recAddr, -, rfl⟩ := hnext
      exact other hr fun _ hjob => by cases hjob
    | write g words =>
      obtain ⟨-, rfl⟩ := hnext
      exact .inl hr
  | enter c' regs =>
    obtain ⟨recAddr, entry, reject, hent, s, job, reply, hbody, rfl⟩ := hn
    refine other hr fun hc hjob => .inr ?_
    obtain ⟨rfl, hon⟩ :=
      ((recEnterBody_spec m.smp.mem recAddr _ entry reject).of_ok hbody).2 r hjob
    rw [hc, hent]
    exact ⟨rfl, hon⟩
  | guest c' regs =>
    obtain ⟨recAddr, -, rfl⟩ := hn
    exact .inl hr
  | psci c' =>
    obtain ⟨recAddr, hrun, -, s, v, goesOn, -, rfl⟩ := hn
    refine other hr fun hc hjob => .inl ?_
    rw [hc, hrun]
    split at hjob
    · exact hjob
    · cases hjob
  | complete c' callingAddr targetAddr status =>
    obtain ⟨-, vcpu, ret, -, rfl⟩ := hn
    exact .inl hr

theorem PsciNext.smpInv (h : PsciInv m) (hn : PsciNext plat m a m') : SmpInv m'.smp := by
  obtain ⟨c, s, job, hmove, heq⟩ | ⟨g, words, hwr, heq⟩ := hn.smpMove h
  · rw [heq]
    exact h.smp.put hmove
  · rw [heq]
    have hwrite : SmpNext plat m.smp (.write g words) ⟨m.smp.mem.setTable g words, m.smp.cpu⟩ :=
      ⟨hwr, rfl⟩
    exact h.smp.step hwrite

theorem PsciNext.ctxAgree (h : PsciInv m) (hn : PsciNext plat m a m') :
    m'.smp.mem.CtxAgree := by
  obtain ⟨F, hw⟩ := h.smp.wf
  obtain ⟨c, s, job, hmove, heq⟩ | ⟨g, words, hwr, heq⟩ := hn.smpMove h
  · rw [heq]
    exact hmove.ctxAgree hw h.ctx
  · rw [heq]
    exact h.ctx

theorem PsciNext.blank (h : PsciInv m) (hn : PsciNext plat m a m') {g : Word}
    (hg : (m'.smp.mem.granule g).state ≠ .REC) : m'.vcpu g = default := by
  -- a REC that changes its registers stays a REC
  cases hn.vcpuMove h g with
  | same stays eq => rw [eq, h.blank g (mt stays hg)]
  | made was is eq => exact absurd is hg
  | freed gone eq => exact eq
  | regs is on ready eq => exact absurd is hg
  | called runs call next =>
    exact absurd (call.stays (by rw [h.of_running runs])) hg
  | answered names mem told eq =>
    rw [mem] at hg
    exact absurd names.calling hg
  | granted names mem request unused off eq =>
    rw [mem] at hg
    exact absurd names.target hg

theorem PsciNext.running (h : PsciInv m) (hn : PsciNext plat m a m') {c : ι} {r : Word}
    (hr : m'.smp.cpu c = .running r) :
    (m'.vcpu r).runnable = true ∧ (m'.vcpu r).pending = false := by
  have hrec' := (hn.smpInv h).refs.entered c r (by rw [hr]; rfl)
  obtain ⟨hin, hon, hready⟩ : (m.smp.cpu c).inside = some r ∧ (m.vcpu r).runnable = true ∧
      (m.vcpu r).pending = false := by
    obtain hrun | hent := hn.running_cases hr
    · exact ⟨by rw [hrun]; rfl, h.running c r hrun⟩
    · exact hent
  have hgran := h.smp.refs.entered c r hin
  cases hn.vcpuMove h r with
  | same stays eq =>
    rw [eq]
    exact ⟨hon, hready⟩
  | made was is eq => exact absurd (by rw [hgran]) was
  | freed gone eq => exact absurd (by rw [hrec']) gone
  | regs is on ready eq =>
    rw [eq]
    exact ⟨hon, hready⟩
  | @called c' goesOn runs call next =>
    -- only one CPU is in the REC, and it goes on
    obtain rfl := h.smp.refs.alone c c' r hin (by rw [runs]; rfl)
    rw [hr] at next
    cases goesOn with
    | false => cases next
    | true =>
      rw [call.flags_of_goesOn.1, call.flags_of_goesOn.2]
      exact ⟨hon, hready⟩
  | answered names mem told eq => exact absurd names.pending (by simp [hready])
  | granted names mem request unused off eq => exact absurd unused (by simp [hgran])

/-- A REC that waits was running when it asked, and nothing else turns it off. -/
theorem PsciNext.waits (h : PsciInv m) (hn : PsciNext plat m a m') {r : Word}
    (hr : (m'.vcpu r).pending = true) : (m'.vcpu r).runnable = true := by
  cases hn.vcpuMove h r with
  | same stays eq =>
    rw [eq] at hr ⊢
    exact h.waits r hr
  | made was is eq =>
    rw [eq] at hr
    cases hr
  | freed gone eq =>
    rw [eq] at hr
    cases hr
  | regs is on ready eq =>
    rw [eq]
    exact on
  | called runs call next =>
    obtain ⟨hon, hready⟩ := h.running _ r runs
    rw [(call.of_pending hready hr).2.1]
    exact hon
  | answered names mem told eq =>
    rw [eq] at hr
    cases hr
  | granted names mem request unused off eq =>
    rw [eq]
    rfl

theorem PsciNext.entry (h : PsciInv m) (hn : PsciNext plat m a m') {r : Word}
    (hr : (m'.vcpu r).pending = true) (hon : IsCpuOn ((m'.vcpu r).gprs 0)) :
    addrInRecPar (m'.smp.mem.recs r) ((m'.vcpu r).gprs 2) = true := by
  cases hn.vcpuMove h r with
  | same stays eq =>
    rw [eq] at hr hon ⊢
    have hrecr := h.isRec_of_pending hr
    have hpar := h.entry r hr hon
    unfold addrInRecPar recParSize at hpar ⊢
    rwa [hn.recs_eq h hrecr (stays hrecr)]
  | made was is eq =>
    rw [eq] at hr
    cases hr
  | freed gone eq =>
    rw [eq] at hr
    cases hr
  | regs is on ready eq =>
    rw [eq] at hr
    simp [ready] at hr
  | called runs call next =>
    obtain ⟨-, hready⟩ := h.running _ r runs
    obtain ⟨hs, hv, hentry⟩ := call.of_pending hready hr
    rw [hv] at hon ⊢
    rw [hs]
    exact hentry hon
  | answered names mem told eq =>
    rw [eq] at hr
    cases hr
  | granted names mem request unused off eq =>
    rw [eq] at hr
    have := h.waits r hr
    simp [off] at this

theorem PsciInv.step (h : PsciInv m) (hn : PsciNext plat m a m') : PsciInv m' where
  smp := hn.smpInv h
  ctx := hn.ctxAgree h
  blank _ := hn.blank h
  running _ _ := hn.running h
  waits _ := hn.waits h
  entry _ := hn.entry h

omit [DecidableEq ι] in
theorem PsciInv.init : PsciInv (initPsci : PsciSmp ι) where
  smp := .init
  ctx _ hr := nomatch hr
  blank _ _ := rfl
  running _ _ hr := nomatch hr
  waits _ hr := nomatch hr
  entry _ hr := nomatch hr

theorem PsciInv.reach (hm : PsciReachable plat m) : PsciInv m :=
  hm.invariant .init fun _ _ _ _ h _ hn => h.step hn

/-- A completion tells the caller that its CPU_ON has succeeded. -/
def Granted (m : PsciSmp ι) (a : PsciAct ι) (m' : PsciSmp ι) (callingAddr targetAddr : Word) :
    Prop :=
  (∃ c status, a = .complete c callingAddr targetAddr status) ∧
    (m.vcpu callingAddr).pending = true ∧ IsCpuOn ((m.vcpu callingAddr).gprs 0) ∧
    (m'.vcpu callingAddr).pending = false ∧ (m'.vcpu callingAddr).gprs 0 = psciReturnSuccess

/-- The step is no CPU_OFF by the REC, and the REC is still there afterwards. -/
def KeepsOn (plat : Platform) (r : Word) (m : PsciSmp ι) (a : PsciAct ι) : Prop :=
  (∀ c, a = .psci c → m.smp.cpu c = .running r →
    lowWord ((m.vcpu r).gprs 0) ≠ smc32PsciCpuOff) ∧
    ∀ m', PsciNext plat m a m' → (m'.smp.mem.granule r).state = .REC

/-- The REC is on. -/
def PsciSmp.IsOn (m : PsciSmp ι) (r : Word) : Prop :=
  (m.smp.mem.granule r).state = .REC ∧ (m.vcpu r).runnable = true

theorem Granted.turnsOn {callingAddr targetAddr : Word} (hn : PsciNext plat m a m')
    (hg : Granted m a m' callingAddr targetAddr) : ¬ m.IsOn targetAddr ∧ m'.IsOn targetAddr := by
  obtain ⟨⟨c, status, rfl⟩, hpending, hon, hdone, hret⟩ := hg
  obtain ⟨-, vcpu, ret, hs, rfl⟩ := hn
  have hd := (smcPsciComplete_sat plat m.smp.mem m.vcpu callingAddr targetAddr status).of_ok hs
  cases hd with
  | refused => simp [hpending] at hdone
  | @answered recRet ret names told =>
    have : recRet = psciReturnSuccess := by simpa [psciAnswer, resultGprs] using hret
    exact absurd this (told hon)
  | granted names request unused off =>
    refine ⟨fun hc => ?_, names.target, ?_⟩
    · rw [hc.2] at off
      cases off
    · simp [turnedOn]

theorem PsciNext.isOn (h : PsciInv m) (hn : PsciNext plat m a m') {r : Word} (hr : m.IsOn r)
    (hk : KeepsOn plat r m a) : m'.IsOn r := by
  have hrec := hk.2 m' hn
  refine ⟨hrec, ?_⟩
  cases hn.vcpuMove h r with
  | same stays eq => exact (congrArg Vcpu.runnable eq).trans hr.2
  | made was is eq => exact absurd hr.1 was
  | freed gone eq => exact absurd hrec gone
  | regs is on ready eq => exact (congrArg Vcpu.runnable eq).trans on
  | called runs call next => exact (call.runnable_eq (hk.1 _ rfl runs)).trans hr.2
  | answered names mem told eq => exact (congrArg Vcpu.runnable eq).trans hr.2
  | granted names mem request unused off eq => exact congrArg Vcpu.runnable eq

/-- A REC that is on stays on until it turns itself off or is destroyed. -/
theorem PsciInv.reach_isOn (h : PsciInv m) {r : Word} (hr : m.IsOn r)
    (hm : Reach m (PsciNext plat) (KeepsOn plat r) m') : PsciInv m' ∧ m'.IsOn r := by
  refine hm.invariant (I := fun n => PsciInv n ∧ n.IsOn r) ⟨h, hr⟩ ?_
  intro n a n' _ hi hk hn
  exact ⟨hi.1.step hn, hn.isOn hi.1 hi.2 hk⟩

/-- A REC that waits keeps its registers until it is answered or destroyed. -/
theorem PsciNext.pending_cases (h : PsciInv m) (hn : PsciNext plat m a m') {r : Word}
    (hr : (m.vcpu r).pending = true) (hrec : (m'.smp.mem.granule r).state = .REC) :
    m'.vcpu r = m.vcpu r ∨ ∃ c targetAddr status recRet, a = .complete c r targetAddr status ∧
      m'.vcpu r = psciAnswer (m.vcpu r) recRet := by
  cases hn.vcpuMove h r with
  | same stays eq => exact .inl eq
  | made was is eq => exact absurd (h.isRec_of_pending hr) was
  | freed gone eq => exact absurd hrec gone
  | regs is on ready eq => simp [hr] at ready
  | called runs call next => simp [h.running _ r runs] at hr
  | answered names mem told eq => exact .inr ⟨_, _, _, _, rfl, eq⟩
  | granted names mem request unused off eq => simp [h.waits r hr] at off

/-- A REC that is off is turned on only by the completion of a request that names it. -/
theorem PsciNext.turnsOn_cases (h : PsciInv m) (hn : PsciNext plat m a m') {r : Word}
    (hrec : (m.smp.mem.granule r).state = .REC) (hoff : (m.vcpu r).runnable = false)
    (hon : (m'.vcpu r).runnable = true) :
    ∃ c callingAddr status, a = .complete c callingAddr r status ∧
      Names m.smp.mem m.vcpu callingAddr r ∧ IsCpuOn ((m.vcpu callingAddr).gprs 0) ∧
      addrInPar (m.smp.mem.rd (m.smp.mem.recs r).gRd) ((m.vcpu callingAddr).gprs 2) = true ∧
      m'.vcpu r = turnedOn (m.vcpu callingAddr) (m.vcpu r) := by
  cases hn.vcpuMove h r with
  | same stays eq => simp [eq, hoff] at hon
  | made was is eq => exact absurd hrec was
  | freed gone eq => simp [eq, default] at hon
  | regs is on ready eq => simp [hoff] at on
  | called runs call next => simp [h.running _ r runs] at hoff
  | answered names mem told eq => simp [eq, psciAnswer, hoff] at hon
  | granted names mem request unused off eq =>
    have hentry := h.entry _ names.pending request
    unfold addrInRecPar recParSize at hentry
    rw [h.ctx _ names.calling, names.realm] at hentry
    exact ⟨_, _, _, rfl, names, request, hentry, eq⟩

/-- Requests and completions in any order. The host's choices decide only when a request
is granted and to whom it is refused. -/
theorem psci_cpuOn_protocol (hm : PsciReachable plat m) :
    (∀ c r, m.smp.cpu c = .running r → (m.vcpu r).pending = false) ∧
    (∀ a m' r, PsciNext plat m a m' → (m.vcpu r).pending = true →
      (m'.smp.mem.granule r).state = .REC → m'.vcpu r = m.vcpu r ∨
        ∃ c targetAddr status recRet, a = .complete c r targetAddr status ∧
          m'.vcpu r = psciAnswer (m.vcpu r) recRet) ∧
    (∀ a m' r, PsciNext plat m a m' → (m.smp.mem.granule r).state = .REC →
      (m.vcpu r).runnable = false → (m'.vcpu r).runnable = true →
      ∃ c callingAddr status, a = .complete c callingAddr r status ∧
        Names m.smp.mem m.vcpu callingAddr r ∧ IsCpuOn ((m.vcpu callingAddr).gprs 0) ∧
        (m'.vcpu r).pc = (m.vcpu callingAddr).gprs 2 ∧
        addrInPar (m.smp.mem.rd (m.smp.mem.recs r).gRd) (m'.vcpu r).pc = true ∧
        (m'.vcpu r).gprs 0 = (m.vcpu callingAddr).gprs 3 ∧ (m'.vcpu r).pstate = pstateReset ∧
        (m'.vcpu r).sctlrEl1 = sctlrEl1Flags ||| ((m.vcpu callingAddr).sctlrEl1 &&& sctlrEeBit)) ∧
    (∀ a a' m1 m2 m3 callingAddr callingAddr' targetAddr,
      PsciNext plat m a m1 → Granted m a m1 callingAddr targetAddr →
      Reach m1 (PsciNext plat) (KeepsOn plat targetAddr) m2 →
      PsciNext plat m2 a' m3 → ¬ Granted m2 a' m3 callingAddr' targetAddr) ∧
    ∀ callingAddr targetAddr status vcpu ret,
      smcPsciComplete plat m.smp.mem m.vcpu callingAddr targetAddr status = .ok (vcpu, ret) →
      ¬ Names m.smp.mem m.vcpu callingAddr targetAddr → vcpu = m.vcpu ∧
        ret = rmiErrorInput := by
  have h := PsciInv.reach hm
  refine ⟨fun c r hr => (h.running c r hr).2, fun a m' r hn hr hrec => hn.pending_cases h hr hrec,
    fun a m' r hn hrec hoff hon => ?_, ?_, ?_⟩
  · obtain ⟨c, callingAddr, status, rfl, names, request, hentry, heq⟩ :=
      hn.turnsOn_cases h hrec hoff hon
    rw [heq]
    refine ⟨c, callingAddr, status, rfl, names, request, rfl, hentry, ?_, rfl, rfl⟩
    simp [turnedOn]
  · intro a a' m1 m2 m3 callingAddr callingAddr' targetAddr hn hg hreach hn' hg'
    obtain ⟨-, hon⟩ := (h.step hn).reach_isOn (hg.turnsOn hn).2 hreach
    exact (hg'.turnsOn hn').1 hon
  · intro callingAddr targetAddr status vcpu ret hs hnot
    have hd := (smcPsciComplete_sat plat m.smp.mem m.vcpu callingAddr targetAddr status).of_ok hs
    cases hd with
    | refused => exact ⟨rfl, rfl⟩
    | answered names told => exact absurd names hnot
    | granted names request unused off => exact absurd names hnot

end

/-- Registers for a call with up to three arguments. -/
def psciArgs (x0 x1 x2 x3 : Word) : Regs where
  gprs i := if i.val = 0 then x0 else if i.val = 1 then x1 else if i.val = 2 then x2
    else if i.val = 3 then x3 else 0#64
  pc := 0#64
  pstate := 0#64
  sctlrEl1 := 0#64

/-- CPU 0 makes a REC with sixteen auxiliary granules behind granule `aux`. -/
def psciRec (recGr aux idx : ℕ) (runnable : Bool) : List (PsciAct ℕ) :=
  let p : VcpuParams := ⟨fun _ => 0#64, 0#64, runnable⟩
  .plain (.start 0 (.recCreate (gr 16) (gr recGr) (gr 0)
    (some ⟨(List.range 16).map fun k => gr (aux + k), some idx⟩))) p ::
  List.replicate 17 (.plain (.resume 0) p)

/-- CPU `c` enters a REC, which makes one PSCI call and leaves. -/
def psciVisit (c recGr : ℕ) (args : Regs) : List (PsciAct ℕ) :=
  let p : VcpuParams := ⟨fun _ => 0#64, 0#64, false⟩
  [.plain (.start c (.recEnter (gr recGr) (gr 0) .run false)) p, .enter c args, .psci c,
    .plain (.resume c) p]

/-- A realm with three RECs, the last of which is off. -/
def psciThreeRecs : List (PsciAct ℕ) :=
  let p : VcpuParams := ⟨fun _ => 0#64, 0#64, false⟩
  (List.range 58).map (fun k => .plain (.start 0 (.granuleDelegate (gr (16 + k)) true)) p) ++
  [.plain (.start 0 (.realmCreate (gr 16) (gr 0) (some (demoParams 17 1)))) p] ++
  psciRec 22 24 0 true ++ psciRec 56 40 1 true ++ psciRec 57 58 2 false ++
  [.plain (.start 0 (.realmActivate (gr 16))) p]

/-- The first two RECs ask for the third one. -/
def psciTwoRequests : List (PsciAct ℕ) :=
  psciVisit 1 22 (psciArgs smc64PsciCpuOn 2#64 0x1000#64 7#64) ++
  psciVisit 1 56 (psciArgs smc64PsciCpuOn 2#64 0x2000#64 8#64)

def psciKeys : Keys where
  granules := [gr 0, gr 16, gr 22, gr 56, gr 57]
  rds := [gr 16]
  recs := [gr 22, gr 56, gr 57]
  tables := []
  slots := []

section
variable {ι : Type} [DecidableEq ι]

/-- A REC has asked for another one. -/
def Asks (m : PsciSmp ι) (callingAddr targetAddr : Word) : Prop :=
  (m.vcpu callingAddr).pending = true ∧ IsCpuOn ((m.vcpu callingAddr).gprs 0) ∧
    (m.smp.mem.recs callingAddr).gRd = (m.smp.mem.recs targetAddr).gRd ∧
    mpidrToRecIdx ((m.vcpu callingAddr).gprs 1) = (m.smp.mem.recs targetAddr).recIdx

instance (m : PsciSmp ι) (callingAddr targetAddr : Word) :
    Decidable (Asks m callingAddr targetAddr) :=
  inferInstanceAs (Decidable (_ ∧ _))

/-- A REC is off. -/
def PsciSmp.isOff (m : PsciSmp ι) (r : Word) : Bool :=
  decide ((m.smp.mem.granule r).state = .REC) && !(m.vcpu r).runnable

/-- The host completes the request of a REC, and what follows passes a test. -/
def grants (plat : Platform) (m : PsciSmp ℕ) (callingAddr targetAddr : Word)
    (test : PsciSmp ℕ → Bool) : Bool :=
  (m.vcpu callingAddr).pending && decide (IsCpuOn ((m.vcpu callingAddr).gprs 0)) &&
  (psciStep plat m (.complete 0 callingAddr targetAddr psciReturnSuccess)).any fun m' =>
    !(m'.vcpu callingAddr).pending &&
      decide ((m'.vcpu callingAddr).gprs 0 = psciReturnSuccess) && test m'

theorem grants_granted {plat : Platform} {m : PsciSmp ℕ} {callingAddr targetAddr : Word}
    {test : PsciSmp ℕ → Bool} (h : grants plat m callingAddr targetAddr test = true) :
    ∃ a m', PsciNext plat m a m' ∧ Granted m a m' callingAddr targetAddr ∧
      test m' = true := by
  simp only [grants, Bool.and_eq_true, decide_eq_true_eq, Bool.not_eq_true',
    Option.any_eq_true] at h
  obtain ⟨⟨hpending, hon⟩, m', hstep, ⟨hdone, hret⟩, htest⟩ := h
  exact ⟨_, m', psciStep_next hstep, ⟨⟨0, _, rfl⟩, hpending, hon, hdone, hret⟩, htest⟩

end

/-- Both requests are made while the third REC is off. The first is granted; the third
REC runs and turns itself off; then the second is granted. -/
theorem psciTwoRequests_granted : ∃ m0 m m1 m2 m3 : PsciSmp ℕ, ∃ a a' : PsciAct ℕ,
    PsciReachable demoPlat m0 ∧ (m0.vcpu (gr 22)).pending = false ∧
    (m0.vcpu (gr 56)).pending = false ∧
    Reach m0 (PsciNext demoPlat) (fun n _ => n.isOff (gr 57) = true) m ∧
    m.isOff (gr 57) = true ∧ Asks m (gr 22) (gr 57) ∧ Asks m (gr 56) (gr 57) ∧
    PsciNext demoPlat m a m1 ∧ Granted m a m1 (gr 22) (gr 57) ∧
    Reach m1 (PsciNext demoPlat) (fun n _ => (n.vcpu (gr 56)).pending = true) m2 ∧
    PsciNext demoPlat m2 a' m3 ∧ Granted m2 a' m3 (gr 56) (gr 57) := by
  have hrun : (psciReplay psciKeys demoPlat (fun _ => true) initPsci psciThreeRecs).any (fun m0 =>
      !(m0.vcpu (gr 22)).pending && !(m0.vcpu (gr 56)).pending &&
      (psciReplay psciKeys demoPlat (fun n => n.isOff (gr 57)) m0 psciTwoRequests).any fun m =>
        m.isOff (gr 57) && decide (Asks m (gr 22) (gr 57)) && decide (Asks m (gr 56) (gr 57)) &&
        grants demoPlat m (gr 22) (gr 57) fun m1 =>
          (psciReplay psciKeys demoPlat (fun n => (n.vcpu (gr 56)).pending) m1
            (psciVisit 1 57 (psciArgs smc32PsciCpuOff 0#64 0#64 0#64))).any fun m2 =>
            grants demoPlat m2 (gr 56) (gr 57) fun _ => true) = true := by
    decide +kernel
  simp only [Option.any_eq_true, Bool.and_eq_true, Bool.not_eq_true', decide_eq_true_eq] at hrun
  obtain ⟨m0, h0, ⟨hA, hB⟩, m, hm, ⟨⟨hoff, h1⟩, h2⟩, hgrant⟩ := hrun
  obtain ⟨a, m1, hn, hg, htest⟩ := grants_granted hgrant
  obtain ⟨m2, hm2, hgrant2⟩ := (Option.any_eq_true _ _).mp htest
  obtain ⟨a', m3, hn', hg', -⟩ := grants_granted hgrant2
  exact ⟨m0, m, m1, m2, m3, a, a', (psciReplay_reach _ .init h0).mono fun _ _ _ =>
    trivial, hA, hB,
    psciReplay_reach _ .init hm, hoff, h1, h2, hn, hg, psciReplay_reach _ .init hm2, hn', hg'⟩

theorem psci_cpuOn_protocol_two : ∃ m : PsciSmp ℕ, PsciReachable demoPlat m ∧
    Asks m (gr 22) (gr 57) ∧ Asks m (gr 56) (gr 57) ∧
    (∀ c, m.smp.cpu c ≠ .running (gr 22) ∧ m.smp.cpu c ≠ .running (gr 56)) ∧
    ∃ a m1, PsciNext demoPlat m a m1 ∧ Granted m a m1 (gr 22) (gr 57) ∧
      ∀ a' m2, PsciNext demoPlat m1 a' m2 → ¬ Granted m1 a' m2 (gr 56) (gr 57) := by
  obtain ⟨m0, m, m1, m2, m3, a, a', h0, -, -, hm, hoff, h1, h2, hn, hg, -⟩ :=
    psciTwoRequests_granted
  have hreach : PsciReachable demoPlat m := h0.trans (hm.mono fun _ _ _ => trivial)
  obtain ⟨hpending, -, -, honce, -⟩ := psci_cpuOn_protocol hreach
  refine ⟨m, hreach, h1, h2, fun c => ⟨fun hc => ?_, fun hc => ?_⟩, a, m1, hn, hg,
    fun a' m2 hn' =>
    honce a a' m1 m1 m2 _ _ _ hn hg .init hn'⟩
  · have := hpending c _ hc
    simp [h1.1] at this
  · have := hpending c _ hc
    simp [h2.1] at this

/-- The affinity fields of a value of MPIDR_EL1. -/
def mpidrAffinity (mpidr : Word) : Word := mpidr &&& 0xFF00FFFFFF#64

/-- The value is the MPIDR of the REC. -/
def NamesMpidr (r : Rec) (mpidr : Word) : Prop :=
  ∃ recMpidr, recMpidrIsValid recMpidr = true ∧ recMpidrToIdx recMpidr = r.recIdx ∧
    mpidrAffinity mpidr = mpidrAffinity (recMpidrToMpidr recMpidr)

/-- The first REC runs in big-endian mode and asks for an MPIDR that no REC has: the upper half of
its lowest affinity field is not zero. -/
def psciStrayRequest : List (PsciAct ℕ) :=
  psciVisit 1 22 { psciArgs smc64PsciCpuOn 0x12#64 0x1000#64 7#64 with sctlrEl1 := sctlrEeBit }

/-- The third REC is turned on, also in big-endian mode. -/
theorem psciStrayRequest_granted : ∃ m m' : PsciSmp ℕ, PsciReachable demoPlat m ∧
    PsciNext demoPlat m (.complete 0 (gr 22) (gr 57) psciReturnSuccess) m' ∧
    (m.smp.mem.granule (gr 57)).state = .REC ∧ (m.smp.mem.recs (gr 57)).recIdx = 2 ∧
    (m.vcpu (gr 57)).runnable = false ∧ (m'.vcpu (gr 57)).runnable = true ∧
    (m.vcpu (gr 22)).gprs 1 = 0x12#64 ∧
    (m'.vcpu (gr 57)).sctlrEl1 = sctlrEl1Flags ||| sctlrEeBit := by
  have hrun : (psciReplay psciKeys demoPlat (fun _ => true) initPsci
      (psciThreeRecs ++ psciStrayRequest)).any (fun m =>
        (psciStep demoPlat m (.complete 0 (gr 22) (gr 57) psciReturnSuccess)).any fun m' =>
          decide ((m.smp.mem.granule (gr 57)).state = .REC) &&
          decide ((m.smp.mem.recs (gr 57)).recIdx = 2) && !(m.vcpu (gr 57)).runnable &&
          (m'.vcpu (gr 57)).runnable && decide ((m.vcpu (gr 22)).gprs 1 = 0x12#64) &&
          decide ((m'.vcpu (gr 57)).sctlrEl1 = sctlrEl1Flags ||| sctlrEeBit)) = true := by
    decide +kernel
  simp only [Option.any_eq_true, Bool.and_eq_true, Bool.not_eq_true', decide_eq_true_eq] at hrun
  obtain ⟨m, hm, m', hstep, ⟨⟨⟨⟨hrec, hidx⟩, hoff⟩, hon⟩, hx1⟩, hsctlr⟩ := hrun
  exact ⟨m, m', (psciReplay_reach _ .init hm).mono fun _ _ _ => trivial,
    psciStep_next hstep, hrec,
    hidx, hoff, hon, hx1, hsctlr⟩

/-- Only the bits of the index are compared; the target gets the endianness of the caller; and two
requests that are made while the target is off can both be granted. -/
theorem psci_cpuOn_not_as_named :
    (¬ ∀ (m m' : PsciSmp ℕ) (c : ℕ) (callingAddr r status : Word),
      PsciReachable demoPlat m →
      PsciNext demoPlat m (.complete c callingAddr r status) m' →
      (m.smp.mem.granule r).state = .REC → (m.vcpu r).runnable = false →
      (m'.vcpu r).runnable = true →
      NamesMpidr (m.smp.mem.recs r) ((m.vcpu callingAddr).gprs 1)) ∧
    (¬ ∀ (m m' : PsciSmp ℕ) (c : ℕ) (callingAddr r status : Word),
      PsciReachable demoPlat m →
      PsciNext demoPlat m (.complete c callingAddr r status) m' →
      (m.smp.mem.granule r).state = .REC → (m.vcpu r).runnable = false →
      (m'.vcpu r).runnable = true → (m'.vcpu r).sctlrEl1 = sctlrEl1Flags) ∧
    ¬ ∀ (m0 m m1 m2 m3 : PsciSmp ℕ) (a a' : PsciAct ℕ)
      (callingAddr callingAddr' targetAddr : Word), PsciReachable demoPlat m0 →
      callingAddr ≠ callingAddr' → (m0.vcpu callingAddr).pending = false →
      (m0.vcpu callingAddr').pending = false →
      Reach m0 (PsciNext demoPlat) (fun n _ => n.isOff targetAddr = true) m →
      m.isOff targetAddr = true → Asks m callingAddr targetAddr →
        Asks m callingAddr' targetAddr →
      PsciNext demoPlat m a m1 → Granted m a m1 callingAddr targetAddr →
      Reach m1 (PsciNext demoPlat) (fun n _ => (n.vcpu callingAddr').pending = true) m2 →
      PsciNext demoPlat m2 a' m3 → ¬ Granted m2 a' m3 callingAddr' targetAddr := by
  obtain ⟨m, m', hm, hn, hrec, hidx, hoff, hon, hx1, hsctlr⟩ := psciStrayRequest_granted
  refine ⟨fun hall => ?_, fun hall => ?_, fun hall => ?_⟩
  · obtain ⟨recMpidr, hvalid, hrecIdx, hnames⟩ := hall m m' _ _ _ _ hm hn hrec hoff hon
    have htwo : recMpidr = 2#64 := by
      refine recMpidrToIdx_injOn hvalid (show recMpidrIsValid 2#64 = true by decide) ?_
      rw [hrecIdx, hidx]
      decide
    rw [hx1, htwo] at hnames
    exact absurd hnames (by decide)
  · have hreset := hall m m' _ _ _ _ hm hn hrec hoff hon
    rw [hsctlr] at hreset
    exact absurd hreset (by decide)
  · obtain ⟨m0, m, m1, m2, m3, a, a', h0, hA, hB, hm, hoff, h1, h2, hn, hg, hm2, hn', hg'⟩ :=
      psciTwoRequests_granted
    exact hall m0 m m1 m2 m3 a a' _ _ _ h0 (by decide) hA hB hm hoff h1 h2 hn hg hm2 hn' hg'

end RmmCaec
