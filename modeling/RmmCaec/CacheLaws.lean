import RmmCaec.SwitchLaws

/-!
# Trapped accesses and the caches

Until a realm has turned its MMU and caches on, its writes to the registers of the translation
trap. The handler makes the access for the realm, flushes the caches when they go on or off,
and stops the traps when they are on.
-/
namespace RmmCaec
open Runs

variable {ι γ : Type} {f : GicVirtFeature} {σ σ' : SwitchState ι γ} {i : ι} {g : γ}

theorem hasCacheEnabled_bits (w : Word) :
    hasCacheEnabled w = (w.getLsbD 0 && w.getLsbD 2) := by
  have h5 : sctlrElxMBit ||| sctlrElxCBit = 5#64 := by decide
  rw [hasCacheEnabled, h5, Bool.eq_iff_iff, beq_iff_eq, Bool.and_eq_true]
  constructor
  · intro h
    have h0 := congrArg (BitVec.getLsbD · 0) h
    have h2 := congrArg (BitVec.getLsbD · 2) h
    simp only [BitVec.getLsbD_and] at h0 h2
    exact ⟨by simpa using h0, by simpa using h2⟩
  · rintro ⟨h0, h2⟩
    refine BitVec.eq_of_getLsbD_eq fun k hk => ?_
    rw [BitVec.getLsbD_and]
    have hother : ∀ k : Fin 64, k.val ≠ 0 → k.val ≠ 2 →
        (5#64).getLsbD k = false := by decide
    by_cases hk0 : k = 0
    · rw [hk0, h0]
      rfl
    · by_cases hk2 : k = 2
      · rw [hk2, h2]
        rfl
      · have hfalse : (5#64).getLsbD k = false := hother ⟨k, hk⟩ hk0 hk2
        rw [hfalse, Bool.and_false]

/-- A REC that CPU_ON has reset has its caches off. -/
theorem resetSctlr_off (caller : Word) :
    hasCacheEnabled (sctlrEl1Flags ||| (caller &&& sctlrEeBit)) = false := by
  have hflags : sctlrEl1Flags.getLsbD 0 = false := by decide
  have hee : sctlrEeBit.getLsbD 0 = false := by decide
  rw [hasCacheEnabled_bits, BitVec.getLsbD_or, BitVec.getLsbD_and, hflags, hee, Bool.and_false,
    Bool.or_false, Bool.false_and]

/-- Accesses to the registers of the translation trap. -/
def tvmSet (hcr : Word) : Bool := hcr.getLsbD 26

theorem tvmSet_iff (hcr : Word) : hcr &&& hcrTvm ≠ 0#64 ↔ tvmSet hcr = true := by
  have hbit : hcrTvm = 1#64 <<< 26 := by decide
  rw [hbit, ne_eq, and_oneBit_eq_zero (by omega), tvmSet, Bool.not_eq_false]

theorem tvmSet_clear (hcr : Word) : tvmSet (hcr &&& ~~~hcrTvm) = false := by
  have hbit : hcrTvm.getLsbD 26 = true := by decide
  rw [tvmSet, BitVec.getLsbD_and, BitVec.getLsbD_not, hbit, Bool.not_true, Bool.and_false,
    Bool.and_false]

theorem tvmSet_vse (hcr : Word) :
    tvmSet (hcr ||| hcrVse) = tvmSet hcr ∧ tvmSet (hcr &&& ~~~hcrVse) = tvmSet hcr := by
  have hbit : hcrVse.getLsbD 26 = false := by decide
  rw [tvmSet, tvmSet, tvmSet, BitVec.getLsbD_or, BitVec.getLsbD_and, BitVec.getLsbD_not, hbit]
  simp

theorem tvmSet_entryHcr (common : Word) (e : RmiRecEnter) :
    tvmSet (entryHcr common e) = tvmSet common := by
  have hor : ∀ hcr : Word, tvmSet (hcr ||| hcrTwi) = tvmSet hcr ∧
      tvmSet (hcr ||| hcrTwe) = tvmSet hcr := by
    intro hcr
    have hi : hcrTwi.getLsbD 26 = false := by decide
    have he : hcrTwe.getLsbD 26 = false := by decide
    rw [tvmSet, tvmSet, tvmSet, BitVec.getLsbD_or, BitVec.getLsbD_or, hi, he, Bool.or_false]
    exact ⟨rfl, rfl⟩
  unfold entryHcr
  dsimp only
  split <;> split <;> simp only [hor]

/-- A general register as an instruction of the realm reads it: the last number is the zero
register. -/
def RealmRegs.gpr (v : RealmRegs) (rt : ℕ) : Word :=
  if h : rt < 31 then v.gprs ⟨rt, h⟩ else 0#64

def RealmRegs.setGpr (v : RealmRegs) (rt : ℕ) (w : Word) : RealmRegs :=
  if h : rt < 31 then { v with gprs := Function.update v.gprs ⟨rt, h⟩ w } else v

/-- What a read returns. A register that is not known reads as zero and ignores writes. -/
def RealmRegs.readSysreg (v : RealmRegs) (sysreg : Word) : Word :=
  match sysregByEsr sysreg with
  | some x => v.regs x
  | none => 0#64

def RealmRegs.writeSysreg (v : RealmRegs) (sysreg w : Word) : RealmRegs :=
  match sysregByEsr sysreg with
  | some x => { v with regs := Function.update v.regs x w }
  | none => v

/-- What the instruction with this syndrome does where it does not trap. -/
def RealmRegs.access (v : RealmRegs) (esr : Word) : RealmRegs :=
  let sysreg := esr &&& esrEl2SysregMask
  let rt := esrEl2SysregIssRt esr
  let v := { v with pc := v.pc + 4#64 }
  if esrEl2SysregIsWrite esr then v.writeSysreg sysreg (v.gpr rt)
  else v.setGpr rt (v.readSysreg sysreg)

theorem esrEl2SysregIssRt_lt (esr : Word) : esrEl2SysregIssRt esr < 32 := by
  rw [esrEl2SysregIssRt, BitVec.toNat_and]
  exact Nat.lt_succ_of_le Nat.and_le_right

theorem butSpEl0_of_ne {x : SysReg} (h : x ≠ .spEl0) (regs : SysReg → Word) :
    butSpEl0 regs x = regs x := Function.update_of_ne h _ _

theorem butSpEl0_update {x : SysReg} (h : x ≠ .spEl0) (regs : SysReg → Word) (w : Word) :
    butSpEl0 (Function.update regs x w) = Function.update (butSpEl0 regs) x w := by
  unfold butSpEl0
  exact Function.update_comm h _ _ _

theorem sysregByEsr_ne {sysreg : Word} {x : SysReg} (h : sysregByEsr sysreg = some x) :
    x ≠ .spEl0 := by
  rintro rfl
  exact absurd (sysregByEsr_mem h) (by decide)

theorem RecContext.gpr_zero {rt : ℕ} (h : ¬ rt < 31) (r : RecContext ι) (w : Word) :
    r.gpr rt = r.spEl0 ∧ r.setGpr rt w = { r with spEl0 := w } := ⟨dif_neg h, dif_neg h⟩

theorem RecContext.gpr_lt {rt : ℕ} (h : rt < 31) (r : RecContext ι) (w : Word) :
    r.gpr rt = r.gprs ⟨rt, h⟩ ∧
      r.setGpr rt w = { r with gprs := Function.update r.gprs ⟨rt, h⟩ w } :=
        ⟨dif_pos h, dif_pos h⟩

theorem RealmRegs.gpr_zero {rt : ℕ} (h : ¬ rt < 31) (v : RealmRegs) (w : Word) :
    v.gpr rt = 0#64 ∧ v.setGpr rt w = v := ⟨dif_neg h, dif_neg h⟩

theorem RealmRegs.gpr_lt {rt : ℕ} (h : rt < 31) (v : RealmRegs) (w : Word) :
    v.gpr rt = v.gprs ⟨rt, h⟩ ∧
      v.setGpr rt w = { v with gprs := Function.update v.gprs ⟨rt, h⟩ w } :=
        ⟨dif_pos h, dif_pos h⟩

/-- The access that the handler makes, before it looks at the caches. -/
def accessMade (h : CpuRegs) (r : RecContext ι) (esr : Word) : CpuRegs × RecContext ι :=
  let sysreg := esr &&& esrEl2SysregMask
  let rt := esrEl2SysregIssRt esr
  if esrEl2SysregIsWrite esr then (writeSysregByEsr sysreg (r.gpr rt) h, r)
  else (h, r.setGpr rt (readSysregByEsr sysreg h))

theorem handle_eq_toggleCache (c : CacheGeometry) (h : CpuRegs) (r : RecContext ι) (esr : Word) :
    openccaHandleEsrTvmSysregTrap c h r esr =
      toggleCache c (accessMade h r esr).1 (accessMade h r esr).2
        (hasCacheEnabled (h.regs .sctlrEl1)) := by
  unfold openccaHandleEsrTvmSysregTrap accessMade
  dsimp only
  split <;> rfl

/-- The realm after the access, as the handler leaves it without a flush. -/
def realmMade (f : GicVirtFeature) (h : CpuRegs) (r : RecContext ι) (esr : Word) : RealmRegs :=
  (accessMade h r esr).2.onCpu f
    { (accessMade h r esr).1 with elrEl2 := (accessMade h r esr).1.elrEl2 + 4#64 }

theorem accessMade_rest (h : CpuRegs) (r : RecContext ι) (esr : Word) :
    (accessMade h r esr).1.regs .csselrEl1 = h.regs .csselrEl1 ∧
    (accessMade h r esr).1.elrEl2 = h.elrEl2 := by
  unfold accessMade writeSysregByEsr
  dsimp only
  split
  · cases hx : sysregByEsr (esr &&& esrEl2SysregMask) with
    | none => exact ⟨rfl, rfl⟩
    | some x =>
      refine ⟨Function.update_of_ne ?_ _ _, rfl⟩
      rintro rfl
      exact absurd (sysregByEsr_mem hx) (by decide)
  · exact ⟨rfl, rfl⟩

/-- The REC of a run and the REC of a switch have the same registers on a CPU. -/
structure SameRegs (v : RunVcpu) (env : TrapEnv) (h : CpuRegs) (r : RecContext ι) : Prop where
  gprs : v.gprs = r.gprs
  spEl0 : env.spEl0 = r.spEl0
  sctlrEl1 : v.sctlrEl1 = h.regs .sctlrEl1
  esrEl1 : v.el1.esr = h.regs .esrEl1
  farEl1 : v.el1.far = h.regs .farEl1
  others : ∀ x ∈ vmControlRegs, env.sysregs x = h.regs x

theorem SameRegs.readSysreg {v : RunVcpu} {env : TrapEnv} {h : CpuRegs} {r : RecContext ι}
    (hsame : SameRegs v env h r) {x : SysReg} (hx : x ∈ vmControlRegs) :
    v.readSysreg env.sysregs x = h.regs x := by
  have hother := hsame.others x hx
  cases x with
  | sctlrEl1 => exact hsame.sctlrEl1
  | esrEl1 => exact hsame.esrEl1
  | farEl1 => exact hsame.farEl1
  | _ => exact hother

theorem RunVcpu.writeSysreg_regs (v : RunVcpu) (val : Word) {h : CpuRegs}
    (hsctlr : v.sctlrEl1 = h.regs .sctlrEl1) (hesr : v.el1.esr = h.regs .esrEl1)
    (hfar : v.el1.far = h.regs .farEl1) (x : SysReg) :
    (v.writeSysreg val x).gprs = v.gprs ∧
    (v.writeSysreg val x).sctlrEl1 = Function.update h.regs x val .sctlrEl1 ∧
    (v.writeSysreg val x).el1.esr = Function.update h.regs x val .esrEl1 ∧
    (v.writeSysreg val x).el1.far = Function.update h.regs x val .farEl1 := by
  cases x <;> simp [RunVcpu.writeSysreg, hsctlr, hesr, hfar]

theorem writeGpr_eq_setGpr (r : RecContext ι) (rt : ℕ) (val : Word) :
    writeGpr r.gprs rt val = (r.setGpr rt val).gprs := by
  unfold RecContext.setGpr
  split
  · next hrt =>
    funext i
    dsimp only
    by_cases hi : i.val = rt
    · obtain rfl : i = ⟨rt, hrt⟩ := Fin.ext hi
      rw [writeGpr, if_pos rfl, Function.update_self]
    · have hne : i ≠ ⟨rt, hrt⟩ := fun he => hi (congrArg Fin.val he)
      rw [writeGpr, if_neg hi, Function.update_of_ne hne]
  · next hrt =>
    funext i
    have hlt := i.isLt
    exact if_neg fun hi : i.val = rt => hrt (hi ▸ hlt)

/-- The run makes the access that the switch makes. -/
theorem openccaSysregAccess_made {v : RunVcpu} {env : TrapEnv} {h : CpuRegs} {r : RecContext ι}
    (hsame : SameRegs v env h r) (esr : Word) :
    (openccaSysregAccess v esr env).gprs = (accessMade h r esr).2.gprs ∧
    (openccaSysregAccess v esr env).sctlrEl1 = (accessMade h r esr).1.regs .sctlrEl1 ∧
    (openccaSysregAccess v esr env).el1.esr = (accessMade h r esr).1.regs .esrEl1 ∧
    (openccaSysregAccess v esr env).el1.far = (accessMade h r esr).1.regs .farEl1 := by
  unfold openccaSysregAccess accessMade
  dsimp only
  cases esrEl2SysregIsWrite esr with
  | true =>
    simp only [if_true]
    cases hx : sysregByEsr (esr &&& esrEl2SysregMask) with
    | none =>
      simp only [writeSysregByEsr, hx]
      exact ⟨hsame.gprs, hsame.sctlrEl1, hsame.esrEl1, hsame.farEl1⟩
    | some x =>
      have hval : (if hrt : esrEl2SysregIssRt esr < 31 then v.gprs ⟨esrEl2SysregIssRt esr, hrt⟩
          else env.spEl0) = r.gpr (esrEl2SysregIssRt esr) := by
        rw [hsame.gprs, hsame.spEl0]
        rfl
      rw [hval]
      simp only [writeSysregByEsr, hx]
      obtain ⟨hgprs, hrest⟩ := v.writeSysreg_regs (r.gpr (esrEl2SysregIssRt esr)) hsame.sctlrEl1
        hsame.esrEl1 hsame.farEl1 x
      exact ⟨hgprs.trans hsame.gprs, hrest⟩
  | false =>
    have hval : ((sysregByEsr (esr &&& esrEl2SysregMask)).map
        (v.readSysreg env.sysregs)).getD 0#64 = readSysregByEsr (esr &&& esrEl2SysregMask) h := by
      unfold readSysregByEsr
      cases hx : sysregByEsr (esr &&& esrEl2SysregMask) with
      | none => rfl
      | some x => exact hsame.readSysreg (sysregByEsr_mem hx)
    simp only [Bool.false_eq_true, if_false]
    rw [hval]
    refine ⟨?_, hsame.sctlrEl1, hsame.esrEl1, hsame.farEl1⟩
    rw [hsame.gprs]
    exact writeGpr_eq_setGpr r _ _

/-- In a build for OpenCCA a run answers a trapped access as the switch does: the realm goes on
with the registers that the handler of the switch leaves. -/
theorem handleSysregAccessTrap_opencca {v : RunVcpu} {env : TrapEnv} {h : CpuRegs}
    {r : RecContext ι} (hsame : SameRegs v env h r) (exitEsr : Word) {esr : Word}
    (found : tvmTrapped esr = true) (c : CacheGeometry) :
    let done := handleSysregAccessTrap true v exitEsr esr env
    let left := openccaHandleEsrTvmSysregTrap c h r esr
    done.handled = true ∧ done.exitEsr = exitEsr ∧ done.vcpu.gprs = left.context.gprs ∧
      done.vcpu.sctlrEl1 = left.cpu.regs .sctlrEl1 ∧ done.vcpu.el1.esr = left.cpu.regs .esrEl1 ∧
      done.vcpu.el1.far = left.cpu.regs .farEl1 := by
  have hdone : handleSysregAccessTrap true v exitEsr esr env =
      ⟨openccaSysregAccess v esr env, exitEsr, true⟩ := by
    have htests := found
    simp only [tvmTrapped, Bool.and_eq_true, bne_iff_ne] at htests
    obtain ⟨⟨⟨hid, hicc⟩, hpmr⟩, -⟩ := htests
    unfold handleSysregAccessTrap
    dsimp only
    rw [if_neg hid, if_neg (not_or.mpr ⟨hicc, hpmr⟩), found]
    rfl
  obtain ⟨hgprs, hsctlr, hesr, hfar⟩ := openccaSysregAccess_made hsame esr
  rw [hdone, handle_eq_toggleCache]
  obtain ⟨hcr, hcpu⟩ := toggleCache_cpu c (accessMade h r esr).1 (accessMade h r esr).2
    (hasCacheEnabled (h.regs .sctlrEl1))
  obtain ⟨common, hcontext⟩ := toggleCache_context c (accessMade h r esr).1
    (accessMade h r esr).2
    (hasCacheEnabled (h.regs .sctlrEl1))
  have hregs : ∀ x ≠ SysReg.csselrEl1,
      (toggleCache c (accessMade h r esr).1 (accessMade h r esr).2
      (hasCacheEnabled (h.regs .sctlrEl1))).cpu.regs x = (accessMade h r esr).1.regs x := by
    intro x hx
    rw [hcpu]
    split
    · exact Function.update_of_ne hx _ _
    · rfl
  dsimp only
  rw [hcontext, hregs _ (by decide), hregs _ (by decide), hregs _ (by decide)]
  exact ⟨rfl, rfl, hgprs, hsctlr, hesr, hfar⟩

/-- The access changes neither the selected cache nor what stands in front of it. -/
theorem RealmRegs.access_csselr (v : RealmRegs) (esr : Word) :
    (v.access esr).regs .csselrEl1 = v.regs .csselrEl1 := by
  unfold RealmRegs.access RealmRegs.writeSysreg RealmRegs.setGpr
  dsimp only
  split
  · cases hx : sysregByEsr (esr &&& esrEl2SysregMask) with
    | none => rfl
    | some x =>
      refine Function.update_of_ne ?_ _ _
      rintro rfl
      exact absurd (sysregByEsr_mem hx) (by decide)
  · split <;> rfl

/-- An access with the zero register writes what is in SP_EL0, or overwrites SP_EL0. Any other
is made as the realm would have made it. -/
theorem realmMade_eq_iff (h : CpuRegs) (r : RecContext ι) (esr : Word) :
    realmMade f h r esr = (r.onCpu f h).access esr ↔
      (esrEl2SysregIssRt esr = 31 →
        if esrEl2SysregIsWrite esr then
          (sysregByEsr (esr &&& esrEl2SysregMask)).isSome → (r.onCpu f h).spEl0 = 0#64
        else (r.onCpu f h).spEl0 = (r.onCpu f h).readSysreg (esr &&& esrEl2SysregMask)) := by
  have hrt31 := esrEl2SysregIssRt_lt esr
  rw [realmMade, accessMade, RealmRegs.access]
  obtain ⟨rt, hrteq⟩ : ∃ rt, rt = esrEl2SysregIssRt esr := ⟨_, rfl⟩
  obtain ⟨sysreg, hsysreg⟩ : ∃ sysreg, sysreg = esr &&& esrEl2SysregMask := ⟨_, rfl⟩
  rw [← hrteq, ← hsysreg]
  rw [← hrteq] at hrt31
  cases hw : esrEl2SysregIsWrite esr with
  | true =>
    simp only [if_true]
    cases hx : sysregByEsr sysreg with
    | none =>
      -- nothing is written
      simp [RecContext.onCpu, RealmRegs.writeSysreg, writeSysregByEsr, hx]
    | some x =>
      have hne := sysregByEsr_ne hx
      by_cases hrt : rt < 31
      · have h31 : rt ≠ 31 := by omega
        simp only [RecContext.onCpu, RealmRegs.writeSysreg, writeSysregByEsr, hx,
          butSpEl0_update hne, (r.gpr_lt hrt 0#64).1, (RealmRegs.gpr_lt hrt _ 0#64).1, h31,
          false_implies]
      · obtain rfl : rt = 31 := by omega
        simp only [RecContext.onCpu, RealmRegs.writeSysreg, writeSysregByEsr, hx,
          butSpEl0_update hne, (r.gpr_zero hrt 0#64).1, (RealmRegs.gpr_zero hrt _ 0#64).1,
          true_implies, RealmRegs.mk.injEq, true_and, and_true, Option.isSome_some]
        constructor
        · intro he
          have hat := congrFun he x
          rwa [Function.update_self, Function.update_self] at hat
        · intro he
          rw [he]
  | false =>
    have hread : ∀ v : RealmRegs, v.regs = butSpEl0 h.regs →
        v.readSysreg sysreg = readSysregByEsr sysreg h := by
      intro v hv
      cases hx : sysregByEsr sysreg with
      | none => simp only [RealmRegs.readSysreg, readSysregByEsr, hx]
      | some x =>
        simp only [RealmRegs.readSysreg, readSysregByEsr, hx]
        rw [hv, butSpEl0_of_ne (sysregByEsr_ne hx)]
    simp only [Bool.false_eq_true, if_false]
    rw [hread _ rfl, hread _ rfl]
    by_cases hrt : rt < 31
    · have h31 : rt ≠ 31 := by omega
      simp only [RecContext.onCpu, (r.gpr_lt hrt (readSysregByEsr sysreg h)).2,
        (RealmRegs.gpr_lt hrt _ (readSysregByEsr sysreg h)).2, h31, false_implies]
    · obtain rfl : rt = 31 := by omega
      simp only [RecContext.onCpu, (r.gpr_zero hrt (readSysregByEsr sysreg h)).2,
        (RealmRegs.gpr_zero hrt _ (readSysregByEsr sysreg h)).2, true_implies,
        RealmRegs.mk.injEq, true_and, and_true]
      exact eq_comm

theorem asmFlushDcacheAll_csselr (c : CacheGeometry) (csselr : Word) :
    (asmFlushDcacheAll c csselr).csselr = if c.loc = 0 then csselr else 0#64 := by
  unfold asmFlushDcacheAll asmDcacheAll
  split <;> rfl

section
variable [DecidableEq ι] [DecidableEq γ]

/-- A flush leaves the first cache selected, and nothing else behind. -/
theorem trapped_realmRegs {c : CacheGeometry} {esr : Word} (hwf : SwitchWf σ)
    (hstep : SwitchStep f σ (.trapped i g c esr) σ') :
    ∃ (h : CpuRegs) (r : RecContext ι), σ.realmRegs f g = r.onCpu f h ∧
      σ'.realmRegs f g =
        if hasCacheEnabled ((realmMade f h r esr).regs .sctlrEl1) ≠
            hasCacheEnabled ((σ.realmRegs f g).regs .sctlrEl1) ∧ c.loc ≠ 0 then
          { realmMade f h r esr with
            regs := Function.update (realmMade f h r esr).regs .csselrEl1 0#64 }
        else realmMade f h r esr := by
  cases hstep with
  | trapped phase found =>
    have hns : (σ.recs g).ns = some i := (hwf.inside g i).mpr (by rw [phase]; rfl)
    have hns' : ((σ.trapped i g c esr).recs g).ns = some i := by
      simp only [SwitchState.trapped, Function.update_self]
      exact (trapped_ns _ _ _ _).trans hns
    refine ⟨σ.cpus i, σ.recs g, realmRegs_entered hns, ?_⟩
    rw [realmRegs_entered hns', realmRegs_entered hns]
    simp only [SwitchState.trapped, Function.update_self]
    obtain ⟨h, hh⟩ : ∃ h, h = (accessMade (σ.cpus i) (σ.recs g) esr).1 := ⟨_, rfl⟩
    obtain ⟨r, hr⟩ : ∃ r, r = (accessMade (σ.cpus i) (σ.recs g) esr).2 := ⟨_, rfl⟩
    obtain ⟨was, hwas⟩ : ∃ was, was =
        hasCacheEnabled ((σ.cpus i).regs .sctlrEl1) := ⟨_, rfl⟩
    obtain ⟨hcr, hcpu⟩ := toggleCache_cpu c h r was
    obtain ⟨common, hcontext⟩ := toggleCache_context c h r was
    rw [handle_eq_toggleCache, realmMade, ← hh, ← hr, ← hwas, hcpu, hcontext]
    have hne : SysReg.sctlrEl1 ≠ .spEl0 := by decide
    have hsctlr : ∀ (r : RecContext ι) (h : CpuRegs),
        (r.onCpu f h).regs .sctlrEl1 = h.regs .sctlrEl1 := fun _ _ => butSpEl0_of_ne hne _
    simp only [hsctlr, ← hwas]
    by_cases hloc : c.loc = 0
    · have hkept : (openccaStage2FlushRealm c h).1 = h := by
        simp only [openccaStage2FlushRealm, asmFlushDcacheAll_csselr, if_pos hloc,
          Function.update_eq_self]
      rw [hkept, ite_self, if_neg fun hc => hc.2 hloc]
      rfl
    · have hcleared : (openccaStage2FlushRealm c h).1 =
          { h with regs := Function.update h.regs .csselrEl1 0#64 } := by
        simp only [openccaStage2FlushRealm, asmFlushDcacheAll_csselr, if_neg hloc]
      rw [hcleared]
      by_cases hflush : hasCacheEnabled (h.regs .sctlrEl1) = was
      · rw [if_neg (by simp [hflush]), if_neg (fun hc => hc.1 hflush)]
        rfl
      · rw [if_pos (by simpa using hflush), if_pos ⟨hflush, hloc⟩]
        simp only [RecContext.onCpu, butSpEl0_update (show SysReg.csselrEl1 ≠ .spEl0 by decide)]

/-- The handler does what the access would have done, with two exceptions. An access with the
zero register writes what is in SP_EL0, or overwrites SP_EL0. And when the caches go on or off,
the flush clears the register in which the realm has selected a cache. -/
theorem trapped_access_iff {σ₀ : SwitchState ι γ} {acts : List (SwitchAct ι γ)}
    {c : CacheGeometry} {esr : Word} (h₀ : SwitchInit σ₀)
    (hpath : Path (SwitchStep f) σ₀ acts σ)
    (hstep : SwitchStep f σ (.trapped i g c esr) σ') :
    σ'.realmRegs f g = (σ.realmRegs f g).access esr ↔
      (esrEl2SysregIssRt esr = 31 →
        if esrEl2SysregIsWrite esr then
          (sysregByEsr (esr &&& esrEl2SysregMask)).isSome → (σ.realmRegs f g).spEl0 = 0#64
        else (σ.realmRegs f g).spEl0 =
          (σ.realmRegs f g).readSysreg (esr &&& esrEl2SysregMask)) ∧
      (hasCacheEnabled (((σ.realmRegs f g).access esr).regs .sctlrEl1) ≠
          hasCacheEnabled ((σ.realmRegs f g).regs .sctlrEl1) → c.loc ≠ 0 →
        (σ.realmRegs f g).regs .csselrEl1 = 0#64) := by
  obtain ⟨h, r, hbefore, hafter⟩ := trapped_realmRegs (h₀.wf.path hpath) hstep
  rw [hafter, hbefore]
  rw [← realmMade_eq_iff]
  obtain ⟨v, hv⟩ : ∃ v, v = r.onCpu f h := ⟨_, rfl⟩
  obtain ⟨made, hm⟩ : ∃ made, made = realmMade f h r esr := ⟨_, rfl⟩
  have hselected : made.regs .csselrEl1 = v.regs .csselrEl1 := by
    have hne : SysReg.csselrEl1 ≠ .spEl0 := by decide
    rw [hm, hv]
    exact (butSpEl0_of_ne hne _).trans
      ((accessMade_rest h r esr).1.trans (butSpEl0_of_ne hne _).symm)
  have hkept := v.access_csselr esr
  rw [← hm, ← hv]
  by_cases hflush : hasCacheEnabled (made.regs .sctlrEl1) ≠ hasCacheEnabled (v.regs .sctlrEl1) ∧
      c.loc ≠ 0
  · rw [if_pos hflush]
    constructor
    · intro he
      have hzero : v.regs .csselrEl1 = 0#64 := by
        rw [← hkept, ← he]
        exact Function.update_self SysReg.csselrEl1 0#64 made.regs
      rw [← hselected] at hzero
      rw [← hzero, Function.update_eq_self] at he
      exact ⟨he, fun _ _ => hselected.symm.trans hzero⟩
    · rintro ⟨he, hsel⟩
      have hzero : made.regs .csselrEl1 = 0#64 := by
        rw [hselected]
        exact hsel (by rw [← he]; exact hflush.1) hflush.2
      rw [← hzero, Function.update_eq_self]
      exact he
  · rw [if_neg hflush]
    constructor
    · intro he
      refine ⟨he, fun hcaches hloc => absurd ⟨?_, hloc⟩ hflush⟩
      rwa [he]
    · exact fun he => he.1

end

def stackWrite : CpuRegs :=
  { quietRun.cpus true with regs := Function.update (quietRun.cpus true).regs .spEl0 8#64 }

/-- A realm that has trapped, with 8 in SP_EL0 and 5 in its general registers. -/
def cacheTrap : SwitchState Bool Unit := quietRun.realm true () (fun _ => 5#64) stackWrite

theorem cacheTrap_path :
    Path (SwitchStep fourLrs) quietSystem
      [.enter true (), .turn true () false, .realm true ()] cacheTrap :=
  quietRun_path.append (.cons (.realm rfl
    (.of_regs (fun x hx => Function.update_of_ne (by rintro rfl; exact absurd hx (by decide)) _ _)
      _ _)) .nil)

/-- The syndrome of a write of the zero register to TTBR0_EL1. -/
def zeroTtbr0 : Word := sysregEsr 3 0 2 0 0 ||| 0x3E0#64

/-- The realm clears TTBR0_EL1 with the zero register, and gets its stack pointer there. -/
theorem trapped_access_iff_zero :
    (cacheTrap.trapped true () twoLevels zeroTtbr0).realmRegs fourLrs () ≠
      (cacheTrap.realmRegs fourLrs ()).access zeroTtbr0 := by
  intro heq
  have hstep : SwitchStep fourLrs cacheTrap (.trapped true () twoLevels zeroTtbr0)
      (cacheTrap.trapped true () twoLevels zeroTtbr0) := .trapped rfl (by decide)
  have hsp := ((trapped_access_iff quietSystem_init cacheTrap_path hstep).mp heq).1 (by decide)
  exact absurd (hsp (by decide)) (by decide)

/-- The caches are on in the registers of the realm. -/
def SwitchState.cachesOn (f : GicVirtFeature) (σ : SwitchState ι γ) (g : γ) : Bool :=
  hasCacheEnabled ((σ.realmRegs f g).regs .sctlrEl1)

/-- Whether the accesses of a REC trap, in every entry to come. -/
def SwitchState.traps (σ : SwitchState ι γ) (g : γ) : Bool :=
  tvmSet (σ.recs g).commonSysregs.hcrEl2

/-- The caches have been flushed for a REC since it was created. -/
def SwitchState.Flushed (σ : SwitchState ι γ) (g : γ) : Prop :=
  ∃ flush ∈ σ.flushes g, flush.Complete

/-- While accesses trap the caches are off, and they stop to trap after a flush. A CPU that is
inside of the REC lets no access through that traps in the next entry. -/
structure CacheInv (f : GicVirtFeature) (σ : SwitchState ι γ) (g : γ) : Prop where
  off : σ.cachesOn f g = true → σ.traps g = false
  flushed : σ.traps g = false → σ.Flushed g
  cpu : ∀ i, (σ.recs g).ns = some i → tvmSet (σ.cpus i).hcrEl2 = false → σ.traps g = false
  entry : ∀ i, (σ.recs g).ns = some i →
    tvmSet (σ.recs g).sysregs.hcrEl2 = false → σ.traps g = false

/-- The invariant is kept where no caches are turned on and the traps and the flushes stay as they
are. -/
theorem CacheInv.of_kept (hinv : CacheInv f σ g)
    (hon : σ'.cachesOn f g = true → σ.cachesOn f g = true)
    (htraps : σ'.traps g = σ.traps g) (hflushes : σ'.flushes g = σ.flushes g)
    (hcpu : ∀ i, (σ'.recs g).ns = some i →
      tvmSet (σ'.cpus i).hcrEl2 = false → σ.traps g = false)
    (hentry : ∀ i, (σ'.recs g).ns = some i →
      tvmSet (σ'.recs g).sysregs.hcrEl2 = false → σ.traps g = false) : CacheInv f σ' g where
  off h := htraps.trans (hinv.off (hon h))
  flushed h := by
    rw [SwitchState.Flushed, hflushes]
    exact hinv.flushed (htraps ▸ h)
  cpu i hi h := htraps.trans (hcpu i hi h)
  entry i hi h := htraps.trans (hentry i hi h)

theorem cachesOn_idle (h : (σ.recs g).ns = none) :
    σ.cachesOn f g = hasCacheEnabled ((σ.recs g).sysregs.regs .sctlrEl1) := by
  rw [SwitchState.cachesOn, realmRegs_idle h]
  exact congrArg hasCacheEnabled
    (butSpEl0_of_ne (show SysReg.sctlrEl1 ≠ .spEl0 by decide) _)

theorem cachesOn_entered (h : (σ.recs g).ns = some i) :
    σ.cachesOn f g = hasCacheEnabled ((σ.cpus i).regs .sctlrEl1) := by
  rw [SwitchState.cachesOn, realmRegs_entered h]
  exact congrArg hasCacheEnabled
    (butSpEl0_of_ne (show SysReg.sctlrEl1 ≠ .spEl0 by decide) _)

theorem FreshRec.cacheInv {p : FreshRec} (h : σ.recs g = p.context) : CacheInv f σ g := by
  have hns : (σ.recs g).ns = none := by rw [h]; rfl
  have htraps : σ.traps g = true := by
    rw [SwitchState.traps, h]
    exact (by decide : tvmSet hcrRealmFlags = true)
  have hoff : σ.cachesOn f g = false := by
    rw [cachesOn_idle hns, h]
    exact (by decide : hasCacheEnabled sctlrEl1Flags = false)
  refine ⟨fun hon => ?_, fun hno => ?_, fun i hi => ?_, fun i hi => ?_⟩
  · rw [hoff] at hon
    cases hon
  · rw [htraps] at hno
    cases hno
  · rw [hns] at hi
    cases hi
  · rw [hns] at hi
    cases hi

theorem toggleCache_traps (c : CacheGeometry) (h : CpuRegs) (r : RecContext ι) (was : Bool) :
    (hasCacheEnabled (h.regs .sctlrEl1) = true →
      tvmSet (toggleCache c h r was).context.commonSysregs.hcrEl2 = false) ∧
    (hasCacheEnabled (h.regs .sctlrEl1) = false →
      (toggleCache c h r was).context.commonSysregs.hcrEl2 = r.commonSysregs.hcrEl2 ∧
      (toggleCache c h r was).cpu.hcrEl2 = h.hcrEl2) ∧
    (toggleCache c h r was).cpu.regs .sctlrEl1 = h.regs .sctlrEl1 ∧
    (hasCacheEnabled (h.regs .sctlrEl1) ≠ was →
      (toggleCache c h r was).flush = some (openccaStage2FlushRealm c h).2) := by
  have hflush : ∀ flushed : Bool,
      (if flushed then (openccaStage2FlushRealm c h).1 else h).regs .sctlrEl1 =
        h.regs .sctlrEl1 ∧
      (if flushed then (openccaStage2FlushRealm c h).1 else h).hcrEl2 = h.hcrEl2 := by
    intro flushed
    cases flushed with
    | true =>
      have hne : SysReg.sctlrEl1 ≠ .csselrEl1 := by decide
      exact ⟨Function.update_of_ne hne
        (asmFlushDcacheAll c (h.regs .csselrEl1)).csselr h.regs, rfl⟩
    | false => exact ⟨rfl, rfl⟩
  unfold toggleCache
  cases hnow : hasCacheEnabled (h.regs .sctlrEl1) with
  | true =>
    refine ⟨fun _ => tvmSet_clear _, fun hc => (by cases hc), (hflush _).1, fun hne => ?_⟩
    exact if_pos (bne_iff_ne.mpr hne)
  | false =>
    refine ⟨fun hc => (by cases hc), fun _ => ⟨rfl, (hflush _).2⟩, (hflush _).1,
      fun hne => ?_⟩
    exact if_pos (bne_iff_ne.mpr hne)

/-- What a trapped access does about the caches. -/
theorem trapped_caches (c : CacheGeometry) (h : CpuRegs) (r : RecContext ι) (esr : Word) :
    let e := openccaHandleEsrTvmSysregTrap c h r esr
    (hasCacheEnabled (e.cpu.regs .sctlrEl1) = true →
      tvmSet e.context.commonSysregs.hcrEl2 = false ∧
      (hasCacheEnabled (h.regs .sctlrEl1) = false →
        ∃ flush, e.flush = some flush ∧ flush.Complete)) ∧
    (hasCacheEnabled (e.cpu.regs .sctlrEl1) = false →
      e.context.commonSysregs.hcrEl2 = r.commonSysregs.hcrEl2 ∧ e.cpu.hcrEl2 = h.hcrEl2) := by
  have hrun : ∀ (h' : CpuRegs) (r' : RecContext ι), h'.hcrEl2 = h.hcrEl2 →
      r'.commonSysregs = r.commonSysregs →
      let e := toggleCache c h' r' (hasCacheEnabled (h.regs .sctlrEl1))
      (hasCacheEnabled (e.cpu.regs .sctlrEl1) = true →
        tvmSet e.context.commonSysregs.hcrEl2 = false ∧
        (hasCacheEnabled (h.regs .sctlrEl1) = false →
          ∃ flush, e.flush = some flush ∧ flush.Complete)) ∧
      (hasCacheEnabled (e.cpu.regs .sctlrEl1) = false →
        e.context.commonSysregs.hcrEl2 = r.commonSysregs.hcrEl2 ∧ e.cpu.hcrEl2 = h.hcrEl2) := by
    intro h' r' hhcr hcommon
    obtain ⟨hon, hoff, hregs, hflush⟩ :=
      toggleCache_traps c h' r' (hasCacheEnabled (h.regs .sctlrEl1))
    dsimp only
    rw [hregs]
    refine ⟨fun h1 => ⟨hon h1, fun h0 => ⟨_, hflush (by simp [h1, h0]), ?_⟩⟩,
      fun h1 => ?_⟩
    · exact asmFlushDcacheAll_complete c _
    · obtain ⟨hc, hh⟩ := hoff h1
      rw [hc, hh, hcommon]
      exact ⟨rfl, hhcr⟩
  unfold openccaHandleEsrTvmSysregTrap
  dsimp only
  cases esrEl2SysregIsWrite esr with
  | true =>
    obtain ⟨regs, hw⟩ := writeSysregByEsr_rest (esr &&& esrEl2SysregMask)
      (r.gpr (esrEl2SysregIssRt esr)) h
    simp only [if_true]
    exact hrun _ _ (by rw [hw]) rfl
  | false =>
    obtain ⟨gprs, spEl0, hset⟩ := setGpr_rest r (esrEl2SysregIssRt esr)
      (readSysregByEsr (esr &&& esrEl2SysregMask) h)
    simp only [Bool.false_eq_true, if_false]
    exact hrun _ _ rfl (by rw [hset])

section
variable [DecidableEq ι] [DecidableEq γ] {a : SwitchAct ι γ}

/-- Entries, turns and exits. -/
theorem CacheInv.quietStep (hwf : SwitchWf σ) (hinv : CacheInv f σ g) (h : SwitchStep f σ a σ')
    (hno : ¬ a.OfRealm g) : CacheInv f σ' g := by
  have hon : σ'.cachesOn f g = true ↔ σ.cachesOn f g = true := by
    rw [SwitchState.cachesOn, SwitchState.cachesOn, realmRegs_step hwf h hno]
  by_cases hg : a.context = some g
  · cases h with
    | tick => cases hg
    | host => cases hg
    | realm => exact absurd (Option.some.inj hg) hno
    | handle => exact absurd (Option.some.inj hg) hno
    | trapped => exact absurd (Option.some.inj hg) hno
    | create => exact absurd (Option.some.inj hg) hno
    | amend => exact absurd (Option.some.inj hg) hno
    | @enter i g' e =>
      obtain rfl : g' = g := Option.some.inj hg
      have htraps : (σ.enter f i g' e).traps g' = σ.traps g' := by
        simp only [SwitchState.traps, SwitchState.enter, Function.update_self]
        rfl
      refine hinv.of_kept hon.mp htraps rfl (fun j hj h1 => ?_) fun j hj h1 => ?_
      · simp only [SwitchState.enter, Function.update_self] at hj
        obtain rfl : i = j := Option.some.inj hj
        simp only [SwitchState.enter, Function.update_self] at h1
        exact (tvmSet_entryHcr _ _).symm.trans h1
      · simp only [SwitchState.enter, Function.update_self] at h1
        exact (tvmSet_entryHcr _ _).symm.trans h1
    | @turnBack i g' first simdTrap phase =>
      obtain rfl : g' = g := Option.some.inj hg
      have hns : (σ.recs g').ns = some i := (hwf.inside g' i).mpr (by rw [phase]; rfl)
      have htraps : (σ.turnBack i g' first simdTrap).traps g' = σ.traps g' := by
        simp only [SwitchState.traps, SwitchState.turnBack, Function.update_self]
        rfl
      refine hinv.of_kept hon.mp htraps rfl (fun j hj h1 => ?_) fun j hj h1 => ?_
      · simp only [SwitchState.turnBack, Function.update_self] at hj
        obtain rfl : i = j := Option.some.inj (hns.symm.trans hj)
        simp only [SwitchState.turnBack, Function.update_self] at h1
        exact hinv.cpu i hns h1
      · simp only [SwitchState.turnBack, Function.update_self] at h1
        exact hinv.entry i hns h1
    | @turnRun i g' first simdTrap phase =>
      obtain rfl : g' = g := Option.some.inj hg
      have hns : (σ.recs g').ns = some i := (hwf.inside g' i).mpr (by rw [phase]; rfl)
      have htraps : (σ.turnRun i g' simdTrap).traps g' = σ.traps g' := by
        simp only [SwitchState.traps, SwitchState.turnRun, Function.update_self]
        rfl
      refine hinv.of_kept hon.mp htraps rfl (fun j hj h1 => ?_) fun j hj h1 => ?_
      · simp only [SwitchState.turnRun, Function.update_self] at hj
        obtain rfl : i = j := Option.some.inj (hns.symm.trans hj)
        simp only [SwitchState.turnRun, Function.update_self, runRealm, activateEvents] at h1
        -- a pending SError is raised with the value of HCR_EL2 at the entry
        split at h1
        · exact hinv.entry i hns ((tvmSet_vse _).1.symm.trans h1)
        · exact hinv.cpu i hns h1
      · simp only [SwitchState.turnRun, Function.update_self] at h1
        exact hinv.entry i hns h1
    | @leave i g' first =>
      obtain rfl : g' = g := Option.some.inj hg
      have htraps : (σ.leave f i g' first).traps g' = σ.traps g' := by
        simp only [SwitchState.traps, SwitchState.leave, Function.update_self]
        rfl
      refine hinv.of_kept hon.mp htraps rfl (fun j hj h1 => ?_) fun j hj h1 => ?_
      · simp only [SwitchState.leave, Function.update_self] at hj
        cases hj
      · simp only [SwitchState.leave, Function.update_self] at hj
        cases hj
  · obtain ⟨hrec, -, hflush⟩ := h.otherRec hg
    have htraps : σ'.traps g = σ.traps g := by rw [SwitchState.traps, SwitchState.traps, hrec]
    refine hinv.of_kept hon.mp htraps hflush (fun i hi h1 => ?_) fun i hi h1 => ?_
    · rw [hrec] at hi
      have hcpu : a.cpu ≠ some i := fun hc =>
        hg (h.context_of_inside hc ((hwf.inside g i).mp hi))
      rw [(h.elsewhere hcpu).2.1] at h1
      exact hinv.cpu i hi h1
    · rw [hrec] at hi h1
      exact hinv.entry i hi h1

/-- A turn of the realm: a write that would turn the caches on traps. -/
theorem CacheInv.realm {gprs : Fin 31 → Word} {h : CpuRegs} (hwf : SwitchWf σ)
    (hinv : CacheInv f σ g) (phase : σ.phase i = .realm g)
    (may : RealmMay (σ.recs g) (σ.cpus i) h) : CacheInv f (σ.realm i g gprs h) g := by
  have hns : (σ.recs g).ns = some i := (hwf.inside g i).mpr (by rw [phase]; rfl)
  have hns' : ((σ.realm i g gprs h).recs g).ns = some i := by
    simp only [SwitchState.realm, Function.update_self]
    exact hns
  have htraps : (σ.realm i g gprs h).traps g = σ.traps g := by
    simp only [SwitchState.traps, SwitchState.realm, Function.update_self]
    rfl
  have hhcr : tvmSet h.hcrEl2 = tvmSet (σ.cpus i).hcrEl2 := by
    rcases may.hcr with he | he
    · rw [he]
    · rw [he, (tvmSet_vse _).2]
  have hon : (σ.realm i g gprs h).cachesOn f g = hasCacheEnabled (h.regs .sctlrEl1) := by
    rw [cachesOn_entered hns']
    simp only [SwitchState.realm, Function.update_self, CpuRegs.realmExit]
    rw [Function.update_of_ne (by decide)]
  refine ⟨fun h1 => ?_, fun h1 => ?_, fun j hj h1 => ?_, fun j hj h1 => ?_⟩
  · rw [htraps]
    rw [hon] at h1
    cases hset : tvmSet (σ.cpus i).hcrEl2 with
    | false => exact hinv.cpu i hns hset
    | true =>
      -- the write would have trapped
      rw [may.trapped ((tvmSet_iff _).mpr hset) _ (by decide)] at h1
      exact hinv.off ((cachesOn_entered hns).trans h1)
  · exact hinv.flushed (htraps ▸ h1)
  · obtain rfl : i = j := Option.some.inj (hns'.symm.trans hj)
    simp only [SwitchState.realm, Function.update_self] at h1
    rw [htraps]
    exact hinv.cpu i hns (hhcr.symm.trans h1)
  · simp only [SwitchState.realm, Function.update_self] at h1
    rw [htraps]
    exact hinv.entry i hns h1

/-- The other exception handlers leave SCTLR_EL1 alone. -/
theorem CacheInv.handle {d : HandlerEnd} {again : Bool} (hwf : SwitchWf σ)
    (hinv : CacheInv f σ g) (phase : σ.phase i = .exited g) :
    CacheInv f (σ.handle i g d again) g := by
  have hns : (σ.recs g).ns = some i := (hwf.inside g i).mpr (by rw [phase]; rfl)
  have hns' : ((σ.handle i g d again).recs g).ns = some i := by
    simp only [SwitchState.handle, Function.update_self]
    exact hns
  have htraps : (σ.handle i g d again).traps g = σ.traps g := by
    simp only [SwitchState.traps, SwitchState.handle, Function.update_self]
    rfl
  have hon : (σ.handle i g d again).cachesOn f g = σ.cachesOn f g := by
    rw [cachesOn_entered hns', cachesOn_entered hns]
    simp only [SwitchState.handle, Function.update_self, HandlerEnd.cpu]
    rw [copyAt_apply, if_neg (by decide)]
  refine hinv.of_kept (fun h1 => hon ▸ h1) htraps rfl (fun j hj h1 => ?_) fun j hj h1 => ?_
  · obtain rfl : i = j := Option.some.inj (hns'.symm.trans hj)
    simp only [SwitchState.handle, Function.update_self] at h1
    exact hinv.cpu i hns h1
  · simp only [SwitchState.handle, Function.update_self] at h1
    exact hinv.entry i hns h1

/-- A trapped access that turns the caches on flushes them, and ends the trapping. -/
theorem CacheInv.trapped {c : CacheGeometry} {esr : Word} (hwf : SwitchWf σ)
    (hinv : CacheInv f σ g) (phase : σ.phase i = .exited g) :
    CacheInv f (σ.trapped i g c esr) g := by
  have hns : (σ.recs g).ns = some i := (hwf.inside g i).mpr (by rw [phase]; rfl)
  obtain ⟨e, he⟩ : ∃ e, e = openccaHandleEsrTvmSysregTrap c (σ.cpus i) (σ.recs g) esr :=
    ⟨_, rfl⟩
  have hns' : ((σ.trapped i g c esr).recs g).ns = some i := by
    simp only [SwitchState.trapped, Function.update_self]
    exact (trapped_ns _ _ _ _).trans hns
  have htraps : (σ.trapped i g c esr).traps g = tvmSet e.context.commonSysregs.hcrEl2 := by
    simp only [SwitchState.traps, SwitchState.trapped, Function.update_self, he]
  have hon : (σ.trapped i g c esr).cachesOn f g = hasCacheEnabled (e.cpu.regs .sctlrEl1) := by
    rw [cachesOn_entered hns']
    simp only [SwitchState.trapped, Function.update_self, he]
  have hflushes : (σ.trapped i g c esr).flushes g = σ.flushes g ++ e.flush.toList := by
    simp only [SwitchState.trapped, Function.update_self, he]
  have hold : σ.Flushed g → (σ.trapped i g c esr).Flushed g := by
    rintro ⟨flush, hmem, hcomplete⟩
    exact ⟨flush, by rw [hflushes]; exact List.mem_append_left _ hmem, hcomplete⟩
  have hcpu : tvmSet ((σ.trapped i g c esr).cpus i).hcrEl2 = tvmSet e.cpu.hcrEl2 := by
    simp only [SwitchState.trapped, Function.update_self, he]
  have hentry : ((σ.trapped i g c esr).recs g).sysregs = (σ.recs g).sysregs := by
    obtain ⟨gprs, spEl0, hcr, hcontext⟩ := trapped_context c (σ.cpus i) (σ.recs g) esr
    simp only [SwitchState.trapped, Function.update_self, hcontext]
  obtain ⟨hnow, hnot⟩ := trapped_caches c (σ.cpus i) (σ.recs g) esr
  rw [← he] at hnow hnot
  cases hcase : hasCacheEnabled (e.cpu.regs .sctlrEl1) with
  | true =>
    obtain ⟨hclear, hflushed⟩ := hnow hcase
    rw [hclear] at htraps
    refine ⟨fun _ => htraps, fun _ => ?_, fun _ _ _ => htraps, fun _ _ _ => htraps⟩
    -- the caches were on already, or this access has turned them on
    cases hwas : hasCacheEnabled ((σ.cpus i).regs .sctlrEl1) with
    | true => exact hold (hinv.flushed (hinv.off ((cachesOn_entered hns).trans hwas)))
    | false =>
      obtain ⟨flush, hflush, hcomplete⟩ := hflushed hwas
      refine ⟨flush, ?_, hcomplete⟩
      rw [hflushes, hflush]
      exact List.mem_append_right _ (List.mem_singleton_self _)
  | false =>
    obtain ⟨hsame, hhcr⟩ := hnot hcase
    have htraps' : (σ.trapped i g c esr).traps g = σ.traps g := by
      rw [htraps, hsame, SwitchState.traps]
    refine ⟨fun h1 => ?_, fun h1 => ?_, fun j hj h1 => ?_, fun j hj h1 => ?_⟩
    · rw [hon, hcase] at h1
      cases h1
    · exact hold (hinv.flushed (htraps' ▸ h1))
    · obtain rfl : i = j := Option.some.inj (hns'.symm.trans hj)
      rw [hcpu, hhcr] at h1
      rw [htraps']
      exact hinv.cpu i hns h1
    · rw [hentry] at h1
      rw [htraps']
      exact hinv.entry i hns h1

omit [DecidableEq ι] in
/-- A completed request may reset SCTLR_EL1, which turns the caches off. -/
theorem CacheInv.amend {d : Completion} (hinv : CacheInv f σ g) (free : (σ.recs g).ns = none) :
    CacheInv f (σ.setRec g (d.context f (σ.recs g))) g := by
  have hns' : ((σ.setRec g (d.context f (σ.recs g))).recs g).ns = none := by
    simp only [SwitchState.setRec, Function.update_self]
    exact free
  have htraps : (σ.setRec g (d.context f (σ.recs g))).traps g = σ.traps g := by
    simp only [SwitchState.traps, SwitchState.setRec, Function.update_self]
    rfl
  have hon : (σ.setRec g (d.context f (σ.recs g))).cachesOn f g = true →
      σ.cachesOn f g = true := by
    intro h1
    rw [cachesOn_idle hns'] at h1
    rw [cachesOn_idle free]
    simp only [SwitchState.setRec, Function.update_self, Completion.context,
      Completion.regs] at h1
    have hfault : copyAt faultRegs d.fault (σ.recs g).sysregs.regs .sctlrEl1 =
        (σ.recs g).sysregs.regs .sctlrEl1 := by rw [copyAt_apply, if_neg (by decide)]
    cases hd : d.callerSctlr with
    | none =>
      rw [hd] at h1
      exact (congrArg hasCacheEnabled hfault).symm.trans h1
    | some caller =>
      rw [hd] at h1
      simp only [Function.update_self, resetSctlr_off] at h1
      cases h1
  refine hinv.of_kept hon htraps rfl (fun j hj _ => ?_) fun j hj _ => ?_
  · rw [hns'] at hj
    cases hj
  · rw [hns'] at hj
    cases hj

/-- Turns of the realm, handled exceptions and completed requests. -/
theorem CacheInv.realmStep (hwf : SwitchWf σ) (hinv : CacheInv f σ g) (h : SwitchStep f σ a σ')
    (hof : a.OfRealm g) : CacheInv f σ' g := by
  cases h with
  | tick => exact hof.elim
  | host => exact hof.elim
  | enter => exact hof.elim
  | turnBack => exact hof.elim
  | turnRun => exact hof.elim
  | leave => exact hof.elim
  | @realm i g' gprs h phase may =>
    obtain rfl : g' = g := hof
    exact hinv.realm hwf phase may
  | @handle i g' d again phase =>
    obtain rfl : g' = g := hof
    exact hinv.handle hwf phase
  | @trapped i g' c esr phase =>
    obtain rfl : g' = g := hof
    exact hinv.trapped hwf phase
  | @create g' p =>
    obtain rfl : g' = g := hof
    exact FreshRec.cacheInv (p := p) (by simp only [SwitchState.setRec, Function.update_self])
  | @amend g' d free =>
    obtain rfl : g' = g := hof
    exact hinv.amend free

/-- A realm whose MMU and caches are on, on a CPU or in memory, has had the caches flushed since
it was created, each line of the CPU that did it once. As long as its accesses trap they are
off. -/
theorem caches_on_flushed {σ₀ : SwitchState ι γ} {acts : List (SwitchAct ι γ)}
    (h₀ : SwitchInit σ₀) (hpath : Path (SwitchStep f) σ₀ acts σ) (g : γ) :
    (σ.cachesOn f g = true → ∃ flush ∈ σ.flushes g, flush.Complete) ∧
    (σ.traps g = true → σ.cachesOn f g = false) := by
  have hinv : SwitchWf σ ∧ CacheInv f σ g :=
    hpath.keeps (fun _ => True) (fun τ => SwitchWf τ ∧ CacheInv f τ g)
      (fun _ a _ _ hstep hs => ⟨hs.1.step hstep, by
        by_cases hof : a.OfRealm g
        · exact hs.2.realmStep hs.1 hstep hof
        · exact hs.2.quietStep hs.1 hstep hof⟩)
      (fun _ _ => trivial)
      ⟨h₀.wf, by
        obtain ⟨p, hp⟩ := h₀.fresh g
        exact FreshRec.cacheInv hp⟩
  refine ⟨fun hon => hinv.2.flushed (hinv.2.off hon), fun ht => ?_⟩
  cases hc : σ.cachesOn f g with
  | false => rfl
  | true =>
    rw [hinv.2.off hc] at ht
    cases ht

end

/-- The realm writes 5 to SCTLR_EL1, which turns its caches on, and the last line of the CPU is
cleaned. -/
theorem caches_on_flushed_write :
    ∃ flush ∈ (cacheTrap.trapped true () twoLevels (sysregEsr 3 0 1 0 0)).flushes (),
      ∃ op ∈ flush.ops, twoLevels.lineOf op.operand = ⟨1, 511, 7⟩ := by
  have hstep : SwitchStep fourLrs cacheTrap (.trapped true () twoLevels (sysregEsr 3 0 1 0 0))
      (cacheTrap.trapped true () twoLevels (sysregEsr 3 0 1 0 0)) := .trapped rfl (by decide)
  obtain ⟨flush, hmem, hcomplete⟩ := (caches_on_flushed quietSystem_init
    (cacheTrap_path.append (.cons hstep .nil)) ()).1 (by decide)
  have hcache : flush.cache = twoLevels := by
    obtain rfl := List.mem_singleton.mp hmem
    rfl
  refine ⟨flush, hmem, ?_⟩
  have hlines := (hcomplete (by rw [hcache]; exact twoLevels_fit)).mem_iff ⟨1, 511, 7⟩
  rw [hcache] at hlines
  exact List.mem_map.mp (hlines.mpr twoLevels_last)

end RmmCaec
