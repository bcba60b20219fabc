import RmmCaec.SimdContexts

/-!
# Who has the vector registers

On every CPU the registers belong to one of the host, the running REC and the monitor.
What an owner left in them is there when it is resumed, or its first access traps.
-/
namespace RmmCaec
open Outcome Runs

variable {ι : Type} [DecidableEq ι] {plat : Platform} {cpu : SimdPlatform}

namespace SimdSmp

variable (m : SimdSmp ι) (c : ι) (r : Word) (k k' : CpuSimd) (x x' : RecSimd ι)

@[simp] theorem setCpu_cpus : (m.setCpu c k).cpus c = k := Function.update_self ..

@[simp] theorem setCpu_recs : (m.setCpu c k).recs = m.recs := rfl

@[simp] theorem setCpu_smp : (m.setCpu c k).smp = m.smp := rfl

@[simp] theorem setCpu_setCpu : (m.setCpu c k).setCpu c k' = m.setCpu c k' := by
  simp only [setCpu, Function.update_idem]

omit [DecidableEq ι]

@[simp] theorem setRec_recs : (m.setRec r x).recs r = x := Function.update_self ..

@[simp] theorem setRec_cpus : (m.setRec r x).cpus = m.cpus := rfl

@[simp] theorem setRec_smp : (m.setRec r x).smp = m.smp := rfl

@[simp] theorem setRec_setRec : (m.setRec r x).setRec r x' = m.setRec r x' := by
  simp only [setRec, Function.update_idem]

/-- The REC is written last. -/
@[simp] theorem setRec_setCpu [DecidableEq ι] :
    (m.setRec r x).setCpu c k = (m.setCpu c k).setRec r x := rfl

end SimdSmp

/-- The CPU after its context has been saved, and after it has been restored. -/
def CpuSimd.saveNs (cpu : SimdPlatform) (k : CpuSimd) : CpuSimd :=
  { k with
    ctx := (saveCtx cpu k.ctx k.regs).1, regs := (saveCtx cpu k.ctx k.regs).2, stateSaved := true }

def CpuSimd.restoreNs (cpu : SimdPlatform) (k : CpuSimd) : CpuSimd :=
  { k with
    ctx := { k.ctx with saved := false }, regs := restoreCtx cpu k.ctx k.regs, stateSaved := false }

/-- The REC and the CPU after the context of the REC has been saved. -/
def RecSimd.save (cpu : SimdPlatform) (x : RecSimd ι) (k : CpuSimd) : RecSimd ι :=
  { x with ctx := (saveCtx cpu x.ctx k.regs).1 }

def CpuSimd.saveOwn (cpu : SimdPlatform) (k : CpuSimd) (x : RecSimd ι) : CpuSimd :=
  { k with regs := (saveCtx cpu x.ctx k.regs).2, stateSaved := true }

def RecSimd.restore (x : RecSimd ι) : RecSimd ι := { x with ctx := { x.ctx with saved := false } }

def CpuSimd.restoreOwn (cpu : SimdPlatform) (k : CpuSimd) (x : RecSimd ι) : CpuSimd :=
  { k with regs := restoreCtx cpu x.ctx k.regs, stateSaved := false }

section
variable {m : SimdSmp ι} {c : ι} {r : Word}

omit [DecidableEq ι] in
theorem assertThat_ok {α : Type} {b : Bool} {f : Fault} {k : Unit → Rmm α} (h : b = true) :
    (assertThat b f >>= k) = k () := by
  subst h
  rfl

theorem simdContextSwitch_save (id : SimdCtxId ι) :
    simdContextSwitch cpu m c (some id) none = simdSave cpu m c id :=
  bind_pure (simdSave cpu m c id)

theorem simdContextSwitch_restore (id : SimdCtxId ι) :
    simdContextSwitch cpu m c none (some id) = simdRestore cpu m c id := rfl

theorem simdContextSwitch_both (id id' : SimdCtxId ι) :
    simdContextSwitch cpu m c (some id) (some id') =
      simdSave cpu m c id >>= fun m1 => simdRestore cpu m1 c id' := rfl

/-- A context that is in the registers can be saved. -/
theorem simdSave_ns {cfg : SimdConfig} (hok : SimdOk .NWD cfg (m.cpus c).ctx)
    (hstate : (m.cpus c).stateSaved = false) (hsaved : (m.cpus c).ctx.saved = false) :
    simdSave cpu m c (.ns c) = .ok (m.setCpu c ((m.cpus c).saveNs cpu)) := by
  unfold simdSave
  dsimp only [SimdSmp.ctx]
  rw [assertThat_ok hok.initDone, assertThat_ok (by rw [hsaved]; rfl),
    assertThat_ok (by rw [hstate]; rfl), assertThat_ok hok.accessible]
  refine congrArg Except.ok ?_
  simp only [SimdSmp.setCtx, SimdSmp.setCpu, Function.update_self, Function.update_idem]
  rfl

theorem simdSave_own {cfg : SimdConfig} (hok : SimdOk .REL1 cfg (m.recs r).ctx)
    (hstate : (m.cpus c).stateSaved = false) (hsaved : (m.recs r).ctx.saved = false) :
    simdSave cpu m c (.own r) = .ok ((m.setRec r ((m.recs r).save cpu (m.cpus c))).setCpu c
      ((m.cpus c).saveOwn cpu (m.recs r))) := by
  unfold simdSave
  dsimp only [SimdSmp.ctx]
  rw [assertThat_ok hok.initDone, assertThat_ok (by rw [hsaved]; rfl),
    assertThat_ok (by rw [hstate]; rfl), assertThat_ok hok.accessible]
  rfl

/-- A saved context can be restored when the state of the CPU is saved. -/
theorem simdRestore_ns {cfg : SimdConfig} (hok : SimdOk .NWD cfg (m.cpus c).ctx)
    (hstate : (m.cpus c).stateSaved = true) (hsaved : (m.cpus c).ctx.saved = true) :
    simdRestore cpu m c (.ns c) = .ok (m.setCpu c ((m.cpus c).restoreNs cpu)) := by
  unfold simdRestore
  dsimp only [SimdSmp.ctx]
  rw [assertThat_ok hok.initDone, assertThat_ok hsaved, assertThat_ok hstate,
    assertThat_ok hok.accessible]
  refine congrArg Except.ok ?_
  simp only [SimdSmp.setCtx, SimdSmp.setCpu, Function.update_self, Function.update_idem]
  rfl

theorem simdRestore_own {cfg : SimdConfig} (hok : SimdOk .REL1 cfg (m.recs r).ctx)
    (hstate : (m.cpus c).stateSaved = true) (hsaved : (m.recs r).ctx.saved = true) :
    simdRestore cpu m c (.own r) = .ok ((m.setRec r (m.recs r).restore).setCpu c
      ((m.cpus c).restoreOwn cpu (m.recs r))) := by
  unfold simdRestore
  dsimp only [SimdSmp.ctx]
  rw [assertThat_ok hok.initDone, assertThat_ok hsaved, assertThat_ok hstate,
    assertThat_ok hok.accessible]
  rfl

end

/-- The host has the registers, as it left them. -/
structure HostIn (cpu : SimdPlatform) (k : CpuSimd) : Prop where
  stateSaved : k.stateSaved = false
  saved : k.ctx.saved = false
  owns : OwnsRegs cpu k.ctx k.regs k.left

/-- The registers of the host are in memory, and the CPU is not in streaming mode. -/
structure HostOut (cpu : SimdPlatform) (k : CpuSimd) : Prop where
  saved : k.ctx.saved = true
  stored : Stored cpu k.ctx k.left
  mode : k.regs.isSmeSm = false

structure RealmIn (cpu : SimdPlatform) (k : CpuSimd) (x : RecSimd ι) : Prop where
  stateSaved : k.stateSaved = false
  saved : x.ctx.saved = false
  owns : OwnsRegs cpu x.ctx k.regs x.left

structure RealmOut (cpu : SimdPlatform) (x : RecSimd ι) : Prop where
  saved : x.ctx.saved = true
  stored : Stored cpu x.ctx x.left

/-- The active context of a REC, and its traps. -/
inductive Active (c : ι) (r : Word) (x : RecSimd ι) : Bool → Prop
  | ns (active : x.activeSimdCtx = some (.ns c)) (cptr : x.cptrEl2 = cptrEl2VheInit) :
      Active c r x false
  | own (active : x.activeSimdCtx = some (.own r))
      (cptr : x.cptrEl2 = simdEnableCptrFlags x.simdCfg cptrEl2VheInit) : Active c r x true

/-- Either the host or the realm has the registers while a REC runs. -/
inductive Turn (cpu : SimdPlatform) (c : ι) (r : Word) (k : CpuSimd) (x : RecSimd ι) : Prop
  | host (active : Active c r x false) (host : HostIn cpu k) (realm : RealmOut cpu x) :
      Turn cpu c r k x
  | realm (active : Active c r x true) (host : HostOut cpu k) (realm : RealmIn cpu k x) :
      Turn cpu c r k x

/-- Where a CPU is, and who has its registers there. -/
inductive CpuOk (cpu : SimdPlatform) (c : ι) (job : Job) (k : CpuSimd)
  (recs : Word → RecSimd ι) :
    Prop
  | host (phase : k.phase = .host) (idle : job = .idle) (cptr : k.cptrEl2 = cptrEl2VheInit)
      (stateSaved : k.stateSaved = false) (saved : k.ctx.saved = false) : CpuOk cpu c job k recs
  | handling {act : Option Act} (phase : k.phase = .handling act false)
      (plain : rmiHandlerNeedsFpu cpu act = false) (outside : ∀ r, job ≠ .running r)
      (cptr : k.cptrEl2 = cptrEl2VheInit) (host : HostIn cpu k) : CpuOk cpu c job k recs
  | hashing {act : Option Act} (phase : k.phase = .handling act true)
      (needs : rmiHandlerNeedsFpu cpu act = true) (outside : ∀ r, job ≠ .running r)
      (cptr : k.cptrEl2 = cptrEl2VheInit) (stateSaved : k.stateSaved = true)
      (host : HostOut cpu k) :
      CpuOk cpu c job k recs
  | loop {r : Word} (phase : k.phase = .loop) (runs : job = .running r)
      (cptr : k.cptrEl2 = cptrEl2VheInit) (turn : Turn cpu c r k (recs r)) : CpuOk cpu c job k recs
  | realm {r : Word} (phase : k.phase = .realm cptrEl2VheInit) (runs : job = .running r)
      (cptr : k.cptrEl2 = (recs r).cptrEl2) (turn : Turn cpu c r k (recs r)) :
        CpuOk cpu c job k recs
  | rsi {r : Word} {f : RsiFunction} (phase : k.phase = .rsi f false)
      (plain : rsiHandlerNeedsFpu cpu f = false) (runs : job = .running r)
      (cptr : k.cptrEl2 = cptrEl2VheInit) (turn : Turn cpu c r k (recs r)) : CpuOk cpu c job k recs
  | parked {r : Word} {f : RsiFunction} {own : Bool} (phase : k.phase = .rsi f true)
      (runs : job = .running r) (cptr : k.cptrEl2 = cptrEl2VheInit)
      (stateSaved : k.stateSaved = true) (active : Active c r (recs r) own) (host : HostOut cpu k)
      (realm : RealmOut cpu (recs r)) : CpuOk cpu c job k recs

/-- A REC that does not run. -/
structure AtRest (cpu : SimdPlatform) (x : RecSimd ι) : Prop where
  active : x.activeSimdCtx = none
  cptr : x.cptrEl2 = cptrEl2VheInit
  out : RealmOut cpu x

/-- The context of a REC. Realms have no SME. -/
structure RecOk (x : RecSimd ι) : Prop where
  ctx : SimdOk .REL1 x.simdCfg x.ctx
  noSme : x.simdCfg.smeEn = false

/-- What holds between any two steps. -/
structure SimdInv (cpu : SimdPlatform) (m : SimdSmp ι) : Prop where
  smp : SmpInv m.smp
  ns : ∀ c, SimdOk .NWD cpu.cfg (m.cpus c).ctx
  mode : ∀ c, (m.cpus c).regs.isSmeSm = true → cpu.cfg.smeEn = true
  cpus : ∀ c, CpuOk cpu c (m.smp.cpu c) (m.cpus c) m.recs
  recs : ∀ r, (m.smp.mem.granule r).state = .REC → RecOk (m.recs r)
  rest : ∀ r, (m.smp.mem.granule r).state = .REC → (∀ c, m.smp.cpu c ≠ .running r) →
    AtRest cpu (m.recs r)

section
variable {c : ι} {k k' : CpuSimd} {recs recs' : Word → RecSimd ι} {job : Job} {r : Word}
  {x : RecSimd ι} {m : SimdSmp ι}

omit [DecidableEq ι] in
/-- Only the running REC matters to a CPU. -/
theorem CpuOk.congr (h : CpuOk cpu c job k recs)
    (hrecs : ∀ r, job = .running r → recs' r = recs r) :
    CpuOk cpu c job k recs' := by
  cases h with
  | host phase idle cptr stateSaved saved => exact .host phase idle cptr stateSaved saved
  | handling phase plain outside cptr host => exact .handling phase plain outside cptr host
  | hashing phase needs outside cptr stateSaved host =>
    exact .hashing phase needs outside cptr stateSaved host
  | loop phase runs cptr turn => exact .loop phase runs cptr (by rwa [hrecs _ runs])
  | realm phase runs cptr turn =>
    exact .realm phase runs (by rwa [hrecs _ runs]) (by rwa [hrecs _ runs])
  | rsi phase plain runs cptr turn => exact .rsi phase plain runs cptr (by rwa [hrecs _ runs])
  | @parked r f own phase runs cptr stateSaved active host realm =>
    have hactive : Active c r (recs' r) own := by rwa [hrecs _ runs]
    exact .parked phase runs cptr stateSaved hactive host (by rwa [hrecs _ runs])

/-- One CPU changes. -/
theorem SimdInv.setCpu (h : SimdInv cpu m) (hns : SimdOk .NWD cpu.cfg k.ctx)
    (hmode : k.regs.isSmeSm = true → cpu.cfg.smeEn = true)
    (hk : CpuOk cpu c (m.smp.cpu c) k m.recs) : SimdInv cpu (m.setCpu c k) := by
  refine ⟨h.smp, ?_, ?_, ?_, h.recs, h.rest⟩
  · exact (Function.forall_update_iff m.cpus fun _ k => SimdOk .NWD cpu.cfg k.ctx).mpr
      ⟨hns, fun c' _ => h.ns c'⟩
  · exact (Function.forall_update_iff m.cpus fun _ k =>
      k.regs.isSmeSm = true → cpu.cfg.smeEn = true).mpr ⟨hmode, fun c' _ => h.mode c'⟩
  · exact (Function.forall_update_iff m.cpus fun c' k => CpuOk cpu c' (m.smp.cpu c') k m.recs).mpr
      ⟨hk, fun c' _ => h.cpus c'⟩

omit [DecidableEq ι] in
theorem SimdInv.running_rec (h : SimdInv cpu m) (hrun : m.smp.cpu c = .running r) :
    (m.smp.mem.granule r).state = .REC := by
  rw [h.smp.refs.entered c r (by rw [hrun]; rfl)]

/-- One CPU changes with its REC, and the machine below with it. -/
theorem SimdInv.put (h : SimdInv cpu m) (hin : (m.smp.cpu c).inside = some r) {n : Smp ι}
    (hn : SmpInv n) (hcpu : ∀ c', c' ≠ c → n.cpu c' = m.smp.cpu c')
    (hrec : ∀ g, (n.mem.granule g).state = .REC ↔ (m.smp.mem.granule g).state = .REC)
    (hns : SimdOk .NWD cpu.cfg k.ctx) (hmode : k.regs.isSmeSm = true → cpu.cfg.smeEn = true)
    (hx : RecOk x) (hk : CpuOk cpu c (n.cpu c) k (Function.update m.recs r x))
    (hrest : n.cpu c ≠ .running r → AtRest cpu x) :
    SimdInv cpu ⟨n, Function.update m.cpus c k, Function.update m.recs r x⟩ := by
  have halone : ∀ c', c' ≠ c → m.smp.cpu c' ≠ .running r := by
    intro c' hc hr
    exact hc (h.smp.refs.alone c' c r (by rw [hr]; rfl) hin)
  refine ⟨hn, ?_, ?_, ?_, fun g hg => ?_, fun g hg hout => ?_⟩
  · exact (Function.forall_update_iff m.cpus fun _ k => SimdOk .NWD cpu.cfg k.ctx).mpr
      ⟨hns, fun c' _ => h.ns c'⟩
  · exact (Function.forall_update_iff m.cpus fun _ k =>
      k.regs.isSmeSm = true → cpu.cfg.smeEn = true).mpr ⟨hmode, fun c' _ => h.mode c'⟩
  · refine (Function.forall_update_iff m.cpus fun c' k =>
      CpuOk cpu c' (n.cpu c') k (Function.update m.recs r x)).mpr ⟨hk, fun c' hc => ?_⟩
    rw [hcpu c' hc]
    refine (h.cpus c').congr fun r' hr' => ?_
    have hne : r' ≠ r := by
      rintro rfl
      exact halone c' hc hr'
    exact Function.update_of_ne hne _ _
  · by_cases hgr : g = r
    · subst hgr
      simpa only [Function.update_self]
    · simp only [Function.update_of_ne hgr]
      exact h.recs g ((hrec g).mp hg)
  · by_cases hgr : g = r
    · subst hgr
      simp only [Function.update_self]
      exact hrest (hout c)
    · simp only [Function.update_of_ne hgr]
      refine h.rest g ((hrec g).mp hg) fun c' hr' => ?_
      by_cases hc : c' = c
      · subst hc
        rw [hr'] at hin
        exact hgr (Option.some.inj hin)
      · exact hout c' ((hcpu c' hc).trans hr')

end

section
variable {c : ι} {k : CpuSimd} {x : RecSimd ι}

theorem HostIn.save (h : HostIn cpu k) (hok : SimdOk .NWD cpu.cfg k.ctx)
    (hmode : k.regs.isSmeSm = true → cpu.cfg.smeEn = true) : HostOut cpu (k.saveNs cpu) := by
  have hsm : k.regs.isSmeSm = true → k.ctx.sme = true := fun hr => hok.sme.trans (hmode hr)
  exact ⟨rfl, h.owns.stored hsm, saveCtx_mode hsm⟩

theorem SimdOk.saveNs (hok : SimdOk .NWD cpu.cfg k.ctx) : SimdOk .NWD cpu.cfg (k.saveNs cpu).ctx :=
  hok.of_fixed saveCtx_fixed

theorem SimdOk.restoreNs (hok : SimdOk .NWD cpu.cfg k.ctx) :
    SimdOk .NWD cpu.cfg (k.restoreNs cpu).ctx :=
  hok.of_fixed ⟨rfl, rfl, rfl, rfl, rfl, rfl, rfl⟩

theorem HostOut.restore (h : HostOut cpu k) : HostIn cpu (k.restoreNs cpu) :=
  ⟨rfl, rfl, (h.stored _ h.mode).of_fixed ⟨rfl, rfl, rfl, rfl, rfl, rfl, rfl⟩⟩

theorem HostOut.restore_mode (h : HostOut cpu k) (hok : SimdOk .NWD cpu.cfg k.ctx)
    (hr : (k.restoreNs cpu).regs.isSmeSm = true) : cpu.cfg.smeEn = true := by
  cases hsme : cpu.cfg.smeEn with
  | true => rfl
  | false =>
    have hsvcr : (k.restoreNs cpu).regs.svcr = k.regs.svcr := restoreCtx_svcr (hok.sme.trans hsme)
    rw [SimdRegs.isSmeSm_congr hsvcr, h.mode] at hr
    exact hr

omit [DecidableEq ι] in
theorem RealmIn.save (h : RealmIn cpu k x) (hmode : k.regs.isSmeSm = false) :
    RealmOut cpu (x.save cpu k) ∧ (k.saveOwn cpu x).regs.isSmeSm = false := by
  have hsm : k.regs.isSmeSm = true → x.ctx.sme = true := by simp [hmode]
  exact ⟨⟨rfl, h.owns.stored hsm⟩, saveCtx_mode hsm⟩

omit [DecidableEq ι] in
theorem RecOk.save (h : RecOk x) : RecOk (x.save cpu k) :=
  ⟨h.ctx.of_fixed saveCtx_fixed, h.noSme⟩

omit [DecidableEq ι] in
theorem RecOk.restore (h : RecOk x) : RecOk x.restore :=
  ⟨h.ctx.of_fixed ⟨rfl, rfl, rfl, rfl, rfl, rfl, rfl⟩, h.noSme⟩

omit [DecidableEq ι] in
theorem RealmOut.restore (h : RealmOut cpu x) (hok : RecOk x) (hmode : k.regs.isSmeSm = false) :
    RealmIn cpu (k.restoreOwn cpu x) x.restore ∧ (k.restoreOwn cpu x).regs.isSmeSm = false := by
  refine ⟨⟨rfl, rfl, (h.stored _ hmode).of_fixed ⟨rfl, rfl, rfl, rfl, rfl, rfl, rfl⟩⟩,
    ?_⟩
  have hsvcr : (k.restoreOwn cpu x).regs.svcr = k.regs.svcr :=
    restoreCtx_svcr (hok.ctx.sme.trans hok.noSme)
  rw [SimdRegs.isSmeSm_congr hsvcr, hmode]

end

namespace CpuOk

variable {c : ι} {job : Job} {k : CpuSimd} {recs : Word → RecSimd ι} {r : Word}

omit [DecidableEq ι]

theorem at_host (h : CpuOk cpu c job k recs) (hp : k.phase = .host) :
    job = .idle ∧ k.cptrEl2 = cptrEl2VheInit ∧ k.stateSaved = false ∧
      k.ctx.saved = false := by
  cases h with
  | host phase idle cptr stateSaved saved => exact ⟨idle, cptr, stateSaved, saved⟩
  | handling phase | hashing phase | loop phase | realm phase | rsi phase | parked phase =>
    rw [hp] at phase
    cases phase

theorem at_handling {act : Option Act} {restore : Bool} (h : CpuOk cpu c job k recs)
    (hp : k.phase = .handling act restore) :
    restore = rmiHandlerNeedsFpu cpu act ∧ (∀ r, job ≠ .running r) ∧
      k.cptrEl2 = cptrEl2VheInit ∧
      ((restore = false ∧ HostIn cpu k) ∨
      (restore = true ∧ k.stateSaved = true ∧ HostOut cpu k)) := by
  cases h with
  | handling phase plain outside cptr host =>
    rw [hp] at phase
    cases phase
    exact ⟨plain.symm, outside, cptr, .inl ⟨rfl, host⟩⟩
  | hashing phase needs outside cptr stateSaved host =>
    rw [hp] at phase
    cases phase
    exact ⟨needs.symm, outside, cptr, .inr ⟨rfl, stateSaved, host⟩⟩
  | host phase | loop phase | realm phase | rsi phase | parked phase =>
    rw [hp] at phase
    cases phase

theorem at_loop (h : CpuOk cpu c job k recs) (hp : k.phase = .loop) (hr : job = .running r) :
    k.cptrEl2 = cptrEl2VheInit ∧ Turn cpu c r k (recs r) := by
  cases h with
  | loop phase runs cptr turn =>
    rw [hr] at runs
    cases runs
    exact ⟨cptr, turn⟩
  | host phase | handling phase | hashing phase | realm phase | rsi phase | parked phase =>
    rw [hp] at phase
    cases phase

theorem at_realm {w : Word} (h : CpuOk cpu c job k recs) (hp : k.phase = .realm w)
    (hr : job = .running r) :
    w = cptrEl2VheInit ∧ k.cptrEl2 = (recs r).cptrEl2 ∧ Turn cpu c r k (recs r) := by
  cases h with
  | realm phase runs cptr turn =>
    rw [hr] at runs
    cases runs
    rw [hp] at phase
    cases phase
    exact ⟨rfl, cptr, turn⟩
  | host phase | handling phase | hashing phase | loop phase | rsi phase | parked phase =>
    rw [hp] at phase
    cases phase

theorem at_rsi {f : RsiFunction} {restore : Bool} (h : CpuOk cpu c job k recs)
    (hp : k.phase = .rsi f restore) (hr : job = .running r) :
    k.cptrEl2 = cptrEl2VheInit ∧
      ((restore = false ∧ rsiHandlerNeedsFpu cpu f = false ∧ Turn cpu c r k (recs r)) ∨
        (restore = true ∧ k.stateSaved = true ∧ (∃ own, Active c r (recs r) own) ∧
          HostOut cpu k ∧
          RealmOut cpu (recs r))) := by
  cases h with
  | rsi phase plain runs cptr turn =>
    rw [hr] at runs
    cases runs
    rw [hp] at phase
    cases phase
    exact ⟨cptr, .inl ⟨rfl, plain, turn⟩⟩
  | parked phase runs cptr stateSaved active host realm =>
    rw [hr] at runs
    cases runs
    rw [hp] at phase
    cases phase
    exact ⟨cptr, .inr ⟨rfl, stateSaved, ⟨_, active⟩, host, realm⟩⟩
  | host phase | handling phase | hashing phase | loop phase | realm phase =>
    rw [hp] at phase
    cases phase

end CpuOk

section
variable {m : SimdSmp ι} {c : ι} {r : Word} {n : Smp ι}

omit [DecidableEq ι] in
theorem simdUpdateSmcSveHint_ok {cfg : SimdConfig} {x : SimdContext} (hok : SimdOk .NWD cfg x)
    (hsaved : x.saved = false) (sveHint : Bool) :
    simdUpdateSmcSveHint x sveHint = .ok (if x.sve then { x with sveHint := sveHint } else x) := by
  unfold simdUpdateSmcSveHint
  rw [assertThat_ok hok.initDone]
  split
  · rw [assertThat_ok (by rw [hsaved]; rfl)]
    rfl
  · rfl

/-- A call of the host. -/
theorem SimdInv.smc (h : SimdInv cpu m) (hp : (m.cpus c).phase = .host) (act : Option Act)
    (sveHint : Bool) : ∃ m', handleNsSmcEntry cpu m c act sveHint = .ok m' ∧
      SimdInv cpu m' := by
  obtain ⟨hidle, hcptr, hstate, hsaved⟩ := (h.cpus c).at_host hp
  have hok := h.ns c
  let y := if (m.cpus c).ctx.sve then { (m.cpus c).ctx with sveHint := sveHint } else (m.cpus c).ctx
  let k : CpuSimd := { m.cpus c with
    ctx := y, left := (m.cpus c).regs, phase := .handling act (rmiHandlerNeedsFpu cpu act) }
  have hy : y.saved = false ∧ SimdOk .NWD cpu.cfg y := by
    show (if (m.cpus c).ctx.sve then { (m.cpus c).ctx with sveHint := sveHint } else _ :
      SimdContext).saved = false ∧ SimdOk .NWD cpu.cfg (if (m.cpus c).ctx.sve then _ else _)
    split
    · exact ⟨hsaved, hok.owner, hok.sve, hok.sme, hok.initDone, hok.cptrEl2⟩
    · exact ⟨hsaved, hok⟩
  have hin : HostIn cpu k := by
    refine ⟨hstate, hy.1, .refl, fun _ => ?_⟩
    exact (if_pos hy.2.owner).symm
  have hidle' : ∀ r, m.smp.cpu c ≠ .running r := by
    rw [hidle]
    nofun
  have hentry : handleNsSmcEntry cpu m c act sveHint = if rmiHandlerNeedsFpu cpu act then
      simdContextSwitch cpu (m.setCpu c k) c (some (.ns c)) none else pure (m.setCpu c k) := by
    unfold handleNsSmcEntry
    rw [assertThat_ok (by rw [hstate]; rfl), simdUpdateSmcSveHint_ok hok hsaved]
    rfl
  cases hneeds : rmiHandlerNeedsFpu cpu act with
  | false =>
    refine ⟨m.setCpu c k, ?_, h.setCpu hy.2 (h.mode c) (.handling ?_ hneeds hidle' hcptr hin)⟩
    · rw [hentry, hneeds]
      rfl
    · show SimdPhase.handling act (rmiHandlerNeedsFpu cpu act) = _
      rw [hneeds]
  | true =>
    have hout : HostOut cpu (k.saveNs cpu) := hin.save hy.2 (h.mode c)
    refine ⟨m.setCpu c (k.saveNs cpu), ?_, h.setCpu hy.2.saveNs (fun hr => ?_)
      (.hashing ?_ hneeds hidle' hcptr rfl hout)⟩
    · rw [hentry, hneeds, if_pos rfl, simdContextSwitch_save]
      have hsave := @simdSave_ns ι _ cpu (m.setCpu c k) c cpu.cfg
      simp only [SimdSmp.setCpu_cpus, SimdSmp.setCpu_setCpu] at hsave
      exact hsave hy.2 hstate hy.1
    · rw [hout.mode] at hr
      cases hr
    · show SimdPhase.handling act (rmiHandlerNeedsFpu cpu act) = _
      rw [hneeds]

/-- The return to the host. -/
theorem SimdInv.ret (h : SimdInv cpu m) {act : Option Act} {restore : Bool}
    (hp : (m.cpus c).phase = .handling act restore) (hidle : m.smp.cpu c = .idle) :
    ∃ k, handleNsSmcExit cpu m c = .ok (m.setCpu c { k with phase := .host }) ∧ HostIn cpu k ∧
      k.left = (m.cpus c).left ∧ SimdInv cpu (m.setCpu c { k with phase := .host }) := by
  obtain ⟨-, -, hcptr, ⟨rfl, hin⟩ | ⟨rfl, hstate, hout⟩⟩ := (h.cpus c).at_handling hp
  · refine ⟨m.cpus c, ?_, hin, rfl, h.setCpu (h.ns c) (h.mode c)
      (.host rfl hidle hcptr hin.stateSaved hin.saved)⟩
    unfold handleNsSmcExit
    rw [hp]
    show (assertThat (!(m.cpus c).stateSaved) .panic >>= _) = _
    rw [assertThat_ok (by rw [hin.stateSaved]; rfl)]
    rfl
  · have hin := hout.restore
    refine ⟨(m.cpus c).restoreNs cpu, ?_, hin, rfl, h.setCpu (h.ns c).restoreNs
      (fun hr => hout.restore_mode (h.ns c) hr) (.host rfl hidle hcptr rfl rfl)⟩
    unfold handleNsSmcExit
    rw [hp]
    show (simdContextSwitch cpu m c none (some (.ns c)) >>= _) = _
    rw [simdContextSwitch_restore, simdRestore_ns (h.ns c) hstate hout.saved]
    show (assertThat _ .panic >>= _) = _
    rw [assertThat_ok (by rw [SimdSmp.setCpu_cpus]; rfl)]
    show Except.ok (SimdSmp.setPhase _ c .host) = _
    simp only [SimdSmp.setPhase, SimdSmp.setCpu_cpus, SimdSmp.setCpu_setCpu]

omit [DecidableEq ι] in
/-- The monitor uses the registers only while they are saved. -/
theorem SimdInv.hashes_saved (h : SimdInv cpu m) (hfpu : cpu.fpuUseAtRel2 = true)
    (hp : (m.cpus c).phase.hashes = true) : (m.cpus c).stateSaved = true := by
  cases h.cpus c with
  | hashing phase needs outside cptr stateSaved host => exact stateSaved
  | parked phase runs cptr stateSaved active host realm => exact stateSaved
  | @handling act phase plain =>
    rw [phase] at hp
    cases act with
    | none => cases hp
    | some act => cases act <;> simp_all [SimdPhase.hashes, Act.hashes, rmiHandlerNeedsFpu]
  | @rsi r f phase plain =>
    rw [phase] at hp
    cases f <;> simp_all [SimdPhase.hashes, RsiFunction.hashes, rsiHandlerNeedsFpu]
  | host phase | loop phase | realm phase =>
    rw [phase] at hp
    cases hp

/-- Registers that are saved may change. -/
theorem SimdInv.fpu (h : SimdInv cpu m) (hfpu : cpu.fpuUseAtRel2 = true)
    (hp : (m.cpus c).phase.hashes = true) {regs : SimdRegs}
    (hregs : regs.svcr = (m.cpus c).regs.svcr) :
    SimdInv cpu (m.setCpu c { m.cpus c with regs := regs }) := by
  have hsaved := h.hashes_saved hfpu hp
  have hmode : regs.isSmeSm = (m.cpus c).regs.isSmeSm := SimdRegs.isSmeSm_congr hregs
  refine h.setCpu (h.ns c) (fun hr => h.mode c (hmode ▸ hr)) ?_
  have hhost : HostOut cpu (m.cpus c) → HostOut cpu { m.cpus c with regs := regs } := fun hout =>
    ⟨hout.saved, hout.stored, hmode.trans hout.mode⟩
  cases h.cpus c with
  | hashing phase needs outside cptr stateSaved host =>
    exact .hashing phase needs outside cptr stateSaved (hhost host)
  | parked phase runs cptr stateSaved active host realm =>
    exact .parked phase runs cptr stateSaved active (hhost host) realm
  | handling phase plain outside cptr host =>
    rw [host.stateSaved] at hsaved
    cases hsaved
  | host phase idle cptr stateSaved saved =>
    rw [stateSaved] at hsaved
    cases hsaved
  | loop phase runs cptr turn | realm phase runs cptr turn | rsi phase plain runs cptr turn =>
    cases turn with
    | host active host realm =>
      rw [host.stateSaved] at hsaved
      cases hsaved
    | realm active host realm =>
      rw [realm.stateSaved] at hsaved
      cases hsaved

omit [DecidableEq ι] in
/-- The traps and the phase do not matter to a turn. -/
theorem Turn.with_phase {k : CpuSimd} {x : RecSimd ι} (h : Turn cpu c r k x) (cptr : Word)
    (phase : SimdPhase) : Turn cpu c r { k with cptrEl2 := cptr, phase := phase } x := by
  cases h with
  | host active host realm => exact .host active ⟨host.stateSaved, host.saved, host.owns⟩ realm
  | realm active host realm =>
    exact .realm active ⟨host.saved, host.stored, host.mode⟩
      ⟨realm.stateSaved, realm.saved, realm.owns⟩

/-- A realm is entered with its own traps. -/
theorem SimdInv.run (h : SimdInv cpu m) (hp : (m.cpus c).phase = .loop)
    (hrun : m.smp.cpu c = .running r) : SimdInv cpu (recRunLoopEnter m c r) := by
  obtain ⟨hcptr, hturn⟩ := (h.cpus c).at_loop hp hrun
  refine h.setCpu (h.ns c) (h.mode c) (.realm (r := r) ?_ hrun ?_ (hturn.with_phase _ _))
  · show SimdPhase.realm (m.cpus c).cptrEl2 = _
    rw [hcptr]
  · show (if (m.cpus c).cptrEl2 ≠ (m.recs r).cptrEl2 then (m.recs r).cptrEl2 else
      (m.cpus c).cptrEl2) = _
    split
    · rfl
    · next heq => exact not_ne_iff.mp heq

/-- Instructions of a realm change registers only in its turn. -/
theorem SimdInv.guest (h : SimdInv cpu m) {w : Word} (hp : (m.cpus c).phase = .realm w)
    (hrun : m.smp.cpu c = .running r) {regs : SimdRegs}
    (hmay : GuestMay (m.cpus c).cptrEl2 (m.cpus c).regs regs) :
    ∃ m', simdStep cpu m (.guest c r regs) m.smp = .ok m' ∧ SimdInv cpu m' := by
  obtain ⟨rfl, hcptr, hturn⟩ := (h.cpus c).at_realm hp hrun
  refine ⟨_, rfl, ?_⟩
  cases hturn with
  | host active host realm =>
    obtain ⟨hactive, hrec⟩ := active
    have htrap : cptrFpen (m.cpus c).cptrEl2 ≠ noTrap11 := by
      rw [hcptr, hrec]
      decide
    rw [GuestMay, if_pos htrap] at hmay
    subst hmay
    rw [if_neg htrap]
    exact h.setCpu (h.ns c) (h.mode c)
      (.realm (r := r) hp hrun hcptr (.host (.ns hactive hrec) host realm))
  | realm active host realm =>
    cases active with | own hactive hrec =>
    have hok := h.recs r (h.running_rec hrun)
    have hopen : cptrFpen (m.cpus c).cptrEl2 = noTrap11 := by
      rw [hcptr, hrec, cptrFpen_enable]
    have hsme : cptrSmen (m.cpus c).cptrEl2 ≠ noTrap11 := by
      rw [hcptr, hrec, cptrSmen_enable, hok.noSme]
      decide
    rw [GuestMay, if_neg (not_not.mpr hopen)] at hmay
    obtain ⟨hzcr, hsvcr, -⟩ := hmay
    have hmode : regs.isSmeSm = false :=
      (SimdRegs.isSmeSm_congr (hsvcr hsme)).trans host.mode
    rw [if_pos hopen]
    have howner : (m.recs r).ctx.owner ≠ .NWD := by
      rw [hok.ctx.owner]
      decide
    have howns : OwnsRegs cpu (m.recs r).ctx regs regs := by
      refine ⟨.refl, fun hs => ?_⟩
      rw [hzcr, realm.owns.zcrEl2 hs, if_neg howner, if_neg howner]
    have hturn : Turn cpu c r { m.cpus c with regs := regs } { m.recs r with left := regs } :=
      .realm (.own hactive hrec) ⟨host.saved, host.stored, hmode⟩
        ⟨realm.stateSaved, realm.saved, howns⟩
    refine h.put (by rw [hrun]; rfl) h.smp (fun _ _ => rfl) (fun _ => Iff.rfl) (h.ns c)
      (fun hr => ?_) ⟨hok.ctx, hok.noSme⟩ (.realm (r := r) hp hrun ?_ ?_) fun hne =>
        absurd hrun hne
    · rw [hmode] at hr
      cases hr
    · rw [Function.update_self]
      exact hcptr
    · rw [Function.update_self]
      exact hturn

/-- A realm is left with the traps of the monitor. -/
theorem SimdInv.exit (h : SimdInv cpu m) {w : Word} (hp : (m.cpus c).phase = .realm w)
    (hrun : m.smp.cpu c = .running r) :
    recRunLoopExit m c r = m.setCpu c { m.cpus
      c with cptrEl2 := cptrEl2VheInit, phase := .loop } ∧
      SimdInv cpu (recRunLoopExit m c r) := by
  obtain ⟨rfl, hcptr, hturn⟩ := (h.cpus c).at_realm hp hrun
  have hback : (if cptrEl2VheInit ≠ (m.recs r).cptrEl2 then cptrEl2VheInit else
      (m.cpus c).cptrEl2) = cptrEl2VheInit := by
    split
    · rfl
    · next heq => rw [hcptr, ← not_ne_iff.mp heq]
  have hexit : recRunLoopExit m c r =
      m.setCpu c { m.cpus c with cptrEl2 := cptrEl2VheInit, phase := .loop } := by
    unfold recRunLoopExit
    rw [hp]
    dsimp only
    rw [hback]
  rw [hexit]
  exact ⟨rfl, h.setCpu (h.ns c) (h.mode c) (.loop rfl hrun rfl (hturn.with_phase _ _))⟩

/-- The registers go from the host to the realm. -/
theorem SimdInv.toRealm (h : SimdInv cpu m) (hp : (m.cpus c).phase = .loop)
    (hrun : m.smp.cpu c = .running r) (hcptr : (m.cpus c).cptrEl2 = cptrEl2VheInit)
    (hrec : (m.recs r).cptrEl2 = cptrEl2VheInit)
    (hin : HostIn cpu (m.cpus c)) (hout : RealmOut cpu (m.recs r)) :
    ∃ m', (do
        let m1 ← simdContextSwitch cpu m c (some (.ns c)) (some (.own r))
        return m1.setRec r { m1.recs r with
          activeSimdCtx := some (.own r)
          cptrEl2 := simdEnableCptrFlags (m.recs r).simdCfg (m1.recs r).cptrEl2 } :
        Rmm (SimdSmp ι)) = .ok m' ∧ SimdInv cpu m' := by
  have hok := h.recs r (h.running_rec hrun)
  let k := (m.cpus c).saveNs cpu
  let x : RecSimd ι := { (m.recs r).restore with
    activeSimdCtx := some (.own r)
    cptrEl2 := simdEnableCptrFlags (m.recs r).simdCfg (m.recs r).cptrEl2 }
  have hk : HostOut cpu k := hin.save (h.ns c) (h.mode c)
  obtain ⟨hrealm, hmode⟩ := hout.restore hok hk.mode
  refine ⟨(m.setCpu c (k.restoreOwn cpu (m.recs r))).setRec r x, ?_, ?_⟩
  · rw [simdContextSwitch_both, simdSave_ns (h.ns c) hin.stateSaved hin.saved]
    have hrestore := @simdRestore_own ι _ cpu (m.setCpu c k) c r (m.recs r).simdCfg hok.ctx
    simp only [SimdSmp.setCpu_cpus, SimdSmp.setCpu_recs, SimdSmp.setRec_setCpu,
      SimdSmp.setCpu_setCpu] at hrestore
    show (simdRestore cpu (m.setCpu c k) c (.own r) >>= _) = _
    rw [hrestore rfl hout.saved]
    show Except.ok _ = _
    simp only [SimdSmp.setRec_recs, SimdSmp.setRec_setRec]
    rfl
  · refine h.put (by rw [hrun]; rfl) h.smp (fun _ _ => rfl) (fun _ => Iff.rfl)
      (h.ns c).saveNs (fun hr => ?_) ⟨hok.restore.ctx, hok.noSme⟩
      (.loop (r := r) hp hrun hcptr ?_)
      fun hne => absurd hrun hne
    · rw [hmode] at hr
      cases hr
    · rw [Function.update_self]
      refine .realm (.own rfl ?_) ⟨hk.saved, hk.stored, hmode⟩
        ⟨hrealm.stateSaved, hrealm.saved, hrealm.owns⟩
      show simdEnableCptrFlags _ (m.recs r).cptrEl2 = _
      rw [hrec]
      rfl

/-- A SIMD exception gives the realm its registers, or an undefined abort. -/
theorem SimdInv.trap (h : SimdInv cpu m) {w : Word} (hp : (m.cpus c).phase = .realm w)
    (hrun : m.smp.cpu c = .running r) {ec : SimdEc} (hec : ec.Traps (m.cpus c).cptrEl2) :
    ∃ m', handleSimdException cpu (recRunLoopExit m c r) c r ec = .ok m' ∧ SimdInv cpu m' := by
  obtain ⟨-, hcptr, hturn⟩ := (h.cpus c).at_realm hp hrun
  obtain ⟨hexit, hinv⟩ := h.exit hp hrun
  have hrecs : (recRunLoopExit m c r).recs = m.recs := by rw [hexit]; rfl
  have hcpus : (recRunLoopExit m c r).cpus c =
      { m.cpus c with cptrEl2 := cptrEl2VheInit, phase := .loop } := by
    rw [hexit, SimdSmp.setCpu_cpus]
  have hjob : (recRunLoopExit m c r).smp.cpu c = .running r := by
    rw [hexit]
    exact hrun
  unfold handleSimdException
  rw [hrecs]
  dsimp only
  split_ifs with h1 h2
  · exact ⟨_, rfl, hinv⟩
  · exact ⟨_, rfl, hinv⟩
  · cases hturn with
    | host active host realm =>
      obtain ⟨hactive, hrec⟩ := active
      rw [assertThat_ok (by rw [hactive]; rfl), hactive]
      have hgo := hinv.toRealm (by rw [hcpus]) hjob (by rw [hcpus]) (by rw [hrecs, hrec])
        (by rw [hcpus]; exact ⟨host.stateSaved, host.saved, host.owns⟩)
        (by rw [hrecs]; exact realm)
      rw [hrecs] at hgo
      exact hgo
    | realm active host realm =>
      -- with the traps of the realm open there is nothing to report
      cases active with | own hactive hrec =>
      rw [hcptr, hrec] at hec
      cases ec with
      | FPU => exact absurd (cptrFpen_enable _) hec
      | SVE =>
        cases hsve : (m.recs r).simdCfg.sveEn with
        | false => exact absurd ⟨rfl, hsve⟩ h1
        | true =>
          refine absurd ?_ hec
          rw [cptrZen_enable, hsve]
          rfl
      | SME => exact absurd ⟨rfl, .inr hactive⟩ h2

/-- An RSI handler that hashes has the registers saved. -/
theorem SimdInv.rsi (h : SimdInv cpu m) (hp : (m.cpus c).phase = .loop)
    (hrun : m.smp.cpu c = .running r) (f : RsiFunction) :
    ∃ m', handleRealmRsiStart cpu m c r f = .ok m' ∧ SimdInv cpu m' := by
  obtain ⟨hcptr, hturn⟩ := (h.cpus c).at_loop hp hrun
  have hok := h.recs r (h.running_rec hrun)
  unfold handleRealmRsiStart
  cases hneeds : rsiHandlerNeedsFpu cpu f with
  | false =>
    refine ⟨m.setPhase c (.rsi f false), rfl, h.setCpu (h.ns c) (h.mode c) ?_⟩
    have := hturn.with_phase (m.cpus c).cptrEl2 (.rsi f false)
    exact .rsi rfl hneeds hrun hcptr this
  | true =>
    cases hturn with
    | host active host realm =>
      have hout : HostOut cpu ((m.cpus c).saveNs cpu) := host.save (h.ns c) (h.mode c)
      refine ⟨m.setCpu c { (m.cpus c).saveNs cpu with phase := .rsi f true }, ?_,
        h.setCpu (h.ns c).saveNs (fun hr => ?_)
          (.parked rfl hrun hcptr rfl active ⟨hout.saved, hout.stored, hout.mode⟩ realm)⟩
      · obtain ⟨hactive, -⟩ := active
        rw [if_pos rfl, hactive, simdContextSwitch_save,
          simdSave_ns (h.ns c) host.stateSaved host.saved]
        show Except.ok (SimdSmp.setPhase _ c _) = _
        simp only [SimdSmp.setPhase, SimdSmp.setCpu_cpus, SimdSmp.setCpu_setCpu]
      · rw [hout.mode] at hr
        cases hr
    | realm active host realm =>
      obtain ⟨hout, hmode⟩ := realm.save host.mode
      refine ⟨(m.setCpu c { (m.cpus c).saveOwn cpu (m.recs r) with phase := .rsi f true }).setRec
        r
        ((m.recs r).save cpu (m.cpus c)), ?_, ?_⟩
      · cases active with | own hactive hrec =>
        rw [if_pos rfl, hactive, simdContextSwitch_save,
          simdSave_own hok.ctx realm.stateSaved realm.saved]
        show Except.ok (SimdSmp.setPhase _ c _) = _
        simp only [SimdSmp.setPhase, SimdSmp.setRec_setCpu, SimdSmp.setRec_cpus,
          SimdSmp.setCpu_cpus,
          SimdSmp.setCpu_setCpu]
      · refine h.put (by rw [hrun]; rfl) h.smp (fun _ _ => rfl) (fun _ => Iff.rfl)
          (h.ns c) (fun hr => ?_) hok.save (@CpuOk.parked _ _ _ _ _ _ r _ true rfl hrun hcptr rfl ?_
            ⟨host.saved, host.stored, hmode⟩ ?_) fun hne => absurd hrun hne
        · rw [hmode] at hr
          cases hr
        · rw [Function.update_self]
          cases active with | own hactive hrec =>
          exact .own hactive hrec
        · rw [Function.update_self]
          exact hout

/-- At the end of an RSI call the active context is back. -/
theorem SimdInv.rsiEnd (h : SimdInv cpu m) {f : RsiFunction} {restore : Bool}
    (hp : (m.cpus c).phase = .rsi f restore) (hrun : m.smp.cpu c = .running r) :
    ∃ m', handleRealmRsiEnd cpu m c r = .ok m' ∧ m'.smp = m.smp ∧
      (m'.cpus c).phase = .loop ∧
      SimdInv cpu m' := by
  obtain ⟨hcptr, ⟨rfl, -, hturn⟩ | ⟨rfl, hstate, ⟨own, active⟩, host, realm⟩⟩ :=
    (h.cpus c).at_rsi hp hrun
  · refine ⟨m.setPhase c .loop, ?_,
      rfl, by simp [SimdSmp.setPhase], h.setCpu (h.ns c) (h.mode c) ?_⟩
    · unfold handleRealmRsiEnd
      rw [hp]
      rfl
    · exact .loop rfl hrun hcptr (hturn.with_phase (m.cpus c).cptrEl2 .loop)
  · have hok := h.recs r (h.running_rec hrun)
    unfold handleRealmRsiEnd
    rw [hp]
    cases active with
    | ns hactive hrec =>
      have hin := host.restore
      refine ⟨m.setCpu c { (m.cpus c).restoreNs cpu with phase := .loop }, ?_, rfl, by simp,
        h.setCpu (h.ns c).restoreNs (fun hr => host.restore_mode (h.ns c) hr)
          (.loop rfl hrun hcptr (.host (.ns hactive hrec) ⟨rfl, rfl, hin.owns⟩ realm))⟩
      rw [hactive, simdContextSwitch_restore, simdRestore_ns (h.ns c) hstate host.saved]
      show Except.ok (SimdSmp.setPhase _ c _) = _
      simp only [SimdSmp.setPhase, SimdSmp.setCpu_cpus, SimdSmp.setCpu_setCpu]
    | own hactive hrec =>
      obtain ⟨hrealm, hmode⟩ := realm.restore hok host.mode
      refine ⟨(m.setCpu c { (m.cpus c).restoreOwn cpu (m.recs r) with phase := .loop }).setRec r
        (m.recs r).restore, ?_, rfl, by simp, ?_⟩
      · rw [hactive, simdContextSwitch_restore, simdRestore_own hok.ctx hstate realm.saved]
        show Except.ok (SimdSmp.setPhase _ c _) = _
        simp only [SimdSmp.setPhase, SimdSmp.setRec_setCpu, SimdSmp.setRec_cpus,
          SimdSmp.setCpu_cpus,
          SimdSmp.setCpu_setCpu]
      · refine h.put (by rw [hrun]; rfl) h.smp (fun _ _ => rfl) (fun _ => Iff.rfl)
          (h.ns c) (fun hr => ?_) hok.restore (.loop (r := r) rfl hrun hcptr ?_)
          fun hne => absurd hrun hne
        · rw [hmode] at hr
          cases hr
        · rw [Function.update_self]
          exact .realm (.own hactive hrec) ⟨host.saved, host.stored, hmode⟩
            ⟨rfl, hrealm.saved, hrealm.owns⟩

/-- At the end of the loop the registers are the host's. -/
theorem SimdInv.loopEnd (h : SimdInv cpu m) (hp : (m.cpus c).phase = .loop)
    (hrun : m.smp.cpu c = .running r) :
    ∃ k x, recRunLoopEnd cpu m c r = .ok ((m.setCpu c k).setRec r x) ∧
      k.phase = .handling none false ∧ k.cptrEl2 = cptrEl2VheInit ∧ HostIn cpu k ∧
      SimdOk .NWD cpu.cfg k.ctx ∧ (k.regs.isSmeSm = true → cpu.cfg.smeEn = true) ∧ RecOk x ∧
      AtRest cpu x := by
  obtain ⟨hcptr, hturn⟩ := (h.cpus c).at_loop hp hrun
  have hok := h.recs r (h.running_rec hrun)
  unfold recRunLoopEnd
  cases hturn with
  | host active host realm =>
    obtain ⟨hactive, hrec⟩ := active
    refine ⟨{ m.cpus c with phase := .handling none false },
      { m.recs r with activeSimdCtx := none }, ?_, rfl, hcptr,
      ⟨host.stateSaved, host.saved, host.owns⟩, h.ns c, h.mode c, ⟨hok.ctx, hok.noSme⟩,
      ⟨rfl, hrec, realm.saved, realm.stored⟩⟩
    rw [if_neg (by rw [hactive]; simp)]
    rfl
  | realm active host realm =>
    cases active with | own hactive hrec =>
    obtain ⟨hout, hmode⟩ := realm.save host.mode
    let k := (m.cpus c).saveOwn cpu (m.recs r)
    let x := (m.recs r).save cpu (m.cpus c)
    have hk : HostOut cpu k := ⟨host.saved, host.stored, hmode⟩
    have hin := hk.restore
    refine ⟨{ k.restoreNs cpu with phase := .handling none false },
      { x with
        activeSimdCtx := none
        cptrEl2 := simdDisableAllCptrFlags x.cptrEl2 }, ?_, rfl, hcptr,
      ⟨rfl, rfl, hin.owns⟩, SimdOk.restoreNs (k := k) (h.ns c),
        fun hr => hk.restore_mode (h.ns c) hr,
      ⟨hok.save.ctx, hok.noSme⟩, ⟨rfl, ?_, hout.saved, hout.stored⟩⟩
    · have hrestore := @simdRestore_ns ι _ cpu ((m.setCpu c k).setRec r x) c cpu.cfg
      simp only [SimdSmp.setRec_cpus, SimdSmp.setCpu_cpus, SimdSmp.setRec_setCpu,
        SimdSmp.setCpu_setCpu] at hrestore
      rw [if_pos hactive, hactive, simdContextSwitch_both,
        simdSave_own hok.ctx realm.stateSaved realm.saved, SimdSmp.setRec_setCpu]
      show ((simdRestore cpu ((m.setCpu c k).setRec r x) c (.ns c) >>= _) >>= _) = _
      rw [hrestore (h.ns c) rfl host.saved]
      show Except.ok (SimdSmp.setPhase _ c _) = _
      simp only [SimdSmp.setPhase, SimdSmp.setRec_recs, SimdSmp.setRec_setRec,
        SimdSmp.setRec_setCpu,
        SimdSmp.setRec_cpus, SimdSmp.setCpu_cpus, SimdSmp.setCpu_setCpu]
    · show simdDisableAllCptrFlags (m.recs r).cptrEl2 = _
      rw [hrec, simdDisableAllCptrFlags_enable]

/-- The loop goes on or ends. -/
theorem SimdInv.loopNext (h : SimdInv cpu m) (hp : (m.cpus c).phase = .loop)
    (hrun : m.smp.cpu c = .running r) (hn : SmpInv n)
    (hcpu : ∀ c', c' ≠ c → n.cpu c' = m.smp.cpu c')
    (hrec : ∀ g, (n.mem.granule g).state = .REC ↔ (m.smp.mem.granule g).state = .REC)
    (hjob : n.cpu c = .running r ∨ ∀ r', n.cpu c ≠ .running r') :
    ∃ m', recRunLoopNext cpu m n c r = .ok m' ∧ SimdInv cpu m' := by
  obtain ⟨hcptr, hturn⟩ := (h.cpus c).at_loop hp hrun
  have hin : (m.smp.cpu c).inside = some r := by rw [hrun]; rfl
  unfold recRunLoopNext
  obtain hgo | hend := hjob
  · have hput := h.put hin hn hcpu hrec (h.ns c) (h.mode c) (h.recs r (h.running_rec hrun))
      (.loop (r := r) hp hgo hcptr (by rw [Function.update_self]; exact hturn))
      fun hne => absurd hgo hne
    rw [Function.update_eq_self, Function.update_eq_self] at hput
    refine ⟨{ m with smp := n }, ?_, hput⟩
    rw [if_pos hgo]
    rfl
  · obtain ⟨k, x, hs, hphase, hcptr', hhost, hns, hmode, hx, hrest⟩ := h.loopEnd hp hrun
    refine ⟨{ (m.setCpu c k).setRec r x with smp := n }, ?_, h.put hin hn hcpu hrec hns hmode hx
      (.handling hphase (by simp [rmiHandlerNeedsFpu]) hend hcptr' hhost) fun _ => hrest⟩
    rw [if_neg (hend r), hs]
    rfl

/-- A step of the machine below that concerns one CPU and no REC. -/
structure KeepsRecs (m n : Smp ι) (c : ι) : Prop where
  inv : SmpInv n
  others : ∀ c', c' ≠ c → n.cpu c' = m.cpu c'
  recs : ∀ g, (n.mem.granule g).state = .REC ↔ (m.mem.granule g).state = .REC

theorem KeepsRecs.rsi {m n : Smp ι} {call : RsiCall} (h : SmpInv m) (hrun : m.cpu c = .running r)
    (hn : SmpNext plat m (.rsi c call) n) :
    KeepsRecs m n c ∧ (n.cpu c = .running r ∨ ∀ r', n.cpu c ≠ .running r') := by
  have hinv := h.step hn
  obtain ⟨recAddr, hrun', s, res, hs, rfl⟩ := hn
  obtain rfl : r = recAddr := Job.running.inj (hrun.symm.trans hrun')
  obtain ⟨F, hw⟩ := h.wf
  have hrec := h.refs.entered c r (by rw [hrun]; rfl)
  have hd := (rsiHandler_sat hw (by rw [hrec]) call).of_ok hs
  refine ⟨⟨hinv, fun c' hc => Function.update_of_ne hc _ _, hd.steady.isRec⟩, ?_⟩
  have hself : (m.put c s (if res.exitToHost then .leaving r rmiSuccess else .running r)).cpu c =
      if res.exitToHost then .leaving r rmiSuccess else .running r := Function.update_self ..
  rw [hself]
  split
  · exact .inr nofun
  · exact .inl rfl

theorem KeepsRecs.exit {m n : Smp ι} (h : SmpInv m) (hn : SmpNext plat m (.exit c) n) :
    KeepsRecs m n c ∧ ∀ r', n.cpu c ≠ .running r' := by
  have hinv := h.step hn
  obtain ⟨recAddr, -, rfl⟩ := hn
  refine ⟨⟨hinv, fun c' hc => Function.update_of_ne hc _ _, fun _ => Iff.rfl⟩,
    fun r' hr' => ?_⟩
  have hself : (m.put c m.mem (.leaving recAddr rmiSuccess)).cpu c = .leaving recAddr rmiSuccess :=
    Function.update_self ..
  rw [hself] at hr'
  cases hr'

theorem recEnterBody_running (s : State) (recAddr : Word) (entry : RecEntry) (reject : Bool) :
    Sat (recEnterBody s recAddr entry reject)
      (fun res => res.1.granule = s.granule ∧ ∀ r, res.2.1 = .running r → r = recAddr)
      fun _ => True := by
  have done : ∀ {job : Job} {s' : State}, s'.granule = s.granule →
      (∀ r, job = .running r → r = recAddr) →
      Sat (secYield s' job) (fun res => res.1.granule = s.granule ∧
        ∀ r, res.2.1 = .running r →
        r = recAddr) fun _ => True :=
    fun hs hjob => Sat.pure ⟨hs, hjob⟩
  unfold recEnterBody
  refine Sat.ite (fun _ => done rfl nofun) fun _ => ?_
  dsimp only
  cases (s.rd (s.recs recAddr).gRd).state with
  | NEW | SYSTEM_OFF => exact done rfl nofun
  | ACTIVE =>
    cases entry with
    | unreadable | refused | aborted => exact done rfl nofun
    | run => exact done rfl fun r hr => (Job.running.inj hr).symm

theorem KeepsRecs.enter {m n : Smp ι} {entry : RecEntry} {reject : Bool} (h : SmpInv m)
    (hjob : m.cpu c = .entered r entry reject) (hn : SmpNext plat m (.resume c) n) :
    KeepsRecs m n c ∧ ∀ r', n.cpu c = .running r' → r' = r := by
  have hinv := h.step hn
  obtain ⟨s, job, reply, hs, rfl⟩ := hn
  rw [hjob] at hs
  obtain ⟨hgran, hrun⟩ := (recEnterBody_running m.mem r entry reject).of_ok hs
  refine ⟨⟨hinv, fun c' hc => Function.update_of_ne hc _ _, fun g => ?_⟩,
    fun r' hr' => hrun r' ?_⟩
  · show (s.granule g).state = _ ↔ _
    rw [hgran]
  · have hself : (m.put c s job).cpu c = job := Function.update_self ..
    rwa [hself] at hr'

/-- A REC is entered with its context at rest. -/
theorem SimdInv.enter (h : SimdInv cpu m) {recAddr runAddr : Word} {entry entry' : RecEntry}
    {reject reject' restore : Bool}
    (hp : (m.cpus c).phase = .handling (some (.recEnter recAddr runAddr entry reject)) restore)
    (hjob : m.smp.cpu c = .entered r entry' reject') (hn : SmpNext plat m.smp (.resume c) n) :
    ∃ m', simdStep cpu m (.enter c) n = .ok m' ∧ SimdInv cpu m' := by
  obtain ⟨hrestore, -, hcptr, hhost⟩ := (h.cpus c).at_handling hp
  have hneeds : rmiHandlerNeedsFpu cpu (some (.recEnter recAddr runAddr entry reject)) = false := by
    simp [rmiHandlerNeedsFpu]
  rw [hneeds] at hrestore
  subst hrestore
  obtain ⟨-, hin⟩ | ⟨hc, -⟩ := hhost
  · obtain ⟨hkeeps, hsame⟩ := KeepsRecs.enter h.smp hjob hn
    have hinside : (m.smp.cpu c).inside = some r := by rw [hjob]; rfl
    have hrec : (m.smp.mem.granule r).state = .REC := by
      rw [h.smp.refs.entered c r hinside]
    have hout : ∀ c', m.smp.cpu c' ≠ .running r := by
      intro c' hr
      have hc : c' = c := h.smp.refs.alone c' c r (by rw [hr]; rfl) hinside
      rw [hc, hjob] at hr
      cases hr
    have hrest := h.rest r hrec hout
    have hok := h.recs r hrec
    by_cases hrun : ∃ r', n.cpu c = .running r'
    · obtain ⟨r', hrun⟩ := hrun
      obtain rfl := hsame r' hrun
      refine ⟨{ (m.setCpu c { m.cpus c with phase := .loop }).setRec r'
        { m.recs r' with activeSimdCtx := some (.ns c) } with smp := n }, ?_, ?_⟩
      · simp only [simdStep, hrun, recRunLoopStart]
        rw [hrest.active]
        rfl
      · refine h.put hinside hkeeps.inv hkeeps.others hkeeps.recs (h.ns c) (h.mode c)
          ⟨hok.ctx, hok.noSme⟩ (.loop (r := r') rfl hrun hcptr ?_) fun hne => absurd hrun hne
        rw [Function.update_self]
        exact .host (.ns rfl hrest.cptr) ⟨hin.stateSaved, hin.saved, hin.owns⟩
          ⟨hrest.out.saved, hrest.out.stored⟩
    · have hnone : ∀ r', n.cpu c ≠ .running r' := fun r' hr' => hrun ⟨r', hr'⟩
      have hput := h.put hinside hkeeps.inv hkeeps.others hkeeps.recs (h.ns c) (h.mode c) hok
        (.handling hp hneeds hnone hcptr hin) fun _ => hrest
      rw [Function.update_eq_self, Function.update_eq_self] at hput
      refine ⟨{ m with smp := n }, ?_, hput⟩
      simp only [simdStep]
      rfl
  · cases hc

omit [DecidableEq ι] in
/-- A new REC is at rest. -/
theorem recSimdStateInit_ok {p : RealmSimd} (hp : p.valid cpu = true) :
    ∃ x : RecSimd ι, recSimdStateInit cpu p.cfg = .ok x ∧ RecOk x ∧ AtRest cpu x := by
  have hvalid : validateSimdConfig cpu p.cfg = true := by
    obtain ⟨sve, vl⟩ := p
    cases sve
    · rfl
    · simpa [validateSimdConfig, RealmSimd.valid, RealmSimd.cfg] using hp
  obtain ⟨y, hy, hok, hsaved, hvregs, hfpsr, hfpcr, hzcr⟩ :=
    @simdContextInit_ok cpu .REL1 p.cfg (by decide) hvalid
  have hstored : Stored cpu y default :=
    stored_zero hok.sme (by rw [hok.owner]; decide) hvregs hfpsr hfpcr hzcr
  refine ⟨⟨y, none, cptrEl2VheInit, p.cfg, default⟩, ?_, ⟨hok, rfl⟩,
    ⟨rfl, rfl, hsaved, hstored⟩⟩
  unfold recSimdStateInit
  rw [hy]

/-- What a step of a handler does to the jobs: RECs go on, and a CPU with another job is in
a handler. -/
theorem SimdInv.jobs (h : SimdInv cpu m) {a : SmpAct ι} (hh : m.Handles a)
    (hn : SmpNext plat m.smp a n) (c : ι) :
    n.cpu c = m.smp.cpu c ∨ (∃ act restore, (m.cpus c).phase = .handling act restore) ∧
      (∀ r, n.cpu c ≠ .running r) ∧ ∀ r, m.smp.cpu c ≠ .running r := by
  have put : ∀ (c' : ι) (s : State) (job : Job), n = m.smp.put c' s job →
      (∃ act restore, (m.cpus c').phase = .handling act restore) →
      (∀ r, job ≠ .running r) →
      n.cpu c = m.smp.cpu c ∨ (∃ act restore, (m.cpus c).phase = .handling act restore) ∧
        (∀ r, n.cpu c ≠ .running r) ∧ ∀ r, m.smp.cpu c ≠ .running r := by
    rintro c' s job rfl ⟨act, restore, hp⟩ hjob
    by_cases hc : c = c'
    · subst hc
      have hself : (m.smp.put c s job).cpu c = job := Function.update_self ..
      refine .inr ⟨⟨act, restore, hp⟩, ?_, ((h.cpus c).at_handling hp).2.1⟩
      rw [hself]
      exact hjob
    · exact .inl (Function.update_of_ne hc _ _)
  cases a with
  | start c' act =>
    obtain ⟨restore, hp⟩ := hh
    obtain ⟨-, s, job, reply, hs, hput⟩ := hn
    exact put c' s job hput ⟨_, restore, hp⟩ ((handlerStart_job plat m.smp.mem act).of_ok hs)
  | resume c' =>
    obtain ⟨⟨act, restore, hp⟩, hent⟩ := hh
    obtain ⟨s, job, reply, hs, hput⟩ := hn
    refine put c' s job hput ⟨act, restore, hp⟩ fun r hr => ?_
    exact ((h.cpus c').at_handling hp).2.1 r
      ((handlerResume_job plat m.smp.mem _ hent).of_ok hs r hr)
  | write g words =>
    obtain ⟨-, rfl⟩ := hn
    exact .inl rfl
  | rsi c' call | exit c' => exact hh.elim

/-- A step of a handler. -/
theorem SimdInv.plain (h : SimdInv cpu m) {a : SmpAct ι} {p : RealmSimd} (hh : m.Handles a)
    (hp : p.valid cpu = true) (hn : SmpNext plat m.smp a n) :
    ∃ m', simdStep cpu m (.plain a p) n = .ok m' ∧ SimdInv cpu m' := by
  obtain ⟨x, hx, hok, hrest⟩ := @recSimdStateInit_ok ι cpu p hp
  have hinv := h.smp.step hn
  have hjobs := fun c => h.jobs hh hn c
  have hruns : ∀ c r, n.cpu c = .running r ↔ m.smp.cpu c = .running r := by
    intro c r
    obtain heq | ⟨-, h1, h2⟩ := hjobs c
    · rw [heq]
    · exact iff_of_false (h1 r) (h2 r)
  have hold : ∀ g, (n.mem.granule g).state = .REC → (m.smp.mem.granule g).state = .REC →
      recSimdAfter m.smp.mem n.mem x m.recs g = m.recs g := by
    intro g hg hg'
    rw [recSimdAfter, if_pos hg, if_pos hg']
  have hnew : ∀ g, (n.mem.granule g).state = .REC → (m.smp.mem.granule g).state ≠ .REC →
      recSimdAfter m.smp.mem n.mem x m.recs g = x := by
    intro g hg hg'
    rw [recSimdAfter, if_pos hg, if_neg hg']
  refine ⟨{ m with smp := n, recs := recSimdAfter m.smp.mem n.mem x m.recs }, ?_,
    ⟨hinv, h.ns, h.mode, fun c => ?_, fun g hg => ?_, fun g hg hout => ?_⟩⟩
  · simp only [simdStep]
    rw [hx]
    rfl
  · obtain heq | ⟨⟨act, restore, hphase⟩, hout, -⟩ := hjobs c
    · show CpuOk cpu c (n.cpu c) (m.cpus c) (recSimdAfter m.smp.mem n.mem x m.recs)
      rw [heq]
      refine (h.cpus c).congr fun r hr => ?_
      have hrec : (n.mem.granule r).state = .REC := by
        rw [hinv.refs.entered c r (by rw [heq, hr]; rfl)]
      exact hold r hrec (h.running_rec hr)
    · obtain ⟨hneeds, -, hcptr, ⟨rfl, hin⟩ | ⟨rfl, hstate, hhost⟩⟩ :=
        (h.cpus c).at_handling hphase
      · exact .handling hphase hneeds.symm hout hcptr hin
      · exact .hashing hphase hneeds.symm hout hcptr hstate hhost
  · by_cases hg' : (m.smp.mem.granule g).state = .REC
    · show RecOk (recSimdAfter m.smp.mem n.mem x m.recs g)
      rw [hold g hg hg']
      exact h.recs g hg'
    · show RecOk (recSimdAfter m.smp.mem n.mem x m.recs g)
      rw [hnew g hg hg']
      exact hok
  · by_cases hg' : (m.smp.mem.granule g).state = .REC
    · show AtRest cpu (recSimdAfter m.smp.mem n.mem x m.recs g)
      rw [hold g hg hg']
      exact h.rest g hg' fun c hr => hout c ((hruns c g).mpr hr)
    · show AtRest cpu (recSimdAfter m.smp.mem n.mem x m.recs g)
      rw [hnew g hg hg']
      exact hrest

/-- Every step can be finished, and keeps what holds. -/
theorem SimdInv.step {a : SimdAct ι} (h : SimdInv cpu m) (hready : SimdReady plat cpu m a n) :
    ∃ m', simdStep cpu m a n = .ok m' ∧ SimdInv cpu m' := by
  cases a with
  | smc c act sveHint =>
    obtain ⟨hp, rfl⟩ := hready
    exact h.smc hp act sveHint
  | plain a p =>
    obtain ⟨hh, hp, hn⟩ := hready
    exact h.plain hh hp hn
  | enter c =>
    obtain ⟨⟨recAddr, runAddr, entry, reject, restore, hp⟩,
        ⟨r, entry', reject', hjob⟩, hn⟩ := hready
    exact h.enter hp hjob hn
  | fpu c regs =>
    obtain ⟨hfpu, hp, rfl⟩ := hready
    set regs' : SimdRegs := { regs with
      zcrEl12 := (m.cpus c).regs.zcrEl12, zcrEl2 := (m.cpus c).regs.zcrEl2,
      svcr := (m.cpus c).regs.svcr } with hregs'
    have hsvcr : regs'.svcr = (m.cpus c).regs.svcr := rfl
    refine ⟨_, ?_, h.fpu hfpu hp hsvcr⟩
    simp only [simdStep]
    rw [assertThat_ok (h.hashes_saved hfpu hp)]
    rfl
  | ret c =>
    obtain ⟨⟨act, restore, hp⟩, hidle, rfl⟩ := hready
    obtain ⟨k, hs, -, -, hinv⟩ := h.ret hp hidle
    exact ⟨_, hs, hinv⟩
  | host c regs =>
    obtain ⟨hp, hmode, rfl⟩ := hready
    obtain ⟨hidle, hcptr, hstate, hsaved⟩ := (h.cpus c).at_host hp
    exact ⟨_, rfl, h.setCpu (h.ns c) hmode (.host hp hidle hcptr hstate hsaved)⟩
  | run c r =>
    obtain ⟨hp, hrun, rfl⟩ := hready
    exact ⟨_, rfl, h.run hp hrun⟩
  | guest c r regs =>
    obtain ⟨⟨w, hp⟩, hrun, hmay, rfl⟩ := hready
    exact h.guest hp hrun hmay
  | trap c r ec =>
    obtain ⟨⟨w, hp⟩, hrun, hec, rfl⟩ := hready
    exact h.trap hp hrun hec
  | rsi c r f =>
    obtain ⟨⟨w, hp⟩, hrun, rfl⟩ := hready
    obtain ⟨hexit, hinv⟩ := h.exit hp hrun
    refine hinv.rsi ?_ ?_ f
    · rw [hexit, SimdSmp.setCpu_cpus]
    · rw [hexit]
      exact hrun
  | rsiEnd c r =>
    obtain ⟨⟨f, restore, hp, hnext⟩, hrun⟩ := hready
    obtain ⟨m1, hs, hsmp, hphase, hinv⟩ := h.rsiEnd hp hrun
    have hkeeps : KeepsRecs m.smp n c ∧
        (n.cpu c = .running r ∨ ∀ r', n.cpu c ≠ .running r') := by
      have other : (n = m.smp ∨ SmpNext plat m.smp (.exit c) n) →
          KeepsRecs m.smp n c ∧ (n.cpu c = .running r ∨ ∀ r', n.cpu c ≠ .running r') := by
        rintro (rfl | hn)
        · exact ⟨⟨h.smp, fun _ _ => rfl, fun _ => Iff.rfl⟩, .inl hrun⟩
        · obtain ⟨h1, h2⟩ := KeepsRecs.exit h.smp hn
          exact ⟨h1, .inr h2⟩
      cases f with
      | call call => exact KeepsRecs.rsi h.smp hrun hnext
      | ATTEST_TOKEN_CONTINUE | MEASUREMENT_EXTEND | other => exact other hnext
    rw [← hsmp] at hkeeps hrun
    obtain ⟨m', hs', hinv'⟩ := hinv.loopNext hphase hrun hkeeps.1.inv
      hkeeps.1.others hkeeps.1.recs
      hkeeps.2
    refine ⟨m', ?_, hinv'⟩
    simp only [simdStep]
    rw [hs]
    exact hs'
  | exit c r =>
    obtain ⟨⟨w, hp⟩, hrun, hnext⟩ := hready
    obtain ⟨hexit, hinv⟩ := h.exit hp hrun
    have hkeeps : KeepsRecs m.smp n c ∧
        (n.cpu c = .running r ∨ ∀ r', n.cpu c ≠ .running r') := by
      obtain rfl | hn := hnext
      · exact ⟨⟨h.smp, fun _ _ => rfl, fun _ => Iff.rfl⟩, .inl hrun⟩
      · obtain ⟨h1, h2⟩ := KeepsRecs.exit h.smp hn
        exact ⟨h1, .inr h2⟩
    have hsmp : (recRunLoopExit m c r).smp = m.smp := by rw [hexit]; rfl
    rw [← hsmp] at hkeeps hrun
    exact hinv.loopNext (by rw [hexit, SimdSmp.setCpu_cpus]) hrun hkeeps.1.inv hkeeps.1.others
      hkeeps.1.recs hkeeps.2
  | timer c r =>
    obtain ⟨hp, hrun, hn⟩ := hready
    obtain ⟨h1, h2⟩ := KeepsRecs.exit h.smp hn
    exact h.loopNext hp hrun h1.inv h1.others h1.recs (.inr h2)

omit [DecidableEq ι] in
theorem SimdInv.init : SimdInv cpu (initSimd cpu : SimdSmp ι) := by
  have hvalid : validateSimdConfig cpu cpu.cfg = true := by
    simp [validateSimdConfig]
  obtain ⟨y, hy, hok, hsaved, -⟩ := @simdContextInit_ok cpu .NWD cpu.cfg (by decide) hvalid
  have hns : initNsSimdContext cpu = y := by
    rw [initNsSimdContext, hy]
    rfl
  refine ⟨.init, fun c => ?_, fun c hc => ?_, fun c => ?_, nofun, nofun⟩
  · show SimdOk .NWD cpu.cfg (initNsSimdContext cpu)
    rw [hns]
    exact hok
  · have hzero : (default : SimdRegs).isSmeSm = false := by decide
    exact absurd (hzero.symm.trans hc) (by decide)
  · refine .host rfl rfl rfl rfl ?_
    show (initNsSimdContext cpu).saved = false
    rw [hns, hsaved]
    rfl

theorem SimdInv.reach (hm : SimdReachable plat cpu m) : SimdInv cpu m := by
  refine hm.invariant .init fun s a s' _ h _ hn => ?_
  obtain ⟨n, hready, hs⟩ := hn
  obtain ⟨m', hs', hinv⟩ := h.step hready
  rw [hs] at hs'
  cases hs'
  exact hinv

/-- Who can have the registers of a CPU. -/
inductive SimdLive
  | host
  | realm (r : Word)
  | monitor
  deriving DecidableEq

/-- The flags say so. -/
def SimdSmp.Live (m : SimdSmp ι) (c : ι) : SimdLive → Prop
  | .host => (m.cpus c).ctx.saved = false
  | .realm r => m.smp.cpu c = .running r ∧ (m.recs r).ctx.saved = false
  | .monitor => (m.cpus c).stateSaved = true

/-- The flags of a CPU and of the REC that runs there, in each of the three cases. -/
inductive SimdFlags (m : SimdSmp ι) (c : ι) : SimdLive → Prop
  | host (state : (m.cpus c).stateSaved = false) (ns : (m.cpus c).ctx.saved = false)
      (own : ∀ r, m.smp.cpu c = .running r → (m.recs r).ctx.saved = true) : SimdFlags m c .host
  | realm {r : Word} (runs : m.smp.cpu c = .running r) (state : (m.cpus c).stateSaved = false)
      (ns : (m.cpus c).ctx.saved = true) (own : (m.recs r).ctx.saved = false) :
      SimdFlags m c (.realm r)
  | monitor (state : (m.cpus c).stateSaved = true) (ns : (m.cpus c).ctx.saved = true)
      (own : ∀ r, m.smp.cpu c = .running r → (m.recs r).ctx.saved = true) :
        SimdFlags m c .monitor

omit [DecidableEq ι] in
theorem Turn.flags (hrun : m.smp.cpu c = .running r) (h : Turn cpu c r (m.cpus c) (m.recs r)) :
    ∃ o, SimdFlags m c o := by
  cases h with
  | host active host realm =>
    refine ⟨_, .host host.stateSaved host.saved fun r' hr' => ?_⟩
    obtain rfl : r = r' := Job.running.inj (hrun.symm.trans hr')
    exact realm.saved
  | realm active host realm => exact ⟨_, .realm hrun realm.stateSaved host.saved realm.saved⟩

omit [DecidableEq ι] in
theorem SimdInv.flags (h : SimdInv cpu m) (c : ι) : ∃ o, SimdFlags m c o := by
  cases h.cpus c with
  | host phase idle cptr stateSaved saved =>
    refine ⟨_, .host stateSaved saved fun r hr => ?_⟩
    rw [idle] at hr
    cases hr
  | handling phase plain outside cptr host =>
    exact ⟨_, .host host.stateSaved host.saved fun r hr => absurd hr (outside r)⟩
  | hashing phase needs outside cptr stateSaved host =>
    exact ⟨_, .monitor stateSaved host.saved fun r hr => absurd hr (outside r)⟩
  | loop phase runs cptr turn | realm phase runs cptr turn | rsi phase plain runs cptr turn =>
    exact turn.flags runs
  | @parked r f own phase runs cptr stateSaved active host realm =>
    refine ⟨_, .monitor stateSaved host.saved fun r' hr' => ?_⟩
    obtain rfl : r = r' := Job.running.inj (runs.symm.trans hr')
    exact realm.saved

omit [DecidableEq ι] in
/-- There is one owner. -/
theorem SimdFlags.live {o : SimdLive} (h : SimdFlags m c o) :
    m.Live c o ∧ ∀ o', m.Live c o' → o' = o := by
  cases h with
  | host state ns own =>
    refine ⟨ns, fun o' ho => ?_⟩
    cases o' with
    | host => rfl
    | realm r =>
      have := own r ho.1
      simp [ho.2] at this
    | monitor => simp [SimdSmp.Live, state] at ho
  | @realm r runs state ns own =>
    refine ⟨⟨runs, own⟩, fun o' ho => ?_⟩
    cases o' with
    | host => simp [SimdSmp.Live, ns] at ho
    | realm r' => rw [Job.running.inj (runs.symm.trans ho.1)]
    | monitor => simp [SimdSmp.Live, state] at ho
  | monitor state ns own =>
    refine ⟨state, fun o' ho => ?_⟩
    cases o' with
    | host => simp [SimdSmp.Live, ns] at ho
    | realm r =>
      have := own r ho.1
      simp [ho.2] at this
    | monitor => rfl

omit [DecidableEq ι] in
theorem SimdFlags.state_iff {o : SimdLive} (h : SimdFlags m c o) :
    (m.cpus c).stateSaved = true ↔ (m.cpus c).ctx.saved = true ∧
      ∀ r, m.smp.cpu c = .running r → (m.recs r).ctx.saved = true := by
  cases h with
  | host state ns own => simp [state, ns]
  | realm runs state ns own =>
    refine iff_of_false (by simp [state]) fun hc => ?_
    have := hc.2 _ runs
    simp [own] at this
  | monitor state ns own => exact iff_of_true state ⟨ns, own⟩

/-- A realm sees its own registers, or its accesses trap. -/
def RealmSees (cpu : SimdPlatform) (k : CpuSimd) (x : RecSimd ι) : Prop :=
  (cptrFpen k.cptrEl2 ≠ noTrap11 ∧ cptrZen k.cptrEl2 ≠ noTrap11 ∧
    cptrSmen k.cptrEl2 ≠ noTrap11) ∨
    (OwnsRegs cpu x.ctx k.regs x.left ∧ (x.ctx.sve = false → cptrZen k.cptrEl2 ≠ noTrap11) ∧
      cptrSmen k.cptrEl2 ≠ noTrap11)

omit [DecidableEq ι] in
theorem SimdInv.realm_sees (h : SimdInv cpu m) {w : Word} (hp : (m.cpus c).phase = .realm w)
    (hrun : m.smp.cpu c = .running r) : RealmSees cpu (m.cpus c) (m.recs r) := by
  obtain ⟨-, hcptr, hturn⟩ := (h.cpus c).at_realm hp hrun
  have hok := h.recs r (h.running_rec hrun)
  unfold RealmSees
  rw [hcptr]
  cases hturn with
  | host active host realm =>
    obtain ⟨-, hrec⟩ := active
    rw [hrec]
    exact .inl (by decide)
  | realm active host realm =>
    cases active with | own hactive hrec =>
    rw [hrec, cptrZen_enable, cptrSmen_enable, hok.noSme, ← hok.ctx.sve]
    refine .inr ⟨realm.owns, fun hs => ?_, by decide⟩
    rw [hs]
    decide

/-- The vector registers of every CPU belong to one owner, no assertion of a switch fails,
and neither the host nor a realm finds registers of another. -/
theorem simd_ownership (hm : SimdReachable plat cpu m) :
    (∀ c, ∃! o, m.Live c o) ∧
    (∀ c, (m.cpus c).stateSaved = true ↔ (m.cpus c).ctx.saved = true ∧
      ∀ r, m.smp.cpu c = .running r → (m.recs r).ctx.saved = true) ∧
    (∀ r, (m.smp.mem.granule r).state = .REC → (∀ c, m.smp.cpu c ≠ .running r) →
      (m.recs r).ctx.saved = true) ∧
    (∀ a n, SimdReady plat cpu m a n → ∃ m', simdStep cpu m a n = .ok m') ∧
    (∀ c m', SimdNext plat cpu m (.ret c) m' → (m'.cpus c).phase = .host ∧
      (m'.cpus c).ctx.saved = false ∧ (m'.cpus c).stateSaved = false ∧
      (m'.cpus c).left = (m.cpus c).left ∧
      OwnsRegs cpu (m'.cpus c).ctx (m'.cpus c).regs (m.cpus c).left) ∧
    (∀ c, (m.cpus c).phase = .host → m.Live c .host) ∧
    ∀ c r w, (m.cpus c).phase = .realm w → m.smp.cpu c = .running r →
      RealmSees cpu (m.cpus c) (m.recs r) := by
  have h := SimdInv.reach hm
  refine ⟨fun c => ?_, fun c => ?_, fun r hr hout => (h.rest r hr hout).out.saved,
    fun a n hready => ?_,
    fun c m' hn => ?_, fun c hp => ((h.cpus c).at_host hp).2.2.2, fun c r w hp hrun =>
    h.realm_sees hp hrun⟩
  · obtain ⟨o, ho⟩ := h.flags c
    exact ⟨o, ho.live⟩
  · obtain ⟨o, ho⟩ := h.flags c
    exact ho.state_iff
  · obtain ⟨m', hs, -⟩ := h.step hready
    exact ⟨m', hs⟩
  · obtain ⟨n, ⟨⟨act, restore, hp⟩, hidle, rfl⟩, hs⟩ := hn
    obtain ⟨k, hs', hin, hleft, -⟩ := h.ret hp hidle
    have hm' : m' = m.setCpu c { k with phase := .host } := Except.ok.inj (hs.symm.trans hs')
    subst hm'
    rw [SimdSmp.setCpu_cpus]
    exact ⟨rfl, hin.saved, hin.stateSaved, hleft, hleft ▸ hin.owns⟩

end

/-- A CPU with SVE at 256 bits and SME. -/
def demoSimd : SimdPlatform where
  cfg := ⟨true, 1, true⟩
  effVq n := n
  svq := 1
  fa64 := false
  fpuUseAtRel2 := true
  effVq_le _ := le_rfl
  svq_le := by decide
  sveVq_le := by decide

/-- A call of the host on CPU `c`, with `k` further sections. -/
def simdCall (c : ℕ) (act : Act) (k : ℕ) : List (SimdAct ℕ) :=
  [.smc c (some act) false, .plain (.start c act) ⟨true, 0⟩] ++
    List.replicate k (.plain (.resume c) ⟨true, 0⟩) ++ [.ret c]

/-- A realm with one REC, which is entered and uses its registers. -/
def simdOneRec : List (SimdAct ℕ) :=
  (List.range 24).flatMap (fun k => simdCall 0 (.granuleDelegate (gr (16 + k)) true) 0) ++
  simdCall 0 (.realmCreate (gr 16) (gr 0) (some (demoParams 17 1))) 0 ++
  simdCall 0 (.recCreate (gr 16) (gr 22) (gr 0)
    (some ⟨(List.range 16).map fun k => gr (24 + k), some 0⟩)) 17 ++
  simdCall 0 (.realmActivate (gr 16)) 0 ++
  [.smc 1 (some (.recEnter (gr 22) (gr 0) .run false)) true,
   .plain (.start 1 (.recEnter (gr 22) (gr 0) .run false)) ⟨true, 0⟩, .enter 1, .run 1 (gr 22),
   .trap 1 (gr 22) .FPU, .run 1 (gr 22)]

def simdKeys : Keys where
  granules := [gr 0, gr 16, gr 22]
  rds := [gr 16]
  recs := [gr 22]
  tables := []
  slots := []

/-- The realm runs with its own registers. -/
def SimdSmp.ownsRegs (m : SimdSmp ℕ) (c : ℕ) (r : Word) : Bool :=
  (match (m.cpus c).phase with
  | .realm _ => true
  | _ => false) && decide (m.smp.cpu c = .running r) && !(m.recs r).ctx.saved

theorem simd_ownership_trap : ∃ (m : SimdSmp ℕ) (w : Word),
    SimdReachable demoPlat demoSimd m ∧
    (m.cpus 1).phase = .realm w ∧ m.Live 1 (.realm (gr 22)) ∧
    (∀ o, m.Live 1 o → o = .realm (gr 22)) ∧ (m.cpus 1).stateSaved = false ∧
    RealmSees demoSimd (m.cpus 1) (m.recs (gr 22)) := by
  have hrun : (simdReplay simdKeys demoPlat demoSimd (initSimd demoSimd) simdOneRec).any
      (fun m => m.ownsRegs 1 (gr 22)) = true := by
    decide +kernel
  obtain ⟨m, hm, htest⟩ := (Option.any_eq_true _ _).mp hrun
  simp only [SimdSmp.ownsRegs, Bool.and_eq_true, decide_eq_true_eq, Bool.not_eq_true'] at htest
  obtain ⟨⟨hphase, hjob⟩, hsaved⟩ := htest
  have hreach : SimdReachable demoPlat demoSimd m := simdReplay_reach _ .init hm
  obtain ⟨hone, hstate, -, -, -, -, hsees⟩ := simd_ownership hreach
  have hlive : m.Live 1 (.realm (gr 22)) := ⟨hjob, hsaved⟩
  split at hphase
  · next w hp =>
    refine ⟨m, w, hreach, hp, hlive, fun o ho => (hone 1).unique ho hlive, ?_,
      hsees 1 (gr 22) w hp hjob⟩
    cases hs : (m.cpus 1).stateSaved with
    | false => rfl
    | true =>
      have := ((hstate 1).mp hs).2 _ hjob
      simp [hsaved] at this
  · cases hphase

end RmmCaec
