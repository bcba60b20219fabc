import RmmCaec.RecMpidr
import RmmCaec.RecNumbers

/-!
# RECs and their MPIDR

The host names a new REC by an RmiRecMpidr, which must hold the next index of the realm.
On top of the machine of PSCI, a REC has its VMPIDR_EL2, and the RECs that a realm has
made stay on record when they are destroyed. So a realm that names a REC by the MPIDR
that this REC reads means no other REC.
-/
namespace RmmCaec
open Outcome Runs

/-- What the checks of `smc_rec_create` make of `rec_params.mpidr`. -/
def recMpidrIdx (recMpidr : Word) : Option ℕ :=
  if recMpidrIsValid recMpidr then some (recMpidrToIdx recMpidr) else none

/-- A REC that was made, by the RmiRecMpidr that the host gave. -/
structure Creation where
  recAddr : Word
  recMpidr : Word
  recIdx : ℕ
  deriving DecidableEq

/-- The machine of PSCI, VMPIDR_EL2 of each REC, and the RECs that each realm has made. -/
structure MpidrSmp (ι : Type) where
  psci : PsciSmp ι
  vmpidrEl2 : Word → Word
  created : Word → List Creation

/-- The registers of the RECs after a step that makes one for the given RmiRecMpidr. -/
def vmpidrsAfter (s s' : State) (vmpidrEl2 : Word → Word) (recMpidr : Word) :
    Word → Word := fun g =>
  if (s'.granule g).state = .REC then
    if (s.granule g).state = .REC then vmpidrEl2 g else initVmpidrEl2 recMpidr
  else 0#64

/-- The REC of a realm that a step has made. -/
def newCreation (s s' : State) (x : Option (Word × Word × RecParams)) (recMpidr rd : Word) :
    List Creation :=
  match x with
  | some (rdAddr, recAddr, _) =>
    if rdAddr = rd ∧ (s.granule recAddr).state ≠ .REC ∧ (s'.granule recAddr).state = .REC then
      [⟨recAddr, recMpidr, (s'.recs recAddr).recIdx⟩]
    else []
  | none => []

/-- The record of a realm lasts as long as the realm. -/
def createdAfter (s s' : State) (created : Word → List Creation)
    (x : Option (Word × Word × RecParams)) (recMpidr : Word) : Word → List Creation := fun rd =>
  if (s'.granule rd).state = .RD then created rd ++ newCreation s s' x recMpidr rd else []

section
variable {ι : Type} [DecidableEq ι]

/-- One step. A section that may make a REC has the RmiRecMpidr of the host, of which the
parameters below hold the index. -/
def MpidrNext (plat : Platform) (m : MpidrSmp ι) (a : PsciAct ι × Word)
    (m' : MpidrSmp ι) : Prop :=
  (∀ x ∈ a.1.creates m.psci, x.2.2.mpidrIdx = recMpidrIdx a.2) ∧
  ∃ n, PsciNext plat m.psci a.1 n ∧ m' = ⟨n,
    vmpidrsAfter m.psci.smp.mem n.smp.mem m.vmpidrEl2 a.2,
    createdAfter m.psci.smp.mem n.smp.mem m.created (a.1.creates m.psci) a.2⟩

def initMpidr : MpidrSmp ι := ⟨initPsci, fun _ => 0#64, fun _ => []⟩

abbrev MpidrReachable (plat : Platform) : MpidrSmp ι → Prop :=
  Reach initMpidr (MpidrNext plat) fun _ _ => True

variable {plat : Platform} {m m' : MpidrSmp ι}

/-- Every run of the machine of PSCI in which the host gives RmiRecMpidr values is one. -/
theorem MpidrReachable.of_psci {n : PsciSmp ι}
    (hn : Reach initPsci (PsciNext plat) (fun n a => ∀ x ∈ a.creates n, ∃ recMpidr,
      x.2.2.mpidrIdx = recMpidrIdx recMpidr) n) :
    ∃ m : MpidrSmp ι, MpidrReachable plat m ∧ m.psci = n := by
  induction hn with
  | init => exact ⟨initMpidr, .init, rfl⟩
  | @step n a n' before allowed taken ih =>
    obtain ⟨m, hm, rfl⟩ := ih
    obtain ⟨recMpidr, hparams⟩ : ∃ recMpidr, ∀ x ∈ a.creates m.psci,
        x.2.2.mpidrIdx = recMpidrIdx recMpidr := by
      cases hx : a.creates m.psci with
      | none => exact ⟨0#64, nofun⟩
      | some x =>
        obtain ⟨recMpidr, hidx⟩ := allowed x hx
        exact ⟨recMpidr, fun y hy => by cases hy; exact hidx⟩
    exact ⟨_, .step hm trivial (a := (a, recMpidr)) ⟨hparams, n', taken, rfl⟩, rfl⟩

/-- The RECs of a realm have the numbers below its count, each once, and a REC is known by
the RmiRecMpidr of its number. -/
structure MpidrInv (m : MpidrSmp ι) : Prop where
  psci : PsciInv m.psci
  valid : ∀ rd, ∀ c ∈ m.created rd, recMpidrIdx c.recMpidr = some c.recIdx
  numbered : ∀ rd, (m.psci.smp.mem.granule rd).state = .RD →
    (m.created rd).map Creation.recIdx = List.range (m.psci.smp.mem.rd rd).recCount
  recorded : ∀ r, (m.psci.smp.mem.granule r).state = .REC →
    ∃ c ∈ m.created (m.psci.smp.mem.recs r).gRd, c.recAddr = r ∧
      c.recIdx = (m.psci.smp.mem.recs r).recIdx ∧ m.vmpidrEl2 r = initVmpidrEl2 c.recMpidr
  fresh : ∀ rd, (m.psci.smp.mem.granule rd).state ≠ .RD → m.created rd = []

omit [DecidableEq ι] in
theorem MpidrInv.init : MpidrInv (initMpidr : MpidrSmp ι) where
  psci := .init
  valid _ _ hc := nomatch hc
  numbered _ hrd := nomatch hrd
  recorded _ hr := nomatch hr
  fresh _ _ := rfl

omit [DecidableEq ι] in
theorem newCreation_of_noneMade {s s' : State} (h : NoneMade s s')
    (x : Option (Word × Word × RecParams)) (recMpidr rd : Word) :
    newCreation s s' x recMpidr rd = [] := by
  unfold newCreation
  split
  · exact if_neg fun ⟨_, hwas, his⟩ => hwas (h.isRec _ his)
  · rfl

theorem newCreation_of_madeRec {s s' : State} {rdAddr recAddr : Word}
    (h : MadeRec s rdAddr recAddr s')
    (p : RecParams) (recMpidr rd : Word) :
    newCreation s s' (some (rdAddr, recAddr, p)) recMpidr rd =
      if rd = rdAddr then [⟨recAddr, recMpidr, (s.rd rdAddr).recCount⟩] else [] := by
  have hwas : (s.granule recAddr).state ≠ .REC := by
    rw [h.fresh]
    decide
  have his : (s'.granule recAddr).state = .REC := (h.recs recAddr).mpr (.inr rfl)
  simp only [newCreation, h.recIdx, hwas, his, ne_eq, not_false_eq_true, and_true, eq_comm]

/-- The realm's view of a valid RmiRecMpidr names its index. -/
theorem mpidrToRecIdx_of_recMpidrIdx {recMpidr : Word} {idx : ℕ}
    (h : recMpidrIdx recMpidr = some idx) : mpidrToRecIdx (initVmpidrEl2 recMpidr) = idx := by
  simp only [recMpidrIdx, Option.ite_none_right_eq_some, Option.some.injEq] at h
  rw [mpidrToRecIdx_initVmpidrEl2, h.2]

/-- The record of a realm grows by the REC that is made. -/
theorem MpidrInv.created_after (h : MpidrInv m) {n : PsciSmp ι} {a : PsciAct ι} {recMpidr : Word}
    (hn : PsciNext plat m.psci a n)
    (hparams : ∀ x ∈ a.creates m.psci, x.2.2.mpidrIdx = recMpidrIdx recMpidr) (rd : Word)
    (hrd : (n.smp.mem.granule rd).state = .RD) :
    ∃ new, createdAfter m.psci.smp.mem n.smp.mem m.created (a.creates m.psci) recMpidr rd =
        m.created rd ++ new ∧
      (∀ c ∈ new, recMpidrIdx c.recMpidr = some c.recIdx) ∧
      (m.created rd ++ new).map Creation.recIdx = List.range (n.smp.mem.rd rd).recCount := by
  obtain ⟨F, hw⟩ := h.psci.smp.wf
  unfold createdAfter
  rw [if_pos hrd]
  refine ⟨_, rfl, ?_⟩
  obtain hnone | ⟨rdAddr, recAddr, p, hx, hidx, hmade⟩ := hn.makes h.psci
  · rw [newCreation_of_noneMade hnone, List.append_nil, hnone.count rd hrd]
    refine ⟨nofun, ?_⟩
    by_cases hold : (m.psci.smp.mem.granule rd).state = .RD
    · exact h.numbered rd hold
    · -- a new realm, whose descriptor was zeroed
      have hdel := (hnone.isRd rd hrd).resolve_left hold
      have hzero := (hw.zero rd (by rw [hdel]; rfl)).1
      rw [h.fresh rd hold, hzero]
      rfl
  · have hvalid : recMpidrIdx recMpidr = some (m.psci.smp.mem.rd rdAddr).recCount := by
      rw [← hparams _ hx, hidx]
    rw [hx, newCreation_of_madeRec hmade, hmade.count]
    have hnum := h.numbered rd ((hmade.rds rd).mp hrd)
    by_cases hrd' : rd = rdAddr
    · subst hrd'
      rw [if_pos rfl, if_pos rfl, List.map_append, hnum, List.range_succ]
      refine ⟨fun c hc => ?_, rfl⟩
      obtain rfl := List.mem_singleton.mp hc
      exact hvalid
    · rw [if_neg hrd', if_neg hrd', List.append_nil]
      exact ⟨nofun, hnum⟩

/-- A REC that was there before is still on record. -/
theorem MpidrInv.recorded_old (h : MpidrInv m) {n : PsciSmp ι} {a : PsciAct ι} {recMpidr : Word}
    (hn : PsciNext plat m.psci a n)
    (hparams : ∀ x ∈ a.creates m.psci, x.2.2.mpidrIdx = recMpidrIdx recMpidr) {r : Word}
    (hold : (m.psci.smp.mem.granule r).state = .REC) (hr : (n.smp.mem.granule r).state = .REC) :
    ∃ c ∈ createdAfter m.psci.smp.mem n.smp.mem m.created (a.creates m.psci) recMpidr
        (n.smp.mem.recs r).gRd,
      c.recAddr = r ∧ c.recIdx = (n.smp.mem.recs r).recIdx ∧
      vmpidrsAfter m.psci.smp.mem n.smp.mem m.vmpidrEl2 recMpidr r =
        initVmpidrEl2 c.recMpidr := by
  obtain ⟨F', hw'⟩ := (h.psci.step hn).smp.wf
  obtain ⟨new, hnew, -⟩ := h.created_after hn hparams _ (hw'.recRd r hr)
  rw [hnew, hn.recs_eq h.psci hold hr]
  obtain ⟨c, hc, haddr, hidx, hreg⟩ := h.recorded r hold
  refine ⟨c, List.mem_append_left _ hc, haddr, hidx, ?_⟩
  rw [vmpidrsAfter, if_pos hr, if_pos hold, hreg]

/-- A REC that a step makes goes on record. -/
theorem MpidrInv.recorded_new (h : MpidrInv m) {n : PsciSmp ι} {a : PsciAct ι} {recMpidr : Word}
    (hn : PsciNext plat m.psci a n) {r : Word}
    (hnot : (m.psci.smp.mem.granule r).state ≠ .REC) (hr : (n.smp.mem.granule r).state = .REC) :
    ∃ c ∈ createdAfter m.psci.smp.mem n.smp.mem m.created (a.creates m.psci) recMpidr
        (n.smp.mem.recs r).gRd,
      c.recAddr = r ∧ c.recIdx = (n.smp.mem.recs r).recIdx ∧
      vmpidrsAfter m.psci.smp.mem n.smp.mem m.vmpidrEl2 recMpidr r =
        initVmpidrEl2 c.recMpidr := by
  obtain hnone | ⟨rdAddr, recAddr, p, hx, -, hmade⟩ := hn.makes h.psci
  · exact absurd (hnone.isRec r hr) hnot
  · obtain rfl := ((hmade.recs r).mp hr).resolve_left hnot
    rw [hmade.gRd, createdAfter, if_pos ((hmade.rds rdAddr).mpr hmade.isRd), hx,
      newCreation_of_madeRec hmade, if_pos rfl]
    refine ⟨_, List.mem_append_right _ (List.mem_singleton.mpr rfl), rfl, hmade.recIdx.symm, ?_⟩
    rw [vmpidrsAfter, if_pos hr, if_neg hnot]

theorem MpidrInv.step {a : PsciAct ι × Word} (h : MpidrInv m) (hn : MpidrNext plat m a m') :
    MpidrInv m' := by
  obtain ⟨hparams, n, hn, rfl⟩ := hn
  refine ⟨h.psci.step hn, fun rd c hc => ?_, fun rd hrd => ?_, fun r hr => ?_, fun rd hrd =>
    if_neg hrd⟩
  · by_cases hrd : (n.smp.mem.granule rd).state = .RD
    · obtain ⟨new, hnew, hvalid, -⟩ := h.created_after hn hparams rd hrd
      dsimp only at hc
      rw [hnew, List.mem_append] at hc
      exact hc.elim (h.valid rd c) (hvalid c)
    · simp [createdAfter, hrd] at hc
  · obtain ⟨new, hnew, -, hnum⟩ := h.created_after hn hparams rd hrd
    dsimp only
    rw [hnew, hnum]
  · by_cases hold : (m.psci.smp.mem.granule r).state = .REC
    · exact h.recorded_old hn hparams hold hr
    · exact h.recorded_new hn hold hr

theorem MpidrInv.reach (hm : MpidrReachable plat m) : MpidrInv m :=
  hm.invariant .init fun _ _ _ _ h _ hn => h.step hn

omit [DecidableEq ι] in
/-- Two RECs of a realm with one index are one REC. -/
theorem MpidrInv.eq_of_recIdx (h : MpidrInv m) {r r' : Word}
    (hr : (m.psci.smp.mem.granule r).state = .REC) (hr' : (m.psci.smp.mem.granule r').state = .REC)
    (hrealm : (m.psci.smp.mem.recs r).gRd = (m.psci.smp.mem.recs r').gRd)
    (hidx : (m.psci.smp.mem.recs r).recIdx = (m.psci.smp.mem.recs r').recIdx) : r = r' := by
  obtain ⟨F, hw⟩ := h.psci.smp.wf
  obtain ⟨c, hc, rfl, hcidx, -⟩ := h.recorded r hr
  obtain ⟨c', hc', rfl, hcidx', -⟩ := h.recorded r' hr'
  rw [← hrealm] at hc'
  have hnodup : ((m.created (m.psci.smp.mem.recs c.recAddr).gRd).map Creation.recIdx).Nodup := by
    rw [h.numbered _ (hw.recRd _ hr)]
    exact List.nodup_range
  have heq : c = c' := List.inj_on_of_nodup_map hnodup hc hc' (by rw [hcidx, hcidx', hidx])
  rw [heq]

omit [DecidableEq ι] in
/-- The MPIDR of a REC names its index. -/
theorem MpidrInv.mpidrToRecIdx_vmpidr (h : MpidrInv m) {r : Word}
    (hr : (m.psci.smp.mem.granule r).state = .REC) :
    mpidrToRecIdx (m.vmpidrEl2 r) = (m.psci.smp.mem.recs r).recIdx := by
  obtain ⟨c, hc, -, hidx, hreg⟩ := h.recorded r hr
  rw [hreg, mpidrToRecIdx_of_recMpidrIdx (h.valid _ c hc), hidx]

omit [DecidableEq ι] in
/-- In its realm the MPIDR of a REC names this REC only. -/
theorem MpidrInv.names_iff (h : MpidrInv m) {namedAddr targetAddr : Word}
    (hnamed : (m.psci.smp.mem.granule namedAddr).state = .REC)
    (htarget : (m.psci.smp.mem.granule targetAddr).state = .REC)
    (hrealm : (m.psci.smp.mem.recs targetAddr).gRd = (m.psci.smp.mem.recs namedAddr).gRd) :
    mpidrToRecIdx (m.vmpidrEl2 namedAddr) = (m.psci.smp.mem.recs targetAddr).recIdx ↔
      targetAddr = namedAddr := by
  rw [h.mpidrToRecIdx_vmpidr hnamed]
  constructor
  · intro hidx
    exact h.eq_of_recIdx htarget hnamed hrealm hidx.symm
  · rintro rfl
    rfl

omit [DecidableEq ι] in
/-- A completion with another target than the REC that the caller named is refused. -/
theorem MpidrInv.complete_other (h : MpidrInv m) {callingAddr namedAddr targetAddr status : Word}
    (hnamed : (m.psci.smp.mem.granule namedAddr).state = .REC)
    (hrealm : (m.psci.smp.mem.recs callingAddr).gRd = (m.psci.smp.mem.recs namedAddr).gRd)
    (harg : (m.psci.vcpu callingAddr).gprs 1 = m.vmpidrEl2 namedAddr)
    (hother : targetAddr ≠ namedAddr) {vcpu : Word → Vcpu} {ret : ReturnCode}
    (hs : smcPsciComplete plat m.psci.smp.mem m.psci.vcpu callingAddr targetAddr status =
      .ok (vcpu, ret)) : vcpu = m.psci.vcpu ∧ ret = rmiErrorInput := by
  have refuse : ¬ Names m.psci.smp.mem m.psci.vcpu callingAddr targetAddr := by
    intro hnames
    have hidx := hnames.named
    rw [harg] at hidx
    exact hother ((h.names_iff hnamed hnames.target (hnames.realm.symm.trans hrealm)).mp hidx)
  have hd := (smcPsciComplete_sat plat m.psci.smp.mem m.psci.vcpu callingAddr targetAddr
    status).of_ok hs
  generalize hp : (vcpu, ret) = res at hd
  obtain ⟨vcpu', ret'⟩ := res
  cases hd with
  | refused =>
    cases hp
    exact ⟨rfl, rfl⟩
  | answered names told => exact absurd names refuse
  | granted names request unused off => exact absurd names refuse

/-- RECs are identified by their MPIDR. The two formats of a valid value have one index, and
the indices are the numbers of 28 bits, each for one value. In every state that any schedule
reaches, the RECs that a realm has ever made have different indices below its count; each
REC is on record and reads the MPIDR of its index; and a call that names a REC by what this
REC reads is completed with this REC or not at all. -/
theorem recs_identified_by_mpidr (plat : Platform) :
    (∀ recMpidr, recMpidrIsValid recMpidr = true →
      mpidrToRecIdx (recMpidrToMpidr recMpidr) = recMpidrToIdx recMpidr) ∧
    Set.InjOn recMpidrToIdx {recMpidr | recMpidrIsValid recMpidr = true} ∧
    Set.image recMpidrToIdx {recMpidr | recMpidrIsValid recMpidr = true} = Set.Iio (2 ^ 28) ∧
    ∀ m : MpidrSmp ι, MpidrReachable plat m →
      (∀ rd, (m.psci.smp.mem.granule rd).state = .RD →
        ((m.created rd).map Creation.recIdx).Nodup ∧
        ∀ c ∈ m.created rd, c.recIdx < (m.psci.smp.mem.rd rd).recCount ∧
          mpidrToRecIdx (initVmpidrEl2 c.recMpidr) = c.recIdx) ∧
      (∀ r, (m.psci.smp.mem.granule r).state = .REC →
        ∃ c ∈ m.created (m.psci.smp.mem.recs r).gRd, c.recAddr = r ∧
          c.recIdx = (m.psci.smp.mem.recs r).recIdx ∧ recMpidrIsValid c.recMpidr = true ∧
          recMpidrToIdx c.recMpidr = c.recIdx ∧ m.vmpidrEl2 r = initVmpidrEl2 c.recMpidr) ∧
      ∀ callingAddr namedAddr, (m.psci.smp.mem.granule callingAddr).state = .REC →
        (m.psci.smp.mem.granule namedAddr).state = .REC →
        (m.psci.smp.mem.recs callingAddr).gRd = (m.psci.smp.mem.recs namedAddr).gRd →
        (m.psci.vcpu callingAddr).gprs 1 = m.vmpidrEl2 namedAddr →
        (∀ targetAddr, (m.psci.smp.mem.granule targetAddr).state = .REC →
          (m.psci.smp.mem.recs targetAddr).gRd = (m.psci.smp.mem.recs callingAddr).gRd →
          (mpidrToRecIdx ((m.psci.vcpu callingAddr).gprs 1) =
            (m.psci.smp.mem.recs targetAddr).recIdx ↔ targetAddr = namedAddr)) ∧
        ∀ targetAddr status vcpu ret,
          smcPsciComplete plat m.psci.smp.mem m.psci.vcpu callingAddr targetAddr status =
            .ok (vcpu, ret) →
          targetAddr ≠ namedAddr → vcpu = m.psci.vcpu ∧ ret = rmiErrorInput := by
  refine ⟨fun recMpidr _ => mpidrToRecIdx_recMpidrToMpidr recMpidr, recMpidrToIdx_injOn,
    recMpidrToIdx_image, fun m hm => ?_⟩
  have h := MpidrInv.reach hm
  refine ⟨fun rd hrd => ?_, fun r hr => ?_, fun callingAddr namedAddr _ hnamed hrealm harg =>
    ⟨fun targetAddr htarget hsame => ?_, fun targetAddr status vcpu ret hs hother =>
      h.complete_other hnamed hrealm harg hother hs⟩⟩
  · have hnum := h.numbered rd hrd
    refine ⟨by rw [hnum]; exact List.nodup_range, fun c hc => ⟨?_, ?_⟩⟩
    · have hmem : c.recIdx ∈ (m.created rd).map Creation.recIdx := List.mem_map_of_mem hc
      rwa [hnum, List.mem_range] at hmem
    · exact mpidrToRecIdx_of_recMpidrIdx (h.valid rd c hc)
  · obtain ⟨c, hc, haddr, hidx, hreg⟩ := h.recorded r hr
    have hvalid := h.valid _ c hc
    simp only [recMpidrIdx, Option.ite_none_right_eq_some, Option.some.injEq] at hvalid
    exact ⟨c, hc, haddr, hidx, hvalid.1, hvalid.2, hreg⟩
  · rw [harg]
    exact h.names_iff hnamed htarget (hsame.trans hrealm)

end

/-- What a test says about the RECs that the first two CPUs may make. -/
def creatableTest (m : PsciSmp ℕ) : Bool :=
  [0, 1].all fun c => (m.smp.cpu c).creates.all fun x => x.2.2.mpidrIdx.any fun idx =>
    decide (idx < 2 ^ 28)

theorem creatable_of_test {m : PsciSmp ℕ} {a : PsciAct ℕ} (h : creatableTest m = true)
    (ha : ∀ c p, a = .plain (.resume c) p → c < 2) :
    ∀ x ∈ a.creates m, ∃ recMpidr, x.2.2.mpidrIdx = recMpidrIdx recMpidr := by
  intro x hx
  unfold PsciAct.creates at hx
  split at hx
  · next c p =>
    have hc : c ∈ [0, 1] := by
      have := ha c p rfl
      simp
      omega
    have htest := List.all_eq_true.mp h c hc
    rw [Option.all_eq_true] at htest
    obtain ⟨idx, hidx, hlt⟩ := (Option.any_eq_true _ _).mp (htest x hx)
    obtain ⟨recMpidr, hvalid, rfl⟩ : idx ∈ Set.image recMpidrToIdx
        {recMpidr | recMpidrIsValid recMpidr = true} := by
      rw [recMpidrToIdx_image]
      simpa using hlt
    exact ⟨recMpidr, hidx.trans (if_pos hvalid).symm⟩
  · cases hx

/-- The CPU that goes on with a handler. -/
def PsciAct.resumes {ι : Type} : PsciAct ι → Option ι
  | .plain (.resume c) _ => some c
  | _ => none

set_option maxRecDepth 100000 in
/-- The first REC asks for the third one by the MPIDR that the third one reads, and the host
completes the request with the second one. -/
theorem recs_identified_by_mpidr_three : ∃ m : MpidrSmp ℕ, MpidrReachable demoPlat m ∧
    Asks m.psci (gr 22) (gr 57) ∧
    (m.psci.vcpu (gr 22)).gprs 1 = m.vmpidrEl2 (gr 57) ∧
    ((m.created (gr 16)).map Creation.recIdx).Nodup ∧
    ∀ vcpu ret, smcPsciComplete demoPlat m.psci.smp.mem m.psci.vcpu (gr 22) (gr 56)
      psciReturnSuccess = .ok (vcpu, ret) → vcpu = m.psci.vcpu ∧ ret = rmiErrorInput := by
  let acts := psciThreeRecs ++ psciVisit 1 22 (psciArgs smc64PsciCpuOn 0x80000002#64 0x1000#64 7#64)
  have hacts : ∀ a ∈ acts, ∀ c p, a = .plain (.resume c) p → c < 2 := by
    have hall : acts.all (fun a => a.resumes.all fun c => decide (c < 2)) =
        true := by decide +kernel
    rintro a ha c p rfl
    simpa [PsciAct.resumes] using List.all_eq_true.mp hall _ ha
  have hrun : (psciReplay psciKeys demoPlat creatableTest initPsci acts).any (fun n =>
      decide (Asks n (gr 22) (gr 57)) && decide ((n.vcpu (gr 22)).gprs 1 = 0x80000002#64) &&
        decide ((n.smp.mem.granule (gr 22)).state = .REC) &&
        decide ((n.smp.mem.granule (gr 57)).state = .REC) &&
        decide ((n.smp.mem.granule (gr 16)).state = .RD) &&
        decide ((n.smp.mem.recs (gr 57)).recIdx = 2)) = true := by decide +kernel
  obtain ⟨n, hn, htest⟩ := (Option.any_eq_true _ _).mp hrun
  simp only [Bool.and_eq_true, decide_eq_true_eq] at htest
  obtain ⟨⟨⟨⟨⟨hasks, harg⟩, hcalling⟩, hnamed⟩, hrd⟩, hidx⟩ := htest
  have hreach := (psciReplay_guarded acts hacts .init hn).mono
    fun m a h => creatable_of_test h.1 h.2
  obtain ⟨m, hm, rfl⟩ := MpidrReachable.of_psci hreach
  obtain ⟨-, hinj, -, hstate⟩ := recs_identified_by_mpidr (ι := ℕ) demoPlat
  obtain ⟨hdistinct, hrecorded, hcall⟩ := hstate m hm
  -- the third REC was made for the value 2
  obtain ⟨c, -, -, hcidx, hvalid, htoIdx, hreg⟩ := hrecorded _ hnamed
  have hmpidr : c.recMpidr = 2#64 := by
    refine hinj hvalid (by decide : recMpidrIsValid 2#64 = true) ?_
    rw [htoIdx, hcidx, hidx]
    decide
  have hreads : (m.psci.vcpu (gr 22)).gprs 1 = m.vmpidrEl2 (gr 57) := by
    rw [hreg, hmpidr, harg]
    decide
  obtain ⟨-, hrefused⟩ := hcall _ _ hcalling hnamed hasks.2.2.1 hreads
  exact ⟨m, hm, hasks, hreads, (hdistinct _ hrd).1, fun vcpu ret hs =>
    hrefused _ _ _ _ hs (by decide)⟩

end RmmCaec
