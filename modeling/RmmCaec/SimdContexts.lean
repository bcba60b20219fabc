import RmmCaec.Simd

/-!
# Saved contexts

A context that has been saved gives its owner back what it left in the registers, as far
as the owner can see them: the Q registers, and with SVE the vectors up to the length of
the context.
-/
namespace RmmCaec
open Outcome Runs

section

variable {n w i k : ℕ}

theorem row_lt (hi : i < n) (hk : k < w) : w * i + k < n * w := by
  calc w * i + k < w * i + w := Nat.add_lt_add_left hk _
    _ = w * (i + 1) := (Nat.mul_succ w i).symm
    _ ≤ w * n := Nat.mul_le_mul_left _ hi
    _ = n * w := Nat.mul_comm _ _

theorem row_div (hk : k < w) : (w * i + k) / w = i := by
  rw [Nat.mul_add_div (by omega), Nat.div_eq_of_lt hk, Nat.add_zero]

theorem row_mod (hk : k < w) : (w * i + k) % w = k := by
  rw [Nat.mul_add_mod, Nat.mod_eq_of_lt hk]

end

section

variable {vq i k : ℕ} {ffr : Bool} {r : SimdRegs} {mem : ℕ → BitVec 8}

theorem fpuSaveRegisters_q (hi : i < 32) (hk : k < 16) :
    fpuSaveRegisters r mem (16 * i + k) = r.z i k := by
  have hlt : 16 * i + k < 512 := by omega
  rw [fpuSaveRegisters, if_pos hlt, row_div hk, row_mod hk]

theorem sveSaveVectorRegisters_z (hi : i < 32) (hk : k < 16 * (vq + 1)) :
    sveSaveVectorRegisters vq ffr r mem (16 * (vq + 1) * i + k) = r.z i k := by
  rw [sveSaveVectorRegisters, if_pos (row_lt hi hk), row_div hk, row_mod hk]

theorem sveSaveVectorRegisters_p (hvq : vq ≤ 15) (hi : i < 16) (hk : k < 2 * (vq + 1)) :
    sveSaveVectorRegisters vq ffr r mem (sveRegsOffsetP + 2 * (vq + 1) * i + k) = r.p i k := by
  have hrow := row_lt hi hk
  have hz : ¬ sveRegsOffsetP + 2 * (vq + 1) * i + k < 32 * (16 * (vq + 1)) := by
    unfold sveRegsOffsetP
    omega
  have hp : sveRegsOffsetP ≤ sveRegsOffsetP + 2 * (vq + 1) * i + k ∧
      sveRegsOffsetP + 2 * (vq + 1) * i + k < sveRegsOffsetP + 16 * (2 * (vq + 1)) := by
    omega
  have hsub : sveRegsOffsetP + 2 * (vq + 1) * i + k - sveRegsOffsetP = 2 * (vq + 1) * i + k := by
    omega
  rw [sveSaveVectorRegisters, if_neg hz, if_pos hp, hsub, row_div hk, row_mod hk]

theorem sveSaveVectorRegisters_ffr (hvq : vq ≤ 15) (hffr : ffr = true) (hk : k < 2 * (vq + 1)) :
    sveSaveVectorRegisters vq ffr r mem (sveRegsOffsetFfr + k) = r.ffr k := by
  have hz : ¬ sveRegsOffsetFfr + k < 32 * (16 * (vq + 1)) := by
    unfold sveRegsOffsetFfr sveRegsOffsetP
    omega
  have hp : ¬ (sveRegsOffsetP ≤ sveRegsOffsetFfr + k ∧
      sveRegsOffsetFfr + k < sveRegsOffsetP + 16 * (2 * (vq + 1))) := by
    unfold sveRegsOffsetFfr
    omega
  have hf : ffr = true ∧ sveRegsOffsetFfr ≤ sveRegsOffsetFfr + k ∧
      sveRegsOffsetFfr + k < sveRegsOffsetFfr + 2 * (vq + 1) :=
    ⟨hffr, by omega, by omega⟩
  rw [sveSaveVectorRegisters, if_neg hz, if_neg hp, if_pos hf, Nat.add_sub_cancel_left]

end

/-- The vector length of a context whose owner has left these registers. -/
def SimdContext.vq (x : SimdContext) (cpu : SimdPlatform) (left : SimdRegs) : ℕ :=
  if x.isSveModeStreaming left then cpu.svq else cpu.effVq (SimdRegs.zcrLen x.zcrEl2)

/-- The registers hold what the owner of a context has left, as far as it can see. -/
structure SameVectors (cpu : SimdPlatform) (x : SimdContext) (r left : SimdRegs) : Prop where
  svcr : x.sme = true → r.svcr = left.svcr
  q : ∀ i < 32, ∀ k < 16, r.z i k = left.z i k
  z : x.usesSve left = true → ∀ i < 32, ∀ k < 16 * (x.vq cpu left + 1), r.z i k = left.z i k
  p : x.usesSve left = true → ∀ i < 16, ∀ k < 2 * (x.vq cpu left + 1), r.p i k = left.p i k
  ffr : x.usesSve left = true → x.includeFfr cpu left = true → ∀ k < 2 * (x.vq cpu left + 1),
    r.ffr k = left.ffr k
  fpsr : r.fpsr = left.fpsr
  fpcr : r.fpcr = left.fpcr
  zcrEl12 : x.sve = true → r.zcrEl12 = left.zcrEl12

/-- The vector length at EL2 is the host's own, or the one for the realm. -/
structure OwnsRegs (cpu : SimdPlatform) (x : SimdContext) (r left : SimdRegs) : Prop where
  same : SameVectors cpu x r left
  zcrEl2 : x.sve = true → r.zcrEl2 = if x.owner = .NWD then left.zcrEl2 else x.zcrEl2

/-- A context as `simd_context_switch` saves it. -/
def saveCtx (cpu : SimdPlatform) (x : SimdContext) (r : SimdRegs) : SimdContext × SimdRegs :=
  let x1 := if x.owner = .NWD then saveSimdNsEl2Config x r else x
  let (x2, regs) := saveSimdContext cpu x1 r
  ({ x2 with saved := true }, regs)

/-- The registers as `simd_context_switch` restores them. -/
def restoreCtx (cpu : SimdPlatform) (x : SimdContext) (r : SimdRegs) : SimdRegs :=
  let regs := restoreSimdContext cpu x r
  if x.owner = .NWD then restoreSimdEl2Config x x.nsZcrEl2 regs else regs

/-- Restoring a context outside of streaming mode gives its owner what it has left. -/
def Stored (cpu : SimdPlatform) (x : SimdContext) (left : SimdRegs) : Prop :=
  ∀ r : SimdRegs, r.isSmeSm = false → OwnsRegs cpu x (restoreCtx cpu x r) left

section

variable {cpu : SimdPlatform} {x : SimdContext} {r r' left : SimdRegs}

@[simp] theorem restoreSimdEl2Config_eq (zcr : Word) :
    restoreSimdEl2Config x zcr r = { r with zcrEl2 := if x.sve then zcr else r.zcrEl2 } := by
  unfold restoreSimdEl2Config
  split
  · split
    · rfl
    · next h =>
      rw [not_ne_iff] at h
      rw [← h]
  · rfl

theorem sveSaveClobbers_eq (ffr : Bool) :
    sveSaveClobbers ffr r = { r with p := (sveSaveClobbers ffr r).p } := by
  unfold sveSaveClobbers
  split <;> rfl

/-- Only P0 changes. -/
theorem saveVregs_snd : (saveVregs cpu x r).2 = { r with p := (saveVregs cpu x r).2.p } := by
  unfold saveVregs
  split
  · exact sveSaveClobbers_eq _
  · rfl

/-- The use of SVE is that of the owner. -/
theorem SimdContext.isSveModeStreaming_congr (h : x.sme = true → r.svcr = r'.svcr) :
    x.isSveModeStreaming r = x.isSveModeStreaming r' := by
  unfold SimdContext.isSveModeStreaming SimdRegs.isSmeSm
  cases hsme : x.sme with
  | false => rfl
  | true => rw [h hsme]

theorem SimdContext.usesSve_congr (h : x.sme = true → r.svcr = r'.svcr) :
    x.usesSve r = x.usesSve r' := by
  unfold SimdContext.usesSve SimdContext.isSveModeNormal
  rw [SimdContext.isSveModeStreaming_congr h]

theorem SimdContext.includeFfr_congr (h : x.sme = true → r.svcr = r'.svcr) :
    x.includeFfr cpu r = x.includeFfr cpu r' := by
  unfold SimdContext.includeFfr
  rw [SimdContext.isSveModeStreaming_congr h]

theorem SimdContext.vq_congr (h : x.sme = true → r.svcr = r'.svcr) :
    x.vq cpu r = x.vq cpu r' := by
  unfold SimdContext.vq
  rw [SimdContext.isSveModeStreaming_congr h]

theorem zcrLen_le (zcr : Word) : SimdRegs.zcrLen zcr ≤ 15 := by
  unfold SimdRegs.zcrLen
  rw [BitVec.toNat_and]
  exact Nat.and_le_right

theorem SimdContext.vq_le : x.vq cpu r ≤ 15 := by
  unfold SimdContext.vq
  split
  · exact cpu.svq_le
  · exact (cpu.effVq_le _).trans (zcrLen_le _)

/-- Where SVE is in use, the vector length in force is that of the context. -/
theorem SimdRegs.vq_eq (huses : x.usesSve r = true) (hsm : r.isSmeSm = true → x.sme = true)
    (hzcr : x.sve = true → r.zcrEl2 = x.zcrEl2) : r.vq cpu = x.vq cpu r := by
  unfold SimdRegs.vq SimdContext.vq SimdContext.isSveModeStreaming
  cases hr : r.isSmeSm with
  | true => simp [hsm hr]
  | false =>
    have hsve : x.sve = true := by
      simp [SimdContext.usesSve, SimdContext.isSveModeNormal, SimdContext.isSveModeStreaming, hr]
        at huses
      exact huses.1
    simp [hzcr hsve]

theorem SameVectors.trans {a : SimdRegs} (h : SameVectors cpu x a r)
    (h' : SameVectors cpu x r left) :
    SameVectors cpu x a left := by
  have hu := SimdContext.usesSve_congr h'.svcr
  have hv : x.vq cpu r = x.vq cpu left := SimdContext.vq_congr h'.svcr
  have hf : x.includeFfr cpu r = x.includeFfr cpu left := SimdContext.includeFfr_congr h'.svcr
  refine ⟨fun hs => (h.svcr hs).trans (h'.svcr hs),
    fun i hi k hk => (h.q i hi k hk).trans (h'.q i hi k hk),
    fun hl i hi k hk => ?_, fun hl i hi k hk => ?_, fun hl hfl k hk => ?_, h.fpsr.trans h'.fpsr,
    h.fpcr.trans h'.fpcr, fun hs => (h.zcrEl12 hs).trans (h'.zcrEl12 hs)⟩
  · exact (h.z (hu.trans hl) i hi k (by rwa [hv])).trans (h'.z hl i hi k hk)
  · exact (h.p (hu.trans hl) i hi k (by rwa [hv])).trans (h'.p hl i hi k hk)
  · exact (h.ffr (hu.trans hl) (hf.trans hfl) k (by rwa [hv])).trans (h'.ffr hl hfl k hk)

theorem SimdRegs.writeSvcr_svcr (svcr : Word) : (r.writeSvcr svcr).svcr = svcr := by
  unfold SimdRegs.writeSvcr
  split <;> rfl

theorem SimdRegs.writeSvcr_zcrEl2 (svcr : Word) : (r.writeSvcr svcr).zcrEl2 = r.zcrEl2 := by
  unfold SimdRegs.writeSvcr
  split <;> rfl

theorem SimdRegs.isSmeSm_congr (h : r.svcr = r'.svcr) : r.isSmeSm = r'.isSmeSm := by
  unfold SimdRegs.isSmeSm
  rw [h]

/-- The vectors that have been saved are loaded again, in the same mode and at the same
length. -/
theorem restoreVregs_saved {y : SimdContext} {r1 : SimdRegs} (huses : y.usesSve r1 = x.usesSve r)
    (hvq : r1.vq cpu = r.vq cpu ∨ x.usesSve r = false)
    (hffr : y.includeFfr cpu r1 = x.includeFfr cpu r) (hmem : y.vregs = (saveVregs cpu x r).1)
    (hle : x.usesSve r = true → r.vq cpu ≤ 15) :
    (∀ i < 32, ∀ k < 16, (restoreVregs cpu y r1).z i k = r.z i k) ∧
    (x.usesSve r = true → ∀ i < 32, ∀ k < 16 * (r.vq cpu + 1),
      (restoreVregs cpu y r1).z i k = r.z i k) ∧
    (x.usesSve r = true → ∀ i < 16, ∀ k < 2 * (r.vq cpu + 1),
      (restoreVregs cpu y r1).p i k = r.p i k) ∧
    (x.usesSve r = true → x.includeFfr cpu r = true → ∀ k < 2 * (r.vq cpu + 1),
      (restoreVregs cpu y r1).ffr k = r.ffr k) := by
  cases hu : x.usesSve r with
  | true =>
    obtain hvq : r1.vq cpu = r.vq cpu := hvq.resolve_right (by simp [hu])
    have hrestore : restoreVregs cpu y r1 = sveRestoreVectorRegisters (r.vq cpu)
        (x.includeFfr cpu r) (sveSaveVectorRegisters (r.vq cpu) (x.includeFfr cpu r) r
          x.vregs) r1 := by
      rw [restoreVregs, huses, hu, if_pos rfl, hmem, saveVregs, hu, if_pos rfl, hvq, hffr]
    rw [hrestore]
    have hz : ∀ i < 32, ∀ k < 16 * (r.vq cpu + 1), (sveRestoreVectorRegisters (r.vq cpu)
        (x.includeFfr cpu r) (sveSaveVectorRegisters (r.vq cpu) (x.includeFfr cpu r) r x.vregs)
        r1).z i k = r.z i k := by
      intro i hi k hk
      simp only [sveRestoreVectorRegisters, if_pos hk]
      exact sveSaveVectorRegisters_z hi hk
    refine ⟨fun i hi k hk => hz i hi k (by omega), fun _ => hz, fun _ i hi k hk => ?_,
      fun _ hf k hk => ?_⟩
    · simp only [sveRestoreVectorRegisters, if_pos hk]
      exact sveSaveVectorRegisters_p (hle hu) hi hk
    · simp only [sveRestoreVectorRegisters, hf, true_and, if_pos hk]
      exact sveSaveVectorRegisters_ffr (hle hu) rfl hk
  | false =>
    have hz : (restoreVregs cpu y r1).z =
        (fpuRestoreRegisters (fpuSaveRegisters r x.vregs) r1).z := by
      simp only [restoreVregs, huses, hmem, saveVregs, hu, Bool.false_eq_true, if_false]
      split <;> rfl
    refine ⟨fun i hi k hk => ?_, nofun, nofun, nofun⟩
    rw [hz]
    simp only [fpuRestoreRegisters, if_pos hk]
    exact fpuSaveRegisters_q hi hk

/-- The registers before the vectors are loaded are in the mode of the context. -/
theorem writeSvcr_mode (hsm : r.isSmeSm = true → x.sme = true) (hr' : r'.isSmeSm = false) :
    ((if x.sme then r'.writeSvcr r.svcr else r').isSmeSm = r.isSmeSm ∧
      (if x.sme then r'.writeSvcr r.svcr else r').zcrEl2 = r'.zcrEl2) ∧
    (x.sme = true → (if x.sme then r'.writeSvcr r.svcr else r').svcr = r.svcr) := by
  cases hsme : x.sme with
  | true =>
    have hsvcr : (r'.writeSvcr r.svcr).svcr = r.svcr := SimdRegs.writeSvcr_svcr _
    exact ⟨⟨SimdRegs.isSmeSm_congr hsvcr, SimdRegs.writeSvcr_zcrEl2 _⟩, fun _ => hsvcr⟩
  | false =>
    have hr : r.isSmeSm = false := by
      rw [hsme] at hsm
      simpa using hsm
    exact ⟨⟨hr'.trans hr.symm, rfl⟩, nofun⟩

theorem restoreVregs_rest {y : SimdContext} : restoreVregs cpu y r = { r with
    z := (restoreVregs cpu y r).z, p := (restoreVregs cpu y r).p, ffr :=
      (restoreVregs cpu y r).ffr } := by
  unfold restoreVregs
  split
  · rfl
  · split <;> rfl

/-- What has been saved is restored. -/
theorem restoreSimdContext_saved (hsm : r.isSmeSm = true → x.sme = true)
    (hr' : r'.isSmeSm = false) :
    SameVectors cpu x (restoreSimdContext cpu (saveSimdContext cpu x r).1 r') r := by
  -- the registers as they are saved, and as they are before the vectors are loaded
  let r0 : SimdRegs := { r with zcrEl2 := if x.sve then x.zcrEl2 else r.zcrEl2 }
  let w : SimdRegs := { r' with zcrEl2 := if x.sve then x.zcrEl2 else r'.zcrEl2 }
  let y := (saveSimdContext cpu x r).1
  let r1 := if x.sme then w.writeSvcr r.svcr else w
  have hsave : saveVregs cpu x (restoreSimdEl2Config x x.zcrEl2 r) = saveVregs cpu x r0 := by
    rw [restoreSimdEl2Config_eq]
  have hrest := @saveVregs_snd cpu x r0
  have hload : restoreSimdContext cpu y r' = { restoreVregs cpu y r1 with
      zcrEl12 := if x.sve then y.zcrEl12 else (restoreVregs cpu y r1).zcrEl12
      fpsr := y.fpsr, fpcr := y.fpcr } := by
    have hr1 : (if x.sme = true then (restoreSimdEl2Config x x.zcrEl2 r').writeSvcr y.svcr
        else restoreSimdEl2Config x x.zcrEl2 r') = r1 := by
      rw [restoreSimdEl2Config_eq]
      show _ = if x.sme = true then w.writeSvcr r.svcr else w
      split
      · next hsme =>
        have : y.svcr = r.svcr := by
          show (if x.sme = true then (restoreSimdEl2Config x x.zcrEl2 r).svcr else x.svcr) = _
          rw [if_pos hsme, restoreSimdEl2Config_eq]
        rw [this]
      · rfl
    show (let r2 := restoreVregs cpu y (if x.sme = true then
      (restoreSimdEl2Config x x.zcrEl2 r').writeSvcr y.svcr else restoreSimdEl2Config x x.zcrEl2 r')
      ({ r2 with
        zcrEl12 := if x.sve then y.zcrEl12 else r2.zcrEl12, fpsr := y.fpsr, fpcr := y.fpcr } :
        SimdRegs)) = _
    rw [hr1]
  obtain ⟨⟨hmode, hzcr⟩, hsvcr⟩ := @writeSvcr_mode x r w hsm hr'
  have huses : y.usesSve r1 = x.usesSve r0 := @SimdContext.usesSve_congr x r1 r0 hsvcr
  have hffr : y.includeFfr cpu r1 = x.includeFfr cpu r0 :=
    @SimdContext.includeFfr_congr cpu x r1 r0 hsvcr
  have hlen : x.usesSve r0 = true → r0.vq cpu = x.vq cpu r := fun hu =>
    SimdRegs.vq_eq hu hsm fun hs => if_pos hs
  have hlen1 : x.usesSve r0 = true → r1.vq cpu = r0.vq cpu := by
    intro hu
    rw [hlen hu, SimdRegs.vq_eq (x := x) ((@SimdContext.usesSve_congr x r1 r0 hsvcr).trans hu)
      (fun h => hsm (hmode ▸ h)) fun hs => hzcr.trans (if_pos hs)]
    exact SimdContext.vq_congr hsvcr
  have hvq : r1.vq cpu = r0.vq cpu ∨ x.usesSve r0 = false := by
    cases hu : x.usesSve r0 with
    | true => exact .inl (hlen1 hu)
    | false => exact .inr rfl
  obtain ⟨hq, hz, hp, hf⟩ := @restoreVregs_saved cpu x r0 y r1 huses hvq hffr
    (congrArg Prod.fst hsave) fun hu => (hlen hu).trans_le SimdContext.vq_le
  rw [hload]
  refine ⟨fun hs => ?_, hq, fun hu => ?_, fun hu => ?_, fun hu => ?_, ?_, ?_, fun hs => ?_⟩
  · show (restoreVregs cpu y r1).svcr = r.svcr
    rw [restoreVregs_rest]
    exact hsvcr hs
  · rw [← hlen hu]
    exact hz hu
  · rw [← hlen hu]
    exact hp hu
  · rw [← hlen hu]
    exact hf hu
  · show (saveVregs cpu x (restoreSimdEl2Config x x.zcrEl2 r)).2.fpsr = r.fpsr
    rw [hsave, hrest]
  · show (saveVregs cpu x (restoreSimdEl2Config x x.zcrEl2 r)).2.fpcr = r.fpcr
    rw [hsave, hrest]
  · show (if x.sve = true then (if x.sve = true then
      (saveVregs cpu x (restoreSimdEl2Config x x.zcrEl2 r)).2.zcrEl12 else x.zcrEl12) else
        _) = r.zcrEl12
    rw [if_pos hs, if_pos hs, hsave, hrest]

/-- Saving ends streaming mode. -/
theorem saveSimdContext_mode (hsm : r.isSmeSm = true → x.sme = true) :
    (saveSimdContext cpu x r).2.isSmeSm = false := by
  let r0 : SimdRegs := { r with zcrEl2 := if x.sve then x.zcrEl2 else r.zcrEl2 }
  have hsave : saveVregs cpu x (restoreSimdEl2Config x x.zcrEl2 r) = saveVregs cpu x r0 := by
    rw [restoreSimdEl2Config_eq]
  have hsvcr : (saveVregs cpu x r0).2.svcr = r.svcr := by rw [saveVregs_snd]
  have hmode : (saveVregs cpu x r0).2.isSmeSm = r.isSmeSm := SimdRegs.isSmeSm_congr hsvcr
  have hsnd : (saveSimdContext cpu x r).2 = if x.isSveModeStreaming (saveVregs cpu x r0).2 then
      (saveVregs cpu x r0).2.writeSvcr ((saveSimdContext cpu x r).1.svcr &&& ~~~1#64)
      else (saveVregs cpu x r0).2 := by
    rw [← hsave]
    rfl
  rw [hsnd]
  split
  · rw [SimdRegs.isSmeSm, SimdRegs.writeSvcr_svcr]
    simp
  · next hnot =>
    rw [hmode]
    cases hr : r.isSmeSm with
    | false => rfl
    | true => simp [SimdContext.isSveModeStreaming, hmode, hr, hsm hr] at hnot

/-- Only these fields decide what an owner sees. -/
theorem SameVectors.of_mode {y : SimdContext} (h : SameVectors cpu x r left) (hsve : y.sve = x.sve)
    (hsme : y.sme = x.sme) (hhint : y.sveHint = x.sveHint) (hzcr : y.zcrEl2 = x.zcrEl2) :
    SameVectors cpu y r left := by
  have hs : y.isSveModeStreaming left = x.isSveModeStreaming left := by
    rw [SimdContext.isSveModeStreaming, hsme]
    rfl
  have hu : y.usesSve left = x.usesSve left := by
    rw [SimdContext.usesSve, SimdContext.isSveModeNormal, hsve, hhint, hs]
    rfl
  have hv : y.vq cpu left = x.vq cpu left := by
    rw [SimdContext.vq, hs, hzcr]
    rfl
  have hf : y.includeFfr cpu left = x.includeFfr cpu left := by
    rw [SimdContext.includeFfr, hs]
    rfl
  refine ⟨fun h' => h.svcr (hsme ▸ h'), h.q, ?_, ?_, ?_, h.fpsr, h.fpcr,
    fun h' => h.zcrEl12 (hsve ▸ h')⟩
  · rw [hu, hv]
    exact h.z
  · rw [hu, hv]
    exact h.p
  · rw [hu, hv, hf]
    exact h.ffr

/-- The fields that `simd_context_init` sets once. -/
structure SimdContext.SameFixed (y x : SimdContext) : Prop where
  owner : y.owner = x.owner
  sve : y.sve = x.sve
  sme : y.sme = x.sme
  initDone : y.initDone = x.initDone
  sveHint : y.sveHint = x.sveHint
  cptrEl2 : y.cptrEl2 = x.cptrEl2
  zcrEl2 : y.zcrEl2 = x.zcrEl2

theorem OwnsRegs.of_fixed {y : SimdContext} (h : OwnsRegs cpu x r left) (hy : y.SameFixed x) :
    OwnsRegs cpu y r left := by
  refine ⟨h.same.of_mode hy.sve hy.sme hy.sveHint hy.zcrEl2, fun hs => ?_⟩
  rw [h.zcrEl2 (hy.sve ▸ hs), hy.owner, hy.zcrEl2]

theorem saveSimdNsEl2Config_fixed : (saveSimdNsEl2Config x r).SameFixed x := by
  unfold saveSimdNsEl2Config
  split <;> exact ⟨rfl, rfl, rfl, rfl, rfl, rfl, rfl⟩

theorem saveCtx_fixed : (saveCtx cpu x r).1.SameFixed x := by
  unfold saveCtx
  split
  · have h := @saveSimdNsEl2Config_fixed x r
    exact ⟨h.owner, h.sve, h.sme, h.initDone, h.sveHint, h.cptrEl2, h.zcrEl2⟩
  · exact ⟨rfl, rfl, rfl, rfl, rfl, rfl, rfl⟩

theorem saveCtx_mode (hsm : r.isSmeSm = true → x.sme = true) :
    (saveCtx cpu x r).2.isSmeSm = false := by
  unfold saveCtx
  refine saveSimdContext_mode fun h => ?_
  split
  · rw [saveSimdNsEl2Config_fixed.sme]
    exact hsm h
  · exact hsm h

theorem restoreSimdContext_zcrEl2 (hs : x.sve = true) :
    (restoreSimdContext cpu x r).zcrEl2 = x.zcrEl2 := by
  show (restoreVregs cpu x _).zcrEl2 = _
  rw [restoreVregs_rest]
  show (if x.sme = true then _ else _ : SimdRegs).zcrEl2 = _
  split
  · rw [SimdRegs.writeSvcr_zcrEl2, restoreSimdEl2Config_eq]
    exact if_pos hs
  · rw [restoreSimdEl2Config_eq]
    exact if_pos hs

theorem restoreCtx_svcr (hsme : x.sme = false) : (restoreCtx cpu x r).svcr = r.svcr := by
  have hload : (restoreSimdContext cpu x r).svcr = r.svcr := by
    unfold restoreSimdContext
    rw [hsme]
    show (restoreVregs cpu x (restoreSimdEl2Config x x.zcrEl2 r)).svcr = _
    rw [restoreVregs_rest, restoreSimdEl2Config_eq]
  unfold restoreCtx
  split
  · rw [restoreSimdEl2Config_eq]
    exact hload
  · exact hload

theorem SameVectors.refl : SameVectors cpu x r r :=
  ⟨fun _ => rfl, fun _ _ _ _ => rfl, fun _ _ _ _ _ => rfl, fun _ _ _ _ _ => rfl,
    fun _ _ _ _ => rfl, rfl, rfl, fun _ => rfl⟩

/-- What an owner has in the registers is kept in memory. -/
theorem OwnsRegs.stored (h : OwnsRegs cpu x r left) (hsm : r.isSmeSm = true → x.sme = true) :
    Stored cpu (saveCtx cpu x r).1 left := by
  intro r' hr'
  let x1 := if x.owner = .NWD then saveSimdNsEl2Config x r else x
  let y := (saveCtx cpu x r).1
  have hfixed : y.SameFixed x := saveCtx_fixed
  have hx1 : x1.SameFixed x := by
    show (if x.owner = .NWD then saveSimdNsEl2Config x r else x).SameFixed x
    split
    · exact saveSimdNsEl2Config_fixed
    · exact ⟨rfl, rfl, rfl, rfl, rfl, rfl, rfl⟩
  have hsame : SameVectors cpu x1 (restoreSimdContext cpu (saveSimdContext cpu x1 r).1 r') r :=
    restoreSimdContext_saved (fun hr => hx1.sme ▸ hsm hr) hr'
  have hback : SameVectors cpu y (restoreSimdContext cpu y r') left := by
    have hx := hsame.trans (h.same.of_mode hx1.sve hx1.sme hx1.sveHint hx1.zcrEl2)
    exact hx.of_mode (hfixed.sve.trans hx1.sve.symm) (hfixed.sme.trans hx1.sme.symm)
      (hfixed.sveHint.trans hx1.sveHint.symm) (hfixed.zcrEl2.trans hx1.zcrEl2.symm)
  by_cases hns : x.owner = .NWD
  · have hrestore : restoreCtx cpu y r' =
        restoreSimdEl2Config y y.nsZcrEl2 (restoreSimdContext cpu y r') := by
      rw [restoreCtx, if_pos (hfixed.owner.trans hns)]
    show OwnsRegs cpu y (restoreCtx cpu y r') left
    rw [hrestore, restoreSimdEl2Config_eq]
    refine ⟨⟨hback.svcr, hback.q, hback.z, hback.p, hback.ffr, hback.fpsr, hback.fpcr,
      hback.zcrEl12⟩, fun hs => ?_⟩
    have hx : x.sve = true := hfixed.sve ▸ hs
    have hzcr : y.nsZcrEl2 = r.zcrEl2 := by
      show (if x.owner = .NWD then saveSimdNsEl2Config x r else x).nsZcrEl2 = _
      rw [if_pos hns, saveSimdNsEl2Config, if_pos hx]
    rw [if_pos (hfixed.owner.trans hns)]
    show (if y.sve = true then _ else _) = _
    rw [if_pos hs, hzcr, h.zcrEl2 hx, if_pos hns]
  · have hrestore : restoreCtx cpu y r' = restoreSimdContext cpu y r' := by
      rw [restoreCtx, if_neg fun ho => hns (hfixed.owner ▸ ho)]
    show OwnsRegs cpu y (restoreCtx cpu y r') left
    rw [hrestore]
    refine ⟨hback, fun hs => ?_⟩
    rw [if_neg fun ho => hns (hfixed.owner ▸ ho)]
    exact restoreSimdContext_zcrEl2 hs

/-- What `simd_context_init` leaves in the fixed fields. -/
structure SimdOk (owner : SimdOwner) (cfg : SimdConfig) (x : SimdContext) : Prop where
  owner : x.owner = owner
  sve : x.sve = cfg.sveEn
  sme : x.sme = cfg.smeEn
  initDone : x.initDone = true
  cptrEl2 : x.cptrEl2 = simdEnableCptrFlags cfg cptrEl2VheInit

theorem SimdOk.of_fixed {owner : SimdOwner} {cfg : SimdConfig} {y : SimdContext}
    (h : SimdOk owner cfg x) (hy : y.SameFixed x) : SimdOk owner cfg y :=
  ⟨hy.owner.trans h.owner, hy.sve.trans h.sve, hy.sme.trans h.sme, hy.initDone.trans h.initDone,
    hy.cptrEl2.trans h.cptrEl2⟩

theorem cptrFpen_enable (cfg : SimdConfig) :
    cptrFpen (simdEnableCptrFlags cfg cptrEl2VheInit) = noTrap11 := by
  unfold simdEnableCptrFlags
  cases cfg.sveEn <;> cases cfg.smeEn <;> decide

theorem cptrZen_enable (cfg : SimdConfig) :
    cptrZen (simdEnableCptrFlags cfg cptrEl2VheInit) = if cfg.sveEn then noTrap11 else 0#64 := by
  unfold simdEnableCptrFlags
  cases cfg.sveEn <;> cases cfg.smeEn <;> decide

theorem cptrSmen_enable (cfg : SimdConfig) :
    cptrSmen (simdEnableCptrFlags cfg cptrEl2VheInit) = if cfg.smeEn then noTrap11 else 0#64 := by
  unfold simdEnableCptrFlags
  cases cfg.sveEn <;> cases cfg.smeEn <;> decide

theorem simdDisableAllCptrFlags_enable (cfg : SimdConfig) :
    simdDisableAllCptrFlags (simdEnableCptrFlags cfg cptrEl2VheInit) = cptrEl2VheInit := by
  unfold simdEnableCptrFlags
  cases cfg.sveEn <;> cases cfg.smeEn <;> decide

/-- The traps that a context opens let EL2 save and restore it. -/
theorem SimdOk.accessible {owner : SimdOwner} {cfg : SimdConfig} (h : SimdOk owner cfg x) :
    x.accessible x.cptrEl2 = true := by
  unfold SimdContext.accessible
  rw [h.cptrEl2, cptrFpen_enable, cptrZen_enable, cptrSmen_enable, h.sve, h.sme]
  cases cfg.sveEn <;> cases cfg.smeEn <;> decide

theorem simdContextInit_ok {owner : SimdOwner} {cfg : SimdConfig} (howner : owner ≠ .NONE)
    (hvalid : validateSimdConfig cpu cfg = true) :
    ∃ y, simdContextInit cpu owner default cfg = some y ∧ SimdOk owner cfg y ∧
      y.saved = decide (owner = .REL1) ∧ y.vregs = (fun _ => 0#8) ∧ y.fpsr = 0#64 ∧
      y.fpcr = 0#64 ∧ y.zcrEl12 = 0#64 := by
  have howner' : ¬ (owner ≠ .REL1 ∧ owner ≠ .NWD) := by
    cases owner with
    | NONE => exact absurd rfl howner
    | NWD => exact fun h => h.2 rfl
    | REL1 => exact fun h => h.1 rfl
  obtain ⟨sve, vq, sme⟩ := cfg
  simp only [simdContextInit, hvalid]
  rw [if_neg (by simp [default]), if_neg howner', if_neg (by simp)]
  refine ⟨_, rfl, ⟨?_, ?_, ?_, rfl, ?_⟩, ?_, ?_, ?_, ?_, ?_⟩ <;> cases sve <;>
    cases sme <;> rfl

/-- A zeroed context holds zeroed registers. -/
theorem stored_zero (hsme : x.sme = false) (howner : x.owner ≠ .NWD) (hv : x.vregs = fun _ => 0#8)
    (hfpsr : x.fpsr = 0#64) (hfpcr : x.fpcr = 0#64) (hzcr : x.zcrEl12 = 0#64) :
    Stored cpu x default := by
  intro r hr
  have hzero : ∀ r1 : SimdRegs, (∀ i, ∀ k < 16, (restoreVregs cpu x r1).z i k = 0#8) ∧
      (x.usesSve r1 = true → (∀ i, ∀ k < 16 * (r1.vq cpu + 1),
      (restoreVregs cpu x r1).z i k = 0#8) ∧
        (∀ i, ∀ k < 2 * (r1.vq cpu + 1), (restoreVregs cpu x r1).p i k = 0#8) ∧
        (x.includeFfr cpu r1 = true → ∀ k < 2 * (r1.vq cpu + 1),
          (restoreVregs cpu x r1).ffr k = 0#8)) := by
    intro r1
    unfold restoreVregs
    rw [hv]
    cases hu : x.usesSve r1 with
    | true =>
      simp only [if_true, sveRestoreVectorRegisters]
      refine ⟨fun i k hk => if_pos (by omega), fun _ => ⟨fun i k hk => if_pos hk,
        fun i k hk => if_pos hk, fun hf k hk => if_pos ⟨hf, hk⟩⟩⟩
    | false =>
      refine ⟨fun i k hk => ?_, nofun⟩
      simp only [Bool.false_eq_true, if_false]
      split <;> exact if_pos hk
  rw [restoreCtx, if_neg howner]
  let w : SimdRegs := restoreSimdEl2Config x x.zcrEl2 r
  have hw : w.isSmeSm = false := by
    show (restoreSimdEl2Config x x.zcrEl2 r).isSmeSm = false
    rw [restoreSimdEl2Config_eq]
    exact hr
  have hstep : restoreSimdContext cpu x r = { restoreVregs cpu x w with
      zcrEl12 := if x.sve then x.zcrEl12 else (restoreVregs cpu x w).zcrEl12
      fpsr := x.fpsr, fpcr := x.fpcr } := by
    unfold restoreSimdContext
    rw [hsme]
    rfl
  have hmode : x.sme = true → w.svcr = (default : SimdRegs).svcr := by
    rw [hsme]
    nofun
  have hu : x.usesSve w = x.usesSve default := SimdContext.usesSve_congr hmode
  have hvq : x.usesSve default = true → w.vq cpu = x.vq cpu default := by
    intro h
    rw [SimdRegs.vq_eq (x := x) (hu.trans h) (by simp [hw]) fun hs => ?_]
    · exact SimdContext.vq_congr hmode
    · show (restoreSimdEl2Config x x.zcrEl2 r).zcrEl2 = _
      rw [restoreSimdEl2Config_eq]
      exact if_pos hs
  obtain ⟨hq, hsve⟩ := hzero w
  refine ⟨?_, fun hs => ?_⟩
  · rw [hstep]
    refine ⟨by rw [hsme]; nofun, fun i _ k hk => hq i k hk, fun h i _ k hk => ?_, fun h i _ k hk => ?_,
      fun h hf k hk => ?_, hfpsr, hfpcr, fun hs => ?_⟩
    · exact (hsve (hu.trans h)).1 i k (by rwa [hvq h])
    · exact (hsve (hu.trans h)).2.1 i k (by rwa [hvq h])
    · exact (hsve (hu.trans h)).2.2 ((SimdContext.includeFfr_congr hmode).trans hf) k
        (by rwa [hvq h])
    · show (if x.sve = true then x.zcrEl12 else _) = _
      rw [if_pos hs, hzcr]
      rfl
  · rw [if_neg howner]
    exact restoreSimdContext_zcrEl2 hs

end

end RmmCaec
