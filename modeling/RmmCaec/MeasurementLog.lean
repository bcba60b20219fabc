import RmmCaec.MeasurementDescriptors

/-!
# The measurement log

Each measured handler does what the handler without measurements does, and extends the
RIM afterwards by the events that its reply tells about. So the RIM of a realm is the
fold of the descriptors of the calls that succeeded, and a realm that is not new adds none.
-/
namespace RmmCaec
open RadixForest Outcome Runs

section
variable (h : Hasher)

/-- The RIM of a realm is extended by events. -/
def MeasuredState.log (ms : MeasuredState) (rdAddr : Word) (events : List RimEvent) :
    MeasuredState :=
  ms.setRim rdAddr (rimMeasured h (ms.algorithm rdAddr) (ms.rim rdAddr) events)

/-- The entries of size `mapSize` from `base` on, `n` of them. -/
def ripasEvents (base mapSize n : ℕ) : List RimEvent :=
  (List.range n).map fun k =>
    .ripas (BitVec.ofNat 64 (base + k * mapSize)) (BitVec.ofNat 64 (base + (k + 1) * mapSize))

end

namespace MeasuredState

variable (ms : MeasuredState) (g : Word)

@[simp] theorem setMem_self : ms.setMem ms.mem = ms := rfl

@[simp] theorem setMem_mem (s : State) : (ms.setMem s).mem = s := rfl

@[simp] theorem setMem_setMem (s s' : State) : (ms.setMem s).setMem s' = ms.setMem s' := rfl

@[simp] theorem setRim_setMem (m : Measurement) (s : State) :
    (ms.setMem s).setRim g m = (ms.setRim g m).setMem s := rfl

@[simp] theorem setSlot_self (slot : ℕ) :
    ms.setSlot g slot (ms.measurement g slot) = ms := by
  unfold setSlot
  rw [Function.update_eq_self, Function.update_eq_self]

@[simp] theorem log_nil (h : Hasher) : ms.log h g [] = ms := ms.setSlot_self g _

theorem rim_setRim (m : Measurement) : (ms.setRim g m).rim g = m := by
  simp [setRim, rim, setSlot]

/-- The other measurements are not the RIM. -/
theorem rim_setSlot {slot : ℕ} (hs : slot ≠ rimMeasurementSlot) (m : Measurement) (x : Word) :
    (ms.setSlot g slot m).rim x = ms.rim x := by
  unfold rim setSlot
  by_cases hx : x = g
  · subst hx
    simp [Ne.symm hs]
  · simp [hx]

theorem rim_log_of_ne (h : Hasher) {x : Word} (hx : x ≠ g) (e : List RimEvent) :
    (ms.log h g e).rim x = ms.rim x := by
  simp [log, setRim, rim, setSlot, hx]

theorem rim_wipe_of_ne {x : Word} (hx : x ≠ g) : (ms.wipe g).rim x = ms.rim x := by
  simp [wipe, rim, hx]

/-- Events are logged one after the other. -/
theorem log_log (h : Hasher) (e e' : List RimEvent) :
    (ms.log h g e).log h g e' = ms.log h g (e ++ e') := by
  unfold log
  rw [rim_setRim]
  simp [rimMeasured, setRim, setSlot]

/-- A granule without measurements is not changed by zeroing it. -/
theorem wipe_of_zero (ha : ms.algorithm g = .SHA_256) (hm : ms.measurement g = fun _ _ => 0#8) :
    ms.wipe g = ms := by
  unfold wipe
  rw [← ha, ← hm, Function.update_eq_self, Function.update_eq_self]

end MeasuredState

/-- A computation that branches is a branch followed by a continuation. -/
theorem ite_eq_bind {α β : Type} {c : Prop} [Decidable c] {x x' : Rmm β} {y y' : Rmm α}
    {k : α → Rmm β} (ht : c → x = y >>= k) (he : ¬ c → x' = y' >>= k) :
    (if c then x else x') = (if c then y else y') >>= k := by
  by_cases hc : c
  · rw [if_pos hc, if_pos hc]
    exact ht hc
  · rw [if_neg hc, if_neg hc]
    exact he hc

/-- Two computations with the same first part. -/
theorem bind_eq_bind {α β γ : Type} {x : Rmm α} {f : α → Rmm β} {g : α → Rmm γ}
    {k : γ → Rmm β} (hf : ∀ a, f a = g a >>= k) : x >>= f = (x >>= g) >>= k := by
  rw [bind_assoc]
  exact bind_congr hf

/-- A failed call measures nothing. -/
theorem pure_failed {ret : ReturnCode} (hret : ret ≠ rmiSuccess) (x ms : MeasuredState)
    (s : State) : (pure (ms.setMem s, smcRet ret) : Rmm (MeasuredState × SmcResult)) =
      pure ((if (smcRet ret).ret = rmiSuccess then x else ms).setMem s, smcRet ret) := by
  rw [if_neg (show (smcRet ret).ret ≠ rmiSuccess from hret)]

section
variable {plat : Platform} {h : Hasher} {ms : MeasuredState}

/-- The event of a REC. -/
def recEvents : Option RecPage → List RimEvent
  | some p => if p.runnable then [.recs p] else []
  | none => []

theorem smcRecCreateMeasured_eq (rdAddr recAddr paramsAddr : Word) (nsRead : Option RecPage) :
    smcRecCreateMeasured plat h ms rdAddr recAddr paramsAddr nsRead = (do
      let (s, res) ← smcRecCreate plat ms.mem rdAddr recAddr paramsAddr
        (nsRead.map RecPage.toRecParams)
      return ((if res.ret = rmiSuccess then ms.log h rdAddr (recEvents nsRead) else ms).setMem s,
        res)) := by
  unfold smcRecCreateMeasured smcRecCreate
  refine ite_eq_bind (fun _ => rfl) fun _ => ?_
  cases nsRead with
  | none => rfl
  | some p =>
    refine ite_eq_bind (fun _ => rfl) fun _ => bind_eq_bind fun claimed => ?_
    cases claimed with
    | none => rfl
    | some s1 =>
      refine ite_eq_bind (fun hret => bind_eq_bind fun s2 => ?_) fun _ => bind_eq_bind fun s2 =>
        bind_eq_bind fun s4 => ?_
      · exact pure_failed hret _ _ _
      · have hms : (if p.runnable = true then ms.setRim rdAddr (measurementRecParamsMeasure h
            (ms.rim rdAddr) (ms.algorithm rdAddr) p) else ms) =
              ms.log h rdAddr (recEvents (some p)) := by
          by_cases hp : p.runnable = true
          · simp only [recEvents, hp, if_true]
            rfl
          · simp [recEvents, hp]
        rw [hms]
        rfl

/-- The state after a realm is created. -/
def MeasuredState.created (ms : MeasuredState) (h : Hasher) (rdAddr : Word) :
    Option RealmPage → MeasuredState
  | some p =>
    (ms.setAlgorithm rdAddr p.hashAlgo).log h rdAddr [.realm p]
  | none => ms

theorem smcRealmCreateMeasured_eq (rdAddr paramsAddr : Word) (nsRead : Option RealmPage) :
    smcRealmCreateMeasured plat h ms rdAddr paramsAddr nsRead = (do
      let (s, res) ← smcRealmCreate plat ms.mem rdAddr paramsAddr
        (nsRead.map RealmPage.toRealmParams)
      return ((if res.ret = rmiSuccess then ms.created h rdAddr nsRead else ms).setMem
        s, res)) := by
  unfold smcRealmCreateMeasured smcRealmCreate
  refine ite_eq_bind (fun _ => rfl) fun _ => ?_
  cases nsRead with
  | none => rfl
  | some p =>
    refine ite_eq_bind (fun _ => rfl) fun _ => ?_
    dsimp only [Option.map_some]
    cases vmidReserve plat ms.mem p.vmid with
    | none => rfl
    | some s1 =>
      refine ite_eq_bind (fun _ => bind_eq_bind fun s2 => rfl) fun _ => bind_eq_bind fun s2 =>
        bind_eq_bind fun s3 => bind_eq_bind fun s4 => ?_
      have hms : ∀ a, (ms.setAlgorithm rdAddr a).setRim rdAddr (measurementRealmParamsMeasure h
          ((ms.setAlgorithm rdAddr a).rim rdAddr) a p) =
            (ms.setAlgorithm rdAddr a).log h rdAddr [.realm p] := by
        intro a
        simp [MeasuredState.log, MeasuredState.setAlgorithm, rimMeasured, RimEvent.measure]
      rw [hms]
      rfl

/-- The event of a page. -/
def dataEvents (mapAddr flags : Word) : NsPage → List RimEvent
  | .done data => [.data data mapAddr flags]
  | .failed _ => []

/-- The failed copy is wiped from a granule that holds no measurements. -/
theorem dataCreateMeasured_eq {dataAddr : Word}
    (hz : (ms.mem.granule dataAddr).state = .DELEGATED →
      ms.algorithm dataAddr = .SHA_256 ∧ ms.measurement dataAddr = fun _ _ => 0#8)
    (rdAddr mapAddr flags : Word) (nsPage : NsPage) :
    dataCreateMeasured plat h ms rdAddr dataAddr mapAddr flags nsPage = (do
      let (s, res) ← dataCreate plat ms.mem rdAddr dataAddr mapAddr true nsPage.toNsCopy
      return ((if res.ret = rmiSuccess then ms.log h rdAddr (dataEvents mapAddr flags nsPage)
        else ms).setMem s, res)) := by
  unfold dataCreateMeasured dataCreate
  refine ite_eq_bind (fun _ => rfl) fun hlock => ?_
  refine ite_eq_bind (fun hret => pure_failed hret _ _ _) fun _ => ?_
  refine ite_eq_bind (fun _ => rfl) fun _ => bind_eq_bind fun wi => ?_
  refine ite_eq_bind (fun _ => rfl) fun _ => ite_eq_bind (fun _ => rfl) fun _ => ?_
  cases nsPage with
  | failed copied =>
    obtain ⟨-, hdel, -⟩ := findLockTwoGranules_iff (by simpa using hlock)
    obtain ⟨ha, hm⟩ := hz (lockable_state hdel)
    have hwipe : (ms.setMem (ms.mem.copyWords dataAddr copied)).memzero dataAddr =
        ms.setMem ((ms.mem.copyWords dataAddr copied).memzero dataAddr) :=
      MeasuredState.wipe_of_zero _ _ ha hm
    dsimp only
    rw [hwipe]
    rfl
  | done data =>
    refine bind_eq_bind fun _ => bind_eq_bind fun s2 => bind_eq_bind fun _ =>
      bind_eq_bind fun s3 => ?_
    rfl

theorem smcDataCreateMeasured_eq {dataAddr : Word}
    (hz : (ms.mem.granule dataAddr).state = .DELEGATED →
      ms.algorithm dataAddr = .SHA_256 ∧ ms.measurement dataAddr = fun _ _ => 0#8)
    (rdAddr mapAddr srcAddr flags : Word) (nsPage : NsPage) :
    smcDataCreateMeasured plat h ms rdAddr dataAddr mapAddr srcAddr flags nsPage = (do
      let (s, res) ← smcDataCreate plat ms.mem rdAddr dataAddr mapAddr srcAddr flags
        nsPage.toNsCopy
      return ((if res.ret = rmiSuccess then ms.log h rdAddr (dataEvents mapAddr flags nsPage)
        else ms).setMem s, res)) := by
  unfold smcDataCreateMeasured smcDataCreate
  refine ite_eq_bind (fun _ => rfl) fun _ => ite_eq_bind (fun _ => rfl) fun _ => ?_
  rw [dataCreateMeasured_eq hz, bind_assoc, bind_assoc]
  refine bind_congr fun x => ?_
  obtain ⟨s, res⟩ := x
  by_cases hret : res.ret = rmiSuccess
  · simp [hret]
  · simp [hret]

theorem ripasEvents_succ (addr mapSize k : ℕ) :
    ripasEvents addr mapSize (k + 1) =
      .ripas (BitVec.ofNat 64 addr) (BitVec.ofNat 64 (addr + mapSize)) ::
        ripasEvents (addr + mapSize) mapSize k := by
  unfold ripasEvents
  rw [List.range_succ_eq_map, List.map_cons, List.map_map]
  refine List.cons_eq_cons.mpr ⟨by simp, List.map_congr_left fun j _ => ?_⟩
  have h1 : addr + (j + 1) * mapSize = addr + mapSize + j * mapSize := by ring
  have h2 : addr + (j + 1 + 1) * mapSize = addr + mapSize + (j + 1) * mapSize := by ring
  simp [h1, h2]

/-- The loop measures the entries that it passes. -/
theorem initRipasLoopMeasured_eq (ctx : S2ttContext) (rdAddr tbl : Word) (mapSize top n : ℕ) :
    ∀ (ms : MeasuredState) (index addr : ℕ), ∃ k,
      (initRipasLoop ctx tbl mapSize top n ms.mem index addr).2 = addr + k * mapSize ∧
      (k = 0 ∨ addr + k * mapSize ≤ top) ∧
      initRipasLoopMeasured h ctx rdAddr tbl mapSize top n ms index addr =
        ((ms.log h rdAddr (ripasEvents addr mapSize k)).setMem
          (initRipasLoop ctx tbl mapSize top n ms.mem index addr).1, addr + k * mapSize) := by
  induction n with
  | zero =>
    intro ms index addr
    exact ⟨0, by simp [initRipasLoop], .inl rfl, by simp [initRipasLoop, initRipasLoopMeasured,
      ripasEvents]⟩
  | succ n ih =>
    intro ms index addr
    -- an entry that is passed is logged before the rest
    have hpass : ∀ s : State, ¬ top < addr + mapSize → ∃ k,
        (initRipasLoop ctx tbl mapSize top n s (index + 1) (addr + mapSize)).2 =
          addr + k * mapSize ∧
        (k = 0 ∨ addr + k * mapSize ≤ top) ∧
        initRipasLoopMeasured h ctx rdAddr tbl mapSize top n
          ((ms.setMem s).log h rdAddr [.ripas (BitVec.ofNat 64 addr)
            (BitVec.ofNat 64 (addr + mapSize))]) (index + 1) (addr + mapSize) =
          ((ms.log h rdAddr (ripasEvents addr mapSize k)).setMem
            (initRipasLoop ctx tbl mapSize top n s (index + 1) (addr + mapSize)).1,
            addr + k * mapSize) := by
      intro s htop
      obtain ⟨k, h1, h2, h3⟩ := ih ((ms.setMem s).log h rdAddr [.ripas (BitVec.ofNat 64 addr)
        (BitVec.ofNat 64 (addr + mapSize))]) (index + 1) (addr + mapSize)
      have hk : addr + mapSize + k * mapSize = addr + (k + 1) * mapSize := by ring
      rw [hk] at h1 h2 h3
      refine ⟨k + 1, h1, .inr ?_, ?_⟩
      · obtain rfl | h2 := h2
        · omega
        · exact h2
      · rw [h3, MeasuredState.log_log, ripasEvents_succ]
        rfl
    unfold initRipasLoop initRipasLoopMeasured
    by_cases htop : top < addr + mapSize
    · exact ⟨0, by simp [htop], .inl rfl, by simp [htop, ripasEvents]⟩
    by_cases hempty : s2tteIsUnassignedEmpty (ms.mem.rtt tbl index) = true
    · simp only [htop, hempty, if_true, if_false]
      exact hpass _ htop
    by_cases hram : s2tteIsUnassignedRam (ms.mem.rtt tbl index) = true
    · simp only [htop, hempty, hram, if_true, if_false]
      exact hpass ms.mem htop
    · exact ⟨0,
        by simp [htop, hempty, hram], .inl rfl, by simp [htop, hempty, hram, ripasEvents]⟩

/-- The entries that a reply of `smc_rtt_init_ripas` tells about: those of the table that
the walk ends in, from `base` up to the returned address. -/
def initRipasEvents (s : State) (rdAddr base : Word) (res : SmcResult) : List RimEvent :=
  match s2ttWalkLockUnlock s (s.rd rdAddr).s2Ctx base s2ttPageLevel with
  | .ok wi => ripasEvents base.toNat (s2tteMapSize wi.lastLevel)
      ((res.x1.toNat - base.toNat) / s2tteMapSize wi.lastLevel)
  | .error _ => []

theorem smcRttInitRipasMeasured_eq (rdAddr base top : Word) :
    smcRttInitRipasMeasured plat h ms rdAddr base top = (do
      let (s, res) ← smcRttInitRipas plat ms.mem rdAddr base top
      return ((if res.ret = rmiSuccess then ms.log h rdAddr (initRipasEvents ms.mem rdAddr base res)
        else ms).setMem s, res)) := by
  unfold smcRttInitRipasMeasured smcRttInitRipas
  refine ite_eq_bind (fun _ => rfl) fun _ => bind_eq_bind fun found => ?_
  refine ite_eq_bind (fun _ => rfl) fun _ => ite_eq_bind (fun _ => rfl) fun _ => ?_
  refine ite_eq_bind (fun _ => rfl) fun _ => ?_
  dsimp only
  cases hwalk : s2ttWalkLockUnlock ms.mem (ms.mem.rd rdAddr).s2Ctx base s2ttPageLevel with
  | error f => rfl
  | ok wi =>
    refine ite_eq_bind (fun _ => rfl) fun _ => ?_
    obtain ⟨k, h1, h2, h3⟩ := @initRipasLoopMeasured_eq h (ms.mem.rd rdAddr).s2Ctx
      rdAddr wi.gLlt
      (s2tteMapSize wi.lastLevel) top.toNat ((if wi.lastLevel = s2ttMinStartingLevelLpa2 then
        s2ttesPerS2ttLm1 else s2ttesPerS2tt) - wi.index) ms wi.index base.toNat
    rw [h3]
    generalize initRipasLoop (ms.mem.rd rdAddr).s2Ctx wi.gLlt (s2tteMapSize wi.lastLevel)
      top.toNat _ ms.mem wi.index base.toNat = p at h1 ⊢
    obtain ⟨s1, addr⟩ := p
    have haddr : addr = base.toNat + k * s2tteMapSize wi.lastLevel := h1
    subst haddr
    have hpos := s2tteMapSize_pos wi.lastLevel
    refine ite_eq_bind (fun hk => ?_) fun hk => ?_
    · have hk0 : k ≠ 0 := by
        rintro rfl
        simp at hk
      have hlt := h2.resolve_left hk0
      have hevents : initRipasEvents ms.mem rdAddr base ⟨rmiSuccess,
          BitVec.ofNat 64 (base.toNat + k * s2tteMapSize wi.lastLevel), 0#64⟩ =
            ripasEvents base.toNat (s2tteMapSize wi.lastLevel) k := by
        unfold initRipasEvents
        rw [hwalk]
        dsimp only
        rw [BitVec.toNat_ofNat, Nat.mod_eq_of_lt (hlt.trans_lt top.isLt), Nat.add_sub_cancel_left,
          Nat.mul_div_cancel _ hpos]
      exact congrArg pure (Prod.ext (by simp [hevents]) rfl)
    · have hk0 : k = 0 := by
        by_contra hc
        have := Nat.mul_pos (Nat.pos_of_ne_zero hc) hpos
        omega
      subst hk0
      exact congrArg pure (Prod.ext (by simp [ripasEvents, smcRet, rmiErrorRtt, rmiSuccess]) rfl)

end

section
variable (h : Hasher)

/-- What a call does to the measurements, read off its reply and the state before it. -/
def MeasuredState.effect (ms : MeasuredState) : MeasuredAct → Reply → MeasuredState
  | .realmCreate rdAddr _ nsRead, .smc res =>
    if res.ret = rmiSuccess then ms.created h rdAddr nsRead else ms
  | .recCreate rdAddr _ _ nsRead, .smc res =>
    if res.ret = rmiSuccess then ms.log h rdAddr (recEvents nsRead) else ms
  | .dataCreate rdAddr _ mapAddr _ flags nsPage, .smc res =>
    if res.ret = rmiSuccess then ms.log h rdAddr (dataEvents mapAddr flags nsPage) else ms
  | .rttInitRipas rdAddr base _, .smc res =>
    if res.ret = rmiSuccess then ms.log h rdAddr (initRipasEvents ms.mem rdAddr base res) else ms
  | .measurementExtend recAddr index size value, _ =>
    if recRunning ms.mem recAddr then (handleRsiMeasurementExtend h ms recAddr index size value).1
    else ms
  | .plain (.realmDestroy rdAddr) _, .smc res =>
    if res.ret = rmiSuccess then ms.wipe rdAddr else ms
  | _, _ => ms

end

/-- Granules that are no realm hold no measurements. -/
def MeasuredState.Zeroed (ms : MeasuredState) : Prop :=
  ∀ g, (ms.mem.granule g).state ≠ .RD →
    ms.algorithm g = .SHA_256 ∧ ms.measurement g = fun _ _ => 0#8

section
variable {plat : Platform} {h : Hasher} {ms ms' : MeasuredState} {a : MeasuredAct} {reply : Reply}

/-- A measured handler is the plain one followed by a change of the measurements. -/
theorem measuredReply_inv {f : SmcResult → MeasuredState} {x : Rmm (MeasuredState × SmcResult)}
    {y : Rmm (State × SmcResult)}
    (heq : x = y >>= fun r => pure ((f r.2).setMem r.1, r.2))
    (hs : measuredReply x = .ok (ms', reply)) :
    ∃ res, reply = .smc res ∧ smcReply y = .ok (ms'.mem, reply) ∧
      ms' = (f res).setMem ms'.mem := by
  subst heq
  cases y with
  | error e => cases hs
  | ok r =>
    obtain ⟨s, res⟩ := r
    cases hs
    exact ⟨res, rfl, rfl, rfl⟩

theorem smcReply_smc {y : Rmm (State × SmcResult)} {s : State} (hs : smcReply y = .ok (s, reply)) :
    ∃ res, reply = .smc res := by
  cases y with
  | error e => cases hs
  | ok r =>
    cases hs
    exact ⟨r.2, rfl⟩

theorem measuredStep_inv (hz : ms.Zeroed) (hs : measuredStep plat h ms a = .ok (ms', reply)) :
    (∀ act, a.erase = some act → step plat ms.mem act = .ok (ms'.mem, reply)) ∧
      (a.erase = none → ms'.mem = ms.mem) ∧ ms' = (ms.effect h a reply).setMem ms'.mem := by
  cases a with
  | realmCreate rdAddr paramsAddr nsRead =>
    obtain ⟨res, rfl, h1, h2⟩ := measuredReply_inv
      (f := fun res => ms.effect h (.realmCreate rdAddr paramsAddr nsRead) (.smc res))
      (smcRealmCreateMeasured_eq _ _ _) hs
    exact ⟨by rintro act ⟨⟩; exact h1, by rintro ⟨⟩, h2⟩
  | recCreate rdAddr recAddr paramsAddr nsRead =>
    obtain ⟨res, rfl, h1, h2⟩ := measuredReply_inv
      (f := fun res => ms.effect h (.recCreate rdAddr recAddr paramsAddr nsRead) (.smc res))
      (smcRecCreateMeasured_eq _ _ _ _) hs
    exact ⟨by rintro act ⟨⟩; exact h1, by rintro ⟨⟩, h2⟩
  | dataCreate rdAddr dataAddr mapAddr srcAddr flags nsPage =>
    obtain ⟨res, rfl, h1, h2⟩ := measuredReply_inv
      (f := fun res => ms.effect h (.dataCreate rdAddr dataAddr mapAddr srcAddr flags nsPage)
        (.smc res))
      (smcDataCreateMeasured_eq (fun hdel => hz _ (by rw [hdel]; decide)) _ _ _ _ _) hs
    exact ⟨by rintro act ⟨⟩; exact h1, by rintro ⟨⟩, h2⟩
  | rttInitRipas rdAddr base top =>
    obtain ⟨res, rfl, h1, h2⟩ := measuredReply_inv
      (f := fun res => ms.effect h (.rttInitRipas rdAddr base top) (.smc res))
      (smcRttInitRipasMeasured_eq _ _ _) hs
    exact ⟨by rintro act ⟨⟩; exact h1, by rintro ⟨⟩, h2⟩
  | measurementExtend recAddr index size value =>
    have hmem : (handleRsiMeasurementExtend h ms recAddr index size value).1.mem = ms.mem := by
      unfold handleRsiMeasurementExtend
      dsimp only
      split
      · rfl
      · split <;> rfl
    simp only [measuredStep] at hs
    by_cases hrun : recRunning ms.mem recAddr = true
    · rw [if_pos hrun] at hs
      cases hs
      exact ⟨by rintro act ⟨⟩, fun _ => hmem, by simp [MeasuredState.effect, hrun]⟩
    · rw [if_neg hrun] at hs
      cases hs
      exact ⟨by rintro act ⟨⟩, fun _ => rfl, by simp [MeasuredState.effect, hrun]⟩
  | plain act hact =>
    simp only [measuredStep, plainStep] at hs
    cases hstep : step plat ms.mem act with
    | error e => rw [hstep] at hs; cases hs
    | ok r =>
      obtain ⟨s, rep⟩ := r
      rw [hstep] at hs
      cases act with
      | realmDestroy rdAddr =>
        obtain ⟨res, rfl⟩ := smcReply_smc hstep
        cases hs
        have hmem : (if res.ret = rmiSuccess then (ms.setMem s).wipe rdAddr
            else ms.setMem s).mem = s := by
          split <;> rfl
        refine ⟨?_, by rintro ⟨⟩, ?_⟩
        · rintro act ⟨⟩
          rw [hmem]
          exact hstep
        · rw [hmem]
          simp only [MeasuredState.effect]
          split <;> rfl
      | _ =>
        cases hs
        exact ⟨by rintro act ⟨⟩; exact hstep, by rintro ⟨⟩, rfl⟩

/-- The events of a call that returned, added to the log of its realm. -/
def record (s : State) (log : Word → List RimEvent) :
    MeasuredAct → Reply → Word → List RimEvent
  | .realmCreate rdAddr _ (some p), .smc res =>
    if res.ret = rmiSuccess then Function.update log rdAddr [.realm p] else log
  | .recCreate rdAddr _ _ nsRead, .smc res =>
    if res.ret = rmiSuccess then Function.update log rdAddr
      (log rdAddr ++ recEvents nsRead) else log
  | .dataCreate rdAddr _ mapAddr _ flags nsPage, .smc res =>
    if res.ret = rmiSuccess then
      Function.update log rdAddr (log rdAddr ++ dataEvents mapAddr flags nsPage)
    else log
  | .rttInitRipas rdAddr base _, .smc res =>
    if res.ret = rmiSuccess then
      Function.update log rdAddr (log rdAddr ++ initRipasEvents s rdAddr base res)
    else log
  | .plain (.realmDestroy rdAddr) _, .smc res =>
    if res.ret = rmiSuccess then Function.update log rdAddr [] else log
  | _, _ => log

/-- The state with the logs of the realms. -/
abbrev Logged := MeasuredState × (Word → List RimEvent)

def LoggedNext (plat : Platform) (h : Hasher) (m : Logged) (a : MeasuredAct) (m' : Logged) : Prop :=
  ∃ reply, measuredStep plat h m.1 a = .ok (m'.1, reply) ∧ m'.2 = record m.1.mem m.2 a reply

abbrev LoggedReachable (plat : Platform) (h : Hasher) : Logged → Prop :=
  Reach (initMeasured, fun _ => []) (LoggedNext plat h) fun _ _ => True

/-- The RIM of every granule is what its log says. -/
structure RimLogged (h : Hasher) (m : Logged) : Prop where
  wf : ∃ F, Wf m.1.mem F
  zeroed : m.1.Zeroed
  fold : ∀ g, m.1.rim g = rimMeasured h (m.1.algorithm g) (fun _ => 0#8) (m.2 g)
  begun : ∀ g, (m.1.mem.granule g).state = .RD →
    ∃ p rest, m.2 g = .realm p :: rest ∧ m.1.algorithm g = p.hashAlgo

/-- Without parameters no realm is made. -/
theorem smcRealmCreate_none (plat : Platform) (s : State) (rdAddr paramsAddr : Word) :
    Sat (smcRealmCreate plat s rdAddr paramsAddr none) (fun res => res.2.ret ≠ rmiSuccess)
      fun _ => True := by
  unfold smcRealmCreate
  exact Sat.ite (fun _ => Sat.pure (by simp [smcRet, rmiErrorInput, rmiSuccess])) fun _ =>
    Sat.pure (by simp [smcRet, rmiErrorInput, rmiSuccess])

/-- A call that extends the log of a realm succeeded on a new realm. -/
theorem smcRttInitRipas_new (plat : Platform) (s : State) (rdAddr base top : Word) :
    Sat (smcRttInitRipas plat s rdAddr base top) (fun res => res.2.ret = rmiSuccess →
      (s.granule rdAddr).state = .RD ∧ (s.rd rdAddr).state = .NEW) fun _ => True := by
  unfold smcRttInitRipas
  refine Sat.ite (fun _ => Sat.pure (by simp [smcRet, rmiErrorInput, rmiSuccess])) fun _ => ?_
  refine findLockGranule_sat trivial ?_
  refine Sat.ite (fun _ => Sat.pure (by simp [smcRet, rmiErrorInput, rmiSuccess])) fun hfound => ?_
  have hrd := lockable_state (by simpa using hfound)
  refine Sat.ite (fun _ => Sat.pure (by simp [smcRet, rmiErrorInput, rmiSuccess])) fun _ => ?_
  refine Sat.ite (fun _ => Sat.pure (by simp [smcRet, rmiErrorRealm, rmiSuccess])) fun hnew => ?_
  rw [not_ne_iff] at hnew
  refine Sat.bind (Sat.self fun _ _ => trivial) fun wi _ => ?_
  refine Sat.ite (fun _ => Sat.pure fun _ => ⟨hrd, hnew⟩) fun _ => ?_
  exact Sat.ite (fun _ => Sat.pure fun _ => ⟨hrd, hnew⟩) fun _ =>
    Sat.pure fun _ => ⟨hrd, hnew⟩

/-- What a call does to the measurements and the logs. -/
inductive LogMove (h : Hasher) (m m' : Logged) : Prop
  | keep (isRd : ∀ g, (m'.1.mem.granule g).state = .RD ↔ (m.1.mem.granule g).state = .RD)
      (state : m'.1 = m.1.setMem m'.1.mem) (log : m'.2 = m.2)
  | extend {rd : Word} {events : List RimEvent}
      (isRd : ∀ g, (m'.1.mem.granule g).state = .RD ↔ (m.1.mem.granule g).state = .RD)
      (was : (m.1.mem.granule rd).state = .RD) (new : (m.1.mem.rd rd).state = .NEW)
      (state : m'.1 = (m.1.log h rd events).setMem m'.1.mem)
      (log : m'.2 = Function.update m.2 rd (m.2 rd ++ events))
  | create {rd : Word} {p : RealmPage}
      (isRd : ∀ g, (m'.1.mem.granule g).state = .RD ↔
      (m.1.mem.granule g).state = .RD ∨ g = rd)
      (fresh : (m.1.mem.granule rd).state ≠ .RD)
      (state : m'.1 = (m.1.created h rd (some p)).setMem m'.1.mem)
      (log : m'.2 = Function.update m.2 rd [.realm p])
  | destroy {rd : Word}
      (isRd : ∀ g, (m'.1.mem.granule g).state = .RD ↔
      (m.1.mem.granule g).state = .RD ∧ g ≠ rd)
      (state : m'.1 = (m.1.wipe rd).setMem m'.1.mem) (log : m'.2 = Function.update m.2 rd [])
  | slot {rd : Word} {index : ℕ} {value : Measurement}
      (was : (m.1.mem.granule rd).state = .RD) (other : index ≠ rimMeasurementSlot)
      (state : m'.1 = m.1.setSlot rd index value) (log : m'.2 = m.2)

section
variable {m m' : Logged}

/-- A call that makes and destroys no realm, with what it logs if it succeeds. -/
theorem LogMove.of_ite {ret : ReturnCode} {rd : Word} {events : List RimEvent}
    (isRd : ∀ g, (m'.1.mem.granule g).state = .RD ↔ (m.1.mem.granule g).state = .RD)
    (hnew : ret = rmiSuccess → (m.1.mem.granule rd).state = .RD ∧ (m.1.mem.rd rd).state = .NEW)
    (hstate : m'.1 = (if ret = rmiSuccess then m.1.log h rd events else m.1).setMem m'.1.mem)
    (hlog : m'.2 = if ret = rmiSuccess then Function.update m.2 rd (m.2 rd ++ events) else m.2) :
    LogMove h m m' := by
  by_cases hret : ret = rmiSuccess
  · rw [if_pos hret] at hstate hlog
    exact .extend isRd (hnew hret).1 (hnew hret).2 hstate hlog
  · rw [if_neg hret] at hstate hlog
    exact .keep isRd hstate hlog

theorem LoggedNext.move (hi : RimLogged h m) (hn : LoggedNext plat h m a m') :
    (∃ F', Wf m'.1.mem F') ∧ Onward m.1.mem m'.1.mem ∧ LogMove h m m' := by
  obtain ⟨F, hw⟩ := hi.wf
  obtain ⟨reply, hs, hlog⟩ := hn
  obtain ⟨hstep, hnone, hstate⟩ := measuredStep_inv hi.zeroed hs
  cases herase : a.erase with
  | none =>
    cases a with
    | measurementExtend recAddr index size value =>
      have hmem := hnone rfl
      refine ⟨⟨F, by rwa [hmem]⟩, by rw [hmem]; exact .refl _, ?_⟩
      by_cases hrun : recRunning m.1.mem recAddr = true
      · simp only [MeasuredState.effect, hrun, if_true] at hstate
        have hrd := hw.recRd recAddr (recRunning_spec hrun).1
        unfold handleRsiMeasurementExtend at hstate
        dsimp only at hstate
        split at hstate
        · exact .keep (fun g => by rw [hmem]) hstate hlog
        · next hindex =>
          split at hstate
          · exact .keep (fun g => by rw [hmem]) hstate hlog
          · rw [hmem] at hstate
            exact .slot hrd (fun hc => hindex (.inl hc)) hstate hlog
      · simp only [MeasuredState.effect, hrun] at hstate
        exact .keep (fun g => by rw [hmem]) hstate hlog
    | _ => cases herase
  | some act =>
    have hok := hstep act herase
    have hd := (step_sat hw act).of_ok hok
    obtain ⟨F', he⟩ := hd.effects hw
    refine ⟨⟨F', he.1⟩, hd.onward hw, ?_⟩
    have hsame : act.makesRealms = false → ∀ g,
        (m'.1.mem.granule g).state = .RD ↔ (m.1.mem.granule g).state = .RD :=
      fun hact => (he.sameRealms hact).isRd
    cases a with
    | measurementExtend recAddr index size value => cases herase
    | realmCreate rdAddr paramsAddr nsRead =>
      cases herase
      obtain ⟨res, rfl, ⟨hmem, hret⟩ | ⟨hret, ctx, hp⟩⟩ := hd
      · replace hmem : m'.1.mem = m.1.mem := hmem
        simp only [MeasuredState.effect, hret, if_false] at hstate
        refine .keep (fun g => by rw [hmem]) hstate ?_
        cases nsRead with
        | none => exact hlog
        | some p => simpa only [record, hret, if_false] using hlog
      · simp only [MeasuredState.effect, hret, if_true] at hstate
        cases nsRead with
        | none =>
          obtain ⟨res', hres, hsat⟩ := (smcReply_sat (smcRealmCreate_none plat m.1.mem rdAddr
            paramsAddr)).of_ok hok
          cases hres
          exact absurd hret hsat
        | some p =>
          simp only [record, hret, if_true] at hlog
          exact .create hp.isRd (by rw [hp.fresh rdAddr (.inl rfl)]; decide) hstate hlog
    | recCreate rdAddr recAddr paramsAddr nsRead =>
      cases herase
      obtain ⟨res, rfl, hcr⟩ := hd
      refine .of_ite (hsame rfl) (fun hret => ?_) hstate hlog
      obtain ⟨-, hne⟩ | ⟨-, hnew, aux, hrec⟩ := hcr
      · exact absurd hret hne
      · exact ⟨hrec.isRd, hnew⟩
    | dataCreate rdAddr dataAddr mapAddr srcAddr flags nsPage =>
      cases herase
      obtain ⟨res, rfl, hcr, -⟩ := hd
      refine .of_ite (hsame rfl) (fun hret => ?_) hstate hlog
      obtain ⟨-, hne⟩ | ⟨-, s1, F1, r, old, F2, ha, -, -⟩ := hcr
      · exact absurd hret hne
      · exact ⟨ha.isRd, ha.isNew rfl⟩
    | rttInitRipas rdAddr base top =>
      cases herase
      obtain ⟨res, rfl, hnew⟩ := (smcReply_sat (smcRttInitRipas_new plat m.1.mem rdAddr base
        top)).of_ok hok
      exact .of_ite (hsame rfl) hnew hstate hlog
    | plain act' hact =>
      cases herase
      cases act with
      | realmDestroy rdAddr =>
        obtain ⟨res, rfl, ⟨hmem, hret⟩ | ⟨hret, hp⟩⟩ := hd
        · replace hmem : m'.1.mem = m.1.mem := hmem
          simp only [MeasuredState.effect, record, hret, if_false] at hstate hlog
          exact .keep (fun g => by rw [hmem]) hstate hlog
        · simp only [MeasuredState.effect, record, hret, if_true] at hstate hlog
          exact .destroy hp.isRd hstate hlog
      | realmCreate rdAddr paramsAddr nsRead => cases hact
      | _ => exact .keep (hsame rfl) hstate hlog

/-- The RIM behind one more event of the log. -/
theorem rimMeasured_append (algorithm : HashAlgo) (rim : Measurement) (e e' : List RimEvent) :
    rimMeasured h algorithm (rimMeasured h algorithm rim e) e' =
      rimMeasured h algorithm rim (e ++ e') :=
  (List.foldl_append ..).symm

/-- A call leaves no measurements outside the realms. -/
theorem LogMove.zeroed (hz : m.1.Zeroed) (hmove : LogMove h m m') : m'.1.Zeroed := by
  intro g hg
  cases hmove with
  | keep isRd state log =>
    rw [state]
    exact hz g (mt (isRd g).mpr hg)
  | @extend rd events isRd was new state log =>
    have hold := mt (isRd g).mpr hg
    have hne : g ≠ rd := by
      rintro rfl
      exact hold was
    obtain ⟨h1, h2⟩ := hz g hold
    rw [state]
    exact ⟨h1, (Function.update_of_ne hne _ _).trans h2⟩
  | @create rd p isRd fresh state log =>
    obtain ⟨hold, hne⟩ := not_or.mp (mt (isRd g).mpr hg)
    obtain ⟨h1, h2⟩ := hz g hold
    rw [state]
    exact ⟨(Function.update_of_ne hne _ _).trans h1, (Function.update_of_ne hne _ _).trans h2⟩
  | @destroy rd isRd state log =>
    rw [state]
    by_cases hgr : g = rd
    · subst hgr
      exact ⟨Function.update_self .., Function.update_self ..⟩
    · obtain ⟨h1, h2⟩ := hz g fun hc => hg ((isRd g).mpr ⟨hc, hgr⟩)
      exact ⟨(Function.update_of_ne hgr _ _).trans h1, (Function.update_of_ne hgr _ _).trans h2⟩
  | @slot rd index value was other state log =>
    rw [state] at hg ⊢
    have hne : g ≠ rd := by
      rintro rfl
      exact hg was
    obtain ⟨h1, h2⟩ := hz g hg
    exact ⟨h1, (Function.update_of_ne hne _ _).trans h2⟩

/-- A call measures what it logs. -/
theorem LogMove.fold (hz : m.1.Zeroed)
    (hf : ∀ g, m.1.rim g = rimMeasured h (m.1.algorithm g) (fun _ => 0#8) (m.2 g))
    (hmove : LogMove h m m') (g : Word) :
    m'.1.rim g = rimMeasured h (m'.1.algorithm g) (fun _ => 0#8) (m'.2 g) := by
  cases hmove with
  | keep isRd state log =>
    rw [state, log]
    exact hf g
  | @extend rd events isRd was new state log =>
    rw [state, log]
    show (m.1.log h rd events).rim g = _
    by_cases hgr : g = rd
    · subst hgr
      rw [Function.update_self, MeasuredState.log, MeasuredState.rim_setRim, hf g]
      exact rimMeasured_append _ _ _ _
    · rw [Function.update_of_ne hgr, MeasuredState.rim_log_of_ne _ _ h hgr]
      exact hf g
  | @create rd p isRd fresh state log =>
    rw [state, log]
    show (m.1.created h rd (some p)).rim g =
        rimMeasured h ((m.1.created h rd (some p)).algorithm g) _ _
    by_cases hgr : g = rd
    · subst hgr
      obtain ⟨-, hzero⟩ := hz g fresh
      have hrim : m.1.rim g = fun _ => 0#8 := congrFun hzero _
      rw [Function.update_self, MeasuredState.created, MeasuredState.log,
        MeasuredState.rim_setRim, ← hrim]
      rfl
    · rw [Function.update_of_ne hgr]
      refine (MeasuredState.rim_log_of_ne _ _ h hgr _).trans ((hf g).trans ?_)
      rw [show (m.1.created h rd (some p)).algorithm g = m.1.algorithm g from
        Function.update_of_ne hgr _ _]
  | @destroy rd isRd state log =>
    rw [state, log]
    show (m.1.wipe rd).rim g = rimMeasured h ((m.1.wipe rd).algorithm g) _ _
    by_cases hgr : g = rd
    · subst hgr
      rw [Function.update_self]
      simp [MeasuredState.wipe, MeasuredState.rim, rimMeasured]
    · rw [Function.update_of_ne hgr]
      refine (MeasuredState.rim_wipe_of_ne _ _ hgr).trans ((hf g).trans ?_)
      rw [show (m.1.wipe rd).algorithm g = m.1.algorithm g from Function.update_of_ne hgr _ _]
  | @slot rd index value was other state log =>
    rw [state, log]
    show (m.1.setSlot rd index value).rim g = rimMeasured h (m.1.algorithm g) _ _
    rw [← hf g]
    exact MeasuredState.rim_setSlot _ _ other _ _

/-- The log of a realm begins with its parameters, and keeps this beginning. -/
theorem LogMove.begun
    (hb : ∀ g, (m.1.mem.granule g).state = .RD →
      ∃ p rest, m.2 g = .realm p :: rest ∧ m.1.algorithm g = p.hashAlgo)
    (hmove : LogMove h m m') {g : Word} (hg : (m'.1.mem.granule g).state = .RD) :
    ∃ p rest, m'.2 g = .realm p :: rest ∧ m'.1.algorithm g = p.hashAlgo := by
  cases hmove with
  | keep isRd state log =>
    rw [state, log]
    exact hb g ((isRd g).mp hg)
  | @extend rd events isRd was new state log =>
    obtain ⟨p, rest, hlog, halg⟩ := hb g ((isRd g).mp hg)
    rw [state, log]
    by_cases hgr : g = rd
    · subst hgr
      exact ⟨p, rest ++ events, by rw [Function.update_self, hlog]; rfl, halg⟩
    · exact ⟨p, rest, (Function.update_of_ne hgr _ _).trans hlog, halg⟩
  | @create rd p isRd fresh state log =>
    rw [state, log]
    by_cases hgr : g = rd
    · subst hgr
      exact ⟨p, [], Function.update_self .., Function.update_self ..⟩
    · obtain ⟨p', rest, hlog, halg⟩ := hb g (((isRd g).mp hg).resolve_right hgr)
      exact ⟨p', rest, (Function.update_of_ne hgr _ _).trans hlog,
        (Function.update_of_ne hgr _ _).trans halg⟩
  | @destroy rd isRd state log =>
    obtain ⟨hold, hgr⟩ := (isRd g).mp hg
    obtain ⟨p, rest, hlog, halg⟩ := hb g hold
    rw [state, log]
    exact ⟨p, rest, (Function.update_of_ne hgr _ _).trans hlog,
      (Function.update_of_ne hgr _ _).trans halg⟩
  | @slot rd index value was other state log =>
    rw [state] at hg
    rw [state, log]
    exact hb g hg

theorem RimLogged.step (hi : RimLogged h m) (hn : LoggedNext plat h m a m') : RimLogged h m' := by
  obtain ⟨hwf, -, hmove⟩ := hn.move hi
  exact ⟨hwf, hmove.zeroed hi.zeroed, hmove.fold hi.zeroed hi.fold,
    fun _ => hmove.begun hi.begun⟩

theorem RimLogged.init : RimLogged h (initMeasured, fun _ => []) :=
  ⟨⟨_, wf_init⟩, fun _ _ => ⟨rfl, rfl⟩, fun _ => rfl, fun _ hg => by cases hg⟩

theorem RimLogged.reach (hm : LoggedReachable plat h m) : RimLogged h m :=
  hm.invariant .init fun _ _ _ _ hi _ hn => hi.step hn

/-- A realm that is not new and stays keeps its RIM. -/
theorem LoggedNext.frozen (hi : RimLogged h m) (hn : LoggedNext plat h m a m') {rd : Word}
    (hrd : (m.1.mem.granule rd).state = .RD) (hrd' : (m'.1.mem.granule rd).state = .RD)
    (hleft : (m.1.mem.rd rd).state ≠ .NEW) :
    m'.1.rim rd = m.1.rim rd ∧ m'.2 rd = m.2 rd ∧ (m'.1.mem.rd rd).state ≠ .NEW := by
  obtain ⟨-, honward, hmove⟩ := hn.move hi
  have hstage : (m'.1.mem.rd rd).state ≠ .NEW := by
    intro hc
    have hle := (honward rd hrd hrd').1
    rw [hc] at hle
    cases hst : (m.1.mem.rd rd).state with
    | NEW => exact hleft hst
    | ACTIVE | SYSTEM_OFF =>
      rw [hst] at hle
      simp [RealmState.stage] at hle
  refine ⟨?_, ?_, hstage⟩
  · cases hmove with
    | keep isRd state log => rw [state]; rfl
    | @extend rd' events isRd was new state log =>
      have hne : rd ≠ rd' := by
        rintro rfl
        exact hleft new
      rw [state]
      exact MeasuredState.rim_log_of_ne _ _ h hne _
    | @create rd' p isRd fresh state log =>
      have hne : rd ≠ rd' := by
        rintro rfl
        exact fresh hrd
      rw [state]
      exact MeasuredState.rim_log_of_ne _ _ h hne _
    | @destroy rd' isRd state log =>
      rw [state]
      exact MeasuredState.rim_wipe_of_ne _ _ ((isRd rd).mp hrd').2
    | @slot rd' index value was other state log =>
      rw [state]
      exact MeasuredState.rim_setSlot _ _ other _ _
  · cases hmove with
    | keep isRd state log => rw [log]
    | @extend rd' events isRd was new state log =>
      rw [log, Function.update_of_ne]
      rintro rfl
      exact hleft new
    | @create rd' p isRd fresh state log =>
      rw [log, Function.update_of_ne]
      rintro rfl
      exact fresh hrd
    | @destroy rd' isRd state log => rw [log, Function.update_of_ne ((isRd rd).mp hrd').2]
    | @slot rd' index value was other state log => rw [log]

/-- The states that are reached from one while the realm stays. -/
abbrev ReachedWhile (plat : Platform) (h : Hasher) (rd : Word) (m : Logged) : Logged → Prop :=
  Reach m (fun m a m' => LoggedNext plat h m a m' ∧ (m'.1.mem.granule rd).state = .RD)
    fun _ _ => True

/-- The log of a realm starts with its parameters, and the RIM is what the log stands for. -/
theorem RimLogged.rim_eq (hi : RimLogged h m) {rd : Word}
    (hrd : (m.1.mem.granule rd).state = .RD) :
    (∃ p rest, m.2 rd = .realm p :: rest) ∧ m.1.rim rd = rimOf h (m.2 rd) := by
  obtain ⟨p, rest, hlog, halg⟩ := hi.begun rd hrd
  have halgorithm : logAlgorithm (m.2 rd) = m.1.algorithm rd := by
    rw [hlog, halg]
    rfl
  refine ⟨⟨p, rest, hlog⟩, ?_⟩
  rw [hi.fold rd, rimMeasured_eq padded_zero, rimOf, halgorithm]

/-- The log of a realm starts with its parameters, the RIM is the fold of the descriptors of
the events that the log holds, and from the moment that the realm is not new neither changes. -/
theorem rim_is_log (hm : LoggedReachable plat h m) (rd : Word)
    (hrd : (m.1.mem.granule rd).state = .RD) :
    (∃ p rest, m.2 rd = .realm p :: rest) ∧ m.1.rim rd = rimOf h (m.2 rd) ∧
      ((m.1.mem.rd rd).state ≠ .NEW → ∀ m', ReachedWhile plat h rd m m' →
        m'.1.rim rd = m.1.rim rd ∧ m'.2 rd = m.2 rd) := by
  have hi := RimLogged.reach hm
  refine ⟨(hi.rim_eq hrd).1, (hi.rim_eq hrd).2, fun hleft m' hm' => ?_⟩
  have hinv := hm'.invariant (I := fun m' => RimLogged h m' ∧
    (m'.1.mem.granule rd).state = .RD ∧
    (m'.1.mem.rd rd).state ≠ .NEW ∧ m'.1.rim rd = m.1.rim rd ∧ m'.2 rd = m.2 rd)
    ⟨hi, hrd, hleft, rfl, rfl⟩ ?_
  · exact hinv.2.2.2
  · rintro m1 a m2 - ⟨hi1, hrd1, hleft1, hrim, hlog⟩ - ⟨hn, hrd2⟩
    obtain ⟨h1, h2, h3⟩ := hn.frozen hi1 hrd1 hrd2 hleft1
    exact ⟨hi1.step hn, hrd2, h3, h1.trans hrim, h2.trans hlog⟩

/-- Follow a list of measured calls, with the memory evaluated after each. -/
def loggedReplay (keys : Keys) (plat : Platform) (h : Hasher) :
    Logged → List MeasuredAct → Option Logged
  | m, [] => some m
  | m, a :: rest =>
    match measuredStep plat h m.1 a with
    | .error _ => none
    | .ok (ms, reply) => compact keys ms.mem fun s =>
        loggedReplay keys plat h (ms.setMem s, record m.1.mem m.2 a reply) rest

theorem loggedReplay_reachable {keys : Keys} (acts : List MeasuredAct)
    (hm : LoggedReachable plat h m) (hr : loggedReplay keys plat h m acts = some m') :
    LoggedReachable plat h m' := by
  induction acts generalizing m with
  | nil =>
    cases hr
    exact hm
  | cons a rest ih =>
    unfold loggedReplay at hr
    split at hr
    · cases hr
    · next ms reply hstep =>
      rw [compact_eq] at hr
      exact ih (.step hm trivial ⟨reply, hstep, rfl⟩) hr

/-- A checksum in place of a hash. -/
def demoHasher : Hasher := fun _ data i =>
  data.foldl (fun acc b => 31#8 * acc + b) (BitVec.ofNat 8 i)

/-- A realm with three entries of RIPAS RAM, a measured page, a page whose copy fails, a page
that is named without its content, and a runnable REC. When it is active a page is refused,
and it may extend its first measurement, not the RIM. -/
def measuredRealm : List MeasuredAct :=
  (List.range 26).map (fun k => .plain (.granuleDelegate (gr (16 + k)) true) rfl) ++
  [.realmCreate (gr 16) (gr 0) (some ⟨demoParams 17 1, 0#64, by decide⟩),
   .plain (.rttCreate (gr 16) (gr 23) 0 3) rfl,
   .rttInitRipas (gr 16) 0 0x3000,
   .dataCreate (gr 16) (gr 40) 0x1000 (gr 0) 1 (.done fun i => BitVec.ofNat 8 i),
   .dataCreate (gr 16) (gr 41) 0x2000 (gr 0) 1 (.failed [0x55]),
   .dataCreate (gr 16) (gr 41) 0x2000 (gr 0) 0 (.done fun _ => 7),
   .recCreate (gr 16) (gr 22) (gr 0)
     (some ⟨⟨(List.range 16).map fun k => gr (24 + k), some 0⟩, 1#64, 0#64, fun _ => 0#64⟩),
   .plain (.realmActivate (gr 16)) rfl,
   .dataCreate (gr 16) (gr 41) 0x4000 (gr 0) 1 (.done fun _ => 9),
   .plain (.recEnter (gr 22) (gr 0) .run false) rfl,
   .measurementExtend (gr 22) 1 2 [1, 2],
   .measurementExtend (gr 22) 0 2 [1, 2]]

theorem rim_is_log_active : ∃ m : Logged, LoggedReachable demoPlat demoHasher m ∧
    (m.1.mem.rd (gr 16)).state = .ACTIVE ∧ (m.2 (gr 16)).length = 7 ∧
    m.1.rim (gr 16) = rimOf demoHasher (m.2 (gr 16)) := by
  have hrun : (loggedReplay (demoKeys [16] [40, 41] [0, 1, 2]) demoPlat demoHasher
      (initMeasured, fun _ => []) measuredRealm).any (fun m =>
        decide ((m.1.mem.granule (gr 16)).state = .RD) &&
        decide ((m.1.mem.rd (gr 16)).state = .ACTIVE) &&
        decide ((m.2 (gr 16)).length = 7)) = true := by
    decide +kernel
  obtain ⟨m, hm, htest⟩ := (Option.any_eq_true _ _).mp hrun
  simp only [Bool.and_eq_true, decide_eq_true_eq] at htest
  obtain ⟨⟨hrd, hactive⟩, hlog⟩ := htest
  have hreach := loggedReplay_reachable measuredRealm .init hm
  exact ⟨m, hreach, hactive, hlog, (rim_is_log hreach (gr 16) hrd).2.1⟩

end

end

end RmmCaec
