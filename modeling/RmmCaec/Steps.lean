import RmmCaec.Acceptance
import RmmCaec.AptEffects
import RmmCaec.RecEffects
import RmmCaec.Runs

/-!
# What one step does

One statement for each transition of the system, and what they have in common:
every step takes a well-formed state to a well-formed state through a sequence of
effects, and each effect can be read off the call and the state before it.
-/
namespace RmmCaec

open RadixForest Outcome

/-- What the handler of an RSI call does. -/
def RsiDone (plat : Platform) (s : State) (F : Tables) (recAddr : Word) (s' : State)
    (res : RsiResult) : RsiCall → Prop
  | .csmCreate x2 x3 => CsmCreated plat s (s.recs recAddr).gRd x2 x3 s' res.status
  | .csmShare x1 x2 x3 => CsmShared plat s (s.recs recAddr).gRd x1 x2 x3 s' res.status
  | .csmReserve x1 x2 x3 => CsmReserved plat s (s.recs recAddr).gRd x1 x2 x3 s'
  | .csmAttach x1 => CsmAttached plat s F (s.recs recAddr).gRd x1 s' res.status
  | .csmDetachAndFree x1 => CsmDetached plat s F (s.recs recAddr).gRd x1 s' res.status
  | .csmRevoke x1 => CsmRevoked plat s F (s.recs recAddr).gRd x1 s' res.status
  | .csmDestroy x1 => CsmDestroyed plat s (s.recs recAddr).gRd x1 s' res.status
  | .ipaStateSet x1 x2 x3 x4 => (s', res) = handleRsiIpaStateSet s recAddr x1 x2 x3 x4
  | .systemOff => s' = s.setRd (s.recs recAddr).gRd
      { s.rd (s.recs recAddr).gRd with state := .SYSTEM_OFF }

/-- What an RSI call does, with the exit of the REC. -/
def RealmRsiDone (plat : Platform) (s : State) (F : Tables) (recAddr : Word) (call : RsiCall)
    (s' : State) (reply : Reply) : Prop :=
  (recRunning s recAddr = false ∧ s' = s ∧ reply = .idle) ∨
  (recRunning s recAddr = true ∧ ∃ s1 res, RsiDone plat s F recAddr s1 res call ∧
    reply = .rsi res ∧ s' = if res.exitToHost then s1.setRefcount recAddr 0 else s1)

/-- What a step does, by its action. -/
def StepDone (plat : Platform) (s : State) (F : Tables) (s' : State) (reply : Reply) : Act → Prop
  | .granuleDelegate _ _ => Redelegated s s'
  | .granuleUndelegate _ _ => Redelegated s s'
  | .realmCreate rdAddr _ _ => ∃ res, reply = .smc res ∧ RealmCreated s rdAddr s' res.ret
  | .realmActivate rdAddr => RealmActivated s rdAddr s'
  | .realmDestroy rdAddr => ∃ res, reply = .smc res ∧ RealmDestroyed s rdAddr s' res.ret
  | .recCreate rdAddr recAddr _ _ => ∃ res, reply = .smc res ∧
      RecCreated s rdAddr recAddr s' res.ret
  | .recDestroy recAddr => ∃ res, reply = .smc res ∧ RecDestroyed s recAddr s' res.ret
  | .recEnter recAddr _ _ _ => RecEntered s recAddr s'
  | .aptCreate rdAddr aptAddr => ∃ res, reply = .smc res ∧
      AptCreated plat s rdAddr aptAddr s' res.ret
  | .aptDestroy rdAddr aptAddr => ∃ res, reply = .smc res ∧
      AptDestroyed plat s F rdAddr aptAddr s' res.ret
  | .dataCreate rdAddr dataAddr mapAddr srcAddr flags nsCopy => ∃ res, reply = .smc res ∧
      DataCreated plat s F rdAddr dataAddr mapAddr true s' res.ret ∧ (res.ret = rmiSuccess →
        measuredAccepts plat s rdAddr dataAddr mapAddr srcAddr flags nsCopy = true)
  | .dataCreateUnknown rdAddr dataAddr mapAddr => ∃ res, reply = .smc res ∧
      DataCreated plat s F rdAddr dataAddr mapAddr false s' res.ret ∧ (res.ret = rmiSuccess →
        createAccepts plat s rdAddr dataAddr mapAddr false .done = true)
  | .dataDestroy rdAddr mapAddr => ∃ res, reply = .smc res ∧
      DataDestroyed plat s F rdAddr mapAddr s' res.ret ∧ (res.ret = rmiSuccess →
        destroyAccepts plat s rdAddr mapAddr = true)
  | .rttCreate rdAddr rttAddr mapAddr ulevel => ∃ res, reply = .smc res ∧
      RttCreated plat s F rdAddr rttAddr mapAddr ulevel.toInt s' res.ret
  | .rttFold rdAddr mapAddr ulevel => ∃ res, reply = .smc res ∧
      RttFolded s F rdAddr mapAddr ulevel.toInt s' res.ret
  | .rttDestroy rdAddr _ _ => RttDestroyed s F rdAddr s'
  | .rttMapUnprotected rdAddr _ _ _ => ∃ F', TableEdited s F (NsEffect s rdAddr) s' F'
  | .rttUnmapUnprotected rdAddr _ _ => ∃ F', TableEdited s F (NsEffect s rdAddr) s' F'
  | .rttInitRipas rdAddr base top => ∃ F' height,
      TableEdited s F (InitRipasEffect rdAddr base.toNat top.toNat height) s' F'
  | .rttSetRipas rdAddr recAddr base top => RipasSet s F rdAddr recAddr base top s'
  | .rsi recAddr call => RealmRsiDone plat s F recAddr call s' reply
  | .recExit recAddr => (recRunning s recAddr = false ∧ s' = s) ∨
      (recRunning s recAddr = true ∧ s' = s.setRefcount recAddr 0)

/-- A step ends in a fault: no count underflows, and a destroyed page that is not a
DATA granule was named by the leaf that the host asked to destroy. -/
def StepFault (plat : Platform) (s : State) (F : Tables) (act : Act) (f : Fault) : Prop :=
  f ≠ .refcountUnderflow ∧ (f = .dataNotData →
    ∃ rdAddr mapAddr, act = .dataDestroy rdAddr mapAddr ∧
    Dangling plat s F rdAddr mapAddr.toNat)

theorem Benign.stepFault {plat : Platform} {s : State} {F : Tables} {act : Act} {f : Fault}
    (h : Benign f) : StepFault plat s F act f := ⟨h.1, fun hc => absurd hc h.2⟩

theorem recRunning_spec {s : State} {recAddr : Word} (h : recRunning s recAddr = true) :
    (s.granule recAddr).state = .REC ∧ (s.granule recAddr).refcount = 1 := by
  simpa [recRunning] using h

theorem rsiHandler_sat {plat : Platform} {s : State} {F : Tables} (h : Wf s F) {recAddr : Word}
    (hrec : (s.granule recAddr).state = .REC) (call : RsiCall) :
    Sat (rsiHandler plat s recAddr call) (fun res => RsiDone plat s F recAddr res.1 res.2 call)
      Benign := by
  have hrd := h.recRd recAddr hrec
  unfold rsiHandler
  cases call with
  | csmCreate x2 x3 => exact handleRsiCsmCreate_sat hrd x2 x3
  | csmShare x1 x2 x3 => exact handleRsiCsmShare_sat hrd x1 x2 x3
  | csmReserve x1 x2 x3 => exact handleRsiCsmReserve_sat hrd x1 x2 x3
  | csmAttach x1 => exact handleRsiCsmAttach_sat h hrd x1
  | csmDetachAndFree x1 => exact handleRsiCsmDetachAndFree_sat h hrd x1
  | csmRevoke x1 => exact handleRsiCsmRevoke_sat h hrd x1
  | csmDestroy x1 => exact handleRsiCsmDestroy_sat hrd x1
  | ipaStateSet x1 x2 x3 x4 => exact Sat.ok rfl
  | systemOff =>
    simp only [systemOffReboot]
    rw [granuleLock_ok hrd]
    exact Sat.ok_bind (Sat.pure rfl)

/-- A handler leaves every granule outside the tables as it is. -/
theorem RsiDone.granule {plat : Platform} {s : State} {F : Tables} {recAddr : Word} {s1 : State}
    {res : RsiResult} {call : RsiCall} (h : RsiDone plat s F recAddr s1 res call) {g : Word}
    (hg : (s.granule g).state ≠ .RTT) : s1.granule g = s.granule g := by
  cases call with
  | csmCreate x2 x3 =>
    rcases h with ⟨rfl, -⟩ | ⟨ids, -, rfl, -⟩ | ⟨ids, id, -, rfl, -⟩ |
      ⟨-, -, -, -, ids, id, apt', idx, -, -, rfl⟩ <;> rfl
  | csmShare x1 x2 x3 =>
    rcases h with ⟨rfl, -⟩ | ⟨-, -, _, _, _, _, -, -, -, -, rfl⟩ <;> rfl
  | csmReserve x1 x2 x3 =>
    rcases h with rfl | ⟨-, -, -, _, _, _, _, -, -, -, -, -, -, -, -, -, rfl⟩ <;> rfl
  | csmAttach x1 =>
    rcases h with ⟨rfl, -⟩ | ⟨-, _, _, _, -, -, -, -, hm⟩
    · rfl
    · exact hm.same.granule g hg
  | csmDetachAndFree x1 =>
    rcases h with ⟨rfl, -⟩ | ⟨-, _, _, -, -, hc⟩
    · rfl
    · exact hc.granule g hg
  | csmRevoke x1 =>
    rcases h with ⟨rfl, -⟩ | ⟨-, _, _, _, -, -, hc⟩
    · rfl
    · exact hc.granule g hg
  | csmDestroy x1 =>
    rcases h with ⟨rfl, -⟩ | ⟨-, -, _, -, -, rfl⟩ <;> rfl
  | ipaStateSet x1 x2 x3 x4 =>
    have hs : s1 = (handleRsiIpaStateSet s recAddr x1 x2 x3 x4).1 := congrArg Prod.fst h
    rcases handleRsiIpaStateSet_spec s recAddr x1 x2 x3 x4 with h1 | ⟨req, h1⟩
    · rw [hs, h1]
    · rw [hs, h1]
      rfl
  | systemOff =>
    have hs : s1 = s.setRd _ _ := h
    rw [hs]
    rfl

theorem handleRealmRsi_sat {plat : Platform} {s : State} {F : Tables} (h : Wf s F) (recAddr : Word)
    (call : RsiCall) :
    Sat (handleRealmRsi plat s recAddr call)
      (fun res => RealmRsiDone plat s F recAddr call res.1 res.2) Benign := by
  unfold handleRealmRsi
  cases hrun : recRunning s recAddr with
  | false => exact Sat.pure (.inl ⟨hrun, rfl, rfl⟩)
  | true =>
    obtain ⟨hrec, hcount⟩ := recRunning_spec hrun
    simp only [Bool.not_true, Bool.false_eq_true, if_false]
    refine Sat.bind (rsiHandler_sat h hrec call) ?_
    rintro ⟨s1, res⟩ hdone
    simp only at hdone ⊢
    refine Sat.ite (fun hexit => ?_) fun hexit => ?_
    · have hg : s1.granule recAddr = s.granule recAddr := hdone.granule (by rw [hrec]; decide)
      rw [recExit_ok (by rw [hg, hcount])]
      exact Sat.ok_bind (Sat.pure (.inr ⟨hrun, s1, res, hdone, rfl, by rw [if_pos hexit]⟩))
    · exact Sat.pure (.inr ⟨hrun, s1, res, hdone, rfl, by rw [if_neg hexit]⟩)

theorem smcReply_sat {r : Rmm (State × SmcResult)} {Q : State × SmcResult → Prop}
    {E : Fault → Prop} (h : Sat r Q E) :
    Sat (smcReply r) (fun res => ∃ x, res.2 = .smc x ∧ Q (res.1, x)) E := by
  unfold smcReply
  refine Sat.bind h ?_
  rintro ⟨s', x⟩ hx
  exact Sat.pure ⟨x, rfl, hx⟩

theorem step_sat {plat : Platform} {s : State} {F : Tables} (h : Wf s F) (act : Act) :
    Sat (step plat s act) (fun res => StepDone plat s F res.1 res.2 act)
      (StepFault plat s F act) := by
  have benign : ∀ {Q : State × SmcResult → Prop} {r : Rmm (State × SmcResult)},
      Sat r Q Benign →
      Sat (smcReply r) (fun res => ∃ x, res.2 = .smc x ∧ Q (res.1, x))
        (StepFault plat s F act) :=
    fun hr => smcReply_sat (hr.mono (fun _ hq => hq) fun _ => Benign.stepFault)
  have drop : ∀ {Q : State → Prop} {r : Rmm (State × SmcResult)},
      Sat r (fun res => Q res.1) Benign →
      Sat (smcReply r) (fun res => Q res.1) (StepFault plat s F act) := fun hr =>
    (benign hr).imp fun _ ⟨_, _, hq⟩ => hq
  cases act with
  | granuleDelegate addr el3Ok => exact drop (smcGranuleDelegate_sat h addr el3Ok)
  | granuleUndelegate addr el3Ok => exact drop (smcGranuleUndelegate_sat plat s addr el3Ok)
  | realmCreate rdAddr paramsAddr nsRead =>
      exact benign (smcRealmCreate_sat h rdAddr paramsAddr nsRead)
  | realmActivate rdAddr => exact drop (smcRealmActivate_sat plat s rdAddr)
  | realmDestroy rdAddr => exact benign (smcRealmDestroy_sat plat s rdAddr)
  | recCreate rdAddr recAddr paramsAddr nsRead =>
    exact benign (smcRecCreate_sat h rdAddr recAddr paramsAddr nsRead)
  | recDestroy recAddr => exact benign (smcRecDestroy_sat h recAddr)
  | recEnter recAddr runAddr entry reject =>
    exact drop (smcRecEnter_sat plat s recAddr runAddr entry reject)
  | aptCreate rdAddr aptAddr => exact benign (smcAptCreate_sat h rdAddr aptAddr)
  | aptDestroy rdAddr aptAddr => exact benign (smcAptDestroy_sat h rdAddr aptAddr)
  | dataCreate rdAddr dataAddr mapAddr srcAddr flags nsCopy =>
    exact benign (((smcDataCreate_sat h rdAddr dataAddr mapAddr srcAddr flags nsCopy).and
      (smcDataCreate_accepts h.holds rdAddr dataAddr mapAddr srcAddr flags nsCopy)).mono
        (fun _ hq => hq) fun _ he => he.1)
  | dataCreateUnknown rdAddr dataAddr mapAddr =>
    exact benign (((smcDataCreateUnknown_sat h rdAddr dataAddr mapAddr).and
      (dataCreated_accepts h.holds rdAddr dataAddr mapAddr false .done)).mono
        (fun _ hq => hq) fun _ he => he.1)
  | dataDestroy rdAddr mapAddr =>
    refine smcReply_sat (((smcDataDestroy_sat h rdAddr mapAddr).and
      (smcDataDestroy_accepts h.holds rdAddr mapAddr)).mono (fun _ hq => hq) ?_)
    rintro f ⟨⟨h1, h2⟩, -⟩
    exact ⟨h1, fun hc => ⟨rdAddr, mapAddr, rfl, h2 hc⟩⟩
  | rttCreate rdAddr rttAddr mapAddr ulevel =>
    exact benign (smcRttCreate_sat h rdAddr rttAddr mapAddr ulevel)
  | rttFold rdAddr mapAddr ulevel => exact benign (smcRttFold_sat h rdAddr mapAddr ulevel)
  | rttDestroy rdAddr mapAddr ulevel => exact drop (smcRttDestroy_sat h rdAddr mapAddr ulevel)
  | rttMapUnprotected rdAddr mapAddr ulevel s2tte =>
    refine drop (Q := fun s' => ∃ F', TableEdited s F (NsEffect s rdAddr) s' F') ?_
    unfold smcRttMapUnprotected
    refine Sat.ite (fun _ => Sat.ok ⟨F, .refl h⟩) fun hl => ?_
    rw [not_or, not_lt, not_lt] at hl
    exact mapUnmapNs_sat h rdAddr mapAddr hl s2tte .MAP_NS
  | rttUnmapUnprotected rdAddr mapAddr ulevel =>
    refine drop (Q := fun s' => ∃ F', TableEdited s F (NsEffect s rdAddr) s' F') ?_
    unfold smcRttUnmapUnprotected
    refine Sat.ite (fun _ => Sat.ok ⟨F, .refl h⟩) fun hl => ?_
    rw [not_or, not_lt, not_lt] at hl
    exact mapUnmapNs_sat h rdAddr mapAddr hl 0#64 .UNMAP_NS
  | rttInitRipas rdAddr base top =>
    refine drop (Q := fun s' => ∃ F' height,
      TableEdited s F (InitRipasEffect rdAddr base.toNat top.toNat height) s' F') ?_
    exact smcRttInitRipas_sat h rdAddr base top
  | rttSetRipas rdAddr recAddr base top => exact drop (smcRttSetRipas_sat h rdAddr recAddr base top)
  | rsi recAddr call =>
    exact (handleRealmRsi_sat h recAddr call).mono (fun _ hq => hq) fun _ => Benign.stepFault
  | recExit recAddr =>
    simp only [step]
    refine Sat.ite (fun hrun => ?_) fun hrun => ?_
    · rw [recExit_ok (recRunning_spec hrun).2]
      exact Sat.ok_bind (Sat.pure (.inr ⟨hrun, rfl⟩))
    · exact Sat.pure (.inl ⟨by simpa using hrun, rfl⟩)

end RmmCaec
