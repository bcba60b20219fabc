import RmmCaec.RipasRanges

/-!
# Serving the RIPAS requests of a realm

A request of a realm is served by calls of the host that each take a part of what is left
of it. The REC keeps how far they got, and the next entry reports it to the realm.
-/
namespace RmmCaec
open RadixForest Outcome Runs

/-- What a successful call does. -/
structure ServedTo (s : State) (F : Tables) (rd g base top : Word) (s' : State) (x1 : Word) :
    Prop where
  isRd : (s.granule rd).state = .RD
  isRec : (s.granule g).state = .REC
  idle : (s.granule g).refcount = 0
  owner : (s.recs g).gRd = rd
  next : base = (s.recs g).setRipas.addr
  upto : top ≤ (s.recs g).setRipas.top
  later : base < x1
  le : x1 ≤ top
  served : ∃ s1 F', LoopServed s F rd base.toNat top.toNat (s.recs g).setRipas.ripasVal
    (s.recs g).setRipas.changeDestroyed s1 F' x1.toNat ∧ s' = s1.setRec g { s.recs g with
      setRipas := { (s.recs g).setRipas with addr := x1 } }

/-- A request is legal, and what has been served of it is a first part. -/
structure RequestOk (r : Rec) : Prop where
  val : r.setRipas.ripasVal ≠ .DESTROYED
  inside : r.setRipas.top.toNat ≤ recParSize r
  lower : r.setRipas.base ≤ r.setRipas.addr
  upper : r.Asks → r.setRipas.addr ≤ r.setRipas.top

/-- A part of a request is served: the pages from the end of the last part up to `x1` get the
RIPAS that the realm asked for, and nothing else changes but the record of this. -/
structure PartServed (s : State) (rd g base top : Word) (s' : State) (x1 : Word) : Prop where
  owner : (s.recs g).gRd = rd
  next : base = (s.recs g).setRipas.addr
  lower : (s.recs g).setRipas.base ≤ base
  later : base < x1
  le : x1 ≤ top
  upto : top ≤ (s.recs g).setRipas.top
  inside : ∀ ipa, base ≤ ipa → ipa < x1 →
    ripasOf s' rd ipa = some (s.recs g).setRipas.ripasVal ∧
    ∃ v, translate s rd ipa = some v ∧ v.Changeable (s.recs g).setRipas.changeDestroyed ∧
      translate s' rd ipa = some (v.withRipas (s.recs g).setRipas.ripasVal)
  outside : ∀ rd' ipa, (s.granule rd').state = .RD →
    ipa.toNat < 2 ^ (s.rd rd').s2Ctx.ipaBits →
    ¬ (rd' = rd ∧ base ≤ ipa ∧ ipa < x1) → translate s' rd' ipa = translate s rd' ipa
  state : ∀ x, (s'.granule x).state = (s.granule x).state
  recs : s'.recs = Function.update s.recs g { s.recs g with
    setRipas := { (s.recs g).setRipas with addr := x1 } }

theorem PageView.ripas_withRipas {cd : Bool} {v : PageView} (h : v.Changeable cd) (r : Ripas) :
    (v.withRipas r).ripas = some r := by
  obtain ⟨q, hq, -⟩ := h
  cases v with
  | unassigned q' | assigned q' pa => rfl
  | _ => cases hq

section
variable {plat : Platform} {s s' : State} {F : Tables} {rd g base top x1 : Word}

theorem smcRttSetRipas_served (h : Wf s F)
    (hval : (s.granule g).state = .REC → (s.recs g).setRipas.ripasVal ≠ .DESTROYED) :
    Sat (smcRttSetRipas plat s rd g base top) (fun res =>
      (res.2.ret ≠ rmiSuccess ∧ res.1 = s) ∨
      (res.2.ret = rmiSuccess ∧ ServedTo s F rd g base top res.1 res.2.x1)) fun _ => True := by
  have failed : ∀ {ret : ReturnCode}, ret ≠ rmiSuccess →
      Sat (pure (s, smcRet ret) : Rmm (State × SmcResult)) (fun res =>
        (res.2.ret ≠ rmiSuccess ∧ res.1 = s) ∨
        (res.2.ret = rmiSuccess ∧ ServedTo s F rd g base top res.1 res.2.x1)) fun _ => True :=
    fun hret => Sat.pure (.inl ⟨hret, rfl⟩)
  unfold smcRttSetRipas
  refine Sat.ite (fun _ => failed (by decide)) fun _ => ?_
  refine Sat.ite (fun _ => failed (by decide)) fun hlock => ?_
  obtain ⟨-, hr, hrec⟩ := findLockTwoGranules_iff (by simpa using hlock)
  have hrd := lockable_state hr
  refine Sat.ite (fun _ => failed (by decide)) fun hidle => ?_
  refine Sat.ite (fun _ => failed (by decide)) fun hown => ?_
  refine Sat.ite (fun _ => failed (by decide)) fun hreq => ?_
  rw [not_ne_iff] at hidle hown
  rw [not_or, not_ne_iff, BitVec.not_lt] at hreq
  refine assertThat_sat (fun _ => trivial) fun _ => ?_
  refine Sat.bind (h.holds.walk_sat hrd s2ttPageLevel trivial) ?_
  rintro wi ⟨n, hw, -, -, -, hstop⟩
  have hleaf := h.holds.walked_isLeaf hw hstop
  refine Sat.ite (fun _ => failed (by simp [rmiErrorRtt, rmiSuccess])) fun _ => ?_
  refine Sat.ite (fun _ => failed (by simp [rmiErrorRtt, rmiSuccess])) fun hmod => ?_
  rw [not_ne_iff, hw.level, ← rttShape_span] at hmod
  have hbase := h.holds.eq_slotBase hleaf.table hleaf.covers (Nat.dvd_of_mod_eq_zero hmod)
  have hfuel : wi.index + (s2ttesPerS2tt - wi.index) ≤ 512 := by
    have := hleaf.index
    unfold s2ttesPerS2tt
    omega
  obtain ⟨F', hl⟩ := @setRipasLoop_served s F wi.gLlt n wi.index base.toNat _
    (s.recs g).setRipas.changeDestroyed top.toNat (hval (lockable_state hrec)) top.isLt _ h
      hleaf.table hfuel hbase
  rw [hw.owner, ← hw.level] at hl
  simp only
  generalize setRipasLoop (s.rd rd).s2Ctx wi.gLlt wi.lastLevel top.toNat _ _ _ s wi.index
    base.toNat = res at hl ⊢
  obtain ⟨s1, addr⟩ := res
  dsimp only at hl ⊢
  refine Sat.ite (fun hlt => Sat.pure (.inr ⟨rfl, ?_⟩)) fun hlt => Sat.pure (.inl ⟨?_, ?_⟩)
  · have hle : addr ≤ top.toNat := by
      rcases hl.top with he | hle
      · omega
      · exact hle
    have haddr : (BitVec.ofNat 64 addr).toNat = addr := by
      rw [BitVec.toNat_ofNat]
      exact Nat.mod_eq_of_lt (by omega)
    refine ⟨hrd, lockable_state hrec, hidle, hown.symm, hreq.1, hreq.2, ?_, ?_, s1, F', ?_, rfl⟩
    · rw [BitVec.lt_def, haddr]
      exact hlt
    · rw [BitVec.le_def, haddr]
      exact hle
    · rw [haddr]
      exact hl
  · show rmiErrorRtt wi.lastLevel ≠ rmiSuccess
    simp [rmiErrorRtt, rmiSuccess]
  · -- the loop did not move, so no entry was written
    have hle := hl.le
    exact hl.stay (by omega)

theorem ServedTo.partServed (h : Wf s F) (hs : ServedTo s F rd g base top s' x1)
    (hok : RequestOk (s.recs g)) (hctx : (s.recs g).s2Ctx = (s.rd rd).s2Ctx) :
    PartServed s rd g base top s' x1 := by
  obtain ⟨s1, F', hl, rfl⟩ := hs.served
  have hrd1 : (s1.granule rd).state = .RD := by rw [hl.same.state, hs.isRd]
  have hlater := hs.later
  have hle := hs.le
  have hupto := hs.upto
  have hinside := hok.inside
  unfold recParSize at hinside
  rw [hctx] at hinside
  rw [BitVec.le_def] at hle hupto
  refine ⟨hs.owner, hs.next, hs.next ▸ hok.lower, hs.later, hs.le, hs.upto, fun ipa h1 h2 => ?_,
    fun rd' ipa hrd' ha hout => ?_, hl.same.state, ?_⟩
  · rw [BitVec.le_def] at h1
    rw [BitVec.lt_def] at h2
    have ha : ipa.toNat < 2 ^ (s.rd rd).s2Ctx.ipaBits := by omega
    obtain ⟨v, hv, ht⟩ := translate_spec h.holds hs.isRd ha
    obtain ⟨hc, ht'⟩ := hl.served.inside ipa.toNat v h1 h2 ht
    have hv' : translate s1 rd ipa = some (v.withRipas (s.recs g).setRipas.ripasVal) := by
      rw [translate_iff hl.wf.holds hrd1 (by rwa [hl.same.rd]), hl.same.rd]
      exact ht'
    refine ⟨?_, v, hv, hc, hv'⟩
    change (translate s1 rd ipa).bind PageView.ripas = _
    rw [hv']
    exact PageView.ripas_withRipas hc _
  · obtain ⟨v, hv, ht⟩ := translate_spec h.holds hrd' ha
    rw [hv]
    change translate s1 rd' ipa = some v
    rw [translate_iff hl.wf.holds (by rw [hl.same.state, hrd']) (by rwa [hl.same.rd]), hl.same.rd]
    refine (hl.served.outside _ rd' ipa.toNat v fun hc => hout ⟨hc.1, ?_, ?_⟩).mpr ht
    · exact BitVec.le_def.mpr hc.2.1
    · exact BitVec.lt_def.mpr hc.2.2
  · show Function.update s1.recs g _ = _
    rw [hl.same.recs]

/-- A served request stays legal. -/
theorem PartServed.requestOk (hp : PartServed s rd g base top s' x1) (hok : RequestOk (s.recs g)) :
    RequestOk (s'.recs g) := by
  have hlower := hp.lower
  have hlater := hp.later
  rw [hp.recs, Function.update_self]
  refine ⟨hok.val, hok.inside, ?_, fun _ => BitVec.le_trans hp.le hp.upto⟩
  exact BitVec.le_trans hlower (BitVec.le_of_lt hlater)

end

section
variable {plat : Platform} {s s1 : State} {F : Tables} {g : Word}

/-- A legal request is recorded, any other changes nothing. -/
theorem handleRsiIpaStateSet_cases (s : State) (g base top x3 x4 : Word) :
    handleRsiIpaStateSet s g base top x3 x4 = (s, rsiRet .ERROR_INPUT) ∨
    ∃ val cd, val ≠ Ripas.DESTROYED ∧ base < top ∧ top.toNat ≤ recParSize (s.recs g) ∧
      handleRsiIpaStateSet s g base top x3 x4 = (s.setRec g { s.recs g with
        setRipas := ⟨base, top, base, val, cd, (s.recs g).setRipas.reject⟩ },
        ⟨.SUCCESS, top, 0#64, true⟩) := by
  unfold handleRsiIpaStateSet
  simp only
  split
  · exact .inl rfl
  · next hgood =>
    simp only [not_or, not_not, BitVec.not_le] at hgood
    obtain ⟨-, -, -, hlt, -, hpar⟩ := hgood
    refine .inr ⟨_, _, ?_, hlt, ?_, rfl⟩
    · split <;> decide
    · rw [BitVec.lt_def] at hlt
      rw [BitVec.toNat_sub_of_le (by rw [BitVec.le_def, BitVec.toNat_ofNat]; omega)] at hpar
      unfold recParSize
      have h1 : (1#64).toNat = 1 := rfl
      omega

/-- Exceptions change a REC only with its own request. -/
theorem ExitDone.rec_cases {v : RunVcpu} {exitEsr : Word} {exception : RealmException}
    {res : Handled} (hd : ExitDone plat s g v exitEsr exception s1 res) (hw : Wf s F)
    (hrec : (s.granule g).state = .REC) (x : Word) :
    s1.recs x = s.recs x ∨ (x = g ∧
      ∃ base top val cd, val ≠ Ripas.DESTROYED ∧ base < top ∧
      top.toNat ≤ recParSize (s.recs g) ∧ s1.recs g = { s.recs g with
        setRipas := ⟨base, top, base, val, cd, (s.recs g).setRipas.reject⟩ }) := by
  cases hd with
  | @sync h s1 res done =>
    cases done with
    | @psci s1 v1 goesOn smc call done =>
      have hc := (psciCall_sat s g v.toVcpu).of_ok done
      exact .inl (by rw [hc.recs])
    | @rsi s1 call rres regs smc calls done =>
      obtain hsame | ⟨x1, x2, x3, x4, rfl, heq⟩ :=
        ((rsiHandler_sat hw hrec call).of_ok done).recs
      · exact .inl (by rw [hsame])
      · have hs1 : s1 = (handleRsiIpaStateSet s g x1 x2 x3 x4).1 := congrArg Prod.fst heq
        obtain hsame | ⟨val, cd, hval, hlt, hpar, hset⟩ :=
          handleRsiIpaStateSet_cases s g x1 x2 x3 x4
        · exact .inl (by rw [hs1, hsame])
        · rw [hs1, hset]
          by_cases hx : x = g
          · subst hx
            exact .inr ⟨rfl, x1, x2, val, cd, hval, hlt, hpar, by simp [State.setRec]⟩
          · exact .inl (by simp [State.setRec, hx])
    | hostCall smc fid => exact .inl rfl
    | regs keeps isv => exact .inl rfl
  | serror => exact .inl rfl
  | plain kind => exact .inl rfl

end

section
variable {ι : Type} [DecidableEq ι] {plat : Platform} {m m' : RunSmp ι} {g : Word}

/-- What a step does to the record of a REC. -/
inductive RecMove (plat : Platform) (m m' : RunSmp ι) (g : Word) : RunAct ι → Prop
  | kept {a : RunAct ι} (was : (m.smp.mem.granule g).state = .REC)
      (eq : m'.smp.mem.recs g = m.smp.mem.recs g) : RecMove plat m m' g a
  | fresh {a : RunAct ι} (new : (m.smp.mem.granule g).state ≠ .REC)
      (eq : (m'.smp.mem.recs g).setRipas = default) : RecMove plat m m' g a
  | served {c : ι} {rd base top : Word} {p : VcpuParams} {res : SmcResult}
      (was : (m.smp.mem.granule g).state = .REC)
      (call : smcRttSetRipas plat m.smp.mem rd g base top = .ok (m'.smp.mem, res)) :
      RecMove plat m m' g (.plain (.start c (.rttSetRipas rd g base top)) p)
  | entered {c : ι} {host : Option RmiRecEnter} {o : EnterOutcome}
      (was : (m.smp.mem.granule g).state = .REC)
      (done : recEnterCompletions m.smp.mem g (m.vcpu g) m.data host = .ok o)
      (entry : o.entry = .run ∨ o.entry = .aborted)
      (runs : o.entry = .run → m'.smp.cpu c = .running g)
      (eq : m'.smp.mem.recs g = completeSetRipas { m.smp.mem.recs g with
        setRipas := { (m.smp.mem.recs g).setRipas with reject := ripasResponse host } }) :
      RecMove plat m m' g (.enter c host)
  | asked {c : ι} {exception : RealmException} {env : TrapEnv} {base top : Word} {val : Ripas}
      {cd : Bool} (was : (m.smp.mem.granule g).state = .REC) (runs : m.smp.cpu c = .running g)
      (val_ne : val ≠ .DESTROYED) (lt : base < top)
      (inside : top.toNat ≤ recParSize (m.smp.mem.recs g))
      (eq : m'.smp.mem.recs g = { m.smp.mem.recs g with
        setRipas := ⟨base, top, base, val, cd, (m.smp.mem.recs g).setRipas.reject⟩ }) :
      RecMove plat m m' g (.trap c exception env)

/-- A call that serves a request runs as one step. -/
theorem RunNext.setRipas {c : ι} {rd base top : Word} {p : VcpuParams}
    (hn : RunNext plat m (.plain (.start c (.rttSetRipas rd g base top)) p) m') :
    ∃ res, smcRttSetRipas plat m.smp.mem rd g base top = .ok (m'.smp.mem, res) := by
  obtain ⟨-, n, ⟨-, s, job, reply, hs, rfl⟩, rfl⟩ := hn
  dsimp only [handlerStart, step] at hs
  cases hcall : smcRttSetRipas plat m.smp.mem rd g base top with
  | error f =>
    rw [hcall] at hs
    cases hs
  | ok res =>
    rw [hcall] at hs
    cases hs
    exact ⟨res.2, rfl⟩

/-- An entry changes only the REC that it is about, and only if the REC is to run. -/
theorem recEnterBody_recs (s : State) (recAddr : Word) (entry : RecEntry) (reject : Bool) :
    Sat (recEnterBody s recAddr entry reject) (fun res => res.1 = s ∨
      ((entry = .run ∨ entry = .aborted) ∧ (entry = .run → res.2.1 = .running recAddr) ∧
        res.1 = s.setRec recAddr (completeSetRipas { s.recs recAddr with
          setRipas := { (s.recs recAddr).setRipas with reject := reject } }))) fun _ => True := by
  unfold recEnterBody
  dsimp only
  refine Sat.ite (fun _ => Sat.pure (.inl rfl)) fun _ => ?_
  cases (s.rd (s.recs recAddr).gRd).state with
  | NEW | SYSTEM_OFF => exact Sat.pure (.inl rfl)
  | ACTIVE =>
    cases entry with
    | unreadable | refused => exact Sat.pure (.inl rfl)
    | aborted => exact Sat.pure (.inr ⟨.inr rfl, nofun, rfl⟩)
    | run => exact Sat.pure (.inr ⟨.inl rfl, fun _ => rfl, rfl⟩)

theorem RunNext.recMove {a : RunAct ι} (h : RunInv m) (hn : RunNext plat m a m')
    (hg : (m'.smp.mem.granule g).state = .REC) : RecMove plat m m' g a := by
  obtain ⟨F, hw⟩ := h.psci.smp.wf
  cases a with
  | plain a p =>
    have hn' := hn
    obtain ⟨ha, n, hnext, rfl⟩ := hn
    obtain ⟨was, heq⟩ | ⟨new, heq⟩ | ⟨hserves, was, -⟩ :=
      hnext.recsKept h.psci.smp ha g hg
    · exact .kept was heq
    · exact .fresh new heq
    · cases a with
      | start c act =>
        cases act with
        | rttSetRipas rd recAddr base top =>
          obtain rfl := Option.some.inj hserves
          obtain ⟨res, hcall⟩ := RunNext.setRipas hn'
          exact .served was hcall
        | _ => cases hserves
      | _ => cases hserves
  | enter c host =>
    obtain ⟨g0, o, hjob, hcomplete, s, job, reply, hbody, rfl⟩ := hn
    have hgran := ((recEnterBody_noRequest g0 o.entry _).of_ok hbody).1
    have hold : (m.smp.mem.granule g).state = .REC := by
      rw [← hgran]
      exact hg
    obtain rfl | ⟨hentry, hruns, rfl⟩ :=
      (recEnterBody_recs m.smp.mem g0 o.entry (ripasResponse host)).of_ok hbody
    · exact .kept hold rfl
    · by_cases hne : g = g0
      · subst hne
        refine .entered hold hcomplete hentry (fun hrun => ?_) (by simp [State.setRec, Smp.put])
        show (m.smp.put c _ job).cpu c = _
        rw [← hruns hrun]
        simp [Smp.put]
      · exact .kept hold (by simp [State.setRec, Smp.put, hne])
  | guest c regs el1 =>
    obtain ⟨g0, hrun, rfl⟩ := hn
    exact .kept hg rfl
  | store data =>
    obtain rfl := hn
    exact .kept hg rfl
  | timer c =>
    obtain ⟨g0, hrun, rfl⟩ := hn
    exact .kept hg rfl
  | trap c exception env =>
    obtain ⟨g0, hrun, hgen, s, res, hexit, rfl⟩ := hn
    have hd := (handleRealmExit_sat exception env).of_ok hexit
    have hrec := h.isRec (c := c) (g := g0) (by rw [hrun]; rfl)
    have hst := (@ExitDone.others plat m.smp.mem s F g0 g _ _ _ _ hd hw hrec).1
    obtain heq | ⟨rfl, base, top, val, cd, hval, hlt, hpar, heq⟩ := hd.rec_cases hw hrec g
    · exact .kept (hst.mp hg) heq
    · exact .asked hrec hrun hval hlt hpar heq
  | complete c callingAddr targetAddr status =>
    obtain ⟨hidle, vcpu, ret, hs, rfl⟩ := hn
    exact .kept hg rfl

theorem RequestOk.of_default {r : Rec} (h : r.setRipas = default) : RequestOk r := by
  refine ⟨by rw [h]; decide, by rw [h]; exact Nat.zero_le _, by rw [h]; decide, fun ha => ?_⟩
  unfold Rec.Asks at ha
  rw [h] at ha
  exact absurd rfl ha

theorem RequestOk.completed {r : Rec} (h : RequestOk r) (reject : Bool) :
    RequestOk (completeSetRipas { r with setRipas := { r.setRipas with reject := reject } }) := by
  unfold completeSetRipas
  split
  · next heq =>
    exact ⟨h.val, h.inside, h.lower, fun ha => absurd heq ha⟩
  · refine ⟨h.val, Nat.zero_le _, ?_, fun ha => absurd rfl ha⟩
    rw [BitVec.le_def]
    exact Nat.zero_le _

/-- All requests are legal. -/
def RequestsOk (m : RunSmp ι) : Prop :=
  ∀ g, (m.smp.mem.granule g).state = .REC → RequestOk (m.smp.mem.recs g)

omit [DecidableEq ι] in
/-- The outcome of a call that serves a request. -/
theorem RunInv.served (h : RunInv m) (hok : RequestsOk m) {rd base top : Word} {s : State}
    {res : SmcResult}
    (hcall : smcRttSetRipas plat m.smp.mem rd g base top = .ok (s, res)) :
    (res.ret ≠ rmiSuccess ∧ s = m.smp.mem) ∨
    (res.ret = rmiSuccess ∧ PartServed m.smp.mem rd g base top s res.x1) := by
  obtain ⟨F, hw⟩ := h.psci.smp.wf
  obtain hfail | ⟨hret, hs⟩ := (smcRttSetRipas_served hw fun hg => (hok g hg).val).of_ok hcall
  · exact .inl hfail
  · refine .inr ⟨hret, hs.partServed hw (hok g hs.isRec) ?_⟩
    rw [← hs.owner]
    exact h.psci.ctx g hs.isRec

theorem RequestsOk.step {a : RunAct ι} (h : RunInv m) (hok : RequestsOk m)
    (hn : RunNext plat m a m') : RequestsOk m' := by
  intro g hg
  cases hn.recMove h hg with
  | kept was eq =>
    rw [eq]
    exact hok g was
  | fresh new eq => exact .of_default eq
  | served was call =>
    obtain ⟨-, heq⟩ | ⟨-, hp⟩ := h.served hok call
    · rw [heq]
      exact hok g was
    · exact hp.requestOk (hok g was)
  | entered was done entry runs eq =>
    rw [eq]
    exact (hok g was).completed _
  | asked was runs hval hlt hpar eq =>
    rw [eq]
    exact ⟨hval, hpar, BitVec.le_refl _, fun _ => BitVec.le_of_lt hlt⟩

theorem RequestsOk.reach (hm : RunReachable plat m) : RunInv m ∧ RequestsOk m := by
  refine hm.invariant (I := fun m => RunInv m ∧ RequestsOk m)
    ⟨.init, fun g hg => nomatch hg⟩ ?_
  rintro m a m' - ⟨h, hok⟩ - hn
  exact ⟨h.step hn, hok.step h hn⟩

/-- Steps after a request from `base` on, with the end of the last part that a call of the host
served. The REC stays and does not start to run; everything else may happen. -/
inductive Service (plat : Platform) (g : Word) (m0 : RunSmp ι) (base : Word) :
  Word → RunSmp ι → Prop
  | start : Service plat g m0 base base m0
  | part {addr : Word} {m m' : RunSmp ι} {c : ι} {rd b t : Word} {p : VcpuParams} {s : State}
      {res : SmcResult} (before : Service plat g m0 base addr m)
      (next : RunNext plat m (.plain (.start c (.rttSetRipas rd g b t)) p) m')
      (call : smcRttSetRipas plat m.smp.mem rd g b t = .ok (s, res))
      (success : res.ret = rmiSuccess) : Service plat g m0 base res.x1 m'
  | other {addr : Word} {m m' : RunSmp ι} {a : RunAct ι} (before : Service plat g m0 base addr m)
      (next : RunNext plat m a m')
      (failed : ∀ c rd b t p s res, a = .plain (.start c (.rttSetRipas rd g b t)) p →
        smcRttSetRipas plat m.smp.mem rd g b t = .ok (s, res) → res.ret ≠ rmiSuccess)
      (isRec : (m'.smp.mem.granule g).state = .REC) (idle : ∀ c, m'.smp.cpu c ≠ .running g) :
      Service plat g m0 base addr m'

/-- The REC of an open request, with the end of the part that has been served. -/
structure Serving (g base top addr : Word) (r0 : Rec) (m : RunSmp ι) : Prop where
  inv : RunInv m
  requests : RequestsOk m
  isRec : (m.smp.mem.granule g).state = .REC
  idle : ∀ c, m.smp.cpu c ≠ .running g
  request : (m.smp.mem.recs g).setRipas = { r0.setRipas with addr := addr }
  base_eq : r0.setRipas.base = base
  top_eq : r0.setRipas.top = top
  lt : base < top

namespace Serving

variable {base top addr : Word} {r0 : Rec}

omit [DecidableEq ι] in
theorem asks (h : Serving g base top addr r0 m) : (m.smp.mem.recs g).Asks := by
  unfold Rec.Asks
  rw [h.request]
  show r0.setRipas.base ≠ r0.setRipas.top
  rw [h.base_eq, h.top_eq]
  exact BitVec.ne_of_lt h.lt

omit [DecidableEq ι] in
theorem bounds (h : Serving g base top addr r0 m) : base ≤ addr ∧ addr ≤ top := by
  have hok := h.requests g h.isRec
  have hlower := hok.lower
  have hupper := hok.upper h.asks
  rw [h.request] at hlower hupper
  rw [← h.base_eq, ← h.top_eq]
  exact ⟨hlower, hupper⟩

/-- A call of the host serves the part that comes next. -/
theorem part {c : ι} {rd b t : Word} {p : VcpuParams} {s : State} {res : SmcResult}
    (h : Serving g base top addr r0 m)
    (hn : RunNext plat m (.plain (.start c (.rttSetRipas rd g b t)) p) m')
    (hcall : smcRttSetRipas plat m.smp.mem rd g b t = .ok (s, res)) (hret : res.ret = rmiSuccess) :
    Serving g base top res.x1 r0 m' := by
  obtain ⟨res', hcall'⟩ := RunNext.setRipas hn
  obtain ⟨rfl, rfl⟩ := Prod.mk.inj (Except.ok.inj (hcall.symm.trans hcall'))
  have hp := ((h.inv.served h.requests hcall).resolve_left fun hc => hc.1 hret).2
  refine ⟨h.inv.step hn, h.requests.step h.inv
    hn, by rw [hp.state, h.isRec], fun c' hc' => ?_, ?_,
    h.base_eq, h.top_eq, h.lt⟩
  · obtain ⟨ha, n, hnext, rfl⟩ := hn
    exact h.idle c' (hnext.running_of_host ha hc')
  · rw [hp.recs, Function.update_self, h.request]

/-- Any other step leaves the request alone. -/
theorem other {a : RunAct ι} (h : Serving g base top addr r0 m) (hn : RunNext plat m a m')
    (hfail : ∀ c rd b t p s res, a = .plain (.start c (.rttSetRipas rd g b t)) p →
      smcRttSetRipas plat m.smp.mem rd g b t = .ok (s, res) → res.ret ≠ rmiSuccess)
    (hrec : (m'.smp.mem.granule g).state = .REC) (hidle : ∀ c, m'.smp.cpu c ≠ .running g) :
    Serving g base top addr r0 m' := by
  refine ⟨h.inv.step hn, h.requests.step h.inv hn, hrec, hidle, ?_, h.base_eq, h.top_eq, h.lt⟩
  rw [← h.request]
  cases hn.recMove h.inv hrec with
  | kept was eq => rw [eq]
  | fresh new eq => exact absurd h.isRec new
  | @served c rd b t p res was call =>
    obtain ⟨-, heq⟩ | ⟨hret, -⟩ := h.inv.served h.requests call
    · rw [heq]
    · exact absurd hret (hfail c rd b t p _ res rfl call)
  | @entered c host o was done entry runs eq =>
    -- with an open request, an entry that goes on starts the REC
    obtain hback | ⟨hrun, -⟩ :=
      (recEnterCompletions_of_asks (h.inv.requests g h.isRec) h.asks).of_ok done
    · rcases hback with hb | hb <;> rw [hb] at entry <;> simp at entry
    · exact absurd (runs hrun) (hidle c)
  | asked was runs hval hlt hpar eq => exact absurd runs (h.idle _)

theorem service {m0 : RunSmp ι} (h0 : Serving g base top base r0 m0)
    (hs : Service plat g m0 base addr m) : Serving g base top addr r0 m := by
  induction hs with
  | start => exact h0
  | part before next call success ih => exact ih.part next call success
  | other before next failed isRec idle ih => exact ih.other next failed isRec idle

/-- The next entry reports the end of the part that has been served. -/
theorem reports {c : ι} {host : Option RmiRecEnter} (h : Serving g base top addr r0 m)
    (hn : RunNext plat m (.enter c host) m') (hrun : m'.smp.cpu c = .running g) :
    (m'.vcpu g).gprs 0 = rsiSuccess ∧ (m'.vcpu g).gprs 1 = addr := by
  obtain ⟨g0, o, hjob, hcomplete, s, job, reply, hbody, rfl⟩ := hn
  have hcpu : Function.update m.smp.cpu c job c = .running g := hrun
  rw [Function.update_self] at hcpu
  obtain ⟨rfl, hentry, -⟩ := ((recEnterBody_noRequest g0 o.entry _).of_ok hbody).2.2.1 g hcpu
  have hask := h.asks
  obtain hback | ⟨-, e, -, hv⟩ :=
    (recEnterCompletions_of_asks (h.inv.requests g h.isRec) hask).of_ok hcomplete
  · rcases hback with hb | hb <;> rw [hb] at hentry <;> cases hentry
  have hvcpu : Function.update m.vcpu g o.vcpu g = o.vcpu := Function.update_self _ _ _
  have hgprs : o.vcpu.gprs = (setRipasRegs { (m.smp.mem.recs g).setRipas with
      reject := e.has recEntryFlagRipasResponse } (m.vcpu g)).gprs := by rw [hv]; rfl
  dsimp only
  rw [hvcpu, hgprs, setRipasRegs, if_neg hask, h.request]
  exact ⟨rfl, rfl⟩

end Serving

/-- A call of the realm that makes a request is handled as such. -/
theorem handleRealmExit_ipaStateSet {s : State} {v : RunVcpu} {exitEsr : Word} {h : Syndrome}
    {env : TrapEnv} {base top x3 x4 : Word} (hsmc : ecOf h.esr = esrEl2EcSmc)
    (hcall : rsiCallOf v = some (.ipaStateSet base top x3 x4)) :
    Sat (handleRealmExit plat s g v exitEsr (.sync h) env) (fun res =>
      res.1 = (handleRsiIpaStateSet s g base top x3 x4).1 ∧
      res.2.handled = !(handleRsiIpaStateSet s g base top x3 x4).2.exitToHost) fun _ => True := by
  have hpsci : isPsciCall v.toVcpu = false := by
    obtain ⟨-, hfid⟩ | ⟨hno, -⟩ := rsiCallOf_fid hcall
    · exact not_isPsciCall (.inr hfid)
    · exact absurd rfl (hno base top x3 x4)
  have hfinish : ∀ res : RsiResult,
      (finishRsi v exitEsr (res.outcome v.gprs)).handled = !res.exitToHost := by
    intro res
    unfold RsiResult.outcome
    cases res.exitToHost <;> rfl
  unfold handleRealmExit handleExceptionSync
  dsimp only
  rw [hsmc, if_neg (by decide), if_neg (by decide), if_pos rfl]
  unfold handleRealmSmc
  rw [hpsci, hcall]
  simp only [Bool.false_eq_true, if_false, rsiHandler]
  refine Sat.ok_bind (Sat.ite (fun _ => Sat.pure ⟨rfl, hfinish _⟩) fun _ =>
    Sat.pure ⟨rfl, hfinish _⟩)

/-- The state behind an accepted request. -/
theorem RunInv.asked {c : ι} {h : Syndrome} {env : TrapEnv} {base top x3 x4 : Word}
    (hi : RunInv m) (hok : RequestsOk m) (hn : RunNext plat m (.trap c (.sync h) env) m')
    (hrun : m.smp.cpu c = .running g) (hsmc : ecOf h.esr = esrEl2EcSmc)
    (hcall : rsiCallOf (m.vcpu g) = some (.ipaStateSet base top x3 x4))
    (haccept : (handleRsiIpaStateSet m.smp.mem g base top x3 x4).2.status = .SUCCESS) :
    Serving g base top base (m'.smp.mem.recs g) m' := by
  have hi' := hi.step hn
  have hok' := hok.step hi hn
  have hin : (m.smp.cpu c).inside = some g := by
    rw [hrun]
    rfl
  obtain ⟨g0, hrun0, -, s, res, hexit, rfl⟩ := hn
  obtain rfl : g = g0 := Job.running.inj (hrun.symm.trans hrun0)
  obtain ⟨hmem, hhandled⟩ := (handleRealmExit_ipaStateSet hsmc hcall).of_ok hexit
  dsimp only at hmem hhandled
  obtain hsame | ⟨val, cd, -, hlt, -, hset⟩ :=
    handleRsiIpaStateSet_cases m.smp.mem g base top x3 x4
  · -- a request that is not legal is refused
    rw [hsame] at haccept
    cases haccept
  rw [hset] at hmem hhandled
  have hrecs : s.recs g = { m.smp.mem.recs g with
      setRipas := ⟨base, top, base, val, cd, (m.smp.mem.recs g).setRipas.reject⟩ } := by
    rw [hmem]
    exact Function.update_self _ _ _
  have hgran : s.granule = m.smp.mem.granule := by
    rw [hmem]
    rfl
  have hrec : (s.granule g).state = .REC := by
    rw [hgran]
    exact hi.isRec hin
  refine ⟨hi', hok', hrec, fun c' hc' => ?_, ?_, ?_, ?_, hlt⟩
  · by_cases hc : c' = c
    · subst hc
      have hjob : (m.trapped c' g s res).smp.cpu c' = .leaving g rmiSuccess := by
        show Function.update m.smp.cpu c' _ c' = _
        rw [Function.update_self, hhandled]
        rfl
      rw [hjob] at hc'
      cases hc'
    · have hother : m.smp.cpu c' = .running g := by
        rw [← hc']
        show _ = Function.update m.smp.cpu c _ c'
        rw [Function.update_of_ne hc]
      refine hc (hi.psci.smp.refs.alone c' c g ?_ hin)
      show (m.smp.cpu c').inside = _
      rw [hother]
      rfl
  · show (s.recs g).setRipas = { (s.recs g).setRipas with addr := base }
    rw [hrecs]
  · show (s.recs g).setRipas.base = base
    rw [hrecs]
  · show (s.recs g).setRipas.top = top
    rw [hrecs]

/-- Requests of realms and calls of the host in any order. A call of the host changes the RIPAS
of the pages from the end of the last part up to the address that it returns, as the request
of the realm says, and nothing else; a call that fails changes nothing. From an accepted
request on, each part begins where the last one ended, and the next entry reports the end of
the last part. -/
theorem ripas_changes_follow_request (hm : RunReachable plat m) :
    (∀ c rd g base top p m', RunNext plat m
    (.plain (.start c (.rttSetRipas rd g base top)) p) m' →
      ∃ res, smcRttSetRipas plat m.smp.mem rd g base top = .ok (m'.smp.mem, res) ∧
        ((res.ret ≠ rmiSuccess ∧ m'.smp.mem = m.smp.mem) ∨
          (res.ret = rmiSuccess ∧ PartServed m.smp.mem rd g base top m'.smp.mem res.x1))) ∧
    ∀ c h env m0 g base top x3 x4, RunNext plat m (.trap c (.sync h) env) m0 →
      m.smp.cpu c = .running g → ecOf h.esr = esrEl2EcSmc →
      rsiCallOf (m.vcpu g) = some (.ipaStateSet base top x3 x4) →
      (handleRsiIpaStateSet m.smp.mem g base top x3 x4).2.status = .SUCCESS →
      m0.smp.mem = (handleRsiIpaStateSet m.smp.mem g base top x3 x4).1 ∧
      (m0.smp.mem.recs g).setRipas.base = base ∧ (m0.smp.mem.recs g).setRipas.top = top ∧
      ∀ addr m1, Service plat g m0 base addr m1 →
        (m1.smp.mem.recs g).setRipas = { (m0.smp.mem.recs g).setRipas with addr := addr } ∧
        base ≤ addr ∧ addr ≤ top ∧
        ∀ c' host m2, RunNext plat m1 (.enter c' host) m2 → m2.smp.cpu c' = .running g →
          (m2.vcpu g).gprs 0 = rsiSuccess ∧ (m2.vcpu g).gprs 1 = addr := by
  obtain ⟨hinv, hok⟩ := RequestsOk.reach hm
  refine ⟨fun c rd g base top p m' hn => ?_, ?_⟩
  · obtain ⟨res, hcall⟩ := RunNext.setRipas hn
    exact ⟨res, hcall, hinv.served hok hcall⟩
  · intro c h env m0 g base top x3 x4 hn hrun hsmc hcall haccept
    have h0 := hinv.asked hok hn hrun hsmc hcall haccept
    refine ⟨?_, h0.base_eq, h0.top_eq, fun addr m1 hs => ?_⟩
    · obtain ⟨g0, hrun0, -, s, res, hexit, rfl⟩ := hn
      obtain rfl : g = g0 := Job.running.inj (hrun.symm.trans hrun0)
      exact ((handleRealmExit_ipaStateSet hsmc hcall).of_ok hexit).1
    · have h1 := h0.service hs
      exact ⟨h1.request, h1.bounds.1, h1.bounds.2,
        fun c' host m2 hn' hrun' => h1.reports hn' hrun'⟩

end

theorem RunInv.idle_of_unused {ι : Type} {m : RunSmp ι} (h : RunInv m) {g : Word}
    (hz : (m.smp.mem.granule g).refcount = 0) (c : ι) : m.smp.cpu c ≠ .running g := by
  intro hc
  have hgran := h.psci.smp.refs.entered c g (by show (m.smp.cpu c).inside = _; rw [hc]; rfl)
  have hone : (m.smp.mem.granule g).refcount = 1 := congrArg Granule.refcount hgran
  omega

theorem RunInv.idle_of_inside {ι : Type} {m : RunSmp ι} (h : RunInv m) {g : Word} {c : ι}
    (hin : (m.smp.cpu c).inside = some g) (hne : m.smp.cpu c ≠ .running g) (c' : ι) :
    m.smp.cpu c' ≠ .running g := by
  intro hc
  obtain rfl := h.psci.smp.refs.alone c' c g (by show (m.smp.cpu c').inside = _; rw [hc]; rfl) hin
  exact hne hc

def ripasParams : VcpuParams := ⟨fun _ => 0#64, 0#64, true⟩

/-- The REC is about to ask for RAM at the first three blocks of the realm. -/
def ripasCall : List (RunAct ℕ) :=
  [.plain (.start 1 (.recEnter (gr 22) (gr 0) .run false)) ripasParams,
    .enter 1 (hostEnters 0#64 0#64),
    .guest 1 ⟨fun i => [0xC4000197#64, 0#64, 0x600000#64, 1#64].getD i.val 0#64,
      0#64, 0#64, 0#64⟩
      ⟨0#64, 0#64, 0#64, 0#64, 0#64⟩]

/-- The call, the first part of the service and the next entry. -/
def ripasPart (test : RunSmp ℕ → RunSmp ℕ → RunSmp ℕ → RunSmp ℕ → RunSmp ℕ →
    RunSmp ℕ → Bool) :
    Bool :=
  (runReplay runKeys demoPlat initRun (runOneRec ++ ripasCall)).any fun m =>
  (runStep demoPlat m (.trap 1 (.sync ⟨esrEl2EcSmc, 0#64, 0#64⟩)
    ⟨.EXIT_TO_HOST, 0#64, fun _ => 0#64, 0#64, false⟩)).any fun m0 =>
  (runStep demoPlat m0 (.plain (.resume 1) ripasParams)).any fun ma =>
  (runStep demoPlat ma (.plain (.start 0 (.rttSetRipas (gr 16) (gr 22) 0#64 0x200000#64))
    ripasParams)).any fun mb =>
  (runStep demoPlat mb (.plain (.start 1 (.recEnter (gr 22) (gr 0) .run false))
    ripasParams)).any fun mc =>
  (runStep demoPlat mc (.enter 1 (hostEnters 0#64 0#64))).any fun m2 => test m m0 ma mb mc m2

/-- The host serves the first block; the realm hears of it with the next entry. -/
theorem ripas_changes_follow_request_part : ∃ m m0 m1 m2 : RunSmp ℕ, RunReachable demoPlat m ∧
    m.smp.cpu 1 = .running (gr 22) ∧
    rsiCallOf (m.vcpu (gr 22)) = some (.ipaStateSet 0#64 0x600000#64 1#64 0#64) ∧
    Service demoPlat (gr 22) m0 0#64 0x200000#64 m1 ∧
    RunNext demoPlat m1 (.enter 1 (hostEnters 0#64 0#64)) m2 ∧
    (m1.smp.mem.recs (gr 22)).setRipas =
      { (m0.smp.mem.recs (gr 22)).setRipas with addr := 0x200000#64 } ∧
    (m2.vcpu (gr 22)).gprs 1 = 0x200000#64 := by
  have hrun : ripasPart (fun m m0 ma mb mc m2 =>
      decide (m.smp.cpu 1 = .running (gr 22) ∧
        rsiCallOf (m.vcpu (gr 22)) = some (.ipaStateSet 0#64 0x600000#64 1#64 0#64) ∧
        (handleRsiIpaStateSet m.smp.mem (gr 22) 0#64 0x600000#64 1#64 0#64).2.status = .SUCCESS ∧
        (ma.smp.mem.granule (gr 22)) = ⟨.REC, 0⟩ ∧
        (mc.smp.mem.granule (gr 22)).state = .REC ∧
        (mc.smp.cpu 1).inside = some (gr 22) ∧ mc.smp.cpu 1 ≠ .running (gr 22) ∧
        m2.smp.cpu 1 = .running (gr 22)) &&
      match smcRttSetRipas demoPlat ma.smp.mem (gr 16) (gr 22) 0#64 0x200000#64 with
      | .ok res => decide (res.2.ret = rmiSuccess ∧ res.2.x1 = 0x200000#64)
      | .error _ => false) = true := by decide +kernel
  obtain ⟨m, hm, hrun⟩ := (Option.any_eq_true _ _).mp hrun
  obtain ⟨m0, h0, hrun⟩ := (Option.any_eq_true _ _).mp hrun
  obtain ⟨ma, ha, hrun⟩ := (Option.any_eq_true _ _).mp hrun
  obtain ⟨mb, hb, hrun⟩ := (Option.any_eq_true _ _).mp hrun
  obtain ⟨mc, hc, hrun⟩ := (Option.any_eq_true _ _).mp hrun
  obtain ⟨m2, h2, hrun⟩ := (Option.any_eq_true _ _).mp hrun
  rw [Bool.and_eq_true, decide_eq_true_eq] at hrun
  obtain ⟨⟨hcpu, hcall, haccept, hidle, hrec, hin, hnot, hcpu2⟩, htest⟩ := hrun
  have hreach := runReplay_reachable _ .init hm
  obtain ⟨-, hlater⟩ := ripas_changes_follow_request hreach
  obtain ⟨-, -, -, hservice⟩ := hlater 1 _ _ m0 (gr 22) 0#64 0x600000#64 1#64 0#64
    (runStep_next h0)
    hcpu (by decide) hcall haccept
  have hinva := ((RunInv.reach hreach).step (runStep_next h0)).step (runStep_next ha)
  have hinvc := (hinva.step (runStep_next hb)).step (runStep_next hc)
  obtain ⟨res, hset⟩ := RunNext.setRipas (runStep_next hb)
  rw [hset] at htest
  obtain ⟨hret, hx1⟩ := of_decide_eq_true htest
  have hpart : Service demoPlat (gr 22) m0 0#64 res.x1 mb :=
    .part (.other .start (runStep_next ha) nofun (by rw [hidle])
      (hinva.idle_of_unused (by rw [hidle]))) (runStep_next hb) hset hret
  rw [hx1] at hpart
  have hall : Service demoPlat (gr 22) m0 0#64 0x200000#64 mc :=
    .other hpart (runStep_next hc) nofun hrec (hinvc.idle_of_inside hin hnot)
  obtain ⟨hreq, -, -, hreport⟩ := hservice _ mc hall
  exact ⟨m, m0, mc, m2, hreach, hcpu, hcall, hall, runStep_next h2, hreq,
    (hreport 1 _ m2 (runStep_next h2) hcpu2).2⟩

end RmmCaec
