import RmmCaec.Reachability

/-!
# Reference counts of tables

Every lock and unlock asserts that a table has at most 512 references. Whoever
takes a reference releases the lock behind it, so the bound holds between calls:
in every reachable state a walk can pass any table, and it never stops there.
-/
namespace RmmCaec

open RadixForest Outcome

/-- The bound that the monitor asserts when it releases a table. -/
def State.TablesBounded (s : State) : Prop :=
  ∀ t, (s.granule t).state = .RTT → (s.granule t).refcount ≤ rttRefcountMax

theorem State.TablesBounded.unlockable {s : State} (h : s.TablesBounded) {t : Word}
    (ht : (s.granule t).state = .RTT) : unlockedInvariant (s.granule t) = true := by
  unfold unlockedInvariant
  rw [ht]
  exact decide_eq_true (h t ht)

/-- The other granules and the bound of one table decide. -/
theorem State.TablesBounded.update {s s' : State} (h : s.TablesBounded) {t : Word}
    (hg : ∀ g, g ≠ t → s'.granule g = s.granule g)
    (ht : (s'.granule t).state = .RTT → (s'.granule t).refcount ≤ rttRefcountMax) :
    s'.TablesBounded := by
  intro g hs
  by_cases he : g = t
  · rw [he] at hs ⊢
    exact ht hs
  · rw [hg g he] at hs ⊢
    exact h g hs

/-- An effect takes a reference of a table. -/
def Effect.takesRef : Effect → Bool
  | .edit _ _ _ _ e => e.adds != 0
  | .graft .. => true
  | _ => false

theorem PruneStep.tablesBounded {s s' : State} {F F' : Tables} {t k : Word} {n m : Table} {i : ℕ}
    {new : Entry} {pages : ℕ} (h : Holds s F) (st : PruneStep s F t n i k m new pages s' F')
    (hb : s.TablesBounded) : s'.TablesBounded := by
  have hbt := hb t (h.node st.table).1
  have hcount := st.tableCount
  have hrefs := new.refs_le_one
  intro g hs
  by_cases hk : g = k
  · rw [hk, st.freed] at hs
    cases hs
  by_cases ht : g = t
  · rw [ht]
    omega
  · rw [st.granule g ht hk] at hs ⊢
    exact hb g hs

theorem Micro.tablesBounded {s s' : State} {F F' : Tables} {l : Effect} (h : Holds s F)
    (h' : Holds s' F') (hm : Micro s F l s' F') (hl : l.takesRef = false) (hb : s.TablesBounded) :
    s'.TablesBounded := by
  cases hm with
  | edit st source =>
    rename_i t n i a e
    have hadds : e.adds = 0 := by simpa [Effect.takesRef] using hl
    have hbt := hb t (h.node st.leaf.table).1
    have hcount := st.count
    refine hb.update st.granule fun _ => ?_
    omega
  | quiet q =>
    intro g hs
    rw [q.rtt g] at hs
    rw [q.count g hs]
    exact hb g hs
  | graft st => cases hl
  | fold st splits purge pos => exact st.tablesBounded h hb
  | destroy st dead lower upper => exact st.tablesBounded h hb
  | plant st =>
    intro g hs
    obtain ⟨m, hm⟩ := (h'.rtt_iff g).mp hs
    rcases st.nodes g m hm with hold | ⟨-, hzero, -⟩
    · rw [(st.old g m hold).2]
      exact hb g (h.node hold).1
    · rw [hzero]
      exact Nat.zero_le _
  | fell st =>
    intro g hs
    obtain ⟨m, hm⟩ := (h'.rtt_iff g).mp hs
    rw [st.count g m hm]
    exact hb g (h.node ((st.nodes g m).mp hm).1).1

theorem Micros.wf {s s' : State} {F F' : Tables} {ls : List Effect} (h : Micros s F ls s' F')
    (hw : Wf s' F') : Wf s F := by
  cases h with
  | nil => exact hw
  | cons wf first rest => exact wf

theorem Micros.tablesBounded {s s' : State} {F F' : Tables} {ls : List Effect}
    (h : Micros s F ls s' F') (hw : Wf s' F') (hl : ∀ l ∈ ls, l.takesRef = false)
    (hb : s.TablesBounded) : s'.TablesBounded := by
  induction h with
  | nil => exact hb
  | cons wf first rest ih =>
    have hnext := rest.wf hw
    refine ih hw (fun l hl' => hl l (List.mem_cons_of_mem _ hl')) ?_
    exact first.tablesBounded wf.holds hnext.holds (hl _ (List.mem_cons_self ..)) hb

section

variable {plat : Platform} {s : State}

/-- A reference is taken under the lock of its table, whose release asserts the bound. -/
theorem tableGet_bounded {s1 : State} (hb : s.TablesBounded) (hs1 : s1.granule = s.granule)
    (t : Word) {α : Type} {k : State → Rmm α} {Q : α → Prop}
    (hk : ∀ s2, s2.TablesBounded → Sat (k s2) Q fun _ => True) :
    Sat (do
        let s2 ← atomicGranuleGet s1 t
        granuleUnlock s2 t
        k s2) Q fun _ => True := by
  unfold atomicGranuleGet
  refine granuleRefcountInc_sat trivial ?_
  refine assertThat_sat (fun _ => trivial) fun hunlock => hk _ ?_
  refine hb.update (t := t) (fun g hg => ?_) fun hst => ?_
  · rw [State.setRefcount_of_ne _ hg, hs1]
  · unfold unlockedInvariant at hunlock
    rw [hst] at hunlock
    exact of_decide_eq_true hunlock

theorem mapIpaToPa_bounded (hb : s.TablesBounded) (ctx : S2ttContext) (pa ipa : Word) :
    Sat (mapIpaToPa s ctx pa ipa) State.TablesBounded fun _ => True := by
  unfold mapIpaToPa
  refine Sat.bind (sat_trivial _) fun wi _ => ?_
  refine Sat.ite (fun _ => Sat.pure hb) fun _ => ?_
  refine assertThat_sat (fun _ => trivial) fun _ => ?_
  dsimp only
  refine tableGet_bounded hb ?_ _ fun s2 h2 => Sat.pure h2
  rfl

/-- The propagation keeps what its action keeps. -/
theorem csmPropagate_keeps {P : State → Prop}
    {action : State → S2ttContext → Word → Rmm State}
    (hact : ∀ s ctx ipa, P s → Sat (action s ctx ipa) P fun _ => True) (h : P s)
    (rdAddr mapAddr : Word) :
    Sat (csmPropagate plat action s rdAddr mapAddr) P fun _ => True := by
  unfold csmPropagate
  refine findLockGranule_sat trivial ?_
  refine Sat.ite (fun _ => Sat.pure h) fun _ => ?_
  refine Sat.ite (fun _ => Sat.pure h) fun _ => ?_
  refine findLockGranule_sat trivial ?_
  refine Sat.ite (fun _ => Sat.pure h) fun _ => ?_
  refine Sat.bind (Q := P) ?_ fun s1 h1 => ?_
  · unfold csmPropagateMaster
    split
    · exact Sat.pure h
    refine Sat.foldlM_inv h fun si _ cur hcur => ?_
    unfold csmPropagateSlot
    refine Sat.ite (fun _ => Sat.pure hcur) fun _ => ?_
    refine findLockGranule_sat trivial ?_
    refine Sat.ite (fun _ => Sat.pure hcur) fun _ => ?_
    refine findLockGranule_sat trivial ?_
    refine Sat.ite (fun _ => Sat.pure hcur) fun _ => ?_
    split
    · exact Sat.pure hcur
    · exact hact _ _ _ hcur
  · unfold csmPropagateSlave
    split
    · exact Sat.pure h1
    refine findLockGranule_sat trivial ?_
    refine Sat.ite (fun _ => Sat.pure h1) fun _ => ?_
    refine findLockGranule_sat trivial ?_
    refine Sat.ite (fun _ => Sat.pure h1) fun _ => ?_
    split
    · exact Sat.pure h1
    · exact hact _ _ _ h1

theorem State.TablesBounded.setState (hb : s.TablesBounded) (g : Word) {st : GranuleState}
    (hst : st ≠ .RTT) : (s.setState g st).TablesBounded :=
  hb.update (fun _ hg => State.setState_of_ne s hg st) fun h =>
    absurd (by rw [State.setState_self] at h; exact h) hst

theorem dataCreate_bounded (hb : s.TablesBounded) (rdAddr dataAddr mapAddr : Word)
    (measured : Bool) (nsCopy : NsCopy) :
    Sat (dataCreate plat s rdAddr dataAddr mapAddr measured nsCopy)
      (fun res => res.1.TablesBounded) fun _ => True := by
  unfold dataCreate
  refine Sat.ite (fun _ => Sat.pure hb) fun _ => ?_
  refine Sat.ite (fun _ => Sat.pure hb) fun _ => ?_
  refine Sat.ite (fun _ => Sat.pure hb) fun _ => ?_
  refine Sat.bind (sat_trivial _) fun wi _ => ?_
  refine Sat.ite (fun _ => Sat.pure hb) fun _ => ?_
  refine Sat.ite (fun _ => Sat.pure hb) fun _ => ?_
  refine Sat.ite (fun _ => Sat.pure hb) fun _ => ?_
  refine assertThat_sat (fun _ => trivial) fun _ => ?_
  dsimp only
  refine tableGet_bounded hb ?_ _ fun s2 h2 => ?_
  · rfl
  · exact granuleUnlockTransition_sat trivial (Sat.pure (h2.setState _ (by decide)))

/-- Both data creation calls. -/
theorem dataCreated_bounded (hb : s.TablesBounded) (rdAddr dataAddr mapAddr : Word)
    (measured : Bool) (nsCopy : NsCopy) :
    Sat (dataCreate plat s rdAddr dataAddr mapAddr measured nsCopy >>= fun res =>
        if res.2.ret = rmiSuccess then do
          let s2 ← csmPropagateCreate plat res.1 rdAddr dataAddr mapAddr
          return (s2, res.2)
        else return (res.1, res.2))
      (fun res => res.1.TablesBounded) fun _ => True := by
  refine Sat.bind (dataCreate_bounded hb rdAddr dataAddr mapAddr measured nsCopy) fun res h1 => ?_
  refine Sat.ite (fun _ => ?_) fun _ => Sat.pure h1
  refine Sat.bind (Q := State.TablesBounded) ?_ fun s2 h2 => Sat.pure h2
  exact csmPropagate_keeps (fun s ctx ipa h => mapIpaToPa_bounded h ctx dataAddr ipa) h1 _ _

theorem attachLoop_bounded (masterCtx slaveCtx : S2ttContext) (masterStart slaveStart : Word)
    (ks : List ℕ) (hb : s.TablesBounded) :
    Sat (attachLoop masterCtx slaveCtx masterStart slaveStart ks s) (fun res => res.1.TablesBounded)
      fun _ => True := by
  induction ks generalizing s with
  | nil => exact Sat.ok hb
  | cons k rest ih =>
    rw [attachLoop]
    refine Sat.bind (sat_trivial _) fun pa _ => ?_
    cases pa with
    | none => exact assertThat_sat (fun _ => trivial) fun _ => Sat.pure hb
    | some pa => exact Sat.bind (mapIpaToPa_bounded hb _ _ _) fun s' h' => ih h'

theorem handleRsiCsmAttach_bounded (hb : s.TablesBounded) (rdAddr x1 : Word) :
    Sat (handleRsiCsmAttach plat s rdAddr x1) (fun res => res.1.TablesBounded) fun _ => True := by
  unfold handleRsiCsmAttach
  refine Sat.bind (sat_trivial _) fun _ _ => ?_
  refine Sat.bind (sat_trivial _) fun apt _ => ?_
  refine assertThat_sat (fun _ => trivial) fun _ => ?_
  refine findLockGranule_sat trivial ?_
  refine Sat.ite (fun _ => Sat.pure hb) fun _ => ?_
  refine Sat.bind (sat_trivial _) fun aptMaster _ => ?_
  split
  · exact Sat.pure hb
  · refine Sat.bind (attachLoop_bounded _ _ _ _ _ hb) fun res hres => ?_
    exact Sat.pure hres

theorem handleRealmRsi_bounded (hb : s.TablesBounded) (recAddr x1 : Word) :
    Sat (handleRealmRsi plat s recAddr (.csmAttach x1)) (fun res => res.1.TablesBounded)
      fun _ => True := by
  unfold handleRealmRsi
  refine Sat.ite (fun _ => Sat.pure hb) fun _ => ?_
  refine Sat.bind (handleRsiCsmAttach_bounded hb _ x1) fun res h1 => ?_
  refine Sat.ite (fun _ => ?_) fun _ => Sat.pure h1
  unfold recExit atomicGranulePut granuleRefcountDec
  rw [bind_assoc]
  refine assertThat_sat (fun _ => trivial) fun _ => Sat.ok_bind (Sat.pure ?_)
  refine h1.update (t := recAddr) (fun g hg => State.setRefcount_of_ne _ hg _) fun hst => ?_
  rw [State.setRefcount_same] at hst ⊢
  exact (Nat.sub_le _ _).trans (h1 recAddr hst)

theorem RttGrown.tablesBounded {s' : State} {F F' : Tables} {rd rtt mapAddr t : Word} {level : ℤ}
    {n m : Table} {i : ℕ} (g : RttGrown plat s F rd rtt mapAddr level s' t n i m F')
    (hb : s.TablesBounded) : s'.TablesBounded := by
  have hnew := g.graft.newCount
  have hrefs := (n.slot i).refs_le_one
  have hmax : rttRefcountMax = 512 := rfl
  intro x hx
  by_cases hk : x = rtt
  · rw [hk]
    omega
  by_cases ht : x = t
  · rw [ht]
    exact g.bound
  · rw [g.graft.granule x ht hk] at hx ⊢
    exact hb x hx

end

/-- The calls that take references of tables. -/
def Act.takesRef : Act → Bool
  | .dataCreate .. | .dataCreateUnknown .. | .rttCreate .. => true
  | .rsi _ (.csmAttach _) => true
  | _ => false

theorem StepEffect.takesRef {plat : Platform} {s : State} {act : Act} {l : Effect}
    (h : StepEffect plat s act l) (hact : act.takesRef = false) : l.takesRef = false := by
  have removed : ∀ {places : List (Word × Word)}, RemoveEffect places l →
      l.takesRef = false := by
    rintro places (rfl | ⟨p, -, old, rfl⟩) <;> rfl
  have mapped : ∀ {rd : Word}, NsEffect s rd l → l.takesRef = false := by
    rintro rd ⟨a, height, old, e, rfl, -, ⟨desc, rfl⟩ | rfl⟩ <;> rfl
  cases act with
  | dataCreate | dataCreateUnknown | rttCreate => cases hact
  | realmCreate | realmDestroy => rw [show l = _ from h]; rfl
  | aptDestroy => exact removed h.2.2.2
  | dataDestroy => obtain ⟨-, ⟨old, rfl⟩ | rfl | ⟨p, -, old, rfl⟩⟩ := h <;> rfl
  | rttFold => obtain ⟨a, height, new, rfl⟩ := h; rfl
  | rttDestroy => obtain ⟨a, height, rfl⟩ := h; rfl
  | rttMapUnprotected | rttUnmapUnprotected => exact mapped h
  | rttInitRipas => obtain ⟨height, a, rfl, -⟩ := h; rfl
  | rttSetRipas =>
    obtain rfl | ⟨-, -, -, -, height, a, old, e, rfl, -, -, -, rfl | ⟨rfl, -⟩⟩ := h <;> rfl
  | rsi recAddr call =>
    obtain rfl | ⟨-, h⟩ := h
    · rfl
    cases call with
    | csmAttach x1 => cases hact
    | csmDetachAndFree x1 => exact removed h
    | csmRevoke x1 => exact removed h
    | _ => exact h.elim
  | _ => rw [show l = _ from h]; rfl

theorem Next.tablesBounded {plat : Platform} {s s' : State} {F : Tables} {act : Act} (h : Wf s F)
    (hn : Next plat s act s') (hb : s.TablesBounded) : s'.TablesBounded := by
  by_cases hact : act.takesRef = false
  · obtain ⟨-, F', hw, ls, hls, hC⟩ := hn.done h
    exact hls.tablesBounded hw (fun l hl => (hC l hl).takesRef hact) hb
  obtain ⟨⟨reply, hdone⟩, -⟩ := hn.done h
  obtain ⟨_, hstep⟩ := hn
  have created : ∀ {r : Rmm (State × SmcResult)} {x : Reply},
      Sat r (fun res => res.1.TablesBounded) (fun _ => True) → smcReply r = .ok (s', x) →
        s'.TablesBounded := fun hr heq => by
    obtain ⟨_, _, hres⟩ := (smcReply_sat hr).of_ok heq
    exact hres
  cases act with
  | dataCreate rdAddr dataAddr mapAddr srcAddr flags nsCopy =>
    refine created ?_ hstep
    unfold smcDataCreate
    refine Sat.ite (fun _ => Sat.pure hb) fun _ => ?_
    exact Sat.ite (fun _ => Sat.pure hb) fun _ => dataCreated_bounded hb _ _ _ _ _
  | dataCreateUnknown rdAddr dataAddr mapAddr =>
    exact created (dataCreated_bounded hb _ _ _ _ _) hstep
  | rttCreate rdAddr rttAddr mapAddr ulevel =>
    obtain ⟨-, -, ⟨rfl, -⟩ | ⟨-, t, n, i, m, F', g⟩⟩ := hdone
    · exact hb
    · exact g.tablesBounded hb
  | rsi recAddr call =>
    cases call with
    | csmAttach x1 => exact (handleRealmRsi_bounded hb recAddr x1).of_ok hstep
    | _ => exact absurd rfl hact
  | _ => exact absurd rfl hact

/-- Between calls every table satisfies what its unlock asserts. -/
theorem Reached.tablesBounded {plat : Platform} {guard : State → Act → Prop} {s : State}
    (h : Reached plat guard s) : s.TablesBounded := by
  refine Runs.Reach.invariant ?_ (fun s act s' hs hb _ hn => ?_) h
  · intro t _
    exact Nat.zero_le _
  · obtain ⟨F, hF⟩ := Reached.wf hs
    exact hn.tablesBounded hF hb

end RmmCaec
