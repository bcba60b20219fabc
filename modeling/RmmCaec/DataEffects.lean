import RmmCaec.Propagation

/-!
# Effects of the data handlers

Creating a data granule turns it from DELEGATED to DATA, assigns it to one leaf
and maps it at the propagation targets. Destroying one removes the leaf, frees
the granule and then removes the pages at the targets.
-/
namespace RmmCaec

open RadixForest Outcome

/-- The RIPAS of a created page, given the entry that it replaces. -/
def CreatedRipas (measured : Bool) (old : Entry) (r : Ripas) : Prop :=
  if measured then r = .RAM else old = .unassigned r ∨ (old = .unassignedNs ∧ r = .EMPTY)

/-- What `data_create` does on success, before the propagation. -/
structure Assigned (plat : Platform) (s : State) (F : Tables) (rdAddr dataAddr mapAddr : Word)
    (measured : Bool)
    (s' : State) (F' : Tables) (r : Ripas) (old : Entry) : Prop where
  isRd : (s.granule rdAddr).state = .RD
  delegated : (s.granule dataAddr).state = .DELEGATED
  inPar : addrInPar (s.rd rdAddr) mapAddr = true
  found : findGranule plat dataAddr = true
  isNew : measured = true → (s.rd rdAddr).state = .NEW
  ripas : CreatedRipas measured old r
  claim : Quiet s (s.setState dataAddr .DATA) none (some dataAddr)
  claimWf : Wf (s.setState dataAddr .DATA) F
  edit : ∃ t n i, EditStep (s.setState dataAddr .DATA) F t n i mapAddr.toNat (.assign r dataAddr)
    s' F' ∧ n.owner = rdAddr ∧ n.height = 0 ∧ n.slot i = old

theorem findLockTwoGranules_iff {plat : Platform} {s : State} {a b : Word}
    {sa sb : GranuleState} (h : findLockTwoGranules plat s a sa b sb = true) :
    a ≠ b ∧ lockable plat s a sa = true ∧ lockable plat s b sb = true := by
  simp only [findLockTwoGranules, Bool.and_eq_true, bne_iff_ne, ne_eq] at h
  obtain ⟨⟨⟨⟨h1, h2⟩, h3⟩, h4⟩, h5⟩ := h
  exact ⟨h1, by simp only [lockable, h2, h3, Bool.and_self],
    by simp only [lockable, h4, h5, Bool.and_self]⟩

/-- The new entry of a created page as an edit of the old one. -/
theorem dataCreate_entry {ctx : S2ttContext} {e : Entry} (pa : Word) (measured : Bool)
    (hv : e.Valid ctx s2ttPageLevel) (hu : s2tteIsUnassigned (e.word ctx s2ttPageLevel) = true) :
    ∃ r, (if measured then s2tteCreateAssignedRam ctx pa s2ttPageLevel
        else s2tteCreateAssignedUnchanged ctx (e.word ctx s2ttPageLevel) pa s2ttPageLevel) =
          (Entry.assigned r pa).word ctx s2ttPageLevel ∧
      CreatedRipas measured e r := by
  cases measured with
  | true => exact ⟨.RAM, rfl, rfl⟩
  | false =>
    rcases (Entry.isUnassigned_word hv).mp hu with ⟨r, rfl⟩ | rfl
    · exact ⟨r, Entry.createAssignedUnchanged_word, .inl rfl⟩
    · refine ⟨.EMPTY, ?_, .inr ⟨rfl, rfl⟩⟩
      have : s2tteCreateUnassignedNs &&& invalidRipasMask = invalidRipas .EMPTY := by decide
      simp only [Bool.false_eq_true, if_false, s2tteCreateAssignedUnchanged, Entry.word, this]

/-- Taking a reference and changing another granule's state commute. -/
theorem setState_setRefcount_comm (s : State) {t d : Word} (h : d ≠ t) (st : GranuleState)
    (c : ℕ) : (s.setRefcount t c).setState d st = (s.setState d st).setRefcount t c := by
  unfold State.setRefcount State.setState
  simp only [Function.update_of_ne h, Function.update_of_ne (Ne.symm h)]
  rw [Function.update_comm (Ne.symm h)]

theorem dataCreate_sat {plat : Platform} {s : State} {F : Tables} (h : Wf s F)
    (rdAddr dataAddr mapAddr : Word) (measured : Bool) (nsCopy : NsCopy) :
    Sat (dataCreate plat s rdAddr dataAddr mapAddr measured nsCopy) (fun res =>
      (res.1 = s ∧ res.2.ret ≠ rmiSuccess) ∨
      (res.2.ret = rmiSuccess ∧ ∃ F' r old,
        Assigned plat s F rdAddr dataAddr mapAddr measured res.1 F' r old)) Benign := by
  unfold dataCreate
  refine Sat.ite (fun _ => Sat.pure (.inl ⟨rfl, by simp [smcRet, rmiErrorInput, rmiSuccess]⟩))
    fun hlock => ?_
  obtain ⟨hne, hd, hr⟩ := findLockTwoGranules_iff (by simpa using hlock)
  have hrd := lockable_state hr
  have hdel := lockable_state hd
  refine Sat.ite (fun hret => Sat.pure (.inl ⟨rfl, hret⟩)) fun hret => ?_
  rw [not_ne_iff] at hret
  refine Sat.ite (fun _ => Sat.pure (.inl ⟨rfl, by simp [smcRet, rmiErrorInput, rmiSuccess]⟩))
    fun _ => ?_
  refine Sat.bind (h.holds.walk_sat hrd s2ttPageLevel (by decide)) ?_
  rintro wi ⟨n, hw, -, -, -, hstop⟩
  have hleaf := h.holds.walked_isLeaf hw hstop
  refine Sat.ite (fun _ => Sat.pure (.inl ⟨rfl, by simp [smcRet, rmiErrorRtt, rmiSuccess]⟩))
    fun heq => ?_
  rw [not_ne_iff, hw.level] at heq
  have h0 : n.height = 0 := levelOf_eq_page heq
  obtain ⟨hv, hword⟩ := h.holds.word _ n hleaf.table _ hleaf.index
  rw [heq, hw.owner] at hv hword
  refine Sat.ite (fun _ => Sat.pure (.inl ⟨rfl, by simp [smcRet, rmiErrorRtt, rmiSuccess]⟩))
    fun hun => ?_
  have hun' : s2tteIsUnassigned ((n.slot wi.index).word (s.rd rdAddr).s2Ctx s2ttPageLevel) =
      true := by
    rw [← hword]
    simpa using hun
  have hscrub : (s.copyWords dataAddr nsCopy.copied).memzero dataAddr = s := by
    rw [State.memzero_copyWords, memzero_delegated h hdel]
  refine Sat.ite (fun _ => Sat.pure (.inl ⟨hscrub, by
    simp [smcRet, rmiErrorInput, rmiSuccess]⟩)) fun _ => ?_
  refine assertThat_sat (fun _ => by decide) fun hok => ?_
  refine granuleRefcountInc_sat (by decide) ?_
  refine granuleUnlock_sat (by decide) ?_
  refine granuleUnlockTransition_sat (by decide) ?_
  refine Sat.pure (.inr ⟨rfl, ?_⟩)
  -- the checks before the walk
  have hval : addrInPar (s.rd rdAddr) mapAddr = true ∧
      (measured = true → (s.rd rdAddr).state = .NEW) := by
    revert hret
    unfold validateDataCreate validateDataCreateUnknown
    cases measured <;> cases addrInPar (s.rd rdAddr) mapAddr <;>
      by_cases hn : (s.rd rdAddr).state = .NEW <;>
      simp [hn, rmiErrorInput, rmiErrorRealm, rmiSuccess]
  have hpc := plainChange_setState h dataAddr .DATA (by rw [hdel]; rfl) rfl (by decide)
    (.inl (by rw [hdel]; rfl))
  have hw1 := hpc.wf h
  obtain ⟨r, hentry, hripas⟩ :=
    dataCreate_entry dataAddr measured hv hun'
  have hvr : (Entry.assigned r dataAddr).Valid (s.rd rdAddr).s2Ctx (levelOf n.height) := by
    simp only [s2tteCreateAssignedOk, Bool.and_eq_true, decide_eq_true_eq] at hok
    rw [heq]
    exact ⟨by decide, by decide, hok.2⟩
  have htd : dataAddr ≠ wi.gLlt := by
    intro hc
    have := (h.holds.node hleaf.table).1
    rw [← hc, hdel] at this
    cases this
  have hst := editState_step hw1.holds (.assign r dataAddr) none
    (((s.setState dataAddr .DATA).granule wi.gLlt).refcount + 1) hleaf
    ((Entry.isUnassigned_word hv).mp hun') hvr rfl
    (fun ho _ => by
      rcases (Entry.isUnassigned_word hv).mp hun' with ⟨r', he⟩ | he <;>
        · rw [he] at ho
          exact absurd rfl ho)
    (by rintro addr ⟨⟩)
  refine ⟨F.setSlot wi.gLlt wi.index (.assigned r dataAddr), r, n.slot wi.index,
    ⟨hrd, hdel, hval.1, ?_, hval.2, hripas,
    hpc.quiet none (some dataAddr) (by rw [hdel]; rintro ⟨⟩) (fun _ => .inl rfl), hw1, wi.gLlt,
      n, wi.index, ?_, hw.owner, h0, rfl⟩⟩
  · simp only [lockable, Bool.and_eq_true] at hd
    exact hd.1
  · simp only [heq, hword, hentry] at hst ⊢
    have hgran : (s.setState dataAddr .DATA).granule wi.gLlt = s.granule wi.gLlt := by
      simp [State.setState, Function.update_of_ne (Ne.symm htd)]
    rw [setState_setRefcount_comm _ htd]
    rw [hgran] at hst
    exact hst

/-- The targets depend on the records and on which granules are RDs and APTs. -/
theorem csmTargets_congr (plat : Platform) {s s' : State} (hrd : s'.rd = s.rd)
    (hapt : s'.apt = s.apt)
    (hstate : ∀ g st, st = .RD ∨ st = .APT →
    ((s'.granule g).state = st ↔ (s.granule g).state = st))
    (rdAddr mapAddr : Word) : csmTargets plat s' rdAddr mapAddr =
      csmTargets plat s rdAddr mapAddr := by
  have hl : ∀ g st, st = .RD ∨ st = .APT → lockable plat s' g st = lockable plat s g st := by
    intro g st hst
    have := hstate g st hst
    unfold lockable
    congr 1
    rw [Bool.eq_iff_iff]
    simpa using this
  have hslot : slotTarget plat s' = slotTarget plat s := by
    funext m offset si
    simp only [slotTarget, hrd, hapt, hl _ .RD (.inl rfl), hl _ .APT (.inr rfl)]
  simp only [csmTargets, masterTargets, slaveTargets, hslot, hrd, hapt, hl _ .RD (.inl rfl),
    hl _ .APT (.inr rfl)]

theorem csmPropagateCreate_sat (plat : Platform) {s : State} {F : Tables} (h : Wf s F)
    {dataAddr : Word} (hdata : (s.granule dataAddr).state = .DATA) (rdAddr mapAddr : Word) :
    Sat (csmPropagateCreate plat s rdAddr dataAddr mapAddr) (fun s' => ∃ F',
      Mirrored s F (fun _ pa => pa = dataAddr) (csmTargets plat s rdAddr mapAddr) s' F')
      Benign := by
  unfold csmPropagateCreate
  refine csmPropagate_sat (fun done cur =>
    ∃ F', Mirrored s F (fun _ pa => pa = dataAddr) done cur F')
    (by decide) ⟨F, .refl h⟩ ?_ ?_
  · rintro done cur ⟨F', hF'⟩
    exact hF'.same
  · rintro done tgt rest cur hl ⟨F', hF'⟩
    have hrd : (cur.granule tgt.1).state = .RD := by
      rw [hF'.same.state]
      exact csmTargets_isRd (by rw [hl]; simp)
    have hsat := mapIpaToPa_sat hF'.wf hrd dataAddr tgt.2
    rw [hF'.same.rd] at hsat
    refine hsat.imp fun s' hs' => ?_
    refine hF'.snoc rfl (.inl (by rw [hF'.same.state, hdata])) ?_
    rw [hF'.same.rd]
    exact hs'

/-- What both data creation calls do: nothing, or an assignment followed by the
mappings at the targets. -/
def DataCreated (plat : Platform) (s : State) (F : Tables) (rdAddr dataAddr mapAddr : Word)
    (measured : Bool) (s' : State) (ret : ReturnCode) : Prop :=
  (s' = s ∧ ret ≠ rmiSuccess) ∨
    (ret = rmiSuccess ∧ ∃ s1 F1 r old F',
      Assigned plat s F rdAddr dataAddr mapAddr measured s1 F1 r old ∧ Wf s1 F1 ∧
      Mirrored s1 F1 (fun _ pa => pa = dataAddr) (csmTargets plat s rdAddr mapAddr) s' F')

theorem dataCreated_sat {plat : Platform} {s : State} {F : Tables} (h : Wf s F)
    (rdAddr dataAddr mapAddr : Word) (measured : Bool) (nsCopy : NsCopy) :
    Sat (dataCreate plat s rdAddr dataAddr mapAddr measured nsCopy >>= fun res =>
        if res.2.ret = rmiSuccess then do
          let s2 ← csmPropagateCreate plat res.1 rdAddr dataAddr mapAddr
          return (s2, res.2)
        else return (res.1, res.2))
      (fun res => DataCreated plat s F rdAddr dataAddr mapAddr measured res.1 res.2.ret)
      Benign := by
  refine Sat.bind (dataCreate_sat h rdAddr dataAddr mapAddr measured nsCopy) ?_
  rintro ⟨s1, res⟩ (⟨rfl, hret⟩ | ⟨hret, F1, r, old, ha⟩)
  · simp only at hret ⊢
    rw [if_neg hret]
    exact Sat.pure (.inl ⟨rfl, hret⟩)
  · simp only at hret ha ⊢
    rw [if_pos hret]
    obtain ⟨t, n, i, st, -, -, -⟩ := ha.edit
    have hw1 : Wf s1 F1 := st.wf ha.claimWf
    have hsame := st.sameAll ha.claimWf.holds
    have hd1 : (s1.granule dataAddr).state = .DATA := by
      rw [hsame.state]
      simp [State.setState]
    refine Sat.bind (csmPropagateCreate_sat plat hw1 hd1 rdAddr mapAddr) ?_
    rintro s2 ⟨F', hF'⟩
    rw [csmTargets_congr plat hsame.rd hsame.apt (fun g st _ => by rw [hsame.state])] at hF'
    have htgt := @csmTargets_congr plat s (s.setState dataAddr .DATA) rfl rfl
      (fun g st hst => by
        have hpc := plainChange_setState h dataAddr .DATA
          (by rw [ha.delegated]; rfl) rfl (by decide) (.inl (by rw [ha.delegated]; rfl))
        rcases hst with rfl | rfl
        · exact hpc.state_iff rfl g
        · by_cases hg : g = dataAddr
          · subst hg
            simp [State.setState, ha.delegated]
          · rw [hpc.granule g hg]) rdAddr mapAddr
    rw [htgt] at hF'
    exact Sat.pure (.inr ⟨hret, s1, F1, r, old, F', ha, hw1, hF'⟩)

theorem smcDataCreate_sat {plat : Platform} {s : State} {F : Tables} (h : Wf s F)
    (rdAddr dataAddr mapAddr srcAddr flags : Word) (nsCopy : NsCopy) :
    Sat (smcDataCreate plat s rdAddr dataAddr mapAddr srcAddr flags nsCopy)
      (fun res => DataCreated plat s F rdAddr dataAddr mapAddr true res.1 res.2.ret) Benign := by
  unfold smcDataCreate
  refine Sat.ite (fun _ => Sat.pure (.inl ⟨rfl, by simp [smcRet, rmiErrorInput, rmiSuccess]⟩))
    fun _ => ?_
  refine Sat.ite (fun _ => Sat.pure (.inl ⟨rfl, by simp [smcRet, rmiErrorInput, rmiSuccess]⟩))
    fun _ => ?_
  exact dataCreated_sat h rdAddr dataAddr mapAddr true nsCopy

theorem smcDataCreateUnknown_sat {plat : Platform} {s : State} {F : Tables} (h : Wf s F)
    (rdAddr dataAddr mapAddr : Word) :
    Sat (smcDataCreateUnknown plat s rdAddr dataAddr mapAddr)
      (fun res => DataCreated plat s F rdAddr dataAddr mapAddr false res.1 res.2.ret) Benign :=
  dataCreated_sat h rdAddr dataAddr mapAddr false .done

theorem csmPropagateDestroy_sat (plat : Platform) {s : State} {F : Tables} (h : Wf s F)
    (rdAddr mapAddr : Word) :
    Sat (csmPropagateDestroy plat s rdAddr mapAddr) (fun s' => ∃ F',
      Removed s F (csmTargets plat s rdAddr mapAddr) s' F') Benign := by
  unfold csmPropagateDestroy
  refine csmPropagate_sat (fun done cur => ∃ F', Removed s F done cur F')
    (by decide) ⟨F, .refl h⟩
    ?_ ?_
  · rintro done cur ⟨F', hF'⟩
    exact hF'.same
  · rintro done tgt rest cur hl ⟨F', hF'⟩
    have hrd : (cur.granule tgt.1).state = .RD := by
      rw [hF'.same.state]
      exact csmTargets_isRd (by rw [hl]; simp)
    have hsat := unmapIpaFromRd_sat hF'.wf hrd tgt.2
    rw [hF'.same.rd] at hsat
    exact hsat.imp fun s' hs' => hF'.snoc hs'

/-- The entry that replaces a destroyed page is the removed one. -/
theorem dataDestroyEntry_word {ctx : S2ttContext} {e : Entry} {w : Word} {tlbi : Bool}
    (hv : e.Valid ctx s2ttPageLevel)
    (h : dataDestroyEntry (e.word ctx s2ttPageLevel) = some (w, tlbi)) :
    ∃ r pa, e = .assigned r pa ∧ (r = .RAM → tlbi = true) ∧
      w = (Edit.remove.apply e).word ctx s2ttPageLevel := by
  unfold dataDestroyEntry at h
  split at h
  case isTrue hc =>
    obtain ⟨pa, rfl⟩ := (Entry.isAssignedRam_word hv).mp hc
    cases h
    exact ⟨.RAM, pa, rfl, fun _ => rfl, rfl⟩
  split at h
  case isTrue hc =>
    obtain ⟨pa, rfl⟩ := (Entry.isAssignedEmpty_word hv).mp hc
    cases h
    exact ⟨.EMPTY, pa, rfl, by rintro ⟨⟩, rfl⟩
  split at h
  case isTrue hc =>
    obtain ⟨pa, rfl⟩ := (Entry.isAssignedDestroyed_word hv).mp hc
    cases h
    exact ⟨.DESTROYED, pa, rfl, by rintro ⟨⟩, rfl⟩
  cases h

/-- What `smc_data_destroy` does: nothing, or the removal of the page, the release
of its granule and the removals at the targets. -/
def DataDestroyed (plat : Platform) (s : State) (F : Tables) (rdAddr mapAddr : Word) (s' : State)
    (ret : ReturnCode) : Prop :=
  (s' = s ∧ ret ≠ rmiSuccess) ∨
    (ret = rmiSuccess ∧ ∃ t n i r dataAddr s1 F1 F', n.owner = rdAddr ∧ n.height = 0 ∧
      n.slot i = .assigned r dataAddr ∧ EditStep s F t n i mapAddr.toNat .remove s1 F1 ∧
      (s1.granule dataAddr).state = .DATA ∧ (s.granule rdAddr).state = .RD ∧
      Removed (s1.release dataAddr) F1 (csmTargets plat s rdAddr mapAddr) s' F')

/-- A leaf of the realm at the address is a page of a granule that is not a DATA
granule of the machine. -/
def Dangling (plat : Platform) (s : State) (F : Tables) (rd : Word) (a : ℕ) : Prop :=
  ∃ t n i r pa, IsLeaf F rd a t n i ∧ n.height = 0 ∧ n.slot i = .assigned r pa ∧
    lockable plat s pa .DATA = false

/-- What destroying a page does before the propagation. -/
def PageDestroyed (s : State) (F : Tables) (rdAddr mapAddr : Word) (s' : State) (F' : Tables) :
    Prop :=
  ∃ t n i r dataAddr s1, n.owner = rdAddr ∧ n.height = 0 ∧ n.slot i = .assigned r dataAddr ∧
    EditStep s F t n i mapAddr.toNat .remove s1 F' ∧ (s1.granule dataAddr).state = .DATA ∧
    (s.granule rdAddr).state = .RD ∧ s' = s1.release dataAddr

theorem dataDestroySection_sat {plat : Platform} {s : State} {F : Tables} (h : Wf s F)
    (rdAddr mapAddr : Word) :
    Sat (dataDestroySection plat s rdAddr mapAddr)
      (fun res => (res.1 = s ∧ res.2.ret ≠ rmiSuccess) ∨
        (res.2.ret = rmiSuccess ∧ ∃ F', PageDestroyed s F rdAddr mapAddr res.1 F'))
      (fun f => f ≠ .refcountUnderflow ∧
        (f = .dataNotData → Dangling plat s F rdAddr mapAddr.toNat)) := by
  have benign : ∀ f, Benign f → f ≠ .refcountUnderflow ∧
      (f = .dataNotData → Dangling plat s F rdAddr mapAddr.toNat) := fun f hf =>
    ⟨hf.1, fun hc => absurd hc hf.2⟩
  unfold dataDestroySection
  refine findLockGranule_sat (benign _ (by decide)) ?_
  refine Sat.ite (fun _ => Sat.pure (.inl ⟨rfl, by simp [smcRet, rmiErrorInput, rmiSuccess]⟩))
    fun hr => ?_
  have hrd := lockable_state (by simpa using hr)
  refine Sat.ite (fun _ => Sat.pure (.inl ⟨rfl, by simp [smcRet, rmiErrorInput, rmiSuccess]⟩))
    fun _ => ?_
  refine Sat.bind (h.holds.walk_sat hrd s2ttPageLevel (benign _ (by decide))) ?_
  rintro wi ⟨n, hw, -, -, -, hstop⟩
  have hleaf := h.holds.walked_isLeaf hw hstop
  refine Sat.ite (fun _ => Sat.pure (.inl ⟨rfl, by simp [rmiErrorRtt, rmiSuccess]⟩)) fun heq =>
    ?_
  rw [not_ne_iff, hw.level] at heq
  have h0 : n.height = 0 := levelOf_eq_page heq
  obtain ⟨hv, hword⟩ := h.holds.word _ n hleaf.table _ hleaf.index
  rw [heq, hw.owner] at hv hword
  simp only [hword]
  cases hent : dataDestroyEntry ((n.slot wi.index).word (s.rd rdAddr).s2Ctx s2ttPageLevel) with
  | none => exact Sat.pure (.inl ⟨rfl, by simp [rmiErrorRtt, rmiSuccess]⟩)
  | some wt =>
    obtain ⟨w, tlbi⟩ := wt
    obtain ⟨r, pa, he, hram, hw'⟩ := dataDestroyEntry_word hv hent
    simp only
    have hpa : s2ttePa (s.rd rdAddr).s2Ctx
        ((n.slot wi.index).word (s.rd rdAddr).s2Ctx s2ttPageLevel) s2ttPageLevel = pa := by
      rw [he] at hv ⊢
      exact Entry.s2ttePa_assigned hv
    rw [hpa]
    obtain ⟨s1, hs1, hst⟩ := remove_put h (if tlbi then some mapAddr else none) hleaf he
      (fun hc => ⟨mapAddr, by rw [hram hc]; rfl⟩)
      (fun addr ha => by
        cases tlbi with
        | true => cases ha; rfl
        | false => cases ha)
    have hput : atomicGranulePut (if tlbi then s2ttInvalidatePage (s2tteWrite s (s.rd rdAddr).s2Ctx
        wi.gLlt wi.index w) (s.rd rdAddr).s2Ctx mapAddr else
        s2tteWrite s (s.rd rdAddr).s2Ctx wi.gLlt wi.index w) wi.gLlt = .ok s1 := by
      rw [← hs1, heq, hw', he]
      cases tlbi <;> rfl
    rw [hput]
    refine Sat.ok_bind (findLockGranule_sat (benign _ (by decide)) ?_)
    have hlock : lockable plat s1 pa .DATA = lockable plat s pa .DATA :=
      lockable_congr (hst.sameAll h.holds) pa .DATA
    refine assertThat_sat (fun hf => ⟨by decide, fun _ => ?_⟩) fun hdata => ?_
    · exact ⟨wi.gLlt, n, wi.index, r, pa, hleaf, h0, he, by rw [← hlock, hf]⟩
    have hd1 := lockable_state hdata
    have hw1 := hst.wf h
    rw [memzero_blank hw1 (by rw [hd1]; rfl)]
    refine granuleUnlockTransition_sat (benign _ (by decide)) ?_
    exact Sat.pure (.inr ⟨rfl, _, wi.gLlt, n, wi.index, r, pa, s1, hw.owner, h0, he,
      hst, hd1, hrd,
      rfl⟩)

theorem PageDestroyed.wf {s s' : State} {F F' : Tables} {rdAddr mapAddr : Word} (h : Wf s F)
    (hp : PageDestroyed s F rdAddr mapAddr s' F') : Wf s' F' := by
  obtain ⟨t, n, i, r, d, s1, -, -, -, st, hd, -, rfl⟩ := hp
  exact (plainChange_release (st.wf h) d (by rw [hd]; rfl) (by rw [hd]; rfl)).wf (st.wf h)

/-- Destroying a page moves no granule between RD and APT and other states. -/
theorem PageDestroyed.csmTargets_eq {plat : Platform} {s s' : State} {F F' : Tables}
    {rdAddr mapAddr : Word} (h : Wf s F) (hp : PageDestroyed s F rdAddr mapAddr s' F') :
    csmTargets plat s' rdAddr mapAddr = csmTargets plat s rdAddr mapAddr := by
  obtain ⟨t, n, i, r, d, s1, -, -, -, st, hd, -, rfl⟩ := hp
  have hsame := st.sameAll h.holds
  have hpc := plainChange_release (st.wf h) d (by rw [hd]; rfl) (by rw [hd]; rfl)
  refine @csmTargets_congr plat s (s1.release d) hsame.rd hsame.apt (fun g st' hst => ?_) rdAddr
    mapAddr
  rw [← hsame.state]
  rcases hst with rfl | rfl
  · exact hpc.state_iff rfl g
  · by_cases hg : g = d
    · subst hg
      simp [State.release, hd]
    · rw [hpc.granule g hg]

/-- The handler is its critical section followed by the propagation. -/
theorem smcDataDestroy_eq (plat : Platform) (s : State) (rdAddr mapAddr : Word) :
    smcDataDestroy plat s rdAddr mapAddr = (do
      let (s1, res) ← dataDestroySection plat s rdAddr mapAddr
      if res.ret = rmiSuccess then
        let s2 ← csmPropagateDestroy plat s1 rdAddr mapAddr
        return (s2, res)
      else return (s1, res)) := by
  unfold smcDataDestroy dataDestroySection
  simp only [bind_assoc]
  refine bind_congr fun found => ?_
  split
  · rfl
  · split
    · rfl
    · simp only [bind_assoc]
      refine bind_congr fun wi => ?_
      split
      · rfl
      · cases dataDestroyEntry (s.rtt wi.gLlt wi.index) with
        | none => rfl
        | some e => simp only [bind_assoc, pure_bind, if_true]

theorem smcDataDestroy_sat {plat : Platform} {s : State} {F : Tables} (h : Wf s F)
    (rdAddr mapAddr : Word) :
    Sat (smcDataDestroy plat s rdAddr mapAddr)
      (fun res => DataDestroyed plat s F rdAddr mapAddr res.1 res.2.ret)
      (fun f => f ≠ .refcountUnderflow ∧
        (f = .dataNotData → Dangling plat s F rdAddr mapAddr.toNat)) := by
  rw [smcDataDestroy_eq]
  refine Sat.bind (dataDestroySection_sat h rdAddr mapAddr) ?_
  rintro ⟨s1, res⟩ (⟨hs1, hret⟩ | ⟨hret, F1, hp⟩)
  · simp only at hs1 hret ⊢
    rw [if_neg hret]
    exact Sat.pure (.inl ⟨hs1, hret⟩)
  · simp only at hret hp ⊢
    rw [if_pos hret]
    have hprop := csmPropagateDestroy_sat plat (hp.wf h) rdAddr mapAddr
    rw [hp.csmTargets_eq h] at hprop
    refine Sat.bind (hprop.mono (fun _ hx => hx) fun f hf =>
      ⟨hf.1, fun hc => absurd hc hf.2⟩) ?_
    rintro s' ⟨F', hF'⟩
    obtain ⟨t, n, i, r, d, s0, ho, h0, he, st, hd, hrd, rfl⟩ := hp
    exact Sat.pure (.inr ⟨hret, t, n, i, r, d, s0, F1, F', ho, h0, he, st, hd, hrd, hF'⟩)

end RmmCaec
