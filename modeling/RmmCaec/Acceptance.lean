import RmmCaec.DataEffects

/-!
# Which data calls go through

The checks of the data handlers as predicates on the state before the call. They
say when a call changes anything, and which granule a destruction frees.
-/
namespace RmmCaec

open RadixForest Outcome

/-- The leaf of the forest at an address is what the hardware walk reads. -/
theorem Holds.leafOf_of_isLeaf {s : State} {F : Tables} (h : Holds s F) {rd addr t : Word}
    {n : Table} {i : ℕ} (hl : IsLeaf F rd addr.toNat t n i)
    (ha : addr.toNat < 2 ^ (s.rd rd).s2Ctx.ipaBits) :
    leafOf s.rtt (s.rd rd).s2Ctx addr =
      ((n.slot i).word (s.rd rd).s2Ctx (levelOf n.height), levelOf n.height) := by
  have hrd : (s.granule rd).state = .RD := by
    rw [← hl.owner]
    exact (h.node hl.table).2.1
  obtain ⟨t', n', i', hl', heq⟩ := h.leafOf_spec hrd ha
  obtain ⟨-, rfl, rfl⟩ := h.leaf_unique hl hl'
  exact heq

theorem sat_trivial {α : Type} (r : Rmm α) : Sat r (fun _ => True) fun _ => True := by
  cases r with
  | ok x => exact Sat.ok trivial
  | error e => exact Sat.error trivial

/-- The checks of `data_create`. -/
def createAccepts (plat : Platform) (s : State) (rdAddr dataAddr mapAddr : Word)
    (measured : Bool) (nsCopy : NsCopy) : Bool :=
  let rd := s.rd rdAddr
  let leaf := leafOf s.rtt rd.s2Ctx mapAddr
  findLockTwoGranules plat s dataAddr .DELEGATED rdAddr .RD &&
    decide ((if measured then validateDataCreate mapAddr rd
      else validateDataCreateUnknown mapAddr rd) = rmiSuccess) &&
    !(!rd.s2Ctx.enableLpa2 && decide (2 ^ 48 ≤ dataAddr.toNat)) &&
    leaf.2 == s2ttPageLevel && s2tteIsUnassigned leaf.1 && (!measured || nsCopy.accessOk)

theorem dataCreate_accepts {plat : Platform} {s : State} {F : Tables} (h : Holds s F)
    (rdAddr dataAddr mapAddr : Word) (measured : Bool) (nsCopy : NsCopy) :
    Sat (dataCreate plat s rdAddr dataAddr mapAddr measured nsCopy) (fun res =>
      res.2.ret = rmiSuccess →
        createAccepts plat s rdAddr dataAddr mapAddr measured nsCopy = true)
      (fun _ => True) := by
  unfold dataCreate createAccepts
  refine Sat.ite (fun _ => Sat.pure (fun hc => by cases hc)) fun hlock => ?_
  have hlock' : findLockTwoGranules plat s dataAddr .DELEGATED rdAddr .RD = true := by
    simpa using hlock
  have hrd := lockable_state (findLockTwoGranules_iff hlock').2.2
  refine Sat.ite (fun hret => Sat.pure (fun hc => absurd hc hret)) fun hret => ?_
  rw [not_ne_iff] at hret
  refine Sat.ite (fun _ => Sat.pure (fun hc => by cases hc)) fun hlpa => ?_
  refine Sat.bind (h.walk_sat hrd s2ttPageLevel trivial) ?_
  rintro wi ⟨n, hw, ha, -, -, hstop⟩
  have hleaf := h.walked_isLeaf hw hstop
  refine Sat.ite (fun _ => Sat.pure (fun hc => by cases hc)) fun heq => ?_
  refine Sat.ite (fun _ => Sat.pure (fun hc => by cases hc)) fun hun => ?_
  refine Sat.ite (fun _ => Sat.pure (fun hc => by cases hc)) fun hns => ?_
  have hword := (h.word _ n hleaf.table _ hleaf.index).2
  rw [hw.owner] at hword
  have hof := h.leafOf_of_isLeaf hleaf ha
  rw [← hword, ← hw.level] at hof
  refine (sat_trivial _).imp fun _ _ _ => ?_
  simp only [hlock', hret, hof, decide_true, Bool.true_and, Bool.and_eq_true, beq_iff_eq]
  refine ⟨⟨⟨?_, not_ne_iff.mp heq⟩, by simpa using hun⟩, ?_⟩
  · rw [Bool.not_eq_true']
    exact Bool.eq_false_iff.mpr hlpa
  · cases measured with
    | false => rfl
    | true => simpa using hns

theorem dataCreated_accepts {plat : Platform} {s : State} {F : Tables} (h : Holds s F)
    (rdAddr dataAddr mapAddr : Word) (measured : Bool) (nsCopy : NsCopy) :
    Sat (dataCreate plat s rdAddr dataAddr mapAddr measured nsCopy >>= fun res =>
        if res.2.ret = rmiSuccess then do
          let s2 ← csmPropagateCreate plat res.1 rdAddr dataAddr mapAddr
          return (s2, res.2)
        else return (res.1, res.2))
      (fun res => res.2.ret = rmiSuccess →
        createAccepts plat s rdAddr dataAddr mapAddr measured nsCopy = true)
      (fun _ => True) := by
  refine Sat.bind (dataCreate_accepts h rdAddr dataAddr mapAddr measured nsCopy) ?_
  rintro ⟨s1, res⟩ hres
  refine Sat.ite (fun hs => ?_) fun _ => Sat.pure hres
  exact (sat_trivial _).imp fun _ _ _ => hres hs

/-- The checks of `smc_data_create`. -/
def measuredAccepts (plat : Platform) (s : State) (rdAddr dataAddr mapAddr srcAddr flags : Word)
    (nsCopy : NsCopy) : Bool :=
  (flags == 0#64 || flags == 1#64) && findGranule plat srcAddr &&
  (s.granule srcAddr).state == .NS &&
    createAccepts plat s rdAddr dataAddr mapAddr true nsCopy

theorem smcDataCreate_accepts {plat : Platform} {s : State} {F : Tables} (h : Holds s F)
    (rdAddr dataAddr mapAddr srcAddr flags : Word) (nsCopy : NsCopy) :
    Sat (smcDataCreate plat s rdAddr dataAddr mapAddr srcAddr flags nsCopy) (fun res =>
      res.2.ret = rmiSuccess →
        measuredAccepts plat s rdAddr dataAddr mapAddr srcAddr flags nsCopy = true)
      (fun _ => True) := by
  unfold smcDataCreate measuredAccepts
  refine Sat.ite (fun _ => Sat.pure (fun hc => by cases hc)) fun hflags => ?_
  refine Sat.ite (fun _ => Sat.pure (fun hc => by cases hc)) fun hsrc => ?_
  refine (dataCreated_accepts h rdAddr dataAddr mapAddr true nsCopy).imp fun res hres hs => ?_
  simp only [Bool.not_eq_true', Bool.not_eq_false, Bool.and_eq_true] at hsrc
  simp only [hsrc.1, hsrc.2, hres hs, Bool.and_true, Bool.or_eq_true, beq_iff_eq]
  by_contra hc
  exact hflags (not_or.mp hc)

/-- The address of a created page is aligned and inside the realm. -/
theorem createAccepts_addr {plat : Platform} {s : State} {rdAddr dataAddr mapAddr : Word}
    {measured : Bool} {nsCopy : NsCopy}
    (h : createAccepts plat s rdAddr dataAddr mapAddr measured nsCopy = true) :
    mapAddr.toNat % 4096 = 0 ∧ mapAddr.toNat < 2 ^ (s.rd rdAddr).s2Ctx.ipaBits := by
  simp only [createAccepts, Bool.and_eq_true, decide_eq_true_eq] at h
  obtain ⟨⟨⟨⟨⟨-, hret⟩, -⟩, -⟩, -⟩, -⟩ := h
  have hval : validateDataCreateUnknown mapAddr (s.rd rdAddr) = rmiSuccess := by
    cases measured with
    | false => simpa using hret
    | true =>
      simp only [if_true, validateDataCreate] at hret
      split at hret
      · cases hret
      · exact hret
  unfold validateDataCreateUnknown at hval
  split at hval
  · cases hval
  split at hval
  · cases hval
  next hmap =>
  simp only [validateMapAddr, Bool.not_eq_true', Bool.not_eq_false, Bool.and_eq_true,
    decide_eq_true_eq] at hmap
  exact ⟨(addrLvlAligned_iff.mp hmap.2).1, hmap.1⟩

theorem measuredAccepts_addr {plat : Platform} {s : State}
    {rdAddr dataAddr mapAddr srcAddr flags : Word} {nsCopy : NsCopy}
    (h : measuredAccepts plat s rdAddr dataAddr mapAddr srcAddr flags nsCopy = true) :
    mapAddr.toNat % 4096 = 0 ∧ mapAddr.toNat < 2 ^ (s.rd rdAddr).s2Ctx.ipaBits := by
  rw [measuredAccepts, Bool.and_eq_true] at h
  exact createAccepts_addr h.2

theorem createAccepts_ready {plat : Platform} {s : State} {rdAddr dataAddr mapAddr : Word}
    {measured : Bool} {nsCopy : NsCopy}
    (h : createAccepts plat s rdAddr dataAddr mapAddr measured nsCopy = true) :
    (s.granule rdAddr).state = .RD ∧ (s.granule dataAddr).state = .DELEGATED := by
  simp only [createAccepts, Bool.and_eq_true] at h
  obtain ⟨-, hd, hr⟩ := findLockTwoGranules_iff h.1.1.1.1.1
  exact ⟨lockable_state hr, lockable_state hd⟩

/-- The checks of `smc_data_destroy`. -/
def destroyAccepts (plat : Platform) (s : State) (rdAddr mapAddr : Word) : Bool :=
  let rd := s.rd rdAddr
  let leaf := leafOf s.rtt rd.s2Ctx mapAddr
  lockable plat s rdAddr .RD && addrInPar rd mapAddr && validateMapAddr mapAddr s2ttPageLevel rd &&
    leaf.2 == s2ttPageLevel && (dataDestroyEntry leaf.1).isSome

/-- The granule behind a page, which a destruction frees. -/
def pageGranule (s : State) (rdAddr mapAddr : Word) : Word :=
  s2ttePa (s.rd rdAddr).s2Ctx (leafOf s.rtt (s.rd rdAddr).s2Ctx mapAddr).1 s2ttPageLevel

theorem smcDataDestroy_accepts {plat : Platform} {s : State} {F : Tables} (h : Holds s F)
    (rdAddr mapAddr : Word) :
    Sat (smcDataDestroy plat s rdAddr mapAddr) (fun res => res.2.ret = rmiSuccess →
      destroyAccepts plat s rdAddr mapAddr = true) (fun _ => True) := by
  unfold smcDataDestroy destroyAccepts
  refine findLockGranule_sat trivial ?_
  refine Sat.ite (fun _ => Sat.pure (fun hc => by cases hc)) fun hr => ?_
  have hlock : lockable plat s rdAddr .RD = true := by simpa using hr
  have hrd := lockable_state hlock
  refine Sat.ite (fun _ => Sat.pure (fun hc => by cases hc)) fun hval => ?_
  simp only [Bool.or_eq_true, Bool.not_eq_true', not_or, Bool.not_eq_false] at hval
  refine Sat.bind (h.walk_sat hrd s2ttPageLevel trivial) ?_
  rintro wi ⟨n, hw, ha, -, -, hstop⟩
  have hleaf := h.walked_isLeaf hw hstop
  refine Sat.ite (fun _ => Sat.pure (fun hc => by cases hc)) fun heq => ?_
  have hword := (h.word _ n hleaf.table _ hleaf.index).2
  rw [hw.owner] at hword
  have hof := h.leafOf_of_isLeaf hleaf ha
  rw [← hword, ← hw.level] at hof
  cases hent : dataDestroyEntry (s.rtt wi.gLlt wi.index) with
  | none => exact Sat.pure (fun hc => by cases hc)
  | some wt =>
    refine (sat_trivial _).imp fun _ _ _ => ?_
    simp only [hlock, hval.1, hval.2, hof, hent, Option.isSome_some, Bool.true_and, Bool.and_true,
      beq_iff_eq]
    exact not_ne_iff.mp heq

end RmmCaec
