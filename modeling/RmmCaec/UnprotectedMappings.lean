import RmmCaec.FoldRoundTrip
import RmmCaec.Lifecycle
import RmmCaec.StoredEntries
import RmmCaec.TableBounds

/-!
# Unprotected mappings

The host chooses the address and the attributes of an unprotected mapping. The
descriptor that it gives can be read back from the entry that stores it, with the memory
type that the build imposes, and later calls that split or fold tables move the mapping
between levels without changing what it means, until the host unmaps it.
-/
namespace RmmCaec

open RadixForest Outcome Runs

section

variable {ctx : S2ttContext} {level : ℤ} {d : Word}

theorem hostNsS2tte_word (hv : (Entry.assignedNs d).Valid ctx level) :
    hostNsS2tte ctx ((Entry.assignedNs d).word ctx level) level = .ok d := by
  have hl : s2ttMinBlockLevel ≤ level := hv.1
  unfold hostNsS2tte
  simp only [hl, decide_true, assertThat, if_true, Entry.word_assignedNs_and_host hv]
  rfl

/-- What is kept of a descriptor that passes the check is what the entry made from it gives
back, and the entry is an assigned_ns one. -/
theorem hostNsS2tte_create (hlo : s2ttMinBlockLevel ≤ level) (hhi : level ≤ s2ttPageLevel)
    (hd : hostNsS2tteIsValid ctx d level = true) :
    hostNsS2tte ctx (s2tteCreateAssignedNs ctx d level) level =
        .ok (Entry.keptDesc ctx.opencca d) ∧
      s2tteIsAssignedNs (s2tteCreateAssignedNs ctx d level) level = true ∧
      s2tteKinds (s2tteCreateAssignedNs ctx d level) level =
        [false, false, false, false, false, false, false, true, false] ∧
      s2tteIsUnassigned (s2tteCreateAssignedNs ctx d level) = false := by
  have hv : (Entry.assignedNs (Entry.keptDesc ctx.opencca d)).Valid ctx level :=
    ⟨hlo, hhi, hostDesc_of_valid hd⟩
  have hword : s2tteCreateAssignedNs ctx d level =
      (Entry.assignedNs (Entry.keptDesc ctx.opencca d)).word ctx level :=
    (Entry.createAssignedNs_keptDesc ctx d level).symm
  rw [hword]
  refine ⟨hostNsS2tte_word hv, (Entry.isAssignedNs_word hv).mpr ⟨_, rfl⟩, ?_, ?_⟩
  · rw [s2tteKinds_word hv]
    simp only [Entry.kind]
    decide
  · simp [Bool.eq_false_iff, Entry.isUnassigned_word hv]

theorem rttReadEntry_assignedNs (hv : (Entry.assignedNs d).Valid ctx level) :
    rttReadEntry ctx ((Entry.assignedNs d).word ctx level) level =
      .ok ⟨level, .ASSIGNED, d, .EMPTY⟩ := by
  unfold rttReadEntry
  simp only [Entry.isUnassignedEmpty_word hv, Entry.isUnassignedRam_word hv,
    Entry.isUnassignedDestroyed_word hv, Entry.isAssignedEmpty_word hv,
    Entry.isAssignedRam_word hv, Entry.isAssignedDestroyed_word hv, Entry.isUnassignedNs_word hv,
    Entry.isAssignedNs_word hv]
  simp [hostNsS2tte_word hv, bind, Except.bind, pure, Except.pure]

end

/-- What `RTT_READ_ENTRY` says about an address: the entry of an unprotected mapping with
the given attributes, in whose range the address has the given output address. -/
structure ReadsNs (ctx : S2ttContext) (ipa : Word) (attrs : Word) (pa : ℕ)
    (e : RttEntry) : Prop where
  assigned : e.state = .ASSIGNED
  ripas : e.ripas = .EMPTY
  attrs : e.desc &&& s2tteNsAttrMask = attrs
  pa : (s2tteToPa e.desc e.level ctx.enableLpa2).toNat + ipa.toNat % s2tteMapSize e.level = pa

theorem Entry.view_assignedNs_iff {ctx : S2ttContext} {level : ℤ} {off : ℕ} {e : Entry}
    {pa attrs : Word} : e.view ctx level off = some (.assignedNs pa attrs) ↔
      ∃ desc, e = .assignedNs desc ∧ pa = Entry.nsPa ctx level desc + BitVec.ofNat 64 off ∧
        attrs = desc &&& s2tteNsAttrMask := by
  cases e with
  | assignedNs desc =>
    simp only [Entry.view, Option.some.injEq, PageView.assignedNs.injEq, Entry.assignedNs.injEq,
      exists_eq_left', eq_comm]
  | _ => simp [Entry.view]

/-- An address inside a block does not carry over the end of the address space. -/
theorem nsPa_add_toNat (ctx : S2ttContext) {level : ℤ} (desc : Word) {off : ℕ}
    (h1 : 1 ≤ level)
    (hoff : off < s2tteMapSize level) :
    (Entry.nsPa ctx level desc + BitVec.ofNat 64 off).toNat =
      (Entry.nsPa ctx level desc).toNat + off := by
  have hlt := (addrLvlAligned_iff.mp (Entry.nsPa_aligned ctx level desc h1)).2
  have hoa : 2 ^ s2tteOaBits ctx.enableLpa2 ≤ 2 ^ 52 := by
    apply Nat.pow_le_pow_right (by omega)
    unfold s2tteOaBits
    split <;> omega
  have hsize : s2tteMapSize level ≤ 2 ^ 30 := by
    apply Nat.pow_le_pow_right (by omega)
    unfold levelLsb
    omega
  rw [BitVec.toNat_add, BitVec.toNat_ofNat, Nat.mod_eq_of_lt (by omega),
    Nat.mod_eq_of_lt (by omega)]

theorem findLockGranule_of_lockable {plat : Platform} {s : State} {addr : Word} {st : GranuleState}
    (h : lockable plat s addr st = true) : findLockGranule plat s [] addr st = .ok true := by
  rw [findLockGranule_free, h]

/-- Reading a page of an unprotected mapping returns the entry of its leaf. -/
theorem smcRttReadEntry_assignedNs {plat : Platform} {s : State} {F : Tables} (h : Holds s F)
    (hb : s.TablesBounded) {rd ipa pa attrs : Word} (hrd : lockable plat s rd .RD = true)
    (hal : granuleAligned ipa = true) (ha : ipa.toNat < 2 ^ (s.rd rd).s2Ctx.ipaBits)
    (ht : Translates F (s.rd rd).s2Ctx rd ipa.toNat (.assignedNs pa attrs)) :
    ∃ e, smcRttReadEntry plat s rd ipa 3#64 = .ok (rmiSuccess, some e) ∧
      ReadsNs (s.rd rd).s2Ctx ipa attrs pa.toNat e := by
  have hisRd := lockable_state hrd
  have hctx := h.ctx rd hisRd
  have hargs : validateRttEntryCmds ipa 3 (s.rd rd) = true := by
    have hle := hctx.start_le
    have hbits : ipa.toNat < 2 ^ s2tteOaBits (s.rd rd).s2Ctx.enableLpa2 :=
      lt_of_lt_of_le ha (Nat.pow_le_pow_right (by omega) hctx.bits_le)
    have hlvl : s2tteIsAddrLvlAligned (s.rd rd).s2Ctx ipa 3 = true :=
      addrLvlAligned_iff.mpr ⟨granuleAligned_iff.mp hal, hbits⟩
    rw [validateRttEntryCmds, if_neg (by unfold s2ttPageLevel; omega), validateMapAddr, hlvl]
    exact Bool.and_eq_true_iff.mpr ⟨decide_eq_true ha, rfl⟩
  have hstart : (s.rd rd).s2Ctx.s2StartingLevel ≤ 3 := by
    have := hctx.start_le
    omega
  have hwalk := h.walk_ok hisRd hstart le_rfl ha
  obtain ⟨t, n, i, hl, hview⟩ := ht
  obtain ⟨desc, hdesc, hpa, hattrs⟩ := Entry.view_assignedNs_iff.mp hview
  cases hres : s2ttWalkLockUnlock s (s.rd rd).s2Ctx ipa 3 with
  | error f => exact (hwalk.of_error hres).elim
  | ok wi =>
    obtain ⟨n', hw, -, hstop⟩ := hwalk.of_ok hres
    have hleaf := h.walked_isLeaf hw hstop
    obtain ⟨ht', rfl, hi⟩ := h.leaf_unique hleaf hl
    obtain ⟨hv, hword⟩ := h.word _ n' hl.table i hl.index
    rw [hl.owner, hdesc] at hv hword
    have hunlock := hb.unlockable (h.node hl.table).1
    refine ⟨⟨levelOf n'.height, .ASSIGNED, desc, .EMPTY⟩, ?_, ?_⟩
    · unfold smcRttReadEntry
      rw [findLockGranule_of_lockable hrd]
      simp only [show (3#64 : Word).toInt = 3 by decide, bind, Except.bind, hargs, hres, ht', hi,
        hword, hw.level, rttReadEntry_assignedNs hv, granuleUnlock, hunlock, assertThat]
      rfl
    · refine ⟨rfl, rfl, hattrs.symm, ?_⟩
      have hoff := h.slot_offset hl.table hl.covers
      rw [hpa, nsPa_add_toNat _ _ hv.1, ← hoff]
      · rfl
      · rw [← hoff]
        exact Nat.mod_lt _ (s2tteMapSize_pos _)

/-- Everything but the calls that unmap unprotected memory, destroy tables or realms, or
map a page without looking at the entry that it overwrites. -/
def Act.keepsNs : Act → Bool
  | .rttUnmapUnprotected .. | .rttDestroy .. | .realmDestroy .. => false
  | .dataCreate .. | .dataCreateUnknown .. => false
  | .rsi _ (.csmAttach _) => false
  | _ => true

/-- The effects of such calls. -/
def Effect.keepsNs : Effect → Bool
  | .edit _ _ _ _ .unmapNs | .edit _ _ _ _ (.mirror _) => false
  | .destroy .. | .fell .. => false
  | _ => true

/-- Only those edits work on an unprotected leaf that leave it as it is. -/
theorem Edit.apply_assignedNs {e : Edit} {desc : Word} (h : e.Allowed (.assignedNs desc))
    (hm : ∀ pa, e ≠ .mirror pa) (hu : e ≠ .unmapNs) :
    e.apply (.assignedNs desc) = .assignedNs desc := by
  cases e with
  | assign r pa => rcases h with ⟨r', hc⟩ | hc <;> cases hc
  | mirror pa => exact absurd rfl (hm pa)
  | remove => obtain ⟨r, pa, hc⟩ := h; cases hc
  | ripas r => rcases h with ⟨r', hc⟩ | ⟨r', pa, hc⟩ <;> cases hc
  | mapNs d => cases h
  | unmapNs => exact absurd rfl hu
  | keep => rfl

/-- A realm with its context in which an address has an unprotected mapping. -/
structure MapsNs (s : State) (F : Tables) (rd : Word) (ctx : S2ttContext) (a : ℕ)
    (pa attrs : Word) :
    Prop where
  isRd : (s.granule rd).state = .RD
  context : (s.rd rd).s2Ctx = ctx
  translates : Translates F ctx rd a (.assignedNs pa attrs)

theorem EditStep.mapsNs {s s' : State} {F F' : Tables} {t : Word} {n : Table} {i b : ℕ} {e : Edit}
    (h : Holds s F) (st : EditStep s F t n i b e s' F') (hm : ∀ pa, e ≠ .mirror pa)
    (hu : e ≠ .unmapNs) {rd : Word} {ctx : S2ttContext} {a : ℕ} {pa attrs : Word}
    (hmaps : MapsNs s F rd ctx a pa attrs) : MapsNs s' F' rd ctx a pa attrs := by
  refine ⟨by rw [(st.sameAll h).state, hmaps.isRd], by rw [st.rd, hmaps.context], ?_⟩
  rw [st.translates_iff h]
  by_cases hc : EditCovers n i rd a
  · left
    refine ⟨hc, ?_⟩
    obtain ⟨t', n', i', hl, hview⟩ := hmaps.translates
    obtain ⟨-, rfl, rfl⟩ := h.leaf_unique hl
      ⟨st.leaf.table, hc.1.symm, st.leaf.index, hc.2, st.leaf.leaf⟩
    obtain ⟨desc, hdesc, -⟩ := Entry.view_assignedNs_iff.mp hview
    have hallowed := st.allowed
    rw [hdesc] at hallowed hview ⊢
    rw [Edit.apply_assignedNs hallowed hm hu]
    exact hview
  · exact .inr ⟨hc, hmaps.translates⟩

theorem Micro.mapsNs {s s' : State} {F F' : Tables} {l : Effect} (h : Holds s F)
    (hm : Micro s F l s' F') (hl : l.keepsNs = true) {rd : Word} {ctx : S2ttContext} {a : ℕ}
    {pa attrs : Word} (hmaps : MapsNs s F rd ctx a pa attrs) : MapsNs s' F' rd ctx a pa attrs := by
  obtain ⟨hrd, hctx, ht⟩ := hmaps
  have owner : ∀ {n : Table}, rd = n.owner → ctx = (s.rd n.owner).s2Ctx := by
    rintro n rfl
    exact hctx.symm
  cases hm with
  | edit st source =>
    refine st.mapsNs h ?_ ?_ ⟨hrd, hctx, ht⟩
    · rintro pa rfl
      cases hl
    · rintro rfl
      cases hl
  | quiet q => exact ⟨(q.rd rd).mpr hrd, (q.ctx rd hrd).trans hctx, ht⟩
  | graft st =>
    exact ⟨(st.state_iff h rd (by decide) (by decide)).mpr hrd, by rw [st.same.rd rd hrd, hctx],
      (st.translates h rd a _ owner).mpr ht⟩
  | fold st splits purge pos =>
    exact ⟨(st.state_iff h rd (by decide) (by decide)).mpr hrd, by rw [st.same.rd rd hrd, hctx],
      (st.translates h splits rd a _ owner).mpr ht⟩
  | destroy st dead lower upper => cases hl
  | plant st =>
    obtain ⟨t, n, i, hleaf, hview⟩ := ht
    refine ⟨(st.isRd rd).mpr (.inl hrd), (st.ctx rd hrd).trans hctx, t, n, i, ?_, hview⟩
    exact ⟨(st.old t n hleaf.table).1, hleaf.owner, hleaf.index, hleaf.covers, hleaf.leaf⟩
  | fell st => cases hl

theorem StepEffect.keepsNs {plat : Platform} {s : State} {act : Act} {l : Effect}
    (h : StepEffect plat s act l) (hact : act.keepsNs = true)
    (hne : ∀ rd addr level desc, act ≠ .rttMapUnprotected rd addr level desc) :
    l.keepsNs = true := by
  have removed : ∀ {places : List (Word × Word)}, RemoveEffect places l →
      l.keepsNs = true := by
    rintro places (rfl | ⟨p, -, old, rfl⟩) <;> rfl
  cases act with
  | dataCreate | dataCreateUnknown | rttUnmapUnprotected | rttDestroy | realmDestroy => cases hact
  | realmCreate => rw [show l = _ from h]; rfl
  | aptDestroy => exact removed h.2.2.2
  | dataDestroy => obtain ⟨-, ⟨old, rfl⟩ | rfl | ⟨p, -, old, rfl⟩⟩ := h <;> rfl
  | rttCreate => obtain ⟨a, height, rfl⟩ := h; rfl
  | rttFold => obtain ⟨a, height, new, rfl⟩ := h; rfl
  | rttMapUnprotected => exact absurd rfl (hne _ _ _ _)
  | rttInitRipas => obtain ⟨height, a, rfl, -⟩ := h; rfl
  | rttSetRipas =>
    obtain rfl | ⟨-, -, -, -, height, a, old, e, rfl, -, -, -, rfl | ⟨rfl, -⟩⟩ := h <;> rfl
  | rsi recAddr call =>
    obtain rfl | ⟨-, h⟩ := h
    · rfl
    cases call with
    | csmAttach x1 => cases hact
    | csmDetachAndFree x1 => exact removed h
    | csmRevoke x1 => exact removed h
    | _ => exact h.elim
  | _ => rw [show l = _ from h]; rfl

/-- A call of this kind keeps the mapping. -/
theorem Next.mapsNs {plat : Platform} {s s' : State} {F : Tables} {act : Act} (h : Wf s F)
    (hn : Next plat s act s') (hact : act.keepsNs = true) {rd : Word} {ctx : S2ttContext} {a : ℕ}
    {pa attrs : Word} (hmaps : MapsNs s F rd ctx a pa attrs) :
    ∃ F', Wf s' F' ∧ MapsNs s' F' rd ctx a pa attrs := by
  by_cases hmap : ∃ rd addr level desc, act = .rttMapUnprotected rd addr level desc
  · -- a further mapping is made at an entry that was unassigned
    obtain ⟨rd', addr, ulevel, desc, rfl⟩ := hmap
    obtain ⟨reply, hstep⟩ := hn
    have hsat : Sat (smcRttMapUnprotected plat s rd' addr ulevel desc)
        (fun res => ∃ F', Wf res.1 F' ∧ MapsNs res.1 F' rd ctx a pa attrs) Benign := by
      unfold smcRttMapUnprotected
      refine Sat.ite (fun _ => Sat.ok ⟨F, h, hmaps⟩) fun hl => ?_
      rw [not_or, not_lt, not_lt] at hl
      refine (mapNs_walked h rd' addr hl desc).imp ?_
      rintro res (⟨heq, -⟩ | ⟨-, t, n, i, F', m⟩)
      · rw [heq]
        exact ⟨F, h, hmaps⟩
      · exact ⟨F', m.edit.wf h, m.edit.mapsNs h.holds (by rintro pa ⟨⟩)
          (by rintro ⟨⟩) hmaps⟩
    obtain ⟨_, _, hres⟩ := (smcReply_sat hsat).of_ok hstep
    exact hres
  · obtain ⟨-, F', hw, ls, hls, hC⟩ := hn.done h
    refine ⟨F', hw, Micros.invariant (fun s F => MapsNs s F rd ctx a pa attrs)
      (fun l => l.keepsNs = true) (fun hw hl hm hJ => hm.mapsNs hw.holds hl hJ) hls ?_ hmaps⟩
    intro l hl
    exact (hC l hl).keepsNs hact fun rd addr level desc he => hmap ⟨rd, addr, level, desc, he⟩

/-- After the call every address of the range has the mapping that the host asked for. -/
theorem NsMapped.mapsNs {plat : Platform} {s s' : State} {F F' : Tables} {rd mapAddr t : Word}
    {level : ℤ} {d : Word} {n : Table} {i : ℕ}
    (m : NsMapped plat s F rd mapAddr level d s' t n i F') (h : Wf s F) {a : ℕ}
    (hlo : mapAddr.toNat ≤ a) (hhi : a < mapAddr.toNat + s2tteMapSize level) :
    a < 2 ^ (s.rd rd).s2Ctx.ipaBits ∧ MapsNs s' F' rd (s.rd rd).s2Ctx a
      (Entry.nsPa (s.rd rd).s2Ctx level d + BitVec.ofNat 64 (a - mapAddr.toNat))
      (d &&& s2tteNsAttrMask) := by
  obtain ⟨-, hrd, hctx, hstart, -, -⟩ := h.holds.node m.edit.leaf.table
  have hargs := m.args
  rw [validateRttMapCmds] at hargs
  split at hargs
  · cases hargs
  rw [validateMapAddr, Bool.and_eq_true, addrLvlAligned_iff] at hargs
  obtain ⟨hin, hmod, -⟩ := hargs
  have hin : mapAddr.toNat < 2 ^ (s.rd rd).s2Ctx.ipaBits := of_decide_eq_true hin
  have hspan : rttShape.span n.height = s2tteMapSize level := by rw [rttShape_span, m.level]
  have hbase : mapAddr.toNat = n.slotBase rttShape i := by
    refine h.holds.eq_slotBase m.edit.leaf.table m.edit.leaf.covers ?_
    rw [hspan]
    exact Nat.dvd_of_mod_eq_zero hmod
  rw [m.owner] at hrd hctx hstart
  rw [m.level] at hstart
  refine ⟨?_, by rw [(m.edit.sameAll h.holds).state, hrd], by rw [m.edit.rd], ?_⟩
  · -- the block does not reach over the end of the address space
    have hdvd : s2tteMapSize level ∣ 2 ^ (s.rd rd).s2Ctx.ipaBits := by
      apply Nat.pow_dvd_pow
      have := hctx.half
      unfold levelLsb at this ⊢
      omega
    obtain ⟨x, hx⟩ := Nat.dvd_of_mod_eq_zero hmod
    obtain ⟨y, hy⟩ := hdvd
    rw [hx, hy] at hin
    have hxy : x + 1 ≤ y := Nat.lt_of_mul_lt_mul_left hin
    calc a < s2tteMapSize level * (x + 1) := by rw [Nat.mul_add_one, ← hx]; exact hhi
      _ ≤ s2tteMapSize level * y := Nat.mul_le_mul_left _ hxy
      _ = 2 ^ (s.rd rd).s2Ctx.ipaBits := hy.symm
  · rw [m.edit.translates_iff h.holds]
    left
    refine ⟨⟨m.owner.symm, ?_, ?_⟩, ?_⟩
    · rw [← hbase]
      exact hlo
    · rw [← hbase, hspan]
      exact hhi
    · rw [← hbase, m.level]
      rfl

theorem MapsNs.run {plat : Platform} {s s' : State} {F : Tables} {rd : Word} {ctx : S2ttContext}
    {a : ℕ} {pa attrs : Word} (hs : Reachable plat s) (h : Wf s F)
    (hmaps : MapsNs s F rd ctx a pa attrs)
    (hrun : Reach s (Next plat) (fun _ act => act.keepsNs = true) s') :
    Reachable plat s' ∧ ∃ F', Wf s' F' ∧ MapsNs s' F' rd ctx a pa attrs := by
  refine Reach.invariant (I := fun s' => Reachable plat s' ∧
    ∃ F', Wf s' F' ∧ MapsNs s' F' rd ctx a pa attrs) ⟨hs, F, h, hmaps⟩ ?_ hrun
  rintro s act s' - ⟨hs, F, h, hmaps⟩ hact hn
  exact ⟨.step hs trivial hn, hn.mapsNs h hact hmaps⟩

/-- Every realm has the build option of the machine in its context. -/
theorem Reachable.ctx_opencca {plat : Platform} {s : State} (hs : Reachable plat s) {rd : Word}
    (hrd : (s.granule rd).state = .RD) : (s.rd rd).s2Ctx.opencca = plat.opencca := by
  have hinv := hs.invariant (I := fun s => Reachable plat s ∧
    ∀ rd, (s.granule rd).state = .RD →
    (s.rd rd).s2Ctx.opencca = plat.opencca) ⟨.init, fun rd hrd => by cases hrd⟩ ?_
  · exact hinv.2 rd hrd
  rintro s act s' - ⟨hs, hI⟩ - hn
  refine ⟨.step hs trivial hn, fun rd hrd => ?_⟩
  obtain ⟨F, hw⟩ := hs.wf
  obtain hold | ⟨paramsAddr, p, -, hctx, -⟩ := hn.realm_new hw hrd
  · obtain ⟨reply, hstep⟩ := hn
    rw [(((step_sat hw act).of_ok hstep).onward hw rd hold hrd).2]
    exact hI rd hold
  · rw [hctx]
    rfl

/-- In every state that such calls reach from a mapping, `RTT_READ_ENTRY` at a page of the
mapping returns its entry. -/
theorem rttReadEntry_after_mapNs {plat : Platform} {s s1 s2 : State} (hs : Reachable plat s)
    {rd mapAddr ulevel d : Word} {res : SmcResult}
    (hmap : smcRttMapUnprotected plat s rd mapAddr ulevel d = .ok (s1, res))
    (hok : res.ret = rmiSuccess)
    (hrun : Reach s1 (Next plat) (fun _ act => act.keepsNs = true) s2) {ipa : Word}
    (hal : granuleAligned ipa = true) (hlo : mapAddr.toNat ≤ ipa.toNat)
    (hhi : ipa.toNat < mapAddr.toNat + s2tteMapSize ulevel.toInt) :
    ∃ e, smcRttReadEntry plat s2 rd ipa 3#64 = .ok (rmiSuccess, some e) ∧
      ReadsNs (s.rd rd).s2Ctx ipa (Entry.keptDesc plat.opencca d &&& s2tteNsAttrMask)
        ((s2tteToPa d ulevel.toInt (s.rd rd).s2Ctx.enableLpa2).toNat +
          (ipa.toNat - mapAddr.toNat)) e := by
  obtain ⟨F, hF⟩ := hs.wf
  have hnext : Next plat s (.rttMapUnprotected rd mapAddr ulevel d) s1 :=
    ⟨.smc res, by simp only [step, smcReply, hmap]; rfl⟩
  unfold smcRttMapUnprotected at hmap
  dsimp only at hmap
  split at hmap
  · cases hmap
    cases hok
  next hlevel =>
  rw [not_or, not_lt, not_lt] at hlevel
  rcases (mapNs_walked hF rd mapAddr hlevel d).of_ok hmap with ⟨-, hne⟩ |
    ⟨-, t, n, i, F1, m⟩
  · exact absurd hok hne
  obtain ⟨ha, h1⟩ := m.mapsNs hF hlo hhi
  -- every call of the run keeps the mapping of the page
  have hs1 : Reachable plat s1 := .step hs trivial hnext
  obtain ⟨hs2, F2, hF2, h2⟩ := h1.run hs1 (m.edit.wf hF) hrun
  have hlock : lockable plat s2 rd .RD = true := by
    have hgr := m.rdLock
    simp only [lockable, Bool.and_eq_true, beq_iff_eq] at hgr ⊢
    exact ⟨hgr.1, h2.isRd⟩
  have ha2 : ipa.toNat < 2 ^ (s2.rd rd).s2Ctx.ipaBits := by
    rw [h2.context]
    exact ha
  have htr := h2.translates
  rw [← h2.context] at htr
  have hread := smcRttReadEntry_assignedNs hF2.holds hs2.tablesBounded hlock hal ha2 htr
  rw [h2.context, nsPa_add_toNat _ _ hlevel.1 (by omega), Entry.nsPa_keptDesc,
    hs.ctx_opencca (lockable_state m.rdLock)] at hread
  exact hread

/-- Unprotected mappings read back as given, but for MemAttr in a build that sets all bits of
it: the descriptor from the entry made from it, which has no other kind, and after any calls
that neither unmap nor destroy, the attributes and the address of every page. -/
theorem unprotectedMapping_readBack (plat : Platform) :
    (∀ (ctx : S2ttContext) (level : ℤ) (d : Word), s2ttMinBlockLevel ≤ level →
      level ≤ s2ttPageLevel → hostNsS2tteIsValid ctx d level = true →
        hostNsS2tte ctx (s2tteCreateAssignedNs ctx d level) level =
          .ok (Entry.keptDesc ctx.opencca d) ∧
        s2tteIsAssignedNs (s2tteCreateAssignedNs ctx d level) level = true ∧
        s2tteKinds (s2tteCreateAssignedNs ctx d level) level =
          [false, false, false, false, false, false, false, true, false] ∧
        s2tteIsUnassigned (s2tteCreateAssignedNs ctx d level) = false) ∧
    (∀ (s s1 s2 : State) (rd mapAddr ulevel d : Word) (res : SmcResult), Reachable plat s →
      smcRttMapUnprotected plat s rd mapAddr ulevel d = .ok (s1, res) → res.ret = rmiSuccess →
      Reach s1 (Next plat) (fun _ act => act.keepsNs = true) s2 →
      ∀ ipa : Word, granuleAligned ipa = true → mapAddr.toNat ≤ ipa.toNat →
        ipa.toNat < mapAddr.toNat + s2tteMapSize ulevel.toInt →
        ∃ e, smcRttReadEntry plat s2 rd ipa 3#64 = .ok (rmiSuccess, some e) ∧
          ReadsNs (s.rd rd).s2Ctx ipa (Entry.keptDesc plat.opencca d &&& s2tteNsAttrMask)
            ((s2tteToPa d ulevel.toInt (s.rd rd).s2Ctx.enableLpa2).toNat +
              (ipa.toNat - mapAddr.toNat)) e) := by
  constructor
  · intro ctx level d hlo hhi hd
    exact hostNsS2tte_create hlo hhi hd
  · intro s s1 s2 rd mapAddr ulevel d res hs hmap hok hrun ipa hal hlo hhi
    exact rttReadEntry_after_mapNs hs hmap hok hrun hal hlo hhi

/-- The small machine in either build. -/
def buildPlat (opencca : Bool) : Platform := { demoPlat with opencca := opencca }

/-- The attributes that an entry made from `0xd8` has. -/
def builtAttrs (opencca : Bool) : Word := if opencca then 0xdc#64 else 0xd8#64

set_option maxRecDepth 100000 in
/-- A realm with an unprotected block of two megabytes, which a call then splits. -/
theorem unprotectedBlock_replay (opencca : Bool) : ∃ s s1 s2 res res',
    Reachable (buildPlat opencca) s ∧
    smcRttMapUnprotected (buildPlat opencca) s (gr 16) 0x80000000#64 2#64 0x800000d8#64 =
      .ok (s1, res) ∧
    res.ret = rmiSuccess ∧ (s.rd (gr 16)).s2Ctx.enableLpa2 = false ∧
    smcRttReadEntry (buildPlat opencca) s1 (gr 16) 0x80001000#64 3#64 =
      .ok (rmiSuccess, some ⟨2, .ASSIGNED, 0x80000000#64 ||| builtAttrs opencca, .EMPTY⟩) ∧
    smcRttCreate (buildPlat opencca) s1 (gr 16) (gr 128) 0x80000000#64 3#64 = .ok (s2, res') := by
  have hrun : replayEnds (demoKeys [16] [128] [0, 1]) (buildPlat opencca) (fun _ _ => true)
      (demoRealm 16 1 ++ [.granuleDelegate (gr 128) true]) (fun s =>
        match smcRttMapUnprotected (buildPlat opencca) s (gr 16) 0x80000000#64 2#64
            0x800000d8#64 with
        | .error _ => false
        | .ok (s1, res) => res.ret == rmiSuccess && !(s.rd (gr 16)).s2Ctx.enableLpa2 &&
          (match smcRttReadEntry (buildPlat opencca) s1 (gr 16) 0x80001000#64 3#64 with
          | .error _ => false
          | .ok out => out ==
            (rmiSuccess, some ⟨2, .ASSIGNED, 0x80000000#64 ||| builtAttrs opencca, .EMPTY⟩)) &&
          (match smcRttCreate (buildPlat opencca) s1 (gr 16) (gr 128) 0x80000000#64 3#64 with
          | .error _ => false
          | .ok _ => true)) = true := by
    cases opencca <;> decide +kernel
  obtain ⟨s, hs, ht⟩ := replayEnds_reachable hrun
  cases hm : smcRttMapUnprotected (buildPlat opencca) s (gr 16) 0x80000000#64 2#64
      0x800000d8#64 with
  | error f => simp [hm] at ht
  | ok out =>
    obtain ⟨s1, res⟩ := out
    simp only [hm, Bool.and_eq_true, beq_iff_eq, Bool.not_eq_true'] at ht
    obtain ⟨⟨⟨hok, hlpa⟩, hread⟩, hcreate⟩ := ht
    cases hr : smcRttReadEntry (buildPlat opencca) s1 (gr 16) 0x80001000#64 3#64 with
    | error f => simp [hr] at hread
    | ok out =>
      simp only [hr, beq_iff_eq] at hread
      cases hc : smcRttCreate (buildPlat opencca) s1 (gr 16) (gr 128) 0x80000000#64 3#64 with
      | error f => simp [hc] at hcreate
      | ok out' =>
        exact ⟨s, s1, out'.1, res, out'.2, hs, hm, hok, hlpa, hr.trans (by rw [hread]), hc⟩

/-- A page inside a block: after the block is split its own entry is returned, in one build
with the attributes of the host and in the other with those of a mapping whose memory type
comes from stage 1. -/
theorem unprotectedMapping_readBack_split :
    (∃ s s2 e, Reachable (buildPlat false) s ∧
      smcRttReadEntry (buildPlat false) s2 (gr 16) 0x80001000#64 3#64 = .ok (rmiSuccess, some e) ∧
      ReadsNs (s.rd (gr 16)).s2Ctx 0x80001000#64 0xd8#64 0x80001000 e) ∧
    ∃ s s2 e, Reachable (buildPlat true) s ∧
      smcRttReadEntry (buildPlat true) s2 (gr 16) 0x80001000#64 3#64 = .ok (rmiSuccess, some e) ∧
      ReadsNs (s.rd (gr 16)).s2Ctx 0x80001000#64 0xdc#64 0x80001000 e := by
  have hsplit : ∀ opencca : Bool, ∃ s s2 e, Reachable (buildPlat opencca) s ∧
      smcRttReadEntry (buildPlat opencca) s2 (gr 16) 0x80001000#64 3#64 =
        .ok (rmiSuccess, some e) ∧
      ReadsNs (s.rd (gr 16)).s2Ctx 0x80001000#64 (builtAttrs opencca) 0x80001000 e := by
    intro opencca
    obtain ⟨s, s1, s2, res, res', hs, hmap, hok, hlpa, -, hcreate⟩ :=
      unprotectedBlock_replay opencca
    have hnext : Next (buildPlat opencca) s1
        (.rttCreate (gr 16) (gr 128) 0x80000000#64 3#64) s2 :=
      ⟨.smc res', by simp only [step, smcReply, hcreate]; rfl⟩
    obtain ⟨e, hread, he⟩ := (unprotectedMapping_readBack (buildPlat opencca)).2 s s1
      s2 _ _ _ _ res
      hs hmap hok (.step .init rfl hnext) 0x80001000#64 (by decide) (by decide) (by decide)
    have hattrs : Entry.keptDesc (buildPlat opencca).opencca 0x800000d8#64 &&& s2tteNsAttrMask =
        builtAttrs opencca := by
      cases opencca <;> decide
    rw [hlpa, hattrs] at he
    exact ⟨s, s2, e, hs, hread, he⟩
  exact ⟨hsplit false, hsplit true⟩

/-- While a block is whole, the entry that a page of it is read from holds the address of the
block; and in a build without FWB a descriptor does not come back from the entry made of it. -/
theorem unprotectedMapping_not_as_given :
    (∃ s s1 res e, Reachable (buildPlat false) s ∧
      smcRttMapUnprotected (buildPlat false) s (gr 16) 0x80000000#64 2#64 0x800000d8#64 =
        .ok (s1, res) ∧
      res.ret = rmiSuccess ∧
      smcRttReadEntry (buildPlat false) s1 (gr 16) 0x80001000#64 3#64 = .ok (rmiSuccess, some e) ∧
      s2tteToPa e.desc e.level (s.rd (gr 16)).s2Ctx.enableLpa2 ≠
        s2tteToPa 0x800000d8#64 2 (s.rd (gr 16)).s2Ctx.enableLpa2 + 0x1000#64) ∧
    (∃ ctx : S2ttContext, ctx.opencca = true ∧ hostNsS2tteIsValid ctx 0x800000d8#64 3 = true ∧
      hostNsS2tte ctx (s2tteCreateAssignedNs ctx 0x800000d8#64 3) 3 = .ok 0x800000dc#64) ∧
    ∃ s s1 res e, Reachable (buildPlat true) s ∧
      smcRttMapUnprotected (buildPlat true) s (gr 16) 0x80000000#64 2#64 0x800000d8#64 =
        .ok (s1, res) ∧
      res.ret = rmiSuccess ∧
      smcRttReadEntry (buildPlat true) s1 (gr 16) 0x80001000#64 3#64 = .ok (rmiSuccess, some e) ∧
      e.desc &&& s2tteNsAttrMask ≠ 0x800000d8#64 &&& s2tteNsAttrMask := by
  refine ⟨?_, ⟨{ (default : S2ttContext) with opencca := true },
    rfl, by decide, by decide⟩, ?_⟩
  · obtain ⟨s, s1, s2, res, res', hs, hmap, hok, hlpa, hread, -⟩ :=
      unprotectedBlock_replay false
    refine ⟨s, s1, res, _, hs, hmap, hok, hread, ?_⟩
    rw [hlpa]
    decide
  · obtain ⟨s, s1, s2, res, res', hs, hmap, hok, -, hread, -⟩ := unprotectedBlock_replay true
    exact ⟨s, s1, res, _, hs, hmap, hok, hread, by decide⟩

end RmmCaec
