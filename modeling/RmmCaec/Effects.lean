import RmmCaec.Edits

/-!
# What a step can do to the tables

A step of the system acts on the tables by a sequence of effects: leaf edits,
growing a table under a leaf, cutting off a table, adding and removing the root
tables of a realm, and changes that leave all tables alone. Every property of
the tables over runs is proved effect by effect.
-/
namespace RmmCaec

open RadixForest

/-- No table, no realm context and no cached leaf changes, and the DATA granules
stay the same, except perhaps one that is freed and one that is claimed. -/
structure Quiet (s s' : State) (freed claimed : Option Word) : Prop where
  rtt : ∀ g, (s'.granule g).state = .RTT ↔ (s.granule g).state = .RTT
  rd : ∀ g, (s'.granule g).state = .RD ↔ (s.granule g).state = .RD
  ctx : ∀ g, (s.granule g).state = .RD → (s'.rd g).s2Ctx = (s.rd g).s2Ctx
  word : ∀ g, (s.granule g).state = .RTT → s'.rtt g = s.rtt g
  count : ∀ g, (s.granule g).state = .RTT → (s'.granule g).refcount = (s.granule g).refcount
  data : ∀ g, (s.granule g).state = .DATA → freed ≠ some g → (s'.granule g).state = .DATA
  newData : ∀ g, (s'.granule g).state = .DATA → (s.granule g).state = .DATA ∨ claimed = some g
  tlb : s'.tlb = s.tlb
  vmids : s'.vmids = s.vmids

theorem Quiet.refl (s : State) : Quiet s s none none :=
  ⟨fun _ => Iff.rfl, fun _ => Iff.rfl, fun _ _ => rfl, fun _ _ => rfl, fun _ _ => rfl,
    fun _ h _ => h, fun _ h => .inl h, rfl, rfl⟩

theorem Quiet.holds {s s' : State} {F : Tables} {freed claimed : Option Word} (h : Holds s F)
    (q : Quiet s s' freed claimed) : Holds s' F :=
  h.frame q.rtt q.rd q.ctx fun g hg i _ => by rw [q.word g hg]

theorem Quiet.wf {s s' : State} {F : Tables} {freed claimed : Option Word} (h : Wf s F)
    (q : Quiet s s' freed claimed) (hm : SameMeta s s') : Wf s' F := by
  refine h.of_sameMeta hm (q.holds h.holds) ?_
  intro t n ht
  rw [q.count t (h.holds.node ht).1]
  exact h.counts t n ht

/-- A leaf at the level above means the same as 512 entries: it can be replaced by
them, and they can be folded into it. -/
def Splits (ctx : S2ttContext) (level : ℤ) (e : Entry) (slot : ℕ → Entry) : Prop :=
  match e with
  | .unassigned r => ∀ j < 512, slot j = .unassigned r
  | .unassignedNs => ∀ j < 512, slot j = .unassignedNs
  | .assigned r pa => ∀ j < 512, slot j = .assigned r (blockPa pa level j)
  | .assignedNs desc => ∀ j < 512, ∃ d, slot j = .assignedNs d ∧
      Entry.nsPa ctx level d = blockPa (Entry.nsPa ctx (level - 1) desc) level j ∧
      d &&& s2tteNsAttrMask = desc &&& s2tteNsAttrMask
  | .table _ => False

theorem Splits.refs {ctx : S2ttContext} {level : ℤ} {e : Entry} {slot : ℕ → Entry}
    (h : Splits ctx level e slot) {j : ℕ} (hj : j < 512) : (slot j).refs = e.refs := by
  cases e with
  | unassigned r => rw [h j hj]
  | unassignedNs => rw [h j hj]
  | assigned r pa => simp only [h j hj, Entry.refs]
  | assignedNs desc =>
    obtain ⟨d, hd, _⟩ := h j hj
    simp only [hd, Entry.refs]
  | table pa => exact h.elim

theorem Splits.link {ctx : S2ttContext} {level : ℤ} {e : Entry} {slot : ℕ → Entry}
    (h : Splits ctx level e slot) {j : ℕ} (hj : j < 512) :
    (slot j).link = none ∧ e.link = none := by
  cases e with
  | unassigned r => simp only [h j hj, Entry.link, and_self]
  | unassignedNs => simp only [h j hj, Entry.link, and_self]
  | assigned r pa => simp only [h j hj, Entry.link, and_self]
  | assignedNs desc =>
    obtain ⟨d, hd, _⟩ := h j hj
    simp only [hd, Entry.link, and_self]
  | table pa => exact h.elim

/-- Everything outside granule states, tables and the TLB is the same. -/
structure SameRecords (s s' : State) : Prop where
  words : ∀ g, (s.granule g).state ≠ .RTT → (s.granule g).state ≠ .DELEGATED →
    s'.rtt g = s.rtt g
  rd : ∀ g, (s.granule g).state = .RD → s'.rd g = s.rd g
  recs : ∀ g, (s.granule g).state = .REC → s'.recs g = s.recs g
  apt : ∀ g, (s.granule g).state = .APT → s'.apt g = s.apt g
  tags : s'.tags = s.tags
  csmIds : s'.csmIds = s.csmIds
  vmids : s'.vmids = s.vmids

/-- A table of leaves is put under the leaf at slot `i` of table `t`. -/
structure GraftStep (s : State) (F : Tables) (t : Word) (n : Table) (i : ℕ) (k : Word) (m : Table)
    (s' : State) (F' : Tables) : Prop where
  leaf : IsLeaf F n.owner (n.slotBase rttShape i) t n i
  inside : n.slotBase rttShape i < 2 ^ (s.rd n.owner).s2Ctx.ipaBits
  fresh : (s.granule k).state = .DELEGATED
  owner : m.owner = n.owner
  height : m.height + 1 = n.height
  base : m.base = n.slotBase rttShape i
  splits : Splits (s.rd n.owner).s2Ctx (levelOf m.height) (n.slot i) m.slot
  forest : F' = Function.update (F.setSlot t i (.table k)) k (some m)
  tableState : (s'.granule t).state = .RTT
  newState : (s'.granule k).state = .RTT
  tableCount : (s'.granule t).refcount + (n.slot i).refs = (s.granule t).refcount + 1
  newCount : (s'.granule k).refcount = 512 * (n.slot i).refs
  granule : ∀ g, g ≠ t → g ≠ k → s'.granule g = s.granule g
  same : SameRecords s s'
  tlb : ∀ leaf, s'.tlb leaf = true →
    (s.tlb leaf = true ∧ ((n.slot i).output (s.rd n.owner).s2Ctx (levelOf n.height) ≠ none →
      tlbiHits (s.rd n.owner).s2Ctx (n.slotBase rttShape i) leaf = false)) ∨
    ∃ t' n' i', CurrentLeaf s' F' leaf t' n' i'

/-- A table of leaves is cut off and its slot gets a new leaf, with the given
number of pages invalidated from the start of the slot. -/
structure PruneStep (s : State) (F : Tables) (t : Word) (n : Table) (i : ℕ) (k : Word) (m : Table)
    (new : Entry) (pages : ℕ) (s' : State) (F' : Tables) : Prop where
  table : F t = some n
  index : i < 512
  link : n.slot i = .table k
  child : F k = some m
  leaves : ∀ j < 512, (m.slot j).link = none
  newLeaf : new.link = none
  inside : n.slotBase rttShape i < 2 ^ (s.rd n.owner).s2Ctx.ipaBits
  forest : F' = Function.update (F.setSlot t i new) k none
  tableState : (s'.granule t).state = .RTT
  freed : s'.granule k = ⟨.DELEGATED, 0⟩
  tableCount : (s'.granule t).refcount + 1 = (s.granule t).refcount + new.refs
  granule : ∀ g, g ≠ t → g ≠ k → s'.granule g = s.granule g
  same : SameRecords s s'
  tlb : ∀ leaf, s'.tlb leaf = true →
    (s.tlb leaf = true ∧ ∀ p < pages,
      tlbiHits (s.rd n.owner).s2Ctx (n.slotBase rttShape i + p * 4096) leaf = false) ∨
    ∃ t' n' i', CurrentLeaf s' F' leaf t' n' i'

/-- The entry with which `init_s2_starting_level` fills a slot. -/
def rootEntry (ctx : S2ttContext) (m : Table) (i : ℕ) : Entry :=
  if m.slotBase rttShape i < 2 ^ ctx.ipaBits ∧ ¬ m.slotBase rttShape i < 2 ^ ctx.ipaBits / 2 then
    .unassignedNs
  else .unassigned .EMPTY

/-- A realm gets its root tables. -/
structure PlantStep (s : State) (F : Tables) (rd : Word) (s' : State) (F' : Tables) : Prop where
  fresh : (s.granule rd).state = .DELEGATED
  isRd : ∀ g, (s'.granule g).state = .RD ↔ (s.granule g).state = .RD ∨ g = rd
  ctx : ∀ g, (s.granule g).state = .RD → (s'.rd g).s2Ctx = (s.rd g).s2Ctx
  nodes : ∀ t m, F' t = some m → F t = some m ∨
    (m.owner = rd ∧ (s'.granule t).refcount = 0 ∧
      ∀ i < 512, m.slot i = rootEntry (s'.rd rd).s2Ctx m i)
  old : ∀ t m, F t = some m → F' t = some m ∧ s'.granule t = s.granule t
  data : ∀ g, (s'.granule g).state = .DATA ↔ (s.granule g).state = .DATA
  tlb : s'.tlb = s.tlb
  vmidFree : s.vmids (s'.rd rd).s2Ctx.vmid = false
  vmids : ∀ v, s.vmids v = true → s'.vmids v = true

/-- The root tables of a realm, which hold no live protected entry, are freed. -/
structure FellStep (s : State) (F : Tables) (rd : Word) (s' : State) (F' : Tables) : Prop where
  wasRd : (s.granule rd).state = .RD
  isRd : ∀ g, (s'.granule g).state = .RD ↔ (s.granule g).state = .RD ∧ g ≠ rd
  ctx : ∀ g, (s.granule g).state = .RD → g ≠ rd → (s'.rd g).s2Ctx = (s.rd g).s2Ctx
  nodes : ∀ t m, F' t = some m ↔ F t = some m ∧ m.owner ≠ rd
  dead : ∀ t m, F t = some m → m.owner = rd → ∀ i < 512, (m.slot i).refs = 0
  count : ∀ t m, F' t = some m → s'.granule t = s.granule t
  data : ∀ g, (s'.granule g).state = .DATA ↔ (s.granule g).state = .DATA
  tlb : s'.tlb = s.tlb
  vmids : s'.vmids = Function.update s.vmids (s.rd rd).s2Ctx.vmid false

/-- The name of an effect, with the data that properties of runs refer to. -/
inductive Effect
  | edit (rd : Word) (a height : ℕ) (old : Entry) (e : Edit)
  | quiet (freed claimed : Option Word)
  | graft (rd : Word) (a height : ℕ)
  | fold (rd : Word) (a height : ℕ) (new : Entry)
  | destroy (rd : Word) (a height : ℕ)
  | plant (rd : Word)
  | fell (rd : Word)

/-- The pages that the monitor takes for an edit: they are DATA now or mapped. -/
def Edit.page : Edit → Option Word
  | .assign _ pa => some pa
  | .mirror pa => some pa
  | _ => none

/-- The leaf names the granule: it lies in the page or block that is mapped. -/
def Entry.Names (height : ℕ) (e : Entry) (g : Word) : Prop :=
  ∃ r pa, e = .assigned r pa ∧ pa.toNat ≤ g.toNat ∧
    g.toNat < pa.toNat + rttShape.span height

inductive Micro (s : State) (F : Tables) : Effect → State → Tables → Prop
  | edit {t n i a e s' F'} (st : EditStep s F t n i a e s' F')
      (source : ∀ pa, e.page = some pa → (s.granule pa).state = .DATA ∨
        ∃ t' m j, F t' = some m ∧ j < 512 ∧ (m.slot j).Names m.height pa) :
      Micro s F (.edit n.owner a n.height (n.slot i) e) s' F'
  | quiet {s' freed claimed} (q : Quiet s s' freed claimed) :
      Micro s F (.quiet freed claimed) s' F
  | graft {t n i k m s' F'} (st : GraftStep s F t n i k m s' F') :
      Micro s F (.graft n.owner (n.slotBase rttShape i) n.height) s' F'
  | fold {t n i k m new pages s' F'} (st : PruneStep s F t n i k m new pages s' F')
      (splits : Splits (s.rd n.owner).s2Ctx (levelOf m.height) new m.slot)
      (purge : new.output (s.rd n.owner).s2Ctx (levelOf n.height) ≠ none → pages = 512)
      (pos : 0 < pages) :
      Micro s F (.fold n.owner (n.slotBase rttShape i) n.height new) s' F'
  | destroy {t n i k m new pages s' F'} (st : PruneStep s F t n i k m new pages s' F')
      (dead : ∀ j < 512, (m.slot j).refs = 0)
      (lower : n.slotBase rttShape i < 2 ^ (s.rd n.owner).s2Ctx.ipaBits / 2 →
        new = .unassigned .DESTROYED ∧ pages = 1)
      (upper : ¬ n.slotBase rttShape i < 2 ^ (s.rd n.owner).s2Ctx.ipaBits / 2 →
        new = .unassignedNs ∧ pages = 512) :
      Micro s F (.destroy n.owner (n.slotBase rttShape i) n.height) s' F'
  | plant {rd s' F'} (st : PlantStep s F rd s' F') : Micro s F (.plant rd) s' F'
  | fell {rd s' F'} (st : FellStep s F rd s' F') : Micro s F (.fell rd) s' F'

/-- A sequence of effects through well-formed states. -/
inductive Micros : State → Tables → List Effect → State → Tables → Prop
  | nil {s F} : Micros s F [] s F
  | cons {s F l s1 F1 ls s' F'} (wf : Wf s F) (first : Micro s F l s1 F1)
      (rest : Micros s1 F1 ls s' F') : Micros s F (l :: ls) s' F'

theorem Micros.append {s s1 s' : State} {F F1 F' : Tables} {ls ls' : List Effect}
    (h : Micros s F ls s1 F1) (h' : Micros s1 F1 ls' s' F') : Micros s F (ls ++ ls') s' F' := by
  induction h with
  | nil => exact h'
  | cons wf first rest ih => exact .cons wf first (ih h')

theorem Micros.single {s s' : State} {F F' : Tables} {l : Effect} (wf : Wf s F)
    (h : Micro s F l s' F') : Micros s F [l] s' F' := .cons wf h .nil

/-- A property that every effect of a sequence preserves holds at its end. -/
theorem Micros.invariant {s s' : State} {F F' : Tables} {ls : List Effect}
    (J : State → Tables → Prop) (C : Effect → Prop)
    (hstep : ∀ {s F l s' F'}, Wf s F → C l → Micro s F l s' F' → J s F → J s' F')
    (h : Micros s F ls s' F') (hC : ∀ l ∈ ls, C l) (hJ : J s F) : J s' F' := by
  induction h with
  | nil => exact hJ
  | cons wf first rest ih =>
    exact ih (fun l hl => hC l (List.mem_cons_of_mem _ hl)) (hstep wf (hC _ (by simp)) first hJ)

end RmmCaec
