import Mathlib.Tactic

/-!
# Radix forests

Trees of fixed fan-out that cover the address spaces of several owners. A node
sits at a height above the smallest leaves, starts at a base address and has
one entry for each slot; an entry either links to a node one height below or is
a leaf. `Ok` states locally that links and positions agree. From it follow that
nodes are determined by what they cover, that each address has at most one
leaf, and that the four ways of changing a forest keep it well formed.
-/
namespace RadixForest

/-- The fan-out of a node and the size of a leaf at height zero. -/
structure Shape where
  fan : ℕ
  unit : ℕ
  fan_pos : 0 < fan
  unit_pos : 0 < unit

/-- The size of what one slot at height `h` covers. -/
def Shape.span (σ : Shape) (h : ℕ) : ℕ := σ.unit * σ.fan ^ h

structure Node (O E : Type*) where
  owner : O
  height : ℕ
  base : ℕ
  slot : ℕ → E

abbrev Forest (K O E : Type*) := K → Option (Node O E)

/-- The address space of one owner and its root nodes. -/
structure Plot (K : Type*) where
  top : ℕ
  size : ℕ
  root : ℕ → K

variable {K O E : Type*} (σ : Shape)

theorem Shape.span_pos (h : ℕ) : 0 < σ.span h :=
  Nat.mul_pos σ.unit_pos (Nat.pow_pos σ.fan_pos)

theorem Shape.span_succ (h : ℕ) : σ.span (h + 1) = σ.fan * σ.span h := by
  unfold Shape.span
  ring

theorem Shape.span_dvd {h h' : ℕ} (hh : h ≤ h') : σ.span h ∣ σ.span h' :=
  Nat.mul_dvd_mul_left _ (Nat.pow_dvd_pow _ hh)

namespace Node

/-- The addresses below a node. -/
def Covers (n : Node O E) (a : ℕ) : Prop := n.base ≤ a ∧ a < n.base + σ.span (n.height + 1)

/-- The first address of a slot. -/
def slotBase (n : Node O E) (i : ℕ) : ℕ := n.base + i * σ.span n.height

/-- The addresses of one slot. -/
def SlotCovers (n : Node O E) (i a : ℕ) : Prop :=
  n.slotBase σ i ≤ a ∧ a < n.slotBase σ i + σ.span n.height

/-- The slot of an address. -/
def slotOf (n : Node O E) (a : ℕ) : ℕ := (a - n.base) / σ.span n.height

variable {σ}

theorem SlotCovers.covers {n : Node O E} {i a : ℕ} (hi : i < σ.fan) (h : n.SlotCovers σ i a) :
    n.Covers σ a := by
  have hs := σ.span_succ n.height
  have hle : (i + 1) * σ.span n.height ≤ σ.fan * σ.span n.height := Nat.mul_le_mul_right _ hi
  obtain ⟨h1, h2⟩ := h
  unfold slotBase at h1 h2
  constructor
  · have := Nat.zero_le (i * σ.span n.height)
    omega
  · rw [Nat.add_mul, Nat.one_mul] at hle
    omega

theorem SlotCovers.eq_slotOf {n : Node O E} {i a : ℕ} (h : n.SlotCovers σ i a) :
    i = n.slotOf σ a := by
  obtain ⟨h1, h2⟩ := h
  unfold slotBase at h1 h2
  symm
  apply Nat.div_eq_of_lt_le
  · omega
  · rw [Nat.add_mul, Nat.one_mul]
    omega

theorem Covers.slotOf_lt {n : Node O E} {a : ℕ} (h : n.Covers σ a) : n.slotOf σ a < σ.fan := by
  obtain ⟨h1, h2⟩ := h
  rw [σ.span_succ] at h2
  apply Nat.div_lt_of_lt_mul
  rw [Nat.mul_comm]
  omega

theorem Covers.slotCovers {n : Node O E} {a : ℕ} (h : n.Covers σ a) :
    n.SlotCovers σ (n.slotOf σ a) a := by
  have hd := Nat.div_add_mod (a - n.base) (σ.span n.height)
  have hm := Nat.mod_lt (a - n.base) (σ.span_pos n.height)
  have h1 := h.1
  unfold SlotCovers slotBase slotOf
  rw [Nat.mul_comm] at hd
  constructor <;> omega

/-- Aligned nodes of one height that cover a common address start together. -/
theorem base_eq {n n' : Node O E} {a : ℕ} (hh : n.height = n'.height)
    (hd : σ.span (n.height + 1) ∣ n.base) (hd' : σ.span (n'.height + 1) ∣ n'.base)
    (hc : n.Covers σ a) (hc' : n'.Covers σ a) : n.base = n'.base := by
  obtain ⟨q, hq⟩ := hd
  obtain ⟨q', hq'⟩ := hd'
  obtain ⟨h1, h2⟩ := hc
  obtain ⟨h1', h2'⟩ := hc'
  rw [hh] at hq h2
  have hqa : a / σ.span (n'.height + 1) = q := by
    apply Nat.div_eq_of_lt_le
    · rw [Nat.mul_comm]; omega
    · rw [Nat.add_mul, Nat.one_mul, Nat.mul_comm q]; omega
  have hqa' : a / σ.span (n'.height + 1) = q' := by
    apply Nat.div_eq_of_lt_le
    · rw [Nat.mul_comm]; omega
    · rw [Nat.add_mul, Nat.one_mul, Nat.mul_comm q']; omega
  rw [hq, hq', ← hqa, ← hqa']

end Node

variable (link : E → Option K)

/-- Positions and links of a forest agree. -/
structure Ok (F : Forest K O E) (plot : O → Option (Plot K)) : Prop where
  node : ∀ {k n}, F k = some n → ∃ p, plot n.owner = some p ∧ n.height ≤ p.top ∧
    σ.span (n.height + 1) ∣ n.base ∧ n.base < p.size
  root : ∀ {o p j}, plot o = some p → j * σ.span (p.top + 1) < p.size →
    ∃ n, F (p.root j) = some n ∧ n.owner = o ∧ n.height = p.top ∧
      n.base = j * σ.span (p.top + 1)
  top : ∀ {k n p}, F k = some n → plot n.owner = some p → n.height = p.top →
    k = p.root (n.base / σ.span (p.top + 1))
  child : ∀ {t n i k}, F t = some n → i < σ.fan → link (n.slot i) = some k →
    ∃ m, F k = some m ∧ m.owner = n.owner ∧ m.height + 1 = n.height ∧
      m.base = n.slotBase σ i
  parent : ∀ {k m p}, F k = some m → plot m.owner = some p → m.height < p.top →
    ∃ t n i, F t = some n ∧ i < σ.fan ∧ link (n.slot i) = some k

namespace Ok

variable {σ link} {F : Forest K O E} {plot : O → Option (Plot K)}

/-- A child lies inside the slot that links to it. -/
theorem child_covers (h : Ok σ link F plot) {t k : K} {n m : Node O E} {i a : ℕ}
    (ht : F t = some n) (hi : i < σ.fan) (hl : link (n.slot i) = some k) (hk : F k = some m)
    (ha : m.Covers σ a) : n.SlotCovers σ i a ∧ m.owner = n.owner ∧
      m.height + 1 = n.height := by
  obtain ⟨m', hm', ho, hh, hb⟩ := h.child ht hi hl
  rw [hk] at hm'
  cases hm'
  obtain ⟨h1, h2⟩ := ha
  rw [hh] at h2
  refine ⟨⟨?_, ?_⟩, ho, hh⟩ <;> omega

/-- The owner, the height and one covered address determine a node. -/
theorem eq_of_covers (h : Ok σ link F plot) {t t' : K} {n n' : Node O E} {a : ℕ}
    (ht : F t = some n) (ht' : F t' = some n') (ho : n.owner = n'.owner)
    (hh : n.height = n'.height) (hc : n.Covers σ a) (hc' : n'.Covers σ a) : t = t' := by
  obtain ⟨p, hp, hle, hd, _⟩ := h.node ht
  -- the induction climbs from the node towards the root
  induction hm : p.top - n.height generalizing t t' n n' with
  | zero =>
    obtain ⟨_, _, _, hd', _⟩ := h.node ht'
    have hb := Node.base_eq hh hd hd' hc hc'
    rw [h.top ht hp (by omega), h.top ht' (ho ▸ hp) (by omega), hb]
  | succ d ih =>
    obtain ⟨q, m, i, hq, hi, hl⟩ := h.parent ht hp (by omega)
    obtain ⟨q', m', i', hq', hi', hl'⟩ := h.parent ht' (ho ▸ hp) (by omega)
    obtain ⟨hs, ho1, hh1⟩ := h.child_covers hq hi hl ht hc
    obtain ⟨hs', ho2, hh2⟩ := h.child_covers hq' hi' hl' ht' hc'
    obtain ⟨_, hp2, hle2, hd2, hsz2⟩ := h.node hq
    rw [← ho1, hp] at hp2
    cases hp2
    have hqq : q = q' := ih hq hq' (by rw [← ho1, ho, ho2]) (by omega) (hs.covers hi)
      (hs'.covers hi') (ho1 ▸ hp) hle2 hd2 hsz2 (by omega)
    subst hqq
    rw [hq] at hq'
    cases hq'
    rw [hs.eq_slotOf] at hl
    rw [hs'.eq_slotOf, hl] at hl'
    exact Option.some.inj hl'

/-- Above a node, at every height up to the root, stands a node whose slot for
the address is a link. -/
theorem ancestor (h : Ok σ link F plot) {t : K} {n : Node O E} {p : Plot K} {a H : ℕ}
    (ht : F t = some n) (hp : plot n.owner = some p) (hc : n.Covers σ a) (hlt : n.height < H)
    (hH : H ≤ p.top) :
    ∃ t' n', F t' = some n' ∧ n'.owner = n.owner ∧ n'.height = H ∧ n'.Covers σ a ∧
      ∃ k, link (n'.slot (n'.slotOf σ a)) = some k := by
  induction hm : H - n.height generalizing t n with
  | zero => omega
  | succ d ih =>
    obtain ⟨q, m, i, hq, hi, hl⟩ := h.parent ht hp (by omega)
    obtain ⟨hs, ho, hh⟩ := h.child_covers hq hi hl ht hc
    by_cases hd : m.height = H
    · exact ⟨q, m, hq, ho.symm, hd, hs.covers hi, t, by rw [← hs.eq_slotOf]; exact hl⟩
    · obtain ⟨t', n', ht', ho', hh', hc', hl'⟩ :=
        ih hq (ho ▸ hp) (hs.covers hi) (by omega) (by omega)
      exact ⟨t', n', ht', ho'.trans ho.symm, hh', hc', hl'⟩

/-- Two leaves of one owner that cover a common address are one leaf. -/
theorem leaf_unique (h : Ok σ link F plot) {t t' : K} {n n' : Node O E} {i i' a : ℕ}
    (ht : F t = some n) (ht' : F t' = some n') (ho : n.owner = n'.owner) (hi : i < σ.fan)
    (hi' : i' < σ.fan) (hc : n.SlotCovers σ i a) (hc' : n'.SlotCovers σ i' a)
    (hl : link (n.slot i) = none) (hl' : link (n'.slot i') = none) : t = t' ∧ i = i' := by
  -- a leaf below another leaf would have an ancestor with a link in its place
  have below : ∀ {t t' : K} {n n' : Node O E} {i i' : ℕ}, F t = some n → F t' = some n' →
      n.owner = n'.owner → i < σ.fan → i' < σ.fan → n.SlotCovers σ i a →
        n'.SlotCovers σ i' a →
      link (n'.slot i') = none → ¬ n.height < n'.height := by
    intro t t' n n' i i' ht ht' ho hi hi' hc hc' hl' hlt
    obtain ⟨p, hp, hle, _, _⟩ := h.node ht'
    obtain ⟨q, m, hq, ho2, hh, hcm, k, hk⟩ :=
      h.ancestor ht (ho ▸ hp) (hc.covers hi) hlt hle
    have hqt := h.eq_of_covers hq ht' (ho2.trans ho) hh hcm (hc'.covers hi')
    subst hqt
    rw [hq] at ht'
    cases ht'
    rw [← hc'.eq_slotOf, hl'] at hk
    cases hk
  have h1 := below ht ht' ho hi hi' hc hc' hl'
  have h2 := below ht' ht ho.symm hi' hi hc' hc hl
  have heq := h.eq_of_covers ht ht' ho (by omega) (hc.covers hi) (hc'.covers hi')
  subst heq
  rw [ht] at ht'
  cases ht'
  exact ⟨rfl, by rw [hc.eq_slotOf, ← hc'.eq_slotOf]⟩

theorem self_covers (n : Node O E) : n.Covers σ n.base :=
  ⟨le_rfl, Nat.lt_add_of_pos_right (σ.span_pos _)⟩

/-- A node is linked from one slot only. -/
theorem parent_unique (h : Ok σ link F plot) {t t' k : K} {n n' : Node O E} {i i' : ℕ}
    (ht : F t = some n) (ht' : F t' = some n') (hi : i < σ.fan) (hi' : i' < σ.fan)
    (hl : link (n.slot i) = some k) (hl' : link (n'.slot i') = some k) : t = t' ∧ i = i' := by
  obtain ⟨m, hm, _⟩ := h.child ht hi hl
  obtain ⟨hs, ho, hh⟩ := h.child_covers ht hi hl hm (self_covers m)
  obtain ⟨hs', ho', hh'⟩ := h.child_covers ht' hi' hl' hm (self_covers m)
  have heq := h.eq_of_covers ht ht' (ho.symm.trans ho') (by omega) (hs.covers hi) (hs'.covers hi')
  subst heq
  rw [ht] at ht'
  cases ht'
  exact ⟨rfl, by rw [hs.eq_slotOf, ← hs'.eq_slotOf]⟩

end Ok

section Entries

variable [DecidableEq K]

/-- Replace one entry of a node. -/
def Forest.setSlot (F : Forest K O E) (t : K) (i : ℕ) (e : E) : Forest K O E :=
  fun k => if k = t then (F k).map fun n => { n with slot := Function.update n.slot i e } else F k

namespace Forest

variable {F : Forest K O E} {t k : K} {i : ℕ} {e : E} {n : Node O E}

theorem setSlot_same (ht : F t = some n) :
    F.setSlot t i e t = some { n with slot := Function.update n.slot i e } := by
  simp [setSlot, ht]

theorem setSlot_of_ne (h : k ≠ t) : F.setSlot t i e k = F k := by simp [setSlot, h]

/-- A node after the replacement stands where a node stood before. -/
theorem setSlot_inv (h : F.setSlot t i e k = some n) :
    ∃ m, F k = some m ∧ n.owner = m.owner ∧ n.height = m.height ∧ n.base = m.base ∧
      ∀ j, n.slot j = if k = t ∧ j = i then e else m.slot j := by
  by_cases hk : k = t
  · subst hk
    cases hF : F k with
    | none => simp [setSlot, hF] at h
    | some m =>
      rw [setSlot_same hF] at h
      cases h
      refine ⟨m, rfl, rfl, rfl, rfl, fun j => ?_⟩
      by_cases hj : j = i <;> simp [Function.update, hj]
  · rw [setSlot_of_ne hk] at h
    exact ⟨n, h, rfl, rfl, rfl, fun j => by simp [hk]⟩

/-- A node before the replacement still stands there. -/
theorem setSlot_some (t : K) (i : ℕ) (e : E) (h : F k = some n) :
    ∃ m, F.setSlot t i e k = some m ∧ m.owner = n.owner ∧ m.height = n.height ∧
      m.base = n.base ∧
      ∀ j, m.slot j = if k = t ∧ j = i then e else n.slot j := by
  by_cases hk : k = t
  · subst hk
    refine ⟨_, setSlot_same h, rfl, rfl, rfl, fun j => ?_⟩
    by_cases hj : j = i <;> simp [Function.update, hj]
  · exact ⟨n, by rw [setSlot_of_ne hk, h], rfl, rfl, rfl, fun j => by simp [hk]⟩

end Forest

namespace Ok

variable {σ link} {F : Forest K O E} {plot : O → Option (Plot K)}

/-- Rewriting a leaf into a leaf. -/
theorem setSlot (h : Ok σ link F plot) {t : K} {n : Node O E} {i : ℕ} {e : E} (ht : F t = some n)
    (hold : link (n.slot i) = none) (hnew : link e = none) : Ok σ link (F.setSlot t i e) plot where
  node := by
    intro k m hm
    obtain ⟨m0, h0, ho, hh, hb, _⟩ := Forest.setSlot_inv hm
    rw [ho, hh, hb]
    exact h.node h0
  root := by
    intro o p j hp hj
    obtain ⟨m0, h0, ho, hh, hb⟩ := h.root hp hj
    obtain ⟨m, hm, ho', hh', hb', _⟩ := Forest.setSlot_some t i e h0
    exact ⟨m, hm, ho'.trans ho, hh'.trans hh, hb'.trans hb⟩
  top := by
    intro k m p hm hp htop
    obtain ⟨m0, h0, ho, hh, hb, _⟩ := Forest.setSlot_inv hm
    rw [hb]
    exact h.top h0 (ho ▸ hp) (hh ▸ htop)
  child := by
    intro q m j k hq hj hl
    obtain ⟨m0, h0, ho, hh, hb, hs⟩ := Forest.setSlot_inv hq
    rw [hs] at hl
    by_cases hqi : q = t ∧ j = i
    · rw [if_pos hqi, hnew] at hl
      cases hl
    · rw [if_neg hqi] at hl
      obtain ⟨c0, hc0, hco, hch, hcb⟩ := h.child h0 hj hl
      obtain ⟨c, hc, hco', hch', hcb', _⟩ := Forest.setSlot_some t i e hc0
      refine ⟨c, hc, ?_, ?_, ?_⟩
      · rw [hco', hco, ho]
      · rw [hch', hch, hh]
      · rw [hcb', hcb, Node.slotBase, Node.slotBase, hb, hh]
  parent := by
    intro k m p hm hp hlt
    obtain ⟨m0, h0, ho, hh, hb, _⟩ := Forest.setSlot_inv hm
    obtain ⟨q, c, j, hq, hj, hl⟩ := h.parent h0 (ho ▸ hp) (hh ▸ hlt)
    obtain ⟨c', hc', _, _, _, hs⟩ := Forest.setSlot_some t i e hq
    refine ⟨q, c', j, hc', hj, ?_⟩
    have hne : ¬ (q = t ∧ j = i) := by
      rintro ⟨rfl, rfl⟩
      rw [hq] at ht
      cases ht
      rw [hold] at hl
      cases hl
    rw [hs, if_neg hne, hl]

/-- Hanging a new node of leaves under a leaf. -/
theorem graft (h : Ok σ link F plot) {t k : K} {n m : Node O E} {i : ℕ} {e : E} {p : Plot K}
    (ht : F t = some n) (hi : i < σ.fan) (hold : link (n.slot i) = none) (hnew : link e = some k)
    (hk : F k = none) (hp : plot n.owner = some p) (ho : m.owner = n.owner)
    (hh : m.height + 1 = n.height) (hb : m.base = n.slotBase σ i) (hsz : m.base < p.size)
    (hleaf : ∀ j < σ.fan, link (m.slot j) = none) :
    Ok σ link (Function.update (F.setSlot t i e) k (some m)) plot := by
  obtain ⟨p', hp', htop, hdvd, _⟩ := h.node ht
  rw [hp] at hp'
  cases hp'
  have hkt : k ≠ t := by
    rintro rfl
    rw [hk] at ht
    cases ht
  -- nodes other than the new one are the old nodes
  have inv : ∀ {q c}, q ≠ k → Function.update (F.setSlot t i e) k (some m) q = some c →
      F.setSlot t i e q = some c := by
    intro q c hq hc
    rwa [Function.update_of_ne hq] at hc
  have old : ∀ {q c}, F q = some c → q ≠ k := by
    rintro q c hq rfl
    rw [hk] at hq
    cases hq
  refine ⟨?_, ?_, ?_, ?_, ?_⟩
  · intro q c hq
    by_cases hqk : q = k
    · subst hqk
      rw [Function.update_self] at hq
      cases hq
      refine ⟨p, ho ▸ hp, by omega, ?_, hsz⟩
      rw [hb, hh, Node.slotBase]
      exact Nat.dvd_add ((σ.span_dvd (Nat.le_succ _)).trans hdvd) (Nat.dvd_mul_left _ _)
    · obtain ⟨c0, h0, ho0, hh0, hb0, _⟩ := Forest.setSlot_inv (inv hqk hq)
      rw [ho0, hh0, hb0]
      exact h.node h0
  · intro o p' j hp' hj
    obtain ⟨c0, h0, ho0, hh0, hb0⟩ := h.root hp' hj
    obtain ⟨c, hc, ho', hh', hb', _⟩ := Forest.setSlot_some t i e h0
    refine ⟨c, ?_, ho'.trans ho0, hh'.trans hh0, hb'.trans hb0⟩
    rw [Function.update_of_ne (old h0), hc]
  · intro q c p' hq hp' htop'
    by_cases hqk : q = k
    · subst hqk
      rw [Function.update_self] at hq
      cases hq
      rw [ho, hp] at hp'
      cases hp'
      omega
    · obtain ⟨c0, h0, ho0, hh0, hb0, _⟩ := Forest.setSlot_inv (inv hqk hq)
      rw [hb0]
      exact h.top h0 (ho0 ▸ hp') (hh0 ▸ htop')
  · intro q c j k' hq hj hl
    by_cases hqk : q = k
    · subst hqk
      rw [Function.update_self] at hq
      cases hq
      rw [hleaf j hj] at hl
      cases hl
    · obtain ⟨c0, h0, ho0, hh0, hb0, hs⟩ := Forest.setSlot_inv (inv hqk hq)
      rw [hs] at hl
      have hbase : ∀ j, c.slotBase σ j = c0.slotBase σ j := by
        intro j
        rw [Node.slotBase, Node.slotBase, hb0, hh0]
      by_cases hqi : q = t ∧ j = i
      · obtain ⟨rfl, rfl⟩ := hqi
        rw [ht] at h0
        cases h0
        rw [if_pos ⟨rfl, rfl⟩, hnew] at hl
        cases hl
        exact ⟨m, Function.update_self .., by rw [ho, ho0], by rw [hh, hh0], by rw [hb, hbase]⟩
      · rw [if_neg hqi] at hl
        obtain ⟨d0, hd0, hdo, hdh, hdb⟩ := h.child h0 hj hl
        obtain ⟨d, hd, hdo', hdh', hdb', _⟩ := Forest.setSlot_some t i e hd0
        refine ⟨d, ?_, by rw [hdo', hdo, ho0], by rw [hdh', hdh, hh0], by rw [hdb', hdb, hbase]⟩
        rw [Function.update_of_ne (old hd0), hd]
  · intro q c p' hq hp' hlt
    by_cases hqk : q = k
    · subst hqk
      obtain ⟨n', hn', _, _, _, hs⟩ := Forest.setSlot_some t i e ht
      refine ⟨t, n', i, ?_, hi, ?_⟩
      · rw [Function.update_of_ne (old ht), hn']
      · rw [hs, if_pos ⟨rfl, rfl⟩, hnew]
    · obtain ⟨c0, h0, ho0, hh0, hb0, _⟩ := Forest.setSlot_inv (inv hqk hq)
      obtain ⟨r, d, j, hr, hj, hl⟩ := h.parent h0 (ho0 ▸ hp') (hh0 ▸ hlt)
      obtain ⟨d', hd', _, _, _, hs⟩ := Forest.setSlot_some t i e hr
      refine ⟨r, d', j, by rw [Function.update_of_ne (old hr), hd'], hj, ?_⟩
      have hne : ¬ (r = t ∧ j = i) := by
        rintro ⟨rfl, rfl⟩
        rw [hr] at ht
        cases ht
        rw [hold] at hl
        cases hl
      rw [hs, if_neg hne, hl]

/-- Cutting off a node of leaves. -/
theorem prune (h : Ok σ link F plot) {t k : K} {n m : Node O E} {i : ℕ} {e : E}
    (ht : F t = some n) (hi : i < σ.fan) (hold : link (n.slot i) = some k) (hk : F k = some m)
    (hleaf : ∀ j < σ.fan, link (m.slot j) = none) (hnew : link e = none) :
    Ok σ link (Function.update (F.setSlot t i e) k none) plot := by
  obtain ⟨_, ho, hh⟩ := h.child_covers ht hi hold hk (self_covers m)
  obtain ⟨p, hp, htop, _, _⟩ := h.node ht
  have hkt : k ≠ t := by
    rintro rfl
    rw [hk] at ht
    cases ht
    omega
  have inv : ∀ {q c}, Function.update (F.setSlot t i e) k none q = some c →
      q ≠ k ∧ F.setSlot t i e q = some c := by
    intro q c hc
    have hq : q ≠ k := by
      rintro rfl
      simp at hc
    exact ⟨hq, by rwa [Function.update_of_ne hq] at hc⟩
  refine ⟨?_, ?_, ?_, ?_, ?_⟩
  · intro q c hq
    obtain ⟨c0, h0, ho0, hh0, hb0, _⟩ := Forest.setSlot_inv (inv hq).2
    rw [ho0, hh0, hb0]
    exact h.node h0
  · intro o p' j hp' hj
    obtain ⟨c0, h0, ho0, hh0, hb0⟩ := h.root hp' hj
    obtain ⟨c, hc, ho', hh', hb', _⟩ := Forest.setSlot_some t i e h0
    refine ⟨c, ?_, ho'.trans ho0, hh'.trans hh0, hb'.trans hb0⟩
    have hne : p'.root j ≠ k := by
      intro he
      rw [he, hk] at h0
      cases h0
      rw [← ho, ho0, hp'] at hp
      cases hp
      omega
    rw [Function.update_of_ne hne, hc]
  · intro q c p' hq hp' htop'
    obtain ⟨c0, h0, ho0, hh0, hb0, _⟩ := Forest.setSlot_inv (inv hq).2
    rw [hb0]
    exact h.top h0 (ho0 ▸ hp') (hh0 ▸ htop')
  · intro q c j k' hq hj hl
    obtain ⟨c0, h0, ho0, hh0, hb0, hs⟩ := Forest.setSlot_inv (inv hq).2
    rw [hs] at hl
    by_cases hqi : q = t ∧ j = i
    · rw [if_pos hqi, hnew] at hl
      cases hl
    · rw [if_neg hqi] at hl
      obtain ⟨d0, hd0, hdo, hdh, hdb⟩ := h.child h0 hj hl
      obtain ⟨d, hd, hdo', hdh', hdb', _⟩ := Forest.setSlot_some t i e hd0
      have hne : k' ≠ k := by
        rintro rfl
        exact hqi (h.parent_unique h0 ht hj hi hl hold)
      refine ⟨d, by rw [Function.update_of_ne hne, hd], by rw [hdo', hdo, ho0],
        by rw [hdh', hdh, hh0], ?_⟩
      rw [hdb', hdb, Node.slotBase, Node.slotBase, hb0, hh0]
  · intro q c p' hq hp' hlt
    obtain ⟨hqk, hq'⟩ := inv hq
    obtain ⟨c0, h0, ho0, hh0, hb0, _⟩ := Forest.setSlot_inv hq'
    obtain ⟨r, d, j, hr, hj, hl⟩ := h.parent h0 (ho0 ▸ hp') (hh0 ▸ hlt)
    obtain ⟨d', hd', _, _, _, hs⟩ := Forest.setSlot_some t i e hr
    have hrk : r ≠ k := by
      rintro rfl
      rw [hk] at hr
      cases hr
      rw [hleaf j hj] at hl
      cases hl
    have hne : ¬ (r = t ∧ j = i) := by
      rintro ⟨rfl, rfl⟩
      rw [hr] at ht
      cases ht
      rw [hold] at hl
      cases hl
      exact hqk rfl
    exact ⟨r, d', j, by rw [Function.update_of_ne hrk, hd'], hj, by rw [hs, if_neg hne, hl]⟩

end Ok

end Entries

namespace Ok

variable {σ link} {F : Forest K O E} {plot : O → Option (Plot K)}

/-- Giving root nodes to an owner that had no address space. -/
theorem plant [DecidableEq O] (h : Ok σ link F plot) {F' : Forest K O E} {o : O} {p : Plot K}
    (slot : ℕ → ℕ → E) (hfree : plot o = none)
    (hroot : ∀ j, j * σ.span (p.top + 1) < p.size → F (p.root j) = none ∧
      F' (p.root j) = some ⟨o, p.top, j * σ.span (p.top + 1), slot j⟩)
    (hother : ∀ k, (∀ j, j * σ.span (p.top + 1) < p.size → k ≠ p.root j) → F' k = F k)
    (hleaf : ∀ j, j * σ.span (p.top + 1) < p.size → ∀ i < σ.fan, link (slot j i) = none) :
    Ok σ link F' (Function.update plot o (some p)) := by
  have hpos := σ.span_pos (p.top + 1)
  have hdiv : ∀ j, j * σ.span (p.top + 1) / σ.span (p.top + 1) = j := fun j =>
    Nat.mul_div_cancel _ hpos
  -- a node of the new forest is a new root or an old node of another owner
  have inv : ∀ {k n}, F' k = some n →
      (∃ j, j * σ.span (p.top + 1) < p.size ∧ k = p.root j ∧
        n = ⟨o, p.top, j * σ.span (p.top + 1), slot j⟩) ∨
          (F k = some n ∧ n.owner ≠ o) := by
    intro k n hk
    by_cases hr : ∃ j, j * σ.span (p.top + 1) < p.size ∧ k = p.root j
    · obtain ⟨j, hj, rfl⟩ := hr
      rw [(hroot j hj).2] at hk
      cases hk
      exact .inl ⟨j, hj, rfl, rfl⟩
    · push Not at hr
      rw [hother k hr] at hk
      refine .inr ⟨hk, ?_⟩
      rintro rfl
      obtain ⟨q, hq, _⟩ := h.node hk
      rw [hfree] at hq
      cases hq
  have old : ∀ {k n}, F k = some n → F' k = some n := by
    intro k n hk
    rw [hother k, hk]
    rintro j hj rfl
    rw [(hroot j hj).1] at hk
    cases hk
  refine ⟨?_, ?_, ?_, ?_, ?_⟩
  · intro k n hk
    rcases inv hk with ⟨j, hj, rfl, rfl⟩ | ⟨h0, hne⟩
    · exact ⟨p, Function.update_self .., le_rfl, Nat.dvd_mul_left _ _, hj⟩
    · rw [Function.update_of_ne hne]
      exact h.node h0
  · intro o' p' j hp' hj
    by_cases ho : o' = o
    · subst ho
      rw [Function.update_self] at hp'
      cases hp'
      exact ⟨_, (hroot j hj).2, rfl, rfl, rfl⟩
    · rw [Function.update_of_ne ho] at hp'
      obtain ⟨n, hn, hrest⟩ := h.root hp' hj
      exact ⟨n, old hn, hrest⟩
  · intro k n p' hk hp' htop
    rcases inv hk with ⟨j, hj, rfl, rfl⟩ | ⟨h0, hne⟩
    · rw [Function.update_self] at hp'
      cases hp'
      rw [hdiv]
    · rw [Function.update_of_ne hne] at hp'
      exact h.top h0 hp' htop
  · intro t n i k ht hi hl
    rcases inv ht with ⟨j, hj, rfl, rfl⟩ | ⟨h0, _⟩
    · rw [hleaf j hj i hi] at hl
      cases hl
    · obtain ⟨m, hm, hrest⟩ := h.child h0 hi hl
      exact ⟨m, old hm, hrest⟩
  · intro k m p' hk hp' hlt
    rcases inv hk with ⟨j, hj, rfl, rfl⟩ | ⟨h0, hne⟩
    · rw [Function.update_self] at hp'
      cases hp'
      exact absurd hlt (lt_irrefl _)
    · rw [Function.update_of_ne hne] at hp'
      obtain ⟨t, n, i, ht, hi, hl⟩ := h.parent h0 hp' hlt
      exact ⟨t, n, i, old ht, hi, hl⟩

/-- If no root of an owner links to anything, the roots are all its nodes. -/
theorem root_of_owner (h : Ok σ link F plot) {o : O} {p : Plot K} (hp : plot o = some p)
    (hleaf : ∀ j n, j * σ.span (p.top + 1) < p.size → F (p.root j) = some n →
      ∀ i < σ.fan, link (n.slot i) = none)
    {k : K} {n : Node O E} (hk : F k = some n) (ho : n.owner = o) :
    ∃ j, j * σ.span (p.top + 1) < p.size ∧ k = p.root j ∧ n.height = p.top := by
  obtain ⟨p', hp', hle, hdvd, hsz⟩ := h.node hk
  rw [ho, hp] at hp'
  cases hp'
  -- the base of a root node counts the roots before it
  have root_index : ∀ {t m}, F t = some m → m.owner = o → m.height = p.top →
      m.base / σ.span (p.top + 1) * σ.span (p.top + 1) < p.size ∧
        t = p.root (m.base / σ.span (p.top + 1)) := by
    intro t m ht hmo hmh
    obtain ⟨p', hp', _, hd, hs⟩ := h.node ht
    rw [hmo, hp] at hp'
    cases hp'
    rw [hmh] at hd
    exact ⟨by rwa [Nat.div_mul_cancel hd], h.top ht (hmo ▸ hp) hmh⟩
  by_cases htop : n.height = p.top
  · obtain ⟨hj, hkr⟩ := root_index hk ho htop
    exact ⟨_, hj, hkr, htop⟩
  · obtain ⟨t, m, ht, hmo, hmh, hc, k', hl⟩ :=
      h.ancestor hk (ho ▸ hp) (self_covers n) (lt_of_le_of_ne hle htop) le_rfl
    obtain ⟨hj, htr⟩ := root_index ht (hmo.trans ho) hmh
    rw [htr] at ht
    rw [hleaf _ m hj ht _ hc.slotOf_lt] at hl
    cases hl

/-- Removing an owner whose roots hold only leaves. -/
theorem fell [DecidableEq O] (h : Ok σ link F plot) {F' : Forest K O E} {o : O}
    (hF' : ∀ k n, F' k = some n ↔ F k = some n ∧ n.owner ≠ o) :
    Ok σ link F' (Function.update plot o none) := by
  refine ⟨?_, ?_, ?_, ?_, ?_⟩
  · intro k n hk
    obtain ⟨h0, hne⟩ := (hF' _ _).mp hk
    rw [Function.update_of_ne hne]
    exact h.node h0
  · intro o' p' j hp' hj
    have hne : o' ≠ o := by
      rintro rfl
      simp at hp'
    rw [Function.update_of_ne hne] at hp'
    obtain ⟨n, hn, ho, hrest⟩ := h.root hp' hj
    exact ⟨n, (hF' _ _).mpr ⟨hn, ho ▸ hne⟩, ho, hrest⟩
  · intro k n p' hk hp' htop
    obtain ⟨h0, hne⟩ := (hF' _ _).mp hk
    rw [Function.update_of_ne hne] at hp'
    exact h.top h0 hp' htop
  · intro t n i k ht hi hl
    obtain ⟨h0, hne⟩ := (hF' _ _).mp ht
    obtain ⟨m, hm, ho, hrest⟩ := h.child h0 hi hl
    exact ⟨m, (hF' _ _).mpr ⟨hm, ho ▸ hne⟩, ho, hrest⟩
  · intro k m p' hk hp' hlt
    obtain ⟨h0, hne⟩ := (hF' _ _).mp hk
    rw [Function.update_of_ne hne] at hp'
    obtain ⟨t, n, i, ht, hi, hl⟩ := h.parent h0 hp' hlt
    obtain ⟨_, hm, ho, _⟩ := h.child ht hi hl
    rw [h0] at hm
    cases hm
    exact ⟨t, n, i, (hF' _ _).mpr ⟨ht, ho ▸ hne⟩, hi, hl⟩

end Ok

end RadixForest
