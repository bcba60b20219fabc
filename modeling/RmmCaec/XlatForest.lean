import RmmCaec.XlatTables

/-!
# The tables of stage 1 as a tree

A ghost tree beside the tables: its nodes are the tables that were taken from the pool, and
the words of a table are the words of abstract entries. Writing a descriptor and putting a
new table into an entry change one entry of the tree. A table is only put where some region
needs it, which bounds the number of tables that are taken.
-/
namespace RmmCaec

open RadixForest

section
variable {h : ℕ} {a : Word}

theorem xlatAddrShift_levelOf (h : ℕ) : xlatAddrShift (levelOf h) = h * 9 + 12 := by
  simp [xlatAddrShift, xlatTableLevelMax, levelOf, Nat.add_comm]

theorem span_le {h k : ℕ} (hh : h ≤ k) : rttShape.span h ≤ rttShape.span k :=
  Nat.le_of_dvd (rttShape.span_pos k) (rttShape.span_dvd hh)

theorem span_five : rttShape.span 5 = 2 ^ 57 := by
  rw [rttShape_span_pow]

/-- No table has more than four levels below it. -/
theorem span_lt (hh : h ≤ 4) : rttShape.span h < 2 ^ 57 := by
  have hle := span_le hh
  have hfour : rttShape.span 4 = 2 ^ 48 := by rw [rttShape_span_pow]
  omega

theorem page_dvd_span (h : ℕ) : 4096 ∣ rttShape.span h := by
  have hd := rttShape.span_dvd (Nat.zero_le h)
  rwa [rttShape_span_zero] at hd

theorem xlatBlockSize_toNat (hh : h ≤ 4) :
    (xlatBlockSize (levelOf h)).toNat = rttShape.span h := by
  have hlt := span_lt hh
  rw [rttShape_span_pow] at hlt ⊢
  rw [xlatBlockSize, xlatAddrShift_levelOf, BitVec.toNat_shiftLeft, Nat.shiftLeft_eq,
    BitVec.toNat_ofNat]
  omega

theorem getLsbD_xlatBlockMask (hh : h ≤ 4) (i : ℕ) :
    (xlatBlockMask (levelOf h)).getLsbD i = decide (i < h * 9 + 12) := by
  have hlt := span_lt hh
  have hpos := rttShape.span_pos h
  have hmask : (xlatBlockMask (levelOf h)).toNat = 2 ^ (h * 9 + 12) - 1 := by
    rw [xlatBlockMask, BitVec.toNat_sub, xlatBlockSize_toNat hh, ← rttShape_span_pow,
      BitVec.toNat_ofNat]
    omega
  rw [BitVec.getLsbD, hmask, Nat.testBit_two_pow_sub_one]

/-- What the mask of a level keeps of an address. -/
theorem and_xlatBlockMask_toNat (hh : h ≤ 4) :
    (a &&& xlatBlockMask (levelOf h)).toNat = a.toNat % rttShape.span h := by
  apply Nat.eq_of_testBit_eq
  intro i
  have hmask := getLsbD_xlatBlockMask hh i
  rw [BitVec.getLsbD] at hmask
  rw [BitVec.toNat_and, Nat.testBit_and, hmask, rttShape_span_pow, Nat.testBit_mod_two_pow,
    Bool.and_comm]

theorem and_xlatBlockMask_eq_zero (hh : h ≤ 4) :
    a &&& xlatBlockMask (levelOf h) = 0#64 ↔ rttShape.span h ∣ a.toNat := by
  rw [← BitVec.toNat_inj, and_xlatBlockMask_toNat hh, Nat.dvd_iff_mod_eq_zero]
  rfl

/-- What the mask of a level takes from an address. -/
theorem and_not_xlatBlockMask_toNat (hh : h ≤ 4) :
    (a &&& ~~~xlatBlockMask (levelOf h)).toNat = a.toNat / rttShape.span h * rttShape.span h := by
  have hshift : a &&& ~~~xlatBlockMask (levelOf h) = (a >>> (h * 9 + 12)) <<< (h * 9 + 12) := by
    apply BitVec.eq_of_getLsbD_eq
    intro i hi
    rw [BitVec.getLsbD_and, BitVec.getLsbD_not, getLsbD_xlatBlockMask hh, BitVec.getLsbD_shiftLeft,
      BitVec.getLsbD_ushiftRight]
    by_cases hlow : i < h * 9 + 12
    · simp [hlow]
    · simp [hlow, hi, Nat.add_sub_cancel' (not_lt.mp hlow)]
  have hle := Nat.div_mul_le_self a.toNat (rttShape.span h)
  have hlt := a.isLt
  rw [rttShape_span_pow] at hle ⊢
  rw [hshift, BitVec.toNat_shiftLeft, BitVec.toNat_ushiftRight, Nat.shiftLeft_eq,
    Nat.shiftRight_eq_div_pow]
  omega

end

section
variable {pool : XlatPool} {k k' : ℕ}

theorem XlatPool.table_toNat (hk : k < pool.tablesNum) :
    (pool.table k).toNat = pool.tables.toNat + 4096 * k := by
  have hend := pool.pool_end
  rw [XlatPool.table, BitVec.toNat_add, BitVec.toNat_ofNat, xlatTableEntries]
  omega

theorem XlatPool.table_zero (pool : XlatPool) : pool.table 0 = pool.tables := by
  simp [XlatPool.table]

theorem XlatPool.table_inj (hk : k < pool.tablesNum) (hk' : k' < pool.tablesNum)
    (h : pool.table k = pool.table k') : k = k' := by
  have h1 := XlatPool.table_toNat hk
  have h2 := XlatPool.table_toNat hk'
  rw [h] at h1
  omega

/-- The bits of the address of a page. -/
theorem page_bits {a : Word} {k : ℕ} (hpage : 4096 ∣ a.toNat) (hlt : a.toNat < 2 ^ k) (i : ℕ)
    (hi : a.getLsbD i = true) : 12 ≤ i ∧ i < k := by
  rw [BitVec.getLsbD] at hi
  constructor
  · by_contra hlow
    have hmod : a.toNat % 2 ^ 12 = 0 := Nat.dvd_iff_mod_eq_zero.mp hpage
    have hbit := Nat.testBit_mod_two_pow a.toNat 12 i
    rw [hmod, Nat.zero_testBit, hi, decide_eq_true (by omega)] at hbit
    cases hbit
  · by_contra hge
    have hle := Nat.ge_two_pow_of_testBit hi
    have hpow : 2 ^ k ≤ 2 ^ i := Nat.pow_le_pow_right (by omega) (by omega)
    omega

/-- The address of a page that a descriptor can hold. -/
theorem and_xlatOaMask {arch : XlatArch} {a : Word} (hpage : 4096 ∣ a.toNat)
    (hlt : a.toNat < 2 ^ if arch.lpa2 then 52 else 48) : a &&& xlatOaMask arch = a := by
  have hbits := page_bits hpage hlt
  apply BitVec.eq_of_getLsbD_eq
  intro i hi
  have hb := hbits i
  unfold xlatOaMask
  rw [BitVec.getLsbD_and, getLsbD_bitMaskUll _ 12 _ (by split <;> omega)]
  cases hbit : a.getLsbD i with
  | false => rfl
  | true =>
    obtain ⟨h1, h2⟩ := hb hbit
    have hmsb : i ≤ if arch.lpa2 then 51 else 47 := by
      cases hl : arch.lpa2
      · rw [hl] at h2
        exact Nat.le_of_lt_succ h2
      · rw [hl] at h2
        exact Nat.le_of_lt_succ h2
    simp [h1, hmsb]

/-- A page at a low address is what its table descriptor points to. -/
theorem xlatGetOaFromTte_page {arch : XlatArch} {table : Word} (hpage : 4096 ∣ table.toNat)
    (hlow : table.toNat < 2 ^ 48) : xlatGetOaFromTte arch (tableDesc ||| table) = table := by
  have hbits := page_bits hpage hlow
  have htype : ∀ i, tableDesc.getLsbD i = decide (i < 2) := by
    intro i
    exact Nat.testBit_two_pow_sub_one 2 i
  apply BitVec.eq_of_getLsbD_eq
  intro i hi
  have h1 := hbits i
  have h2 := hbits (i - 42)
  unfold xlatGetOaFromTte
  cases arch.lpa2
  · simp only [Bool.false_eq_true, if_false, BitVec.getLsbD_and, BitVec.getLsbD_or, htype,
      getLsbD_bitMaskUll 47 12 _ (by omega)]
    grind
  · simp only [if_true, BitVec.getLsbD_and, BitVec.getLsbD_or, BitVec.getLsbD_shiftLeft,
      BitVec.getLsbD_ushiftRight, htype, getLsbD_bitMaskUll 49 12 _ (by omega),
      getLsbD_bitMaskUll 9 8 _ (by omega)]
    have h3 := hbits (8 + (i - 50))
    grind

theorem tableDesc_or_type {table : Word} (hpage : 4096 ∣ table.toNat) :
    (tableDesc ||| table) &&& descMask = tableDesc := by
  have hlow : table &&& descMask = 0#64 := by
    rw [← BitVec.toNat_inj, BitVec.toNat_and]
    have hmod := Nat.and_two_pow_sub_one_eq_mod table.toNat 2
    change table.toNat &&& 2 ^ 2 - 1 = 0
    omega
  rw [BitVec.and_or_distrib_right, hlow]
  rfl

end

/-- An entry of a table: a descriptor that ends a walk, or the next table. -/
inductive XlatEntry
  | leaf (desc : Word)
  | table (addr : Word)
  deriving DecidableEq

def XlatEntry.word : XlatEntry → Word
  | .leaf desc => desc
  | .table addr => tableDesc ||| addr

def XlatEntry.link : XlatEntry → Option Word
  | .leaf _ => none
  | .table addr => some addr

abbrev XlatNode := Node Unit XlatEntry
abbrev XlatForest := Forest Word Unit XlatEntry

/-- The address space of a context below its base table. -/
def xlatPlot (cfg : XlatCtxCfg) (pool : XlatPool) : Unit → Option (Plot Word) := fun _ =>
  some ⟨cfg.top, rttShape.span (cfg.top + 1), fun _ => pool.tables⟩

/-- The place of a table: the height and the first address of the entry it is put into. -/
abbrev XlatPlace := ℕ × ℕ

/-- The tables hold the words of a tree, of which the tables stand at places of a set. -/
structure XlatHolds (cfg : XlatCtxCfg) (pool : XlatPool) (places : Finset XlatPlace)
    (tbls : XlatCtxTbls) (F : XlatForest) : Prop where
  pool_eq : tbls.pool = pool
  ok : Ok rttShape XlatEntry.link F (xlatPlot cfg pool)
  word : ∀ {t n i}, F t = some n → i < 512 → tbls.mem t i = (n.slot i).word
  leaf : ∀ {t n i d}, F t = some n → i < 512 → n.slot i = .leaf d → n.height ≠ 0 →
    d &&& descMask ≠ tableDesc
  owned : ∀ {t n}, F t = some n → ∃ k < tbls.nextTable, t = pool.table k
  taken : ∀ {k}, k < tbls.nextTable → ∃ n, F (pool.table k) = some n
  base_taken : 0 < tbls.nextTable
  room : tbls.nextTable ≤ pool.tablesNum
  fresh : ∀ {k i}, tbls.nextTable ≤ k → k < pool.tablesNum → i < 512 →
    tbls.mem (pool.table k) i = invalidDesc
  placed : ∀ {t n}, F t = some n → n.height < cfg.top → (n.height + 1, n.base) ∈ places

section
variable {cfg : XlatCtxCfg} {pool : XlatPool} {places : Finset XlatPlace} {tbls : XlatCtxTbls}
  {F : XlatForest} {t : Word} {n : XlatNode} {i : ℕ}

/-- A node lies in the address space of its context. -/
theorem XlatHolds.node (h : XlatHolds cfg pool places tbls F) (ht : F t = some n) :
    n.height ≤ cfg.top ∧ rttShape.span (n.height + 1) ∣ n.base ∧
      n.base + rttShape.span (n.height + 1) ≤ rttShape.span (cfg.top + 1) := by
  obtain ⟨p, hp, hle, hdvd, hlt⟩ := h.ok.node ht
  cases hp
  have hspan : rttShape.span (n.height + 1) ∣ rttShape.span (cfg.top + 1) :=
    rttShape.span_dvd (by simpa using hle)
  refine ⟨hle, hdvd, ?_⟩
  obtain ⟨q, hq⟩ := hdvd
  obtain ⟨m, hm⟩ := hspan
  rw [hq, hm] at hlt ⊢
  have hqm : q + 1 ≤ m := Nat.lt_of_mul_lt_mul_left hlt
  calc rttShape.span (n.height + 1) * q + rttShape.span (n.height + 1)
      = rttShape.span (n.height + 1) * (q + 1) := by ring
    _ ≤ rttShape.span (n.height + 1) * m := Nat.mul_le_mul_left _ hqm

/-- What an entry covers lies in the node. -/
theorem XlatHolds.slot (h : XlatHolds cfg pool places tbls F) (ht : F t = some n) (hi : i < 512) :
    rttShape.span n.height ∣ n.slotBase rttShape i ∧ n.slotBase rttShape i +
      rttShape.span n.height ≤ n.base + rttShape.span (n.height + 1) := by
  obtain ⟨-, hdvd, -⟩ := h.node ht
  have hmul : (i + 1) * rttShape.span n.height ≤ 512 * rttShape.span n.height :=
    Nat.mul_le_mul_right _ hi
  rw [Nat.add_mul, Nat.one_mul] at hmul
  constructor
  · exact Nat.dvd_add ((rttShape.span_dvd (Nat.le_succ _)).trans hdvd) (Nat.dvd_mul_left _ _)
  · rw [rttShape.span_succ, rttShape_fan, Node.slotBase]
    omega

/-- The base table. -/
theorem XlatHolds.root (h : XlatHolds cfg pool places tbls F) :
    ∃ n, F pool.tables = some n ∧ n.height = cfg.top ∧ n.base = 0 := by
  have hpos := rttShape.span_pos (cfg.top + 1)
  obtain ⟨n, hn, -, hh, hb⟩ := h.ok.root (o := ()) (j := 0) rfl (by simpa using hpos)
  exact ⟨n, hn, hh, by simpa using hb⟩

/-- The table that an entry links to. -/
theorem XlatHolds.subtable (h : XlatHolds cfg pool places tbls F) {addr : Word}
    (ht : F t = some n) (hi : i < 512) (hs : n.slot i = .table addr) :
    ∃ m, F addr = some m ∧ m.height + 1 = n.height ∧ m.base = n.slotBase rttShape i := by
  obtain ⟨m, hm, -, hh, hb⟩ := h.ok.child ht hi (by rw [hs]; rfl)
  exact ⟨m, hm, hh, hb⟩

/-- What a table descriptor of the tables points to. -/
theorem XlatHolds.pointer (h : XlatHolds cfg pool places tbls F) (arch : XlatArch)
    (ht : F t = some n) :
    xlatGetOaFromTte arch (tableDesc ||| t) = t ∧ (tableDesc ||| t) &&& descMask = tableDesc := by
  obtain ⟨k, hk, rfl⟩ := h.owned ht
  have hroom := h.room
  have haddr := pool.table_toNat (Nat.lt_of_lt_of_le hk hroom)
  have hend := pool.pool_end
  have hal := pool.aligned
  have hpage : 4096 ∣ (pool.table k).toNat := by omega
  exact ⟨xlatGetOaFromTte_page hpage (by omega), tableDesc_or_type hpage⟩

/-- The next table of the pool is not in the tree yet. -/
theorem XlatHolds.next_free (h : XlatHolds cfg pool places tbls F)
    (hroom : tbls.nextTable < pool.tablesNum) : F (pool.table tbls.nextTable) = none := by
  by_contra hsome
  obtain ⟨m, hm⟩ := Option.ne_none_iff_exists'.mp hsome
  obtain ⟨k, hk, heq⟩ := h.owned hm
  have hkk := pool.table_inj hroom (Nat.lt_trans hk hroom) heq
  omega

/-- Writing a descriptor over a descriptor. -/
theorem XlatHolds.write (h : XlatHolds cfg pool places tbls F) {old new : Word} (ht : F t = some n)
    (hold : n.slot i = .leaf old) (hnew : n.height ≠ 0 → new &&& descMask ≠ tableDesc) :
    XlatHolds cfg pool places (tbls.write t i new) (F.setSlot t i (.leaf new)) where
  pool_eq := h.pool_eq
  ok := h.ok.setSlot ht (by rw [hold]; rfl) rfl
  word := by
    intro t' n' j hF hj
    obtain ⟨m, hm, -, -, -, hs⟩ := Forest.setSlot_inv hF
    have hword := h.word hm hj
    simp only [XlatCtxTbls.write, hs j]
    split_ifs
    · rfl
    · exact hword
  leaf := by
    intro t' n' j d hF hj hd hne
    obtain ⟨m, hm, -, hh, -, hs⟩ := Forest.setSlot_inv hF
    rw [hs j] at hd
    split_ifs at hd with hat
    · obtain ⟨rfl, rfl⟩ := hat
      rw [ht] at hm
      cases hm
      cases hd
      exact hnew (hh ▸ hne)
    · exact h.leaf hm hj hd (hh ▸ hne)
  owned := by
    intro t' n' hF
    obtain ⟨m, hm, -⟩ := Forest.setSlot_inv hF
    exact h.owned hm
  taken := by
    intro k hk
    obtain ⟨m, hm⟩ := h.taken hk
    obtain ⟨m', hm', -⟩ := Forest.setSlot_some t i (.leaf new) hm
    exact ⟨m', hm'⟩
  base_taken := h.base_taken
  room := h.room
  fresh := by
    intro k j hk hlt hj
    obtain ⟨k', hk', hkt⟩ := h.owned ht
    have hne : pool.table k ≠ t := by
      rintro rfl
      have heq := pool.table_inj hlt (Nat.lt_of_lt_of_le hk' h.room) hkt
      have hge : tbls.nextTable ≤ k := hk
      omega
    simp only [XlatCtxTbls.write, hne, false_and, if_false]
    exact h.fresh hk hlt hj
  placed := by
    intro t' n' hF hlt
    obtain ⟨m, hm, -, hh, hb, -⟩ := Forest.setSlot_inv hF
    rw [hh, hb]
    exact h.placed hm (hh ▸ hlt)

/-- The tables with the next one put into an entry. -/
def XlatCtxTbls.graft (tbls : XlatCtxTbls) (t : Word) (i : ℕ) : XlatCtxTbls :=
  { tbls with nextTable := tbls.nextTable + 1 }.write t i
    (tableDesc ||| tbls.pool.table tbls.nextTable)

/-- A table without any mapping. -/
def emptyNode (height base : ℕ) : XlatNode := ⟨(), height, base, fun _ => .leaf invalidDesc⟩

/-- The tree with a new table in an entry. -/
def graftNode (F : XlatForest) (t : Word) (n : XlatNode) (i : ℕ) (k : Word) : XlatForest :=
  Function.update (F.setSlot t i (.table k)) k
    (some (emptyNode (n.height - 1) (n.slotBase rttShape i)))

/-- Putting a new table into an entry. -/
theorem XlatHolds.graft (h : XlatHolds cfg pool places tbls F) {old : Word} (ht : F t = some n)
    (hi : i < 512) (hold : n.slot i = .leaf old) (hne : n.height ≠ 0)
    (hroom : tbls.nextTable < pool.tablesNum)
    (hplace : (n.height, n.slotBase rttShape i) ∈ places) :
    XlatHolds cfg pool places (tbls.graft t i) (graftNode F t n i (pool.table tbls.nextTable)) ∧
      graftNode F t n i (pool.table tbls.nextTable) (pool.table tbls.nextTable) =
        some (emptyNode (n.height - 1) (n.slotBase rttShape i)) := by
  have hpool := h.pool_eq
  have hfree := h.next_free hroom
  have hnew : t ≠ pool.table tbls.nextTable := by
    rintro rfl
    rw [hfree] at ht
    cases ht
  obtain ⟨hle, hdvd, hend⟩ := h.node ht
  -- a table of the new tree is the new one, or an old one
  have inv : ∀ {t' n'}, graftNode F t n i (pool.table tbls.nextTable) t' = some n' →
      (t' = pool.table tbls.nextTable ∧ n' = emptyNode (n.height - 1) (n.slotBase rttShape i)) ∨
      (t' ≠ pool.table tbls.nextTable ∧
        F.setSlot t i (.table (pool.table tbls.nextTable)) t' = some n') := by
    intro t' n' hF
    unfold graftNode at hF
    by_cases hk : t' = pool.table tbls.nextTable
    · subst hk
      rw [Function.update_self] at hF
      exact .inl ⟨rfl, (Option.some.inj hF).symm⟩
    · rw [Function.update_of_ne hk] at hF
      exact .inr ⟨hk, hF⟩
  have hself : graftNode F t n i (pool.table tbls.nextTable) (pool.table tbls.nextTable) =
      some (emptyNode (n.height - 1) (n.slotBase rttShape i)) := Function.update_self ..
  refine ⟨⟨hpool, ?_, ?_, ?_, ?_, ?_, Nat.succ_pos _, hroom, ?_, ?_⟩, hself⟩
  · have hslot := (h.slot ht hi).2
    have hpos := rttShape.span_pos n.height
    exact h.ok.graft ht hi (by rw [hold]; rfl) rfl hfree rfl rfl
      (Nat.sub_add_cancel (Nat.pos_of_ne_zero hne)) rfl
      (show n.slotBase rttShape i < rttShape.span (cfg.top + 1) by omega) fun _ _ => rfl
  · intro t' n' j hF hj
    obtain ⟨rfl, rfl⟩ | ⟨hk, hF⟩ := inv hF
    · have hword := h.fresh (k := tbls.nextTable) le_rfl hroom hj
      simp only [XlatCtxTbls.graft, XlatCtxTbls.write, hnew.symm, false_and, if_false, hword]
      rfl
    · obtain ⟨m, hm, -, -, -, hs⟩ := Forest.setSlot_inv hF
      have hword := h.word hm hj
      simp only [XlatCtxTbls.graft, XlatCtxTbls.write, hs j, hpool]
      split_ifs
      · rfl
      · exact hword
  · intro t' n' j d hF hj hd hh0
    obtain ⟨rfl, rfl⟩ | ⟨hk, hF⟩ := inv hF
    · cases hd
      decide
    · obtain ⟨m, hm, -, hh, -, hs⟩ := Forest.setSlot_inv hF
      rw [hs j] at hd
      split_ifs at hd
      exact h.leaf hm hj hd (hh ▸ hh0)
  · intro t' n' hF
    obtain ⟨rfl, rfl⟩ | ⟨hk, hF⟩ := inv hF
    · exact ⟨_, Nat.lt_succ_self _, rfl⟩
    · obtain ⟨m, hm, -⟩ := Forest.setSlot_inv hF
      obtain ⟨k, hlt, heq⟩ := h.owned hm
      exact ⟨k, Nat.lt_succ_of_lt hlt, heq⟩
  · intro k hk
    by_cases hlast : k = tbls.nextTable
    · subst hlast
      exact ⟨_, hself⟩
    · have hlt : k < tbls.nextTable := Nat.lt_of_le_of_ne (Nat.le_of_lt_succ hk) hlast
      obtain ⟨m, hm⟩ := h.taken hlt
      obtain ⟨m', hm', -⟩ := Forest.setSlot_some t i (.table (pool.table tbls.nextTable)) hm
      have hkk : pool.table k ≠ pool.table tbls.nextTable := fun heq =>
        hlast (pool.table_inj (Nat.lt_trans hlt hroom) hroom heq)
      exact ⟨m', by rw [graftNode, Function.update_of_ne hkk, hm']⟩
  · intro k j hk hlt hj
    obtain ⟨k', hk', hkt⟩ := h.owned ht
    have hkt' : pool.table k ≠ t := by
      rintro rfl
      have heq := pool.table_inj hlt (Nat.lt_trans hk' hroom) hkt
      have hk2 : tbls.nextTable + 1 ≤ k := hk
      omega
    simp only [XlatCtxTbls.graft, XlatCtxTbls.write, hkt', false_and, if_false]
    exact h.fresh (Nat.le_of_succ_le hk) hlt hj
  · intro t' n' hF hlt
    obtain ⟨rfl, rfl⟩ | ⟨hk, hF⟩ := inv hF
    · have hh : n.height - 1 + 1 = n.height := Nat.sub_add_cancel (Nat.pos_of_ne_zero hne)
      simpa [emptyNode, hh] using hplace
    · obtain ⟨m, hm, -, hh, hb, -⟩ := Forest.setSlot_inv hF
      rw [hh, hb]
      exact h.placed hm (hh ▸ hlt)

/-- While an entry has no table although its place is in the set, a table of the set is left. -/
theorem XlatHolds.nextTable_lt (h : XlatHolds cfg pool places tbls F) {d : Word} (ht : F t = some n)
    (hi : i < 512) (hs : n.slot i = .leaf d)
    (hplace : (n.height, n.slotBase rttShape i) ∈ places) :
    tbls.nextTable < 1 + places.card := by
  have : Nonempty XlatNode := ⟨n⟩
  choose! node hnode using fun k => h.taken (k := k)
  -- the base table gives its turn to the place that is still empty
  let place : ℕ → XlatPlace := fun k =>
    if k = 0 then (n.height, n.slotBase rttShape i) else ((node k).height + 1, (node k).base)
  have below : ∀ {k}, k < tbls.nextTable → k ≠ 0 → (node k).height < cfg.top := by
    intro k hk hne
    refine Nat.lt_of_le_of_ne (h.node (hnode k hk)).1 fun htop => hne ?_
    have hroot := h.ok.top (hnode k hk) rfl htop
    rw [← pool.table_zero] at hroot
    exact pool.table_inj (Nat.lt_of_lt_of_le hk h.room) pool.some_table hroot
  have empty : ∀ {k}, k < tbls.nextTable → k ≠ 0 → place 0 ≠ place k := by
    intro k hk hne heq
    simp only [place, if_true, if_neg hne, Prod.mk.injEq] at heq
    obtain ⟨hh, hb⟩ := heq
    obtain ⟨q, c, j, hq, hj, hl⟩ := h.ok.parent (hnode k hk) rfl (below hk hne)
    obtain ⟨hcov, -, hch⟩ := h.ok.child_covers hq hj hl (hnode k hk) (Ok.self_covers _)
    have hslot : n.SlotCovers rttShape i (node k).base := by
      constructor
      · omega
      · have hpos := rttShape.span_pos n.height
        omega
    have heq := h.ok.eq_of_covers hq ht rfl (by omega) (hcov.covers hj) (hslot.covers hi)
    subst heq
    rw [hq] at ht
    cases ht
    rw [hcov.eq_slotOf, ← hslot.eq_slotOf, hs] at hl
    cases hl
  have same : ∀ {k k'}, k < tbls.nextTable → k' < tbls.nextTable → k ≠ 0 → k' ≠ 0 →
      place k = place k' → k = k' := by
    intro k k' hk hk' hne hne' heq
    simp only [place, if_neg hne, if_neg hne', Prod.mk.injEq, Nat.add_right_cancel_iff] at heq
    have hcov : (node k').Covers rttShape (node k).base := by
      rw [heq.2]
      exact Ok.self_covers _
    have hkk := h.ok.eq_of_covers (hnode k hk) (hnode k' hk') rfl heq.1 (Ok.self_covers _) hcov
    exact pool.table_inj (Nat.lt_of_lt_of_le hk h.room) (Nat.lt_of_lt_of_le hk' h.room) hkk
  have hcard : (Finset.range tbls.nextTable).card ≤ places.card := by
    refine Finset.card_le_card_of_injOn place ?_ ?_
    · intro k hk
      rw [Finset.coe_range, Set.mem_Iio] at hk
      by_cases hne : k = 0
      · simpa [place, hne] using hplace
      · simpa [place, hne] using h.placed (hnode k hk) (below hk hne)
    · intro k hk k' hk' heq
      rw [Finset.coe_range, Set.mem_Iio] at hk hk'
      by_cases hne : k = 0
      · subst hne
        by_contra hne'
        exact empty hk' (Ne.symm hne') heq
      · by_cases hne' : k' = 0
        · subst hne'
          exact absurd heq.symm (empty hk hne)
        · exact same hk hk' hne hne' heq
  rw [Finset.card_range] at hcard
  omega

/-- The leaf of an address: its height and its descriptor. -/
def XlatLeaf (F : XlatForest) (a h : ℕ) (d : Word) : Prop :=
  ∃ t n, F t = some n ∧ n.height = h ∧ n.Covers rttShape a ∧
    n.slot (n.slotOf rttShape a) = .leaf d

theorem XlatLeaf.of_slot {d : Word} {a : ℕ} (ht : F t = some n) (hi : i < 512)
    (hs : n.slot i = .leaf d) (ha : n.SlotCovers rttShape i a) : XlatLeaf F a n.height d :=
  ⟨t, n, ht, rfl, ha.covers hi, by rw [← ha.eq_slotOf, hs]⟩

theorem XlatHolds.leaf_unique (h : XlatHolds cfg pool places tbls F) {d d' : Word} {a k k' : ℕ}
    (hl : XlatLeaf F a k d) (hl' : XlatLeaf F a k' d') : k = k' ∧ d = d' := by
  obtain ⟨t, n, ht, rfl, hc, hs⟩ := hl
  obtain ⟨t', n', ht', rfl, hc', hs'⟩ := hl'
  obtain ⟨rfl, -⟩ := h.ok.leaf_unique ht ht' rfl hc.slotOf_lt hc'.slotOf_lt hc.slotCovers
    hc'.slotCovers (by rw [hs]; rfl) (by rw [hs']; rfl)
  rw [ht] at ht'
  cases ht'
  rw [hs] at hs'
  cases hs'
  exact ⟨rfl, rfl⟩

end

end RmmCaec
