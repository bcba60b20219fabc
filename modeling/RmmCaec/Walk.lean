import RmmCaec.State

/-!
# Table walks, table contents and the TLB

The hand-over-hand walk of the stage 2 tables, the functions that fill and test
whole tables, and the TLB. The TLB is kept saturated: whenever an entry is
written, every leaf that the hardware could load from the tables of that realm
is added, so the set holds everything that may be cached at that point.
-/
namespace RmmCaec

/-- The result of a walk: the last table, the entry index in it and its level. -/
structure S2ttWalk where
  gLlt : Word
  index : ℕ
  lastLevel : ℤ
  deriving DecidableEq, Repr

/-- The index of the entry that describes `addr` in a table at `level`. -/
def s2AddrToIdx (addr : Word) (level : ℤ) : ℕ :=
  addr.toNat / 2 ^ levelLsb level % (if level < s2ttMinStartingLevel then s2ttesPerS2ttLm1
    else s2ttesPerS2tt)

/-- The index over all concatenated starting level tables. -/
def s2SlAddrToIdx (addr : Word) (startLevel : ℤ) (ipaBits : ℕ) : ℕ :=
  addr.toNat % 2 ^ ipaBits / 2 ^ levelLsb startLevel

/-- The granule of the `k`-th concatenated starting level table. -/
def rootTable (ctx : S2ttContext) (k : ℕ) : Word := ctx.gRtt + BitVec.ofNat 64 (k * granuleSize)

/-- The starting level table for an address. -/
def walkRoot (ctx : S2ttContext) (mapAddr : Word) : Word :=
  let slIdx := s2SlAddrToIdx mapAddr ctx.s2StartingLevel ctx.ipaBits
  if s2ttesPerS2tt ≤ slIdx then rootTable ctx (slIdx / s2ttesPerS2tt) else ctx.gRtt

/-- Descend from table `tbl` at level `i` while the entry for the address is a
table, locking each next table. -/
def walkFrom (s : State) (ctx : S2ttContext) (mapAddr : Word) :
    ℕ → Word → ℤ → Rmm S2ttWalk
  | 0, tbl, i => .ok ⟨tbl, s2AddrToIdx mapAddr i, i⟩
  | n + 1, tbl, i =>
    let entry := s.rtt tbl (s2AddrToIdx mapAddr i)
    if entryIsTable entry then do
      let next := s2tteToPa entry s2ttPageLevel ctx.enableLpa2
      granuleLock s next .RTT
      walkFrom s ctx mapAddr n next (i + 1)
    else .ok ⟨tbl, s2AddrToIdx mapAddr i, i⟩

/-- The walk with its entry assertions. The callers lock the first root table,
so that lock is part of the walk here. -/
def s2ttWalkLockUnlock (s : State) (ctx : S2ttContext) (mapAddr : Word) (level : ℤ) :
    Rmm S2ttWalk := do
  granuleLock s ctx.gRtt .RTT
  assertThat (decide (ctx.s2StartingLevel ≤ level) && decide (level ≤ s2ttPageLevel) &&
    decide (mapAddr.toNat < 2 ^ ctx.ipaBits) &&
    decide (ctx.ipaBits ≤ s2tteOaBits ctx.enableLpa2)) .walkArgs
  let slIdx := s2SlAddrToIdx mapAddr ctx.s2StartingLevel ctx.ipaBits
  assertThat (decide (slIdx < s2ttesPerS2tt) || decide (slIdx / s2ttesPerS2tt < ctx.numRootRtts))
    .walkArgs
  granuleLock s (walkRoot ctx mapAddr) .RTT
  walkFrom s ctx mapAddr (level - ctx.s2StartingLevel).toNat (walkRoot ctx mapAddr)
    ctx.s2StartingLevel

/-- The walk of the translation hardware, which reads the tables and no locks. -/
def translateFrom (rtt : Word → ℕ → Word) (ctx : S2ttContext) (mapAddr : Word) :
    ℕ → Word → ℤ → S2ttWalk
  | 0, tbl, i => ⟨tbl, s2AddrToIdx mapAddr i, i⟩
  | n + 1, tbl, i =>
    let entry := rtt tbl (s2AddrToIdx mapAddr i)
    if entryIsTable entry then
      translateFrom rtt ctx mapAddr n (s2tteToPa entry s2ttPageLevel ctx.enableLpa2) (i + 1)
    else ⟨tbl, s2AddrToIdx mapAddr i, i⟩

/-- The entry that ends the translation of an address, with its level. -/
def leafOf (rtt : Word → ℕ → Word) (ctx : S2ttContext) (mapAddr : Word) : Word × ℤ :=
  let wi := translateFrom rtt ctx mapAddr (s2ttPageLevel - ctx.s2StartingLevel).toNat
    (walkRoot ctx mapAddr) ctx.s2StartingLevel
  (rtt wi.gLlt wi.index, wi.lastLevel)

/-- A leaf is in the tables of a realm now and is valid. -/
def validLeaf (rtt : Word → ℕ → Word) (ctx : S2ttContext) (leaf : TlbLeaf) : Bool :=
  let (w, level) := leafOf rtt ctx (BitVec.ofNat 64 leaf.ipa)
  leaf.vmid == ctx.vmid && decide (leaf.ipa < 2 ^ ctx.ipaBits) && level == leaf.level &&
    leaf.ipa % s2tteMapSize level == 0 && (s2tteIsAssignedRam w level || s2tteIsAssignedNs w level)
    && s2ttePa ctx w level == leaf.pa

/-- Write one entry; the hardware may load any leaf that is valid afterwards. -/
def s2tteWrite (s : State) (ctx : S2ttContext) (tbl : Word) (index : ℕ) (s2tte : Word) : State :=
  let rtt := Function.update s.rtt tbl (Function.update (s.rtt tbl) index s2tte)
  { s with
    rtt := rtt
    tlb := fun leaf => s.tlb leaf || validLeaf rtt ctx leaf }

/-- A TLBI by IPA hits the leaves of the VMID whose range contains the address. -/
def tlbiHits (ctx : S2ttContext) (ipa : ℕ) (leaf : TlbLeaf) : Bool :=
  leaf.vmid == ctx.vmid && decide (leaf.ipa ≤ ipa) &&
    decide (ipa < leaf.ipa + s2tteMapSize leaf.level)

/-- One TLBI for each page of the range; what is still valid may come back. -/
def stage2TlbiIpa (s : State) (ctx : S2ttContext) (ipa : Word) (size : ℕ) : State :=
  { s with
    tlb := fun leaf =>
      (s.tlb leaf && !((List.range (size / granuleSize)).any fun k =>
          tlbiHits ctx (ipa.toNat + k * granuleSize) leaf)) ||
        validLeaf s.rtt ctx leaf }

def s2ttInvalidatePage (s : State) (ctx : S2ttContext) (addr : Word) : State :=
  stage2TlbiIpa s ctx addr granuleSize

def s2ttInvalidateBlock (s : State) (ctx : S2ttContext) (addr : Word) : State :=
  stage2TlbiIpa s ctx addr granuleSize

def s2ttInvalidatePagesInBlock (s : State) (ctx : S2ttContext) (addr : Word) : State :=
  stage2TlbiIpa s ctx addr (granuleSize * s2ttesPerS2tt)

/-- Write the first `n` entries of a table that is not linked yet. -/
def s2ttInit (old : ℕ → Word) (n : ℕ) (entry : ℕ → Word) : ℕ → Word :=
  fun i => if i < n then entry i else old i

/-- The address of entry `i` of a table that maps a block from `pa` on. -/
def blockPa (pa : Word) (level : ℤ) (i : ℕ) : Word :=
    pa + BitVec.ofNat 64 (i * s2tteMapSize level)

def s2ttInitUnassigned (r : Ripas) (old : ℕ → Word) : ℕ → Word :=
  s2ttInit old s2ttesPerS2tt fun _ => s2tteCreateUnassigned r

def s2ttInitUnassignedNs (old : ℕ → Word) : ℕ → Word :=
  s2ttInit old s2ttesPerS2tt fun _ => s2tteCreateUnassignedNs

def s2ttInitAssigned (r : Ripas) (ctx : S2ttContext) (pa : Word) (level : ℤ)
    (old : ℕ → Word) :
    ℕ → Word :=
  s2ttInit old s2ttesPerS2tt fun i =>
    s2tteCreateAssigned ctx (blockPa pa level i) level (invalidRipas r)

def s2ttInitAssignedNs (ctx : S2ttContext) (attrs pa : Word) (level : ℤ) (old : ℕ → Word) :
    ℕ → Word :=
  s2ttInit old s2ttesPerS2tt fun i =>
    s2tteCreateAssignedNs ctx
      ((attrs &&& s2tteNsAttrMask) ||| paToS2tte (blockPa pa level i) ctx.enableLpa2) level

def tableIsUniformBlock (table : ℕ → Word) (isX : Word → Bool) : Bool :=
  (List.range s2ttesPerS2tt).all fun i => isX (table i)

/-- All entries are of one kind and map consecutive addresses from a base that
is aligned to the level above. -/
def tableMapsBlock (ctx : S2ttContext) (table : ℕ → Word) (level : ℤ)
    (isX : Word → ℤ → Bool)
    (checkNsAttrs : Bool) : Bool :=
  let basePa := s2ttePa ctx (table 0) level
  isX (table 0) level && s2tteIsAddrLvlAligned ctx basePa (level - 1) &&
    (List.range s2ttesPerS2tt).all fun i =>
      i == 0 || (isX (table i) level && s2ttePa ctx (table i) level == blockPa basePa level i &&
        (!checkNsAttrs || table 0 &&& s2tteNsAttrMask == table i &&& s2tteNsAttrMask))

/-- The first address at or after the walked entry that is live, or the end of
the table. -/
def s2ttSkipNonLiveEntries (addr : Word) (table : ℕ → Word) (wi : S2ttWalk) : Word :=
  if s2tteIsLive (table wi.index) then addr
  else
    let mapSize := s2tteMapSize wi.lastLevel
    let base := addr.toNat / mapSize * mapSize
    let skipped := ((List.range (s2ttesPerS2tt - (wi.index + 1))).takeWhile fun k =>
      !s2tteIsLive (table (wi.index + 1 + k))).length
    BitVec.ofNat 64 (base + (skipped + 1) * mapSize)

end RmmCaec
