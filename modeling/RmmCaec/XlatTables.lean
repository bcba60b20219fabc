import RmmCaec.Tables
import RmmCaec.XlatContexts

/-!
# Building the tables of stage 1

The tables of a context are filled region by region. The recursion descends one level at a
time and in each table walks over the entries that the region meets. An entry that lies
within the region may become a block; otherwise a table is put there, and the recursion goes
on inside it. The tables are read through the addresses that their descriptors hold.
-/
namespace RmmCaec

/-- The pages that a context has for its tables. They are part of the image of the monitor,
so that every table descriptor can hold their addresses. -/
structure XlatPool where
  tables : Word
  tablesNum : ℕ
  aligned : 4096 ∣ tables.toNat
  some_table : 0 < tablesNum
  pool_end : tables.toNat + 4096 * tablesNum ≤ 2 ^ 48
  /-- The index of every entry of the array is a 32 bit number. -/
  pool_entries : 512 * tablesNum ≤ 2 ^ 32

/-- The address of a table of the pool. -/
def XlatPool.table (pool : XlatPool) (k : ℕ) : Word :=
  pool.tables + BitVec.ofNat 64 (8 * xlatTableEntries * k)

/-- The tables of a context, and the words that are stored in them. -/
structure XlatCtxTbls where
  pool : XlatPool
  nextTable : ℕ
  initialized : Bool
  mem : Word → ℕ → Word

def XlatCtxTbls.write (tbls : XlatCtxTbls) (table : Word) (idx : ℕ) (desc : Word) : XlatCtxTbls :=
  { tbls with mem := fun t i => if t = table ∧ i = idx then desc else tbls.mem t i }

/-- `XLAT_INIT_CTX_TBLS`, for a pool of which the words are arbitrary. -/
def xlatInitCtxTbls (pool : XlatPool) (mem : Word → ℕ → Word) : XlatCtxTbls :=
  ⟨pool, 0, false, mem⟩

inductive XlatAction
  | ACTION_NONE
  | ACTION_WRITE_BLOCK_ENTRY
  | ACTION_CREATE_NEW_TABLE
  | ACTION_RECURSE_INTO_TABLE
  deriving DecidableEq, Repr

def xlatTableGetEmpty (tbls : XlatCtxTbls) : Xlat (Word × XlatCtxTbls) := do
  xlatAssert (tbls.nextTable < tbls.pool.tablesNum) .noFreeTable
  return (tbls.pool.table tbls.nextTable, { tbls with nextTable := tbls.nextTable + 1 })

def xlatTablesFindStartVa (mm : XlatMmapRegion) (tableBaseVa : Word) (level : ℤ) : Word :=
  if mm.baseVa > tableBaseVa then mm.baseVa &&& ~~~xlatBlockMask level else tableBaseVa

def xlatTablesVaToIndex (tableBaseVa va : Word) (level : ℤ) : ℕ :=
  ((va - tableBaseVa) >>> xlatAddrShift level).toNat % 2 ^ 32

/-- The last address of a region. -/
def XlatMmapRegion.endVa (mm : XlatMmapRegion) : Word := mm.baseVa + mm.size - 1#64

/-- The last address that an entry covers. -/
def xlatEntryEndVa (tableEntryBaseVa : Word) (level : ℤ) : Word :=
  tableEntryBaseVa + xlatBlockSize level - 1#64

def xlatTablesMapRegionAction (arch : XlatArch) (mm : XlatMmapRegion)
    (descType destPa tableEntryBaseVa : Word) (level : ℤ) : Xlat XlatAction :=
  if mm.baseVa ≤ tableEntryBaseVa ∧ mm.endVa ≥ xlatEntryEndVa tableEntryBaseVa level then
    if level = 3 then
      if descType = pageDesc then .ok .ACTION_NONE
      else if descType ≠ invalidDesc then .error .descriptor
      else .ok .ACTION_WRITE_BLOCK_ENTRY
    else if descType = tableDesc then .ok .ACTION_RECURSE_INTO_TABLE
    else if descType = invalidDesc then
      if destPa &&& xlatBlockMask level ≠ 0#64 ∨ level < xlatMinBlockLvl arch ∨
          mm.granularity < xlatBlockSize level then .ok .ACTION_CREATE_NEW_TABLE
      else .ok .ACTION_WRITE_BLOCK_ENTRY
    else if descType ≠ blockDesc then .error .descriptor
    else .ok .ACTION_NONE
  else if mm.baseVa ≤ xlatEntryEndVa tableEntryBaseVa level ∨ mm.endVa ≥ tableEntryBaseVa then
    if level ≥ 3 then .error .level
    else if descType = invalidDesc then .ok .ACTION_CREATE_NEW_TABLE
    else if descType ≠ tableDesc then .error .descriptor
    else .ok .ACTION_RECURSE_INTO_TABLE
  else .ok .ACTION_NONE

section
variable (arch : XlatArch) (cfg : XlatCtxCfg) (mm : XlatMmapRegion)

/-- The recursion into a subtable: its base address, the subtable, and what it returns. -/
abbrev XlatSubtable := Word → Word → XlatCtxTbls → Xlat (Word × XlatCtxTbls)

/-- The body of the loop. An address is returned where the loop ends early. -/
def xlatMapEntry (level : ℤ) (sub : XlatSubtable) (tableBase : Word) (tableIdx : ℕ)
    (tableIdxVa : Word) (tbls : XlatCtxTbls) : Xlat (Option Word × XlatCtxTbls) := do
  let desc := tbls.mem tableBase tableIdx
  let tableIdxPa := mm.basePa + tableIdxVa - mm.baseVa
  let early := fun endVa => if endVa ≠ xlatEntryEndVa tableIdxVa level then some endVa else none
  match ← xlatTablesMapRegionAction arch mm (desc &&& descMask) tableIdxPa tableIdxVa level with
  | .ACTION_WRITE_BLOCK_ENTRY =>
    let desc ← xlatDesc arch mm.attr tableIdxPa level
    return (none, tbls.write tableBase tableIdx desc)
  | .ACTION_CREATE_NEW_TABLE =>
    let (subtable, tbls) ← xlatTableGetEmpty tbls
    let (endVa, tbls) ← sub tableIdxVa subtable
      (tbls.write tableBase tableIdx (tableDesc ||| subtable))
    return (early endVa, tbls)
  | .ACTION_RECURSE_INTO_TABLE =>
    let (endVa, tbls) ← sub tableIdxVa (xlatGetOaFromTte arch desc) tbls
    return (early endVa, tbls)
  | .ACTION_NONE => return (none, tbls)

/-- The loop over the entries of a table; the number counts the entries that are left. -/
def xlatMapEntries (level : ℤ) (sub : XlatSubtable) (tableBase : Word) :
    ℕ → ℕ → Word → XlatCtxTbls → Xlat (Word × XlatCtxTbls)
  | 0, _, tableIdxVa, tbls => return (tableIdxVa - 1#64, tbls)
  | left + 1, tableIdx, tableIdxVa, tbls => do
    let (early, tbls) ← xlatMapEntry arch mm level sub tableBase tableIdx tableIdxVa tbls
    match early with
    | some endVa => return (endVa, tbls)
    | none =>
      let tableIdxVa := tableIdxVa + xlatBlockSize level
      if mm.endVa ≤ tableIdxVa then return (tableIdxVa - 1#64, tbls)
      else xlatMapEntries level sub tableBase left (tableIdx + 1) tableIdxVa tbls

/-- One table of `xlat_tables_map_region`. -/
def xlatMapTable (level : ℤ) (sub : XlatSubtable) (tableBaseVa tableBase : Word)
    (tableEntries : ℕ) (tbls : XlatCtxTbls) : Xlat (Word × XlatCtxTbls) := do
  xlatAssert (decide (level ≥ cfg.baseLevel) && decide (level ≤ xlatTableLevelMax)) .level
  xlatAssert (tableEntries ≤ xlatGetTableEntries arch level) .tableEntries
  let tableIdxVa := xlatTablesFindStartVa mm tableBaseVa level
  let tableIdx := xlatTablesVaToIndex tableBaseVa tableIdxVa level
  xlatMapEntries arch mm level sub tableBase (tableEntries - tableIdx) tableIdx tableIdxVa tbls

/-- `xlat_tables_map_region`, by the number of levels that are below. -/
def xlatTablesMapRegion : ℕ → Word → Word → ℕ → XlatCtxTbls →
    Xlat (Word × XlatCtxTbls)
  | 0 => xlatMapTable arch cfg mm (levelOf 0) fun _ _ _ => .error .level
  | h + 1 => xlatMapTable arch cfg mm (levelOf (h + 1)) fun va table tbls =>
    xlatTablesMapRegion h va table xlatTableEntries tbls

end

/-- The number of levels below the base level of a context. -/
def XlatCtxCfg.top (cfg : XlatCtxCfg) : ℕ := (xlatTableLevelMax - cfg.baseLevel).toNat

/-- The loop over the regions. -/
def xlatMapRegions (arch : XlatArch) (cfg : XlatCtxCfg) :
    List XlatMmapRegion → XlatCtxTbls → Xlat (XlatRet × XlatCtxTbls)
  | [], tbls => return (none, tbls)
  | mm :: rest, tbls => do
    let (endVa, tbls) ← xlatTablesMapRegion arch cfg mm cfg.top 0#64 tbls.pool.tables
      (xlatGetTableEntries arch cfg.baseLevel) tbls
    if endVa ≠ mm.endVa then return (some .ENOMEM, tbls)
    else xlatMapRegions arch cfg rest tbls

/-- The loops that make all tables invalid. -/
def xlatClearTables (tbls : XlatCtxTbls) : XlatCtxTbls :=
  (List.range tbls.pool.tablesNum).foldl (fun tbls j =>
    (List.range xlatTableEntries).foldl (fun tbls i =>
      tbls.write (tbls.pool.table j) i invalidDesc) tbls) tbls

/-- The first table is the base table. -/
def xlatTakeBase (tbls : XlatCtxTbls) : XlatCtxTbls :=
  { tbls with nextTable := tbls.nextTable + 1 }

def xlatInitTablesCtx (arch : XlatArch) (cfg : XlatCtxCfg) (tbls : XlatCtxTbls) :
    Xlat (XlatRet × XlatCtxTbls) := do
  match ← xlatMapRegions arch cfg cfg.mmap (xlatTakeBase (xlatClearTables tbls)) with
  | (some e, tbls) => return (some e, tbls)
  | (none, tbls) => return (none, { tbls with initialized := true })

/-- The table in which a walk ends, its level, and the first address below it. -/
structure XlatLltInfo where
  table : Word
  level : ℤ
  lltBaseVa : Word

/-- The loop of `find_xlat_last_table`, by the number of levels that are below. -/
def findXlatLastTableFrom (arch : XlatArch) (tbls : XlatCtxTbls) (vaOffset : Word) :
    ℕ → Word → Word → XlatLltInfo
  | 0, table, tableBaseVa => ⟨table, levelOf 0, tableBaseVa⟩
  | h + 1, table, tableBaseVa =>
    let level := levelOf (h + 1)
    let idx := xlatTableIdx vaOffset level
    let desc := tbls.mem table idx
    if desc &&& descMask ≠ tableDesc then ⟨table, level, tableBaseVa⟩
    else findXlatLastTableFrom arch tbls vaOffset h (xlatGetOaFromTte arch desc)
      (tableBaseVa + xlatBlockSize level * BitVec.ofNat 64 idx)

/-- The page of an address, relative to the start of its context. -/
def xlatVaOffset (cfg : XlatCtxCfg) (va : Word) : Word := (va - cfg.baseVa) &&& ~~~pageSizeMask

/-- `find_xlat_last_table`: nothing for an address outside the VA space. -/
def findXlatLastTable (arch : XlatArch) (cfg : XlatCtxCfg) (tbls : XlatCtxTbls) (va : Word) :
    Option XlatLltInfo :=
  if va < cfg.baseVa then none
  else if xlatVaOffset cfg va ≥ cfg.maxVaSize then none
  else some (findXlatLastTableFrom arch tbls (xlatVaOffset cfg va) cfg.top
    tbls.pool.tables cfg.baseVa)

/-- The level at which the walk of an address ends, and the descriptor that is there. -/
def xlatWalk (arch : XlatArch) (cfg : XlatCtxCfg) (tbls : XlatCtxTbls) (va : Word) :
    Option (ℤ × Word) :=
  (findXlatLastTable arch cfg tbls va).map fun llt =>
    (llt.level, tbls.mem llt.table (xlatTableIdx (xlatVaOffset cfg va) llt.level))

end RmmCaec
