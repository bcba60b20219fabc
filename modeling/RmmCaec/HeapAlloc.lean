import RmmCaec.ByteMemory

/-!
# The heap

The crypto library gets its memory from a buffer that is cut into blocks. A header of eight
words stands before each block and links it to its neighbours and, while the block is free,
into the list of free blocks. All of this lies in the same bytes as the memory that is
handed out.
-/
namespace RmmCaec

open ByteMemory

/-- The words of `struct memory_header_s`. -/
inductive HeaderField
  | magic1
  | size
  | alloc
  | prev
  | next
  | prevFree
  | nextFree
  | magic2
  deriving DecidableEq, Repr

def HeaderField.offset : HeaderField → ℕ
  | .magic1 => 0
  | .size => 8
  | .alloc => 16
  | .prev => 24
  | .next => 32
  | .prevFree => 40
  | .nextFree => 48
  | .magic2 => 56

/-- `sizeof(struct memory_header_s)`. -/
def headerSize : ℕ := 64

/-- `MBEDTLS_MEMORY_ALIGN_MULTIPLE`. -/
def alignMultiple : ℕ := 8

def headerMagic1 : ℕ := 0xFF00AA55
def headerMagic2 : ℕ := 0xEE119966

/-- `MBEDTLS_MEMORY_VERIFY_ALLOC` and `MBEDTLS_MEMORY_VERIFY_FREE`. -/
def memoryVerifyAlloc : ℕ := 1
def memoryVerifyFree : ℕ := 2

def getField (m : Bytes) (p : ℕ) (f : HeaderField) : ℕ := loadLe m 8 (p + f.offset)

def setField (m : Bytes) (p : ℕ) (f : HeaderField) (v : ℕ) : Bytes :=
    storeLe m 8 (p + f.offset) v

/-- A write behind a pointer that may be NULL. -/
def setFieldIf (m : Bytes) (p : ℕ) (f : HeaderField) (v : ℕ) : Bytes :=
  if p = 0 then m else setField m p f v

/-- `struct buffer_alloc_ctx`; NULL is zero. -/
structure BufferAllocCtx where
  buf : ℕ
  len : ℕ
  first : ℕ
  firstFree : ℕ
  verify : ℕ
  deriving DecidableEq, Repr

/-- A zeroed context. -/
instance : Inhabited BufferAllocCtx := ⟨⟨0, 0, 0, 0, 0⟩⟩

/-- A context with the memory that it works on. -/
structure Heap where
  ctx : BufferAllocCtx
  mem : Bytes

/-- A failed assertion, or a loop over the headers that never ends. -/
inductive HeapFault
  | assertion
  | endless
  deriving DecidableEq, Repr

/-- The heap has the checks of a kind switched on. -/
def BufferAllocCtx.verifies (c : BufferAllocCtx) (kind : ℕ) : Bool := c.verify &&& kind != 0

def verifyHeader (m : Bytes) (hdr : ℕ) : ℕ :=
  if getField m hdr .magic1 ≠ headerMagic1 then 1
  else if getField m hdr .magic2 ≠ headerMagic2 then 1
  else if getField m hdr .alloc > 1 then 1
  else if getField m hdr .prev ≠ 0 ∧ getField m hdr .prev = getField m hdr .next then 1
  else if getField m hdr .prevFree ≠ 0 ∧
    getField m hdr .prevFree = getField m hdr .nextFree then 1
  else 0

/-- A pointer has 64 bits: a loop that is known by one pointer and takes more turns never ends. -/
def headerBound : ℕ := 2 ^ 64

def verifyChainFrom (m : Bytes) : ℕ → ℕ → ℕ → Except HeapFault ℕ
  | 0, _, _ => .error .endless
  | fuel + 1, prv, cur =>
    if cur = 0 then .ok 0
    else if verifyHeader m cur ≠ 0 then .ok 1
    else if getField m cur .prev ≠ prv then .ok 1
    else verifyChainFrom m fuel cur (getField m cur .next)

def verifyChain (h : Heap) : Except HeapFault ℕ :=
  let prv := h.ctx.first
  if prv = 0 ∨ verifyHeader h.mem prv ≠ 0 then .ok 1
  else if getField h.mem prv .prev ≠ 0 then .ok 1
  -- a turn of this loop is known by two pointers
  else verifyChainFrom h.mem (headerBound * headerBound) prv (getField h.mem prv .next)

/-- Take a header out of the list of free blocks. Its own links stay. -/
def unlinkFree (h : Heap) (cur : ℕ) : Heap :=
  let prevFree := getField h.mem cur .prevFree
  let m := setFieldIf h.mem prevFree .nextFree (getField h.mem cur .nextFree)
  let nextFree := getField m cur .nextFree
  { ctx := { h.ctx with firstFree := if prevFree = 0 then nextFree else h.ctx.firstFree }
    mem := setFieldIf m nextFree .prevFree (getField m cur .prevFree) }

/-- Put `new` in the place of `cur`. -/
def replaceFree (h : Heap) (new cur : ℕ) : Heap :=
  let m := setField h.mem new .prevFree (getField h.mem cur .prevFree)
  let m := setField m new .nextFree (getField m cur .nextFree)
  let prevFree := getField m new .prevFree
  let m := setFieldIf m prevFree .nextFree new
  { ctx := { h.ctx with firstFree := if prevFree = 0 then new else h.ctx.firstFree }
    mem := setFieldIf m (getField m new .nextFree) .prevFree new }

/-- The first free block of at least `len` bytes, or NULL. -/
def findFit (m : Bytes) (len : ℕ) : ℕ → ℕ → Except HeapFault ℕ
  | 0, _ => .error .endless
  | fuel + 1, cur =>
    if cur = 0 then .ok 0
    else if getField m cur .size ≥ len then .ok cur
    else findFit m len fuel (getField m cur .nextFree)

/-- The bytes that a request takes in its block, if they can be counted. -/
def requestLen (n size : BitVec 64) : Option ℕ :=
  let len := (n * size).toNat
  if n = 0 ∨ size = 0 ∨ (n * size) / n ≠ size then none
  else if len > 2 ^ 64 - alignMultiple then none
  else if len % alignMultiple ≠ 0 then some (len - len % alignMultiple + alignMultiple)
  else some len

/-- The rest of the block is too small for a block of its own. -/
def takeWhole (h : Heap) (cur : ℕ) : Heap :=
  let h := unlinkFree { h with mem := setField h.mem cur .alloc 1 } cur
  { h with mem := setField (setField h.mem cur .prevFree 0) cur .nextFree 0 }

/-- A header for a free block of `size` bytes, linked behind `cur`. -/
def writeHeader (m : Bytes) (cur new size : ℕ) : Bytes :=
  let m := setField m new .size size
  let m := setField m new .alloc 0
  let m := setField m new .prev cur
  let m := setField m new .next (getField m cur .next)
  let m := setField m new .magic1 headerMagic1
  let m := setField m new .magic2 headerMagic2
  setFieldIf m (getField m new .next) .prev new

/-- Split `cur` behind its first `len` bytes; the rest takes its place among the free. -/
def takeSplit (h : Heap) (cur len : ℕ) : Heap :=
  let new := cur + headerSize + len
  let m := writeHeader h.mem cur new (getField h.mem cur .size - len - headerSize)
  let h := replaceFree { h with mem := m } new cur
  let m := setField h.mem cur .alloc 1
  let m := setField m cur .size len
  let m := setField m cur .next new
  let m := setField m cur .prevFree 0
  { h with mem := setField m cur .nextFree 0 }

/-- `assert(verify_chain(heap) == 0)`, or what stands in its place when a block is freed. -/
def assertChain (h : Heap) (kind : ℕ) (expected : ℕ → Bool) : Except HeapFault Unit :=
  if h.ctx.verifies kind then do
    if expected (← verifyChain h) then return () else .error .assertion
  else .ok ()

/-- The address of the memory, or NULL. -/
def bufferAllocCallocWithHeap (h : Heap) (n size : BitVec 64) : Except HeapFault (Heap × ℕ) :=
  if h.ctx.buf = 0 ∨ h.ctx.first = 0 then .ok (h, 0)
  else
    match requestLen n size with
    | none => .ok (h, 0)
    | some len => do
      let cur ← findFit h.mem len headerBound h.ctx.firstFree
      if cur = 0 then return (h, 0)
      else if getField h.mem cur .alloc ≠ 0 then .error .assertion
      else
        let h :=
          if getField h.mem cur .size - len < headerSize + alignMultiple then takeWhole h cur
          else takeSplit h cur len
        assertChain h memoryVerifyAlloc (· == 0)
        let ret := cur + headerSize
        return ({ h with mem := fill h.mem ret (n * size).toNat 0 }, ret)

/-- Regroup with the block before. The result is the header of the group. -/
def regroupBefore (m : Bytes) (hdr : ℕ) : Bytes × ℕ :=
  let before := getField m hdr .prev
  let m := setField m before .size
    (getField m before .size + (headerSize + getField m hdr .size))
  let m := setField m before .next (getField m hdr .next)
  let m := setFieldIf m (getField m before .next) .prev before
  (fill m hdr headerSize 0, before)

/-- Regroup with the block behind, whose place among the free `hdr` takes. -/
def regroupAfter (h : Heap) (hdr : ℕ) : Heap :=
  let old := getField h.mem hdr .next
  let m := setField h.mem hdr .size
    (getField h.mem hdr .size + (headerSize + getField h.mem old .size))
  let m := setField m hdr .next (getField m old .next)
  let h := { h with mem := m }
  let h := if getField h.mem hdr .prevFree ≠ 0 ∨ getField h.mem hdr .nextFree ≠ 0
    then unlinkFree h hdr else h
  let h := replaceFree h hdr old
  let m := setFieldIf h.mem (getField h.mem hdr .next) .prev hdr
  { h with mem := fill m old headerSize 0 }

/-- Put a block in front of the free ones. -/
def pushFree (h : Heap) (hdr : ℕ) : Heap :=
  let m := setField h.mem hdr .nextFree h.ctx.firstFree
  { ctx := { h.ctx with firstFree := hdr }
    mem := setFieldIf m h.ctx.firstFree .prevFree hdr }

/-- The block at this address exists and is free. -/
def freeNeighbour (m : Bytes) (hdr : ℕ) : Bool := hdr != 0 && getField m hdr .alloc == 0

/-- The block becomes free, in one piece with its free neighbours. Only a block that has none
is new in the list. -/
def releaseBlock (h : Heap) (hdr : ℕ) : Heap :=
  let m := setField h.mem hdr .alloc 0
  let before := freeNeighbour m (getField m hdr .prev)
  let group := if before then regroupBefore m hdr else (m, hdr)
  let hdr := group.2
  let h := { h with mem := group.1 }
  let after := freeNeighbour h.mem (getField h.mem hdr .next)
  let h := if after then regroupAfter h hdr else h
  if before || after then h else pushFree h hdr

/-- The assertion at the end expects `verify_chain` to find an error. -/
def bufferAllocFreeWithHeap (h : Heap) (ptr : ℕ) : Except HeapFault Heap := do
  if ptr = 0 ∨ h.ctx.buf = 0 ∨ h.ctx.first = 0 then return h
  else if ptr < h.ctx.buf ∨ ptr ≥ (h.ctx.buf + h.ctx.len) % 2 ^ 64 then .error .assertion
  else
    let hdr := (ptr + 2 ^ 64 - headerSize) % 2 ^ 64
    if verifyHeader h.mem hdr ≠ 0 then .error .assertion
    else if getField h.mem hdr .alloc ≠ 1 then .error .assertion
    else
      let h := releaseBlock h hdr
      assertChain h memoryVerifyFree (· != 0)
      return h

def mbedtlsMemoryBufferAllocInit (m : Bytes) (buf len : ℕ) : Heap :=
  if len < headerSize + alignMultiple then ⟨default, m⟩
  else
    let skip := if buf % alignMultiple ≠ 0 then alignMultiple - buf % alignMultiple else 0
    let buf := buf + skip
    let len := len - skip
    let m := fill m buf len 0
    let m := setField m buf .size (len - headerSize)
    let m := setField m buf .magic1 headerMagic1
    { ctx := { buf := buf, len := len, first := buf, firstFree := buf, verify := 0 }
      mem := setField m buf .magic2 headerMagic2 }

def mbedtlsMemoryBufferSetVerify (h : Heap) (verify : ℕ) : Heap :=
  { h with ctx := { h.ctx with verify := verify } }

def mbedtlsMemoryBufferAllocFree (h : Heap) : Heap := { h with ctx := default }

end RmmCaec
