import SosKernel.ByteMemory
import Mathlib.Data.Nat.Bitwise

/-! # The block heap of `malloc.c`, build without SFI

Blocks live in a byte memory, so the links of a free area and the user part of a
reserved one share storage, as the union in `Block` has it. `Block*` values are
addresses. Loops over the heap take fuel; `none` means the fuel ran out.
The model of `uint16_t` arithmetic is that of a target whose `int` has 16 bits. -/
namespace HeapLayout

open ByteMemory

/-- Sizes fixed by a platform's `malloc_conf.h` and compiler, and where the heap is. -/
structure MallocConf where
  shiftValue : ℕ
  sizeofBlockHeader : ℕ
  sizeofPointer : ℕ
  mallocHeap : ℕ
  numHeapBlocks : ℕ
  header_holds_fields : 3 ≤ sizeofBlockHeader
  pointer_pos : 0 < sizeofPointer
  links_fit : sizeofBlockHeader + 2 * sizeofPointer ≤ 2 ^ shiftValue
  two_blocks : 2 ≤ numHeapBlocks
  count_below_marks : numHeapBlocks ≤ 0x4000
  heap_not_null : 0 < mallocHeap
  pointers_fit : mallocHeap + numHeapBlocks * 2 ^ shiftValue ≤ 256 ^ sizeofPointer

/-- The members of `Block` that the allocator reads. -/
inductive Field where
  | blocks
  | owner
  | prev
  | next
  deriving DecidableEq, Repr

def reservedBit : ℕ := 0x8000
def gcMark : ℕ := 0x4000
def sizeMask : ℕ := 0x3fff
def nullPid : ℕ := 255
def sosOk : ℤ := 0
def einval : ℤ := 22

variable (c : MallocConf)

def MallocConf.blockSize : ℕ := 2 ^ c.shiftValue

def MallocConf.addr (i : ℕ) : ℕ := c.mallocHeap + i * c.blockSize

def MallocConf.mSentinel : ℕ := c.addr (c.numHeapBlocks - 1)

def MallocConf.blockOverhead : ℕ := c.sizeofBlockHeader + 1

def Field.offset : Field → ℕ
  | .blocks => 0
  | .owner => 2
  | .prev => c.sizeofBlockHeader
  | .next => c.sizeofBlockHeader + c.sizeofPointer

def Field.size : Field → ℕ
  | .blocks => 2
  | .owner => 1
  | .prev => c.sizeofPointer
  | .next => c.sizeofPointer

def MallocConf.get (m : Mem) (p : ℕ) (f : Field) : ℕ := load m (f.size c) (p + f.offset c)

def MallocConf.set (m : Mem) (p : ℕ) (f : Field) (v : ℕ) : Mem :=
  storeWord m (f.size c) (p + f.offset c) v

def userPart (p : ℕ) : ℕ := p + c.sizeofBlockHeader
def toBlockPtr (p : ℕ) : ℕ := p - c.sizeofBlockHeader

def areaSize (m : Mem) (p : ℕ) : ℕ := c.get m p .blocks &&& sizeMask

def isReserved (m : Mem) (p : ℕ) : Prop := c.get m p .blocks &&& reservedBit ≠ 0
  deriving Decidable

def guardAddr (m : Mem) (p : ℕ) : ℕ := p + areaSize c m p * c.blockSize - 1

def blockGuardByte (m : Mem) (p : ℕ) : UInt8 := m (guardAddr c m p)

def blocksToBytes (n : ℕ) : ℕ := (n &&& sizeMask) * c.blockSize - c.sizeofBlockHeader

def reqBlocks (size : ℕ) : ℕ :=
  ((size + c.blockOverhead + c.blockSize - 1) % 65536) >>> c.shiftValue

def unlink (m : Mem) (block : ℕ) : Mem :=
  let m1 := c.set m (c.get m block .prev) .next (c.get m block .next)
  c.set m1 (c.get m1 block .next) .prev (c.get m1 block .prev)

def insertPoint (m : Mem) (block : ℕ) : ℕ → ℕ → Option ℕ
  | 0, _ => none
  | fuel + 1, p =>
    if p < block ∧ p ≠ c.mSentinel then insertPoint m block fuel (c.get m p .next) else some p

def insertAfter (m : Mem) (block : ℕ) : Option Mem := do
  let p ← insertPoint c m block c.numHeapBlocks (c.get m c.mSentinel .next)
  let m1 := c.set m (c.get m p .prev) .next block
  let m2 := c.set m1 block .prev (c.get m1 p .prev)
  let m3 := c.set m2 p .prev block
  some (c.set m3 block .next p)

def mergeBlocks (block : ℕ) : ℕ → Mem → Option Mem
  | 0, _ => none
  | fuel + 1, m =>
    let successor := block + c.get m block .blocks * c.blockSize
    if isReserved c m successor then some m
    else
      let m1 := unlink c m successor
      mergeBlocks block fuel
        (c.set m1 block .blocks (c.get m1 block .blocks + c.get m1 successor .blocks))

def mergeBlocksQuick (block req : ℕ) : ℕ → Mem → Option Mem
  | 0, _ => none
  | fuel + 1, m =>
    let successor := block + c.get m block .blocks * c.blockSize
    if isReserved c m successor then some m
    else
      let m1 := unlink c m successor
      let m2 := c.set m1 block .blocks (c.get m1 block .blocks + c.get m1 successor .blocks)
      if req ≤ c.get m2 block .blocks then some m2 else mergeBlocksQuick block req fuel m2

def splitBlock (m : Mem) (block req : ℕ) : Option Mem :=
  let newBlock := block + req * c.blockSize
  let m1 := c.set m newBlock .blocks (c.get m block .blocks - req)
  let m2 := c.set m1 block .blocks req
  let m3 := c.set m2 newBlock .blocks (c.get m2 newBlock .blocks &&& sizeMask)
  insertAfter c m3 newBlock

/-- The first-fit loop of `sos_blk_mem_alloc`: the memory and the block it stops at. -/
def firstFit (req : ℕ) : ℕ → Mem → ℕ → Option (Mem × ℕ)
  | 0, _, _ => none
  | fuel + 1, m, block =>
    if block = c.mSentinel then some (m, block)
    else do
      let m1 ← mergeBlocksQuick c block req c.numHeapBlocks m
      if req ≤ c.get m1 block .blocks then some (m1, block)
      else firstFit req fuel m1 (c.get m1 block .next)

def reserve (m : Mem) (block id : ℕ) : Mem :=
  let m1 := c.set m block .blocks (c.get m block .blocks ||| reservedBit)
  let m2 := c.set m1 block .owner id
  store m2 (guardAddr c m2 block) (UInt8.ofNat id)

def sosBlkMemAlloc (m : Mem) (size id : ℕ) : Option (Mem × ℕ) :=
  if size = 0 then some (m, 0)
  else do
    let req := reqBlocks c size
    let (m1, block) ← firstFit c req c.numHeapBlocks m (c.get m c.mSentinel .next)
    if block = c.mSentinel then some (m1, 0)
    else do
      let m2 ← if req < c.get m1 block .blocks then splitBlock c m1 block req else some m1
      some (reserve c (unlink c m2 block) block id, userPart c block)

def defragment : ℕ → Mem → ℕ → Option Mem
  | 0, _, _ => none
  | fuel + 1, m, block =>
    if block = c.mSentinel then some m
    else do
      let m1 ← mergeBlocks c block c.numHeapBlocks m
      defragment fuel m1 (c.get m1 block .next)

/-- The pass that keeps the highest block that is large enough; `0` is `NULL`. -/
def highestFit (m : Mem) (req : ℕ) : ℕ → ℕ → ℕ → Option ℕ
  | 0, _, _ => none
  | fuel + 1, block, maxBlock =>
    if block = c.mSentinel then some maxBlock
    else highestFit m req fuel (c.get m block .next)
      (if maxBlock < block ∧ req ≤ c.get m block .blocks then block else maxBlock)

def sosBlkMemLongtermAlloc (m : Mem) (size id : ℕ) : Option (Mem × ℕ) :=
  if size = 0 then some (m, 0)
  else do
    let req := reqBlocks c size
    let m1 ← defragment c c.numHeapBlocks m (c.get m c.mSentinel .next)
    let maxBlock ← highestFit c m1 req c.numHeapBlocks (c.get m1 c.mSentinel .next) 0
    if maxBlock = 0 then some (m1, 0)
    else
      let newBlock := maxBlock + (c.get m1 maxBlock .blocks - req) * c.blockSize
      let m2 :=
        if newBlock = maxBlock then unlink c m1 newBlock
        else c.set (c.set m1 maxBlock .blocks (c.get m1 maxBlock .blocks - req))
          newBlock .blocks req
      some (reserve c m2 newBlock id, userPart c newBlock)

def outsideHeap (block : ℕ) : Prop := block < c.mallocHeap ∨ c.addr c.numHeapBlocks ≤ block
  deriving Decidable

def corrupted (m : Mem) (block : ℕ) : Prop :=
  c.get m block .owner ≠ (blockGuardByte c m block).toNat
  deriving Decidable

def sosBlkMemFree (m : Mem) (pntr : ℕ) : Option Mem :=
  if pntr = 0 then some m
  else
    let baseArea := toBlockPtr c pntr
    if outsideHeap c baseArea then some m
    else if corrupted c m baseArea then some m
    else
      let m1 := c.set m baseArea .blocks (c.get m baseArea .blocks &&& sizeMask)
      insertAfter c (c.set m1 baseArea .owner nullPid) baseArea

def sosBlkMemChangeOwn (m : Mem) (ptr id : ℕ) : Mem × ℤ :=
  let blockptr := toBlockPtr c ptr
  if nullPid = id ∨ ptr = 0 then (m, sosOk)
  else if outsideHeap c blockptr then (m, -einval)
  else if corrupted c m blockptr then (m, -einval)
  else
    let m1 := store m (guardAddr c m blockptr) (UInt8.ofNat id)
    (c.set m1 blockptr .owner id, sosOk)

def removeWalk (id : ℕ) : ℕ → Mem → ℕ → Option Mem
  | 0, _, _ => none
  | fuel + 1, m, block =>
    if block = c.mSentinel then some m
    else do
      let m1 ← if c.get m block .owner = id ∧ isReserved c m block
        then sosBlkMemFree c m (userPart c block) else some m
      removeWalk id fuel m1 (block + areaSize c m1 block * c.blockSize)

def memRemoveAll (m : Mem) (id : ℕ) : Option Mem := removeWalk c id c.numHeapBlocks m c.mallocHeap

def sosBlkMemRealloc (m : Mem) (pntr newSize : ℕ) : Option (Mem × ℕ) :=
  if pntr = 0 ∨ newSize = 0 then some (m, pntr)
  else do
    let block := toBlockPtr c pntr
    let req := reqBlocks c newSize
    let id := c.get m block .owner
    -- expose the size
    let m1 := c.set m block .blocks (c.get m block .blocks &&& 0x7fff)
    let m2 ← mergeBlocks c block c.numHeapBlocks m1
    if req < c.get m2 block .blocks then do
      let m3 ← splitBlock c m2 block req
      some (reserve c m3 block id, userPart c block)
    else if c.get m2 block .blocks < req then do
      let oldSize := blocksToBytes c (c.get m2 block .blocks)
      let m3 := c.set m2 block .blocks (c.get m2 block .blocks ||| reservedBit)
      let (m4, fresh) ← sosBlkMemAlloc c m3 newSize id
      if fresh ≠ 0 then do
        let block' := toBlockPtr c fresh
        let m5 := copy m4 (userPart c block') (userPart c (toBlockPtr c pntr)) oldSize
        let m6 ← sosBlkMemFree c m5 pntr
        some (reserve c m6 block' id, userPart c block')
      else some (m4, 0)
    else some (reserve c m2 block id, userPart c block)

/-- `mem_init`, on whatever the heap section held before. -/
def memInit (m : Mem) : Option Mem :=
  let m1 := c.set m c.mSentinel .blocks 1
  let m2 := c.set m1 c.mSentinel .blocks (c.get m1 c.mSentinel .blocks ||| reservedBit)
  let m3 := c.set (c.set m2 c.mSentinel .prev c.mSentinel) c.mSentinel .next c.mSentinel
  insertAfter c (c.set m3 (c.addr 0) .blocks (c.numHeapBlocks - 1)) (c.addr 0)

end HeapLayout
