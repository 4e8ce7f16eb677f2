import SosKernel.ByteMemory

/-! # Code memory, `codemem.c`

Flash is a plain page store. One page of it may be held in RAM, written back when
another page is written or on a flush; `flash_cache_addr` zero means that no page of
flash is held. Allocation is a bitmap of pages and a list of handles. `none` stands
for an access outside an array or through a null pointer. -/
namespace CodeMemory

open ByteMemory

def codememMaxLoadableModules : ℕ := 16
def codememInvalid : ℕ := 0xffff
def enomem : ℤ := 12
def enoent : ℤ := 2

/-- A platform: its flash pages and the width of its `int`. -/
structure Config where
  flashmemPageSize : ℕ
  startPage : ℕ
  flashNumPages : ℕ
  intMod : ℕ
  page_pos : 0 < flashmemPageSize
  start_pos : 0 < startPage
  addr_fits : (startPage + flashNumPages) * flashmemPageSize ≤ 2 ^ 32

variable (c : Config)

def Config.flashStartPageAddr : ℕ := c.startPage * c.flashmemPageSize

def Config.flashBitmapLength : ℕ := (c.flashNumPages + 7) / 8 % 256

structure CodememHdr where
  startAddr : ℕ
  size : ℕ
  salt : ℕ
  deriving DecidableEq, Repr

structure State where
  flash : Mem
  flashCachePage : Option Mem
  flashCacheAddr : ℕ
  flashAllocBitmap : List Bool
  codememHandleList : List (Option CodememHdr)
  codememSalt : ℕ

def codememInit (flash : Mem) : State :=
  ⟨flash, none, 0, List.replicate (8 * c.flashBitmapLength) false,
    List.replicate codememMaxLoadableModules none, 0⟩

def flashRead (flash : Mem) (addr n : ℕ) : List UInt8 :=
  (List.range n).map (fun i => flash (addr + i))

def writePage (flash : Mem) (addr : ℕ) (page : Mem) : Mem :=
  fun a => if addr ≤ a ∧ a < addr + c.flashmemPageSize then page (a - addr) else flash a

def flashErase (flash : Mem) (addr size : ℕ) : Mem :=
  fun a => if addr ≤ a ∧ a < addr + size then 0xff else flash a

def blit (m : Mem) : ℕ → List UInt8 → Mem
  | _, [] => m
  | a, b :: buf => blit (store m a b) (a + 1) buf

def pageAddr (addr : ℕ) : ℕ := addr - addr % c.flashmemPageSize

/-- `codemem_cache_alloc`; `page` is what `ker_malloc` gives, with its old contents. -/
def codememCacheAlloc (s : State) (page : Option Mem) : Option State :=
  match s.flashCachePage with
  | some _ => some s
  | none => page.map (fun p => { s with flashCachePage := some p, flashCacheAddr := 0 })

def codememCacheFlush (s : State) : State :=
  match s.flashCachePage with
  | some page =>
    { s with
      flash := writePage c s.flash s.flashCacheAddr page
      flashCachePage := none
      flashCacheAddr := 0 }
  | none => s

def loadPage (s : State) (page : Mem) (start : ℕ) : State :=
  if s.flashCacheAddr = start then s
  else
    let flash := if s.flashCacheAddr ≠ 0 then writePage c s.flash s.flashCacheAddr page else s.flash
    { s with
      flash := flash
      flashCachePage := some (fun o => flash (start + o))
      flashCacheAddr := start }

def codememCacheWrite (s : State) (addr : ℕ) (buf : List UInt8) : Option State :=
  s.flashCachePage.bind (fun page =>
    let s1 := loadPage c s page (pageAddr c addr)
    s1.flashCachePage.map (fun p =>
      { s1 with flashCachePage := some (blit p (addr % c.flashmemPageSize) buf) }))

/-- `codemem_cache_read`: the page in RAM serves the first page of the range only. -/
def codememCacheRead (s : State) (addr n : ℕ) : Option (List UInt8) :=
  if s.flashCacheAddr = pageAddr c addr then
    let offset := addr % c.flashmemPageSize
    let k := min (c.flashmemPageSize - offset) n
    if k = 0 then some (flashRead s.flash addr n)
    else s.flashCachePage.map (fun page =>
      flashRead page offset k ++ flashRead s.flash (addr + k) (n - k))
  else some (flashRead s.flash addr n)

def writePages : ℕ → State → ℕ → List UInt8 → Option State
  | 0, _, _, _ => none
  | fuel + 1, s, addr, buf =>
    if c.flashmemPageSize < buf.length then
      (codememCacheWrite c s addr (buf.take c.flashmemPageSize)).bind (fun s' =>
        writePages fuel s' (addr + c.flashmemPageSize) (buf.drop c.flashmemPageSize))
    else if buf.length ≠ 0 then codememCacheWrite c s addr buf
    else some s

section

variable (s : State)

def kerCodememDirectWrite (startAddr : ℕ) (buf : List UInt8) (offset : ℕ)
    (page : Option Mem) : Option (State × ℤ) :=
  match codememCacheAlloc s page with
  | none => some (s, -enomem)
  | some s1 =>
    let addr := startAddr + offset
    let remaining := c.flashmemPageSize - addr % c.flashmemPageSize
    (if remaining < buf.length then
      (codememCacheWrite c s1 addr (buf.take remaining)).bind (fun s2 =>
        writePages c buf.length s2 (addr + remaining) (buf.drop remaining))
    else writePages c (buf.length + 1) s1 addr buf).map (fun s' => (s', 0))

/-- `check_codemem_t` and the header it checks. An index of 16 passes the bound check and
reads past the list. -/
def checkCodememT (cm : ℕ) : Option (Option CodememHdr) :=
  let realH := cm % 256
  if codememMaxLoadableModules < realH then some none
  else s.codememHandleList[realH]?.map (fun entry =>
    entry.filter (fun hdr => hdr.salt = cm / 256 % 256))

def liveHdr (cm : ℕ) : Option CodememHdr := (checkCodememT s cm).join

def kerCodememWrite (cm : ℕ) (buf : List UInt8) (offset : ℕ) (page : Option Mem) :
    Option (State × ℤ) :=
  (checkCodememT s cm).bind (fun r =>
    match r with
    | none => some (s, -enoent)
    | some hdr => kerCodememDirectWrite c s hdr.startAddr buf offset page)

/-- `ker_codemem_read` with the bytes it puts into the buffer. -/
def kerCodememRead (cm n offset : ℕ) : Option (List UInt8 × ℤ) :=
  (checkCodememT s cm).bind (fun r =>
    match r with
    | none => some ([], -enoent)
    | some hdr => (codememCacheRead c s (hdr.startAddr + offset) n).map (fun bs => (bs, 0)))

/-- `ker_codemem_flush` does not look at its handle. -/
def kerCodememFlush : State × ℤ := (codememCacheFlush c s, 0)

end

def setRun (val : Bool) : ℕ → ℕ → List Bool → List Bool
  | 0, _, bits => bits
  | n + 1, i, bits => setRun val n (i + 1) (bits.set i val)

/-- `flash_setbitmap`; the loop over the first byte does not check its index. -/
def flashSetbitmap (bits : List Bool) (start length : ℕ) (val : Bool) : Option (List Bool) :=
  let first := start / 8 % 256 * 8 + start % 8
  if length = 0 then some bits
  else if bits.length ≤ first then none
  else some (setRun val length first bits)

def numBlocks (size : ℕ) : ℕ :=
  (size + (c.flashmemPageSize - 1)) % c.intMod / c.flashmemPageSize % 256

/-- The first fit scan: the index of the bit at which `free_blocks` reaches the count. -/
def firstFit (blocks : ℕ) : List Bool → ℕ → ℕ → Option ℕ
  | [], _, _ => none
  | b :: bits, i, free =>
    let free' := if b then 0 else (free + 1) % 256
    if free' = blocks then some i else firstFit blocks bits (i + 1) free'

def pageOffset (page : ℕ) : ℤ := Int.bmod (page * c.flashmemPageSize) c.intMod

/-- `flash_alloc`. A page that cannot be allocated in RAM is reported as an address. -/
def flashAlloc (s : State) (size : ℕ) (page : Option Mem) : Option (State × ℕ) :=
  match codememCacheAlloc s page with
  | none => some (s, 2 ^ 32 - 12)
  | some s1 =>
    match firstFit (numBlocks c size) s1.flashAllocBitmap 0 0 with
    | none => some (s1, 0)
    | some i =>
      let first := i + 1 - numBlocks c size
      (flashSetbitmap s1.flashAllocBitmap first (numBlocks c size) true).map (fun bits =>
        ({ s1 with flashAllocBitmap := bits },
          ((c.flashStartPageAddr + pageOffset c first) % 2 ^ 32).toNat))

def flashFree (s : State) (addr size : ℕ) : Option State :=
  let b := (addr + 2 ^ 32 - c.flashStartPageAddr) % 2 ^ 32 / c.flashmemPageSize % 65536
  (flashSetbitmap s.flashAllocBitmap b (numBlocks c size) false).map (fun bits =>
    { s with flashAllocBitmap := bits, flash := flashErase s.flash addr size })

/-- `ker_codemem_alloc`; `hdrMem` says whether there is memory for the header. -/
def kerCodememAlloc (s : State) (size : ℕ) (hdrMem : Bool) (page : Option Mem) :
    Option (State × ℕ) :=
  let i := s.codememHandleList.findIdx Option.isNone
  if i = s.codememHandleList.length then some (s, codememInvalid)
  else if hdrMem = false then some (s, codememInvalid)
  else (flashAlloc c s size page).map (fun r =>
    if r.2 = 0 then (r.1, codememInvalid)
    else
      let salt := (r.1.codememSalt + 1) % 256
      ({ r.1 with
        codememHandleList := r.1.codememHandleList.set i (some ⟨r.2, size, salt⟩)
        codememSalt := salt }, i + salt * 256))

def kerCodememFree (s : State) (cm : ℕ) : Option (State × ℤ) :=
  (checkCodememT s cm).bind (fun r =>
    match r with
    | none => some (s, -enoent)
    | some hdr => (flashFree c s hdr.startAddr hdr.size).map (fun s' =>
      ({ s' with codememHandleList := s'.codememHandleList.set (cm % 256) none }, 0)))

end CodeMemory
