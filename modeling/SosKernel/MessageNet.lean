import SosKernel.MessagePosting

/-! # Sending messages to the links, `message_net.c`

Which links are compiled in, and which addresses the UART and the I2C bus have, is one
configuration. The answers of the router and of the allocators are inputs; what an allocator
returns may depend on the heap. The monitors, the log and the links themselves are not shown. -/
namespace MessageNet

open HeapBlocks SlabPools MessageQueue MessagePosting
open HeapLayout (einval)

def sosMsgRadioIo : ℕ := 0x200
def sosMsgI2cIo : ℕ := 0x400
def sosMsgUartIo : ℕ := 0x800
def sosMsgSpiIo : ℕ := 0x1000
def sosMsgAllLinkIo : ℕ := 0x1E00
def sosMsgLinkAuto : ℕ := 0x2000
def sosMsgRaw : ℕ := 0x4000
def kerRoutingPid : ℕ := 20

inductive Link where
  | radio
  | i2c
  | uart
  | spi
  deriving DecidableEq, Repr

def Link.io : Link → ℕ
  | .radio => sosMsgRadioIo
  | .i2c => sosMsgI2cIo
  | .uart => sosMsgUartIo
  | .spi => sosMsgSpiIo

def flagMsgFrom (l : Link) (flag : ℕ) : Bool := flag &&& l.io ≠ 0

def flagMsgLinkAuto (flag : ℕ) : Bool := flag &&& sosMsgLinkAuto ≠ 0
def flagMsgRaw (flag : ℕ) : Bool := flag &&& sosMsgRaw ≠ 0

/-- A build of the kernel. `uart` and `i2c` are `check_uart_address` and `check_i2c_address`, or
`none` if the link is not compiled in. -/
structure Config extends Platform where
  ehtons : ℕ → ℕ
  radio : Bool
  uart : Option (ℕ → Bool)
  i2c : Option (ℕ → Bool)
  spi : Bool

def Config.has (c : Config) : Link → Bool
  | .radio => c.radio
  | .i2c => c.i2c.isSome
  | .uart => c.uart.isSome
  | .spi => c.spi

def Config.noLinks (c : Config) : Bool := !c.uart.isSome && !c.i2c.isSome && !c.radio && !c.spi

def Config.onUart (c : Config) (addr : ℕ) : Bool := c.uart.any (fun check => check addr)

def Config.onI2c (c : Config) (addr : ℕ) : Bool := c.i2c.any (fun check => check addr)

/-- What the router and the allocators answer: the memory for a pool of headers and for the data
of the copy for a link, and for the header of a `MSG_PKT_SENDDONE`. -/
structure Answers where
  route : ℤ
  pool : Link → Heap → ℕ
  block : Link → Heap → ℕ
  senddonePool : Heap → ℕ

inductive Place where
  | mem (a : ℕ)
  | payload (it : Item)
  | header (it : Item)
  deriving DecidableEq, Repr

def Data.place (it : Item) : Data → Place
  | .mem a => .mem a
  | .payload => .payload it
  | .header j => .header j

/-- What becomes of headers; `noCopy` is a `msg_duplicate` that returns `NULL`. -/
inductive Use where
  | enqueued (it : Item)
  | disposed (it : Item)
  | senddone (it : Item)
  | handed (l : Link) (it : Item)
  | noCopy (l : Link)
  deriving DecidableEq, Repr

structure Net where
  store : Store
  q : Mq Item
  mem : Place → ℕ → UInt8
  uses : List Use

def Net.setMsg (s : Net) (it : Item) (hdr : Message Data) : Net :=
  { s with store := s.store.setMsg it hdr }

def Net.use (s : Net) (u : Use) : Net := { s with uses := s.uses ++ [u] }

def Net.dispose (s : Net) (it : Item) : Option Net :=
  (msgDispose s.store it).map (fun st => { s with store := st }.use (.disposed it))

variable (c : Config)

def msgChangeEndian (hdr : Message Data) : Message Data :=
  { hdr with daddr := c.ehtons hdr.daddr, saddr := c.ehtons hdr.saddr }

def releaseData (st : Store) (it : Item) : Store :=
  let hdr := st.msgs it
  if flagMsgRelease hdr.flag then
    { st with
      heap := freeData st.heap hdr.data
      msgs := Function.update st.msgs it { hdr with flag := hdr.flag &&& 0xFFFB, data := .mem 0 }
      log := st.log ++ (carried hdr).map .freed }
  else st

def msgSendSenddone (st : Store) (q : Mq Item) (msgSent : Item) (succ : Bool) (msgOwner : ℕ)
    (pool : Heap → ℕ) : Option (Store × Mq Item) :=
  if flagMsgReliable (st.msgs msgSent).flag then
    let st := releaseData st msgSent
    (postLonger c.toPlatform st q (st.msgs msgSent).sid msgOwner msgPktSenddone c.sizeofMessage
      (.header msgSent) (if succ then 0 else sosMsgSendFail) c.nodeAddress (pool st.heap)).bind
        (fun r => if r.2.2 < 0 then (msgDispose r.1 msgSent).map (·, r.2.1) else some (r.1, r.2.1))
  else (msgDispose st msgSent).map (·, q)

/-- Copy the header with its own payload, and `len` bytes of data to the block `d`. -/
def copyTo (s : Net) (m it : Item) (d : ℕ) : Net :=
  let hdr := s.store.msgs m
  let mcopy := { hdr with data := .mem d, flag := hdr.flag ||| sosMsgRelease }
  { s with
    store := { s.store.setMsg it mcopy with
      heap := kerMalloc s.store.heap d kerSchedPid
      log := s.store.log ++ (carried mcopy).map .posted }
    mem := fun p i =>
      if p = .payload it then s.mem (.payload m) i
      else if p = .mem d ∧ i < hdr.len then s.mem (Data.place m hdr.data) i
      else s.mem p i }

/-- `msg_duplicate`, with what `msg_create` and `ker_malloc` get. -/
def msgDuplicate (s : Net) (m : Item) (pool block : Heap → ℕ) : Option (Net × Option Item) :=
  match msgCreate s.store (pool s.store.heap) with
  | (st, none) => some ({ s with store := st }, none)
  | (st, some it) =>
    let s := { s with store := st }
    let d := block st.heap
    if d = 0 ∧ (st.msgs m).len ≠ 0 then (s.dispose it).map (·, none)
    else some (copyTo s m it d, some it)

structure Copies where
  net : Net
  mcopy : Link → Option Item
  msgCount : ℕ

def Copies.add (k : Copies) (l : Link) (it : Item) : Copies :=
  { k with mcopy := Function.update k.mcopy l (some it), msgCount := k.msgCount + 1 }

def selects (l : Link) (flag : ℕ) : Bool := c.has l && flagMsgFrom l flag

def takeRadio (m : Item) (k : Copies) : Copies :=
  if selects c .radio (k.net.store.msgs m).flag then k.add .radio m else k

/-- The other links; `error` is the jump to `dispatch_cleanup`. -/
def takeLink (a : Answers) (m : Item) (l : Link) (k : Copies) : Option (Except Copies Copies) :=
  if selects c l (k.net.store.msgs m).flag then
    if k.msgCount = 0 then some (.ok (k.add l m))
    else
      (msgDuplicate k.net m (a.pool l) (a.block l)).map (fun r =>
        match r.2 with
        | none => .error { k with net := r.1.use (.noCopy l) }
        | some it =>
          let hdr := r.1.store.msgs it
          .ok ({ k with net := r.1.setMsg it { hdr with flag := hdr.flag &&& 0xFFF7 } }.add l it))
  else some (.ok k)

def takeLinks (a : Answers) (m : Item) : List Link → Copies → Option (Except Copies Copies)
  | [], k => some (.ok k)
  | l :: ls, k =>
    (takeLink c a m l k).bind (fun
      | .ok k' => takeLinks a m ls k'
      | .error k' => some (.error k'))

def handOver (k : Copies) (s : Net) (l : Link) : Net :=
  match k.mcopy l with
  | none => s
  | some it => (s.setMsg it (msgChangeEndian c (s.store.msgs it))).use (.handed l it)

def dispatchCleanup (k : Copies) : List Link → Net → Option Net
  | [], s => some s
  | l :: ls, s =>
    match k.mcopy l with
    | none => dispatchCleanup k ls s
    | some it => (s.dispose it).bind (fun s' => dispatchCleanup k ls s')

def linkDispatch (a : Answers) (s : Net) (m : Item) : Option (Net × ℤ) :=
  (takeLinks c a m [.uart, .i2c, .spi] (takeRadio c m ⟨s, fun _ => none, 0⟩)).bind (fun
    | .ok k => some ([Link.radio, .uart, .i2c, .spi].foldl (handOver c k) k.net, 0)
    | .error k =>
      (dispatchCleanup k [.radio, .i2c, .uart, .spi] k.net).map (fun s' => (s', -enomem)))

/-- The flags after `sos_msg_find_right_link`, for what the two address checks say. -/
def rightFlags (onUart onI2c : Bool) (flag : ℕ) : ℕ :=
  let flag := if onUart then flag ||| sosMsgUartIo else flag &&& 0xF7FF
  let flag := if onI2c then flag ||| sosMsgI2cIo else flag &&& 0xFBFF
  if onUart || onI2c then flag &&& 0xFDFF else flag ||| sosMsgRadioIo

/-- `sos_msg_find_right_link`: the header, and whether a link was found. -/
def sosMsgFindRightLink (hdr : Message Data) : Message Data × Bool :=
  ({ hdr with flag := rightFlags (c.onUart hdr.daddr) (c.onI2c hdr.daddr) hdr.flag },
    c.onUart hdr.daddr || c.onI2c hdr.daddr)

def selectedDispatch (a : Answers) (s : Net) (m : Item) : Option (Net × ℤ) :=
  if (s.store.msgs m).flag &&& sosMsgAllLinkIo = 0 then (s.dispose m).map (·, 0)
  else linkDispatch c a s m

def autoDispatch (a : Answers) (s : Net) (m : Item) : Option (Net × ℤ) :=
  let hdr := s.store.msgs m
  if flagMsgLinkAuto hdr.flag ∧ hdr.daddr ≠ bcastAddress then
    selectedDispatch c a (s.setMsg m (sosMsgFindRightLink c hdr).1) m
  else selectedDispatch c a s m

def sosMsgDispatch (a : Answers) (s : Net) (m : Item) : Option (Net × ℤ) :=
  let hdr := s.store.msgs m
  if c.nodeAddress = hdr.daddr then
    (schedMsgAlloc s.store s.q m).map (fun r =>
      ({ s with store := r.1, q := r.2 }.use (.enqueued m), 0))
  else if c.noLinks then (s.dispose m).map (·, -einval)
  else if hdr.daddr ≠ bcastAddress ∧ flagMsgRaw hdr.flag = false then
    let r := sosMsgFindRightLink c hdr
    let s := s.setMsg m r.1
    if r.2 = false ∧ a.route = 1 then (s.dispose m).map (·, 0)
    else if r.2 = false ∧ a.route = 0 then
      (msgSendSenddone c s.store s.q m true kerRoutingPid a.senddonePool).map (fun r =>
        ({ s with store := r.1, q := r.2 }.use (.senddone m), 0))
    else autoDispatch c a s m
  else autoDispatch c a s m

end MessageNet
