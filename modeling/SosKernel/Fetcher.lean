import SosKernel.CodeMemory
import SosKernel.HeapBlocks
import SosKernel.PointerChain

/-! # The module fetcher, `sos_module_fetcher.c`

Fetch states are heap blocks, linked from `fst`; the contents of a block stay readable
after it is freed, as in the source. Bitmaps are lists of bits, lowest first, eight for
each byte. What allocators and timers answer is an input. `none` stands for an access
through a null pointer or outside a bitmap. -/
namespace Fetcher

open ByteMemory HeapBlocks PointerChain CodeMemory Function

def fetcherFragmentSize : ℕ := 64
def fetcherRequestMaxRetx : ℕ := 3
def fetcherMaxMsgInQueue : ℕ := 2
def kerFetcherPid : ℕ := 16
def kerSchedPid : ℕ := 2
def einval : ℤ := 22

inductive FetchType where
  | module | data
  deriving DecidableEq, Repr

inductive FetchStatus where
  | started | done | queued
  deriving DecidableEq, Repr

structure FetcherCam where
  cm : ℕ
  fetchtype : FetchType
  status : FetchStatus

/-- `fetcher_bitmap_t`; a set bit is a fragment that is missing. -/
structure FetcherBitmap where
  key : ℕ
  bitmap : List Bool

structure FetcherFragment where
  fragId : ℕ
  key : ℕ
  fragment : List UInt8
  size : fragment.length = fetcherFragmentSize

structure FetcherState where
  srcAddr : ℕ
  requester : ℕ
  retx : ℕ
  next : Option ℕ
  map : FetcherBitmap

structure SendMap where
  addr : ℕ
  map : FetcherBitmap

structure State where
  heap : Heap
  states : ℕ → FetcherState
  fst : Option ℕ
  noMemRetry : Bool
  cams : ℕ → Option FetcherCam
  codemem : CodeMemory.State
  sendMap : Option SendMap
  sendDest : ℕ
  numMsgInQueue : ℕ
  done : List FetcherState
  sent : List (ℕ × ℕ)

variable (c : Config)

def State.next (s : State) (p : ℕ) : Option ℕ := (s.states p).next

def State.setState (s : State) (p : ℕ) (f : FetcherState) : State :=
  { s with states := update s.states p f }

lemma states_setState_self (s : State) (p : ℕ) (f : FetcherState) : (s.setState p f).states p = f :=
  update_self ..

lemma states_setState_of_ne (s : State) {p q : ℕ} (f : FetcherState) (h : q ≠ p) :
    (s.setState p f).states q = s.states q :=
  update_of_ne h ..

def setStatus (s : State) (key : ℕ) (status : FetchStatus) : Option State :=
  (s.cams key).map (fun cam =>
    { s with cams := update s.cams key (some { cam with status := status }) })

def checkMap (m : FetcherBitmap) : Bool := m.bitmap.all (fun b => b = false)

def isFetcherSucceed (f : FetcherState) : Bool := f.retx ≤ fetcherRequestMaxRetx

def numFragments (size : ℕ) : ℕ :=
  (size + (fetcherFragmentSize - 1)) % c.intMod / fetcherFragmentSize

/-- All bytes `0xff`, then the last one cut to the bits of fragments. -/
def initialBitmap (n : ℕ) : List Bool :=
  let size := (n + 7) / 8 % 256
  (List.range (8 * size)).map (fun i =>
    if n % 8 ≠ 0 ∧ 8 * (size - 1) ≤ i then decide (i - 8 * (size - 1) < n % 8) else true)

section

variable (s : State)

def enqueue (p key : ℕ) : Option State :=
  match s.fst with
  | none => (setStatus s key .started).map (fun s' => { s' with fst := some p })
  | some _ => (setStatus s key .queued).bind (fun s' =>
    (collect s'.next (s'.heap.length + 1) s'.fst).bind (fun l =>
      l.getLast?.map (fun q => s'.setState q { s'.states q with next := some p })))

/-- `fetcher_request`; `p` is what `ker_malloc` returns. -/
def fetcherRequest (reqId key size src p : ℕ) : Option (State × ℤ) :=
  if (s.cams key).isNone then some (s, -einval)
  else if p = 0 then some (s, -enomem)
  else
    let s1 := { s with heap := kerMalloc s.heap p kerFetcherPid }
    let f : FetcherState := ⟨src, reqId, 0, none, ⟨key, initialBitmap (numFragments c size)⟩⟩
    (enqueue (s1.setState p f) p key).map (fun s' => (s', 0))

def fetcherRestart (p src : ℕ) : Option State :=
  let f := { s.states p with srcAddr := src, retx := 0, next := none }
  enqueue (s.setState p f) p f.map.key

def startNewFetch (p : ℕ) : Option State :=
  match s.next p with
  | none => some { s with fst := none }
  | some q => setStatus { s with fst := some q } (s.states q).map.key .started

def freeSendStateMap : State :=
  { s with heap := s.sendMap.elim s.heap (fun m => kerFree s.heap m.addr), sendMap := none }

def fetcherCancel (key : ℕ) : Option (State × ℤ) :=
  match s.fst with
  | none => some (s, -einval)
  | some p =>
    if (s.states p).map.key = key then
      (startNewFetch s p).map (fun s1 =>
        let s2 := { s1 with heap := kerFree s1.heap p }
        (if s2.sendMap.any (fun m => m.map.key = key) then freeSendStateMap s2 else s2, 0))
    else
      (findPrev s.next (fun q => (s.states q).map.key = key) (s.heap.length + 1) (some p)
        (s.next p)).map (fun r =>
          match r with
          | (some q, some t) =>
            let s1 := s.setState q { s.states q with next := s.next t }
            ({ s1 with heap := kerFree s1.heap t }, 0)
          | _ => (s, -einval))

end

/-- What memory a handler gets. The members `srcAddr`, `requester` and `retx` are the words that
the free list leaves in a fetch state when its block is freed. -/
structure Env where
  msgHeader : Bool
  srcAddr : ℕ
  requester : ℕ
  retx : ℕ
  page : Option Mem

/-- `send_fetcher_done`. A post without a message header frees its payload, the fetch state. -/
def sendFetcherDone (s : State) (env : Env) : Option State :=
  s.fst.bind (fun p =>
    if env.msgHeader then
      let s1 := { s with
        heap := kerChangeOwn s.heap p kerSchedPid
        done := s.done ++ [s.states p] }
      (setStatus s1 (s.states p).map.key .done).bind (fun s2 =>
        startNewFetch { s2 with noMemRetry := false } p)
    else
      let f := { s.states p with
        srcAddr := env.srcAddr, requester := env.requester, retx := env.retx }
      some { s.setState p f with heap := kerFree s.heap p, noMemRetry := true })

def checkMapAndPost (s : State) (env : Env) : Option State :=
  match s.fst with
  | none => some s
  | some p =>
    if checkMap (s.states p).map then
      sendFetcherDone (s.setState p { s.states p with retx := 0 }) env
    else some s

def handleRequestTimeout (s : State) (env : Env) : Option State :=
  match s.fst with
  | none => some s
  | some p =>
    let f := { s.states p with retx := ((s.states p).retx + 1) % 256 }
    if f.retx ≤ fetcherRequestMaxRetx then some (s.setState p f)
    else sendFetcherDone (s.setState p f) env

def clearBit (m : FetcherBitmap) (i : ℕ) : Option FetcherBitmap :=
  m.bitmap[i]?.map (fun _ => { m with bitmap := m.bitmap.set i false })

section

variable (s : State)

def handleOverheardFragment (f : FetcherFragment) : Option State :=
  match s.sendMap with
  | none => some s
  | some m =>
    if m.map.key ≠ f.key then some s
    else (clearBit m.map f.fragId).map (fun b => { s with sendMap := some { m with map := b } })

/-- The part of `handle_data` behind its checks: store the fragment and clear its bit. -/
def storeFragment (p : ℕ) (cam : FetcherCam) (f : FetcherFragment) (env : Env) :
    Option State :=
  (kerCodememWrite c s.codemem cam.cm f.fragment (fetcherFragmentSize * f.fragId % 65536)
    env.page).bind (fun r =>
      let s1 := { s with codemem := r.1 }
      if r.2 ≠ 0 then some s1
      else (clearBit (s.states p).map f.fragId).bind (fun b =>
        checkMapAndPost (s1.setState p { s.states p with map := b }) env))

def handleData (p : ℕ) (f : FetcherFragment) (env : Env) : Option State :=
  let m := (s.states p).map
  if f.key ≠ m.key then some s
  else
    match s.cams f.key with
    | none => some s
    | some cam =>
      m.bitmap[f.fragId]?.bind (fun missing =>
        if missing = false then some s
        -- a module is written from its first fragment on
        else if f.fragId ≠ 0 ∧ m.bitmap.head? = some true ∧ cam.fetchtype = .module then some s
        else storeFragment c s p cam f env)

def handleFragment (f : FetcherFragment) (env : Env) : Option State :=
  (handleOverheardFragment s f).bind (fun s1 =>
    match s1.fst with
    | none => some s1
    | some p => handleData c (s1.setState p { s1.states p with retx := 0 }) p f env)

def handleOverheardRequest : State :=
  s.fst.elim s (fun p => s.setState p { s.states p with retx := 0 })

def handleRequestTimer (env : Env) : Option State :=
  if s.noMemRetry then sendFetcherDone s env else handleRequestTimeout s env

def firstMissing (key : ℕ) : Option Bool :=
  match s.fst with
  | none => some false
  | some p => if (s.states p).map.key = key then (s.states p).map.bitmap.head? else some false

/-- `set_num_funcs_in_send_state`: whether the header of the module can be read. -/
def headerAvailable (key sizeofModHeader : ℕ) : Option Bool :=
  match s.cams key with
  | none => some false
  | some cam =>
    if cam.fetchtype ≠ .module then some true
    else (firstMissing s key).bind (fun missing =>
      if missing then some false
      else (kerCodememRead c s.codemem cam.cm sizeofModHeader 0).map
        (fun r : List UInt8 × ℤ => decide (r.2 = 0)))

end

def orBits : List Bool → List Bool → List Bool
  | a :: l, b :: l' => (a || b) :: orBits l l'
  | l, [] => l
  | [], _ => []

section

variable (s : State)

def maskMissing (m : SendMap) : Option State :=
  match s.fst with
  | none => some { s with sendMap := some m }
  | some p =>
    let f := (s.states p).map
    if f.key ≠ m.map.key then some { s with sendMap := some m }
    else if f.bitmap.length < m.map.bitmap.length then none
    else
      let bits := List.zipWith (fun a b => a && !b) m.map.bitmap f.bitmap
      some { s with sendMap := some { m with map := { m.map with bitmap := bits } } }

/-- `handle_request`; `msg` is the payload with its block. -/
def handleRequest (msg : SendMap) (saddr sizeofModHeader : ℕ) (timerOk : Bool) :
    Option State :=
  match s.sendMap with
  | none =>
    (headerAvailable c s msg.map.key sizeofModHeader).bind (fun ok =>
      if ok && timerOk then
        maskMissing { s with
          heap := kerChangeOwn s.heap msg.addr kerFetcherPid
          sendDest := saddr } msg
      else some s)
  | some m =>
    if m.map.key = msg.map.key then
      maskMissing s { m with map := { m.map with bitmap := orBits m.map.bitmap msg.map.bitmap } }
    else maskMissing s m

def finishSend (m : SendMap) : State :=
  if checkMap m.map then freeSendStateMap { s with sendMap := some m }
  else { s with sendMap := some m }

/-- `send_fragment`; `pktMem` and `postOk` say whether the packet has memory and is accepted. -/
def sendFragment (pktMem postOk : Bool) : Option State :=
  match s.sendMap with
  | none => some s
  | some m =>
    match s.cams m.map.key with
    | none => some (freeSendStateMap s)
    | some cam =>
      let i := m.map.bitmap.findIdx id
      if i = m.map.bitmap.length then some (freeSendStateMap s)
      else
        let m' := { m with map := { m.map with bitmap := m.map.bitmap.set i false } }
        if pktMem = false then some (finishSend s m')
        else
          (kerCodememRead c s.codemem cam.cm fetcherFragmentSize
            (i * fetcherFragmentSize % 65536)).map (fun r =>
              if r.2 ≠ 0 then finishSend s m'
              else finishSend { s with
                sent := s.sent ++ [(m.map.key, i)]
                numMsgInQueue := if postOk then s.numMsgInQueue + 1 else s.numMsgInQueue } m')

def handleTransmitTimer (pktMem postOk : Bool) : Option State :=
  if s.numMsgInQueue < fetcherMaxMsgInQueue then sendFragment c s pktMem postOk else some s

def handleSendDone : State := { s with numMsgInQueue := s.numMsgInQueue - 1 }

end

inductive Event where
  | request (reqId key size src p : ℕ)
  | cancel (key : ℕ)
  | restart (p src : ℕ)
  | fragment (f : FetcherFragment) (env : Env)
  | overheard
  | serve (msg : SendMap) (saddr sizeofModHeader : ℕ) (timerOk : Bool)
  | requestTimer (env : Env)
  | transmitTimer (pktMem postOk : Bool)
  | sendDone

def step (s : State) : Event → Option State
  | .request reqId key size src p => (fetcherRequest c s reqId key size src p).map Prod.fst
  | .cancel key => (fetcherCancel s key).map Prod.fst
  | .restart p src => fetcherRestart s p src
  | .fragment f env => handleFragment c s f env
  | .overheard => some (handleOverheardRequest s)
  | .serve msg saddr sizeofModHeader timerOk => handleRequest c s msg saddr sizeofModHeader timerOk
  | .requestTimer env => handleRequestTimer s env
  | .transmitTimer pktMem postOk => handleTransmitTimer c s pktMem postOk
  | .sendDone => some (handleSendDone s)

end Fetcher
