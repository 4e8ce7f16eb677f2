import SosKernel.MessageQueue
import SosKernel.SlabPools

/-! # Posting and dispatching messages, `message.c`, `message_queue.c` and `sched.c`

Headers come from the message slab, payloads that a message releases from the heap. `do_dispatch`
runs the handlers of the monitors and of the destination while it works on a message, so it is
three kinds of event: it takes a message off the queue, it delivers it, and the handler returns.
What handlers call comes between them. The bytes of payloads are not shown. -/
namespace MessagePosting

open HeapBlocks SlabPools MessageQueue HeapLayout Function

def sosMsgFromNetwork : ℕ := 0x100
def sosMsgReliable : ℕ := 0x8
def sosMsgRelease : ℕ := 0x4
def sosMsgSendFail : ℕ := 0x2
def sosMsgRulesPromiscuous : ℕ := 0x40
def msgPktSenddone : ℕ := 3
def kerSchedPid : ℕ := 2
def msgQueuePid : ℕ := 11
def bcastAddress : ℕ := 0xFFFF
def enomem : ℤ := 12

def flagMsgFromNetwork (flag : ℕ) : Bool := flag &&& sosMsgFromNetwork ≠ 0
def flagMsgReliable (flag : ℕ) : Bool := flag &&& sosMsgReliable ≠ 0
def flagMsgRelease (flag : ℕ) : Bool := flag &&& sosMsgRelease ≠ 0

/-- Where a message's `data` points: a block or other memory (`0` is `NULL`), the header's own
`payload`, or another header. -/
inductive Data where
  | mem (a : ℕ)
  | payload
  | header (it : Item)
  deriving DecidableEq, Repr

def Data.block : Data → List ℕ
  | .mem a => if a = 0 then [] else [a]
  | .payload | .header _ => []

def freeData (h : Heap) : Data → Heap
  | .mem a => kerFree h a
  | .payload | .header _ => h

def changeOwnData (h : Heap) (pid : ℕ) : Data → Heap
  | .mem a => kerChangeOwn h a pid
  | .payload | .header _ => h

def carried (m : Message Data) : List ℕ := if flagMsgRelease m.flag then m.data.block else []

inductive Entry where
  | created (it : Item)
  | disposed (it : Item)
  | posted (a : ℕ)
  | freed (a : ℕ)
  | taken (a : ℕ)
  deriving DecidableEq, Repr

/-- The source does not keep `held`, the blocks that modules hold, nor the log. -/
structure Store where
  slab : Slab
  heap : Heap
  msgs : Item → Message Data
  held : List ℕ
  log : List Entry

/-- The local variables of `do_dispatch`, with the flags of the destination module if it exists;
`inner_msg` is `none` if it is `NULL`. -/
structure Dispatch where
  e : Item
  innerMsg : Option Data
  senddoneDstPid : ℕ
  handle : Option ℕ
  deriving DecidableEq, Repr

inductive Phase where
  | idle
  | monitor (d : Dispatch)
  | handler (d : Dispatch)
  deriving DecidableEq, Repr

structure State where
  store : Store
  q : Mq Item
  phase : Phase

def Store.setMsg (st : Store) (it : Item) (m : Message Data) : Store :=
  { st with msgs := update st.msgs it m }

def msgCreate (st : Store) (pool : ℕ) : Store × Option Item :=
  match kerSlabAlloc st.slab st.heap pool msgQueuePid with
  | (slab, heap, some it) =>
    ({ st with
      slab := slab
      heap := heap
      msgs := update st.msgs it { st.msgs it with data := .payload, flag := 0 }
      log := st.log ++ [.created it] }, some it)
  | (slab, heap, none) => ({ st with slab := slab, heap := heap }, none)

/-- `none` is `ker_panic`. -/
def msgDispose (st : Store) (it : Item) : Option Store :=
  let m := st.msgs it
  let h := if flagMsgRelease m.flag then freeData st.heap m.data else st.heap
  (kerSlabFree st.slab h (.slab it)).map (fun r =>
    { st with
      slab := r.1
      heap := r.2
      log := st.log ++ (carried m).map .freed ++ [.disposed it] })

/-- `msg_dispose(inner_msg)`. Memory that is in no pool of the slab makes `ker_slab_free` panic; a
pointer into a header would be read as another header, which is not shown. -/
def disposeInner (st : Store) : Data → Option Store
  | .header it => msgDispose st it
  | .mem _ | .payload => none

def schedMsgAlloc (st : Store) (q : Mq Item) (it : Item) : Option (Store × Mq Item) :=
  let m := st.msgs it
  let h := if flagMsgRelease m.flag then changeOwnData st.heap kerSchedPid m.data else st.heap
  (mqEnqueue q m.flag it).map (fun q' => ({ st with heap := h }, q'))

structure Platform where
  nodeAddress : ℕ
  sizeofMessage : ℕ

variable (plat : Platform)

def postLonger (st : Store) (q : Mq Item) (did sid type len : ℕ) (data : Data)
    (flag saddr pool : ℕ) : Option (Store × Mq Item × ℤ) :=
  let m : Message Data := ⟨did, sid, plat.nodeAddress, saddr, type, len, data, flag⟩
  -- a released payload is the kernel's from here on
  match msgCreate { st with
    held := st.held.diff (carried m), log := st.log ++ (carried m).map .posted } pool with
  | (st1, none) =>
    let h := if flagMsgRelease flag then freeData st1.heap data else st1.heap
    some ({ st1 with heap := h, log := st1.log ++ (carried m).map .freed }, q, -enomem)
  | (st1, some it) => (schedMsgAlloc (st1.setMsg it m) q it).map (fun r => (r.1, r.2, 0))

/-- The part of `post_short` and `ker_sys_post_value` after `msg_create`. The cast to
`sos_ker_flag_t` keeps only the low byte of the flags. -/
def postPayload (st : Store) (q : Mq Item) (it : Item) (did sid type len flag : ℕ) :
    Option (Store × Mq Item) :=
  schedMsgAlloc (st.setMsg it ⟨did, sid, plat.nodeAddress, plat.nodeAddress, type, len, .payload,
    flag &&& 0xFB⟩) q it

def postShort (st : Store) (q : Mq Item) (did sid type flag pool : ℕ) :
    Option (Store × Mq Item × ℤ) :=
  match msgCreate st pool with
  | (st1, none) => some (st1, q, -enomem)
  | (st1, some it) => (postPayload plat st1 q it did sid type 3 flag).map (fun r => (r.1, r.2, 0))

def kerSysPostValue (st : Store) (q : Mq Item) (did myId type flag pool : ℕ) :
    Option (Store × Mq Item × ℤ) :=
  match msgCreate st pool with
  | (_, none) => none
  | (st1, some it) => (postPayload plat st1 q it did myId type 4 flag).map (fun r => (r.1, r.2, 0))

def takenFrom (st : Store) (msgIn : Item) : Option Item :=
  if (st.msgs msgIn).type = msgPktSenddone then
    match (st.msgs msgIn).data with
    | .header it => some it
    | .mem _ | .payload => none
  else some msgIn

def withoutData (m : Message Data) : Message Data :=
  { m with len := 0, data := .mem 0, flag := m.flag &&& 0xFFFB }

/-- `new` is what `ker_malloc` returns for a copy of the data. -/
def kerMsgTakeData (st : Store) (pid : ℕ) (msgIn : Item) (new : ℕ) : Option Store :=
  (takenFrom st msgIn).map (fun it =>
    let m := st.msgs it
    if flagMsgRelease m.flag then
      { st with
        heap := changeOwnData st.heap pid m.data
        msgs := update st.msgs it (withoutData m)
        held := st.held ++ m.data.block
        log := st.log ++ m.data.block.map .taken }
    else { st with heap := kerMalloc st.heap new pid, held := st.held ++ (Data.mem new).block })

def schedMessageFiltered (handleFlag : ℕ) (m : Message Data) : Bool :=
  flagMsgFromNetwork m.flag ∧ handleFlag &&& sosMsgRulesPromiscuous = 0 ∧
    m.daddr ≠ plat.nodeAddress ∧ m.daddr ≠ bcastAddress

def beginDispatch (st : Store) (e : Item) (handle : Option ℕ) : Dispatch :=
  let m := st.msgs e
  { e := e
    innerMsg := if m.type = msgPktSenddone ∧ m.data ≠ .mem 0 then some m.data else none
    senddoneDstPid := if flagMsgReliable m.flag then m.sid else nullPid
    handle := handle }

def finishDispatch (st : Store) (q : Mq Item) (d : Dispatch) (senddoneFlag pool : ℕ) :
    Option (Store × Mq Item) :=
  match d.innerMsg with
  | some inner => ((disposeInner st inner).bind (fun st1 => msgDispose st1 d.e)).map (·, q)
  | none =>
    if d.senddoneDstPid ≠ nullPid then
      (postLonger plat st q d.senddoneDstPid kerSchedPid msgPktSenddone plat.sizeofMessage
        (.header d.e) senddoneFlag plat.nodeAddress pool).bind (fun r =>
          if r.2.2 < 0 then (msgDispose r.1 d.e).map (·, r.2.1) else some (r.1, r.2.1))
    else (msgDispose st d.e).map (·, q)

inductive Event where
  | postShort (did sid type flag pool : ℕ)
  | postLong (did sid type len data flag saddr pool : ℕ)
  | postValue (did sid type flag pool : ℕ)
  | malloc (p pid : ℕ)
  | free (p : ℕ)
  | dispatch (handle : Option ℕ)
  | take (pid new : ℕ)
  | deliver (pool : ℕ)
  | ret (ok : Bool) (pool : ℕ)
  deriving DecidableEq, Repr

def Phase.current : Phase → Option Item
  | .idle => none
  | .monitor d | .handler d => some d.e

/-- One event; `none` if it cannot happen or if the source panics. -/
def step (s : State) : Event → Option State
  | .postShort did sid type flag pool =>
    (postShort plat s.store s.q did sid type flag pool).map (fun r =>
      { s with store := r.1, q := r.2.1 })
  | .postLong did sid type len data flag saddr pool =>
    (postLonger plat s.store s.q did sid type len (.mem data) flag saddr pool).map (fun r =>
      { s with store := r.1, q := r.2.1 })
  | .postValue did sid type flag pool =>
    (kerSysPostValue plat s.store s.q did sid type flag pool).map (fun r =>
      { s with store := r.1, q := r.2.1 })
  | .malloc p pid =>
    some { s with store := { s.store with
      heap := kerMalloc s.store.heap p pid
      held := s.store.held ++ (Data.mem p).block } }
  | .free p =>
    some { s with store := { s.store with
      heap := kerFree s.store.heap p
      held := s.store.held.erase p } }
  | .dispatch handle =>
    if s.phase = .idle then
      let r := mqDequeue s.q
      some { s with
        q := r.1
        phase := r.2.elim .idle (fun e => .monitor (beginDispatch s.store e handle)) }
    else none
  | .take pid new =>
    s.phase.current.bind (fun e =>
      (kerMsgTakeData s.store pid e new).map (fun st => { s with store := st }))
  | .deliver pool =>
    match s.phase with
    | .monitor d =>
      let m := s.store.msgs d.e
      if d.handle.any (fun handleFlag => !schedMessageFiltered plat handleFlag m) then
        let h := if flagMsgRelease m.flag then changeOwnData s.store.heap m.did m.data
          else s.store.heap
        some { s with store := { s.store with heap := h }, phase := .handler d }
      else (finishDispatch plat s.store s.q d sosMsgSendFail pool).map (fun r => ⟨r.1, r.2, .idle⟩)
    | .idle | .handler _ => none
  | .ret ok pool =>
    match s.phase with
    | .handler d =>
      (finishDispatch plat s.store s.q d (if ok then 0 else sosMsgSendFail) pool).map (fun r =>
        ⟨r.1, r.2, .idle⟩)
    | .idle | .monitor _ => none

/-- What the allocator and the modules guarantee: new blocks are new, modules post no
`MSG_PKT_SENDDONE` of their own, and they release and free only blocks that they hold. -/
def Legal (s : State) : Event → Prop
  | .postShort _ _ type _ pool | .postValue _ _ type _ pool =>
    type ≠ msgPktSenddone ∧ pool ∉ addrs s.store.heap
  | .postLong _ _ type _ data flag _ pool =>
    type ≠ msgPktSenddone ∧ pool ∉ addrs s.store.heap ∧
      (flagMsgRelease flag → data = 0 ∨ data ∈ s.store.held)
  | .malloc p _ => p ∉ addrs s.store.heap
  | .free p => p ∈ s.store.held
  | .take _ new => new ∉ addrs s.store.heap
  | .deliver pool | .ret _ pool => pool ∉ addrs s.store.heap
  | .dispatch _ => True

def Enabled (s : State) : Event → Prop
  | .postValue _ _ _ _ pool => (takeItem s.store.slab.pools).isSome ∨ pool ≠ 0
  | .dispatch _ => s.phase = .idle
  | .take _ _ => s.phase ≠ .idle
  | .deliver _ => ∃ d, s.phase = .monitor d
  | .ret _ _ => ∃ d, s.phase = .handler d
  | .postShort _ _ _ _ _ | .postLong _ _ _ _ _ _ _ _ | .malloc _ _ | .free _ => True

/-- After `msg_queue_init` and `mq_init`: no message, and modules hold the blocks `rest`. -/
structure Initial (s : State) (rest : Heap) : Prop where
  slab : WellFormed s.store.slab
  unused : ∀ it, ¬ Allocated s.store.slab.pools it
  backed : Backed s.store.slab msgQueuePid rest s.store.heap
  intact : ∀ b ∈ rest, b.Intact
  held : ∀ a, a ∈ addrs rest ↔ a ∈ s.store.held
  nodup : s.store.held.Nodup
  notNull : 0 ∉ s.store.held
  log : s.store.log = []
  queue : ∀ c, s.q.ends c = ⟨none, none⟩
  phase : s.phase = .idle

end MessagePosting
