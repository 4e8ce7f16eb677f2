import Mathlib.Data.List.Nodup
import SosKernel.WiringEngine

/-! # Tokens in the graph of `wiring_engine.c`

`dispatch` calls the input ports that are ready, and queues a token for those that are busy. When
an element calls `dispatch` itself, it becomes ready, and a continue task is posted for the first
token that is queued for each of its ports.

Elements may call `dispatch` from their input functions, so that the calls nest: the stack is part
of the state, and a step is what happens between two calls or returns. -/
namespace WiringTokens

open WiringEngine GuardedRuns Function

inductive TokenStatus where
  | queued | posted | handled
  deriving DecidableEq, Repr

structure Node where
  serial : ℕ
  token : ℕ
  cb : ℕ
  portId : ℕ
  status : TokenStatus
  deriving DecidableEq, Repr

@[ext]
structure InputPort where
  epid : ℕ
  portId : ℕ
  cb : ℕ
  deriving DecidableEq, Repr

def inputPort (r : Route) : InputPort :=
  ⟨getEpidFromPidPort r.pidPort, getPortFromPidPort r.pidPort, r.cb⟩

/-- An element that runs, for a message of its own, called from `dispatch` or for a continue task;
or a call of `dispatch` with the routes that are left. -/
inductive Frame where
  | task
  | direct (r : Route)
  | continued (epid serial portId : ℕ) (dispatched : Bool)
  | dispatch (callerPid token : ℕ) (routes : List Route)

structure Flow where
  busyBitMask : ℕ → BitVec 8
  mqueue : ℕ → List Node
  pending : List (ℕ × ℕ)
  stack : List Frame
  nextSerial : ℕ
  /-- The tokens that were dispatched to input ports and those that they got, so far. -/
  dispatched : List (InputPort × ℕ)
  delivered : List (InputPort × ℕ)
  /-- An element returned `-EBUSY`, and none with this `epid` has called `dispatch` since. -/
  outstanding : ℕ → Bool

def initial : Flow := ⟨fun _ => 0xFF#8, fun _ => [], [], [], 0, [], [], fun _ => false⟩

def tokensPosted (l : List Node) : Bool := l.any (fun n => n.status = .posted)

def postTokens (epid : ℕ) (mask : ℕ → BitVec 8) :
    ℕ → List Node → (ℕ → BitVec 8) × List Node × List ℕ
  | _, [] => (mask, [], [])
  | posts, n :: l =>
    let pidPort := (epid <<< rtableInputPortBits ||| getPortFromPidPort n.portId) % 256
    if isElementReady mask pidPort ∧ n.status = .queued then
      match posts with
      | 0 => (mask, n :: l, [])
      | posts + 1 =>
        let r := postTokens epid
          (setElementStatus mask epid (getPortFromPidPort n.portId) .elementBusy) posts l
        (r.1, { n with status := .posted } :: r.2.1, n.serial :: r.2.2)
    else
      let r := postTokens epid mask posts l
      (r.1, n :: r.2.1, r.2.2)

def markHandled (serial : ℕ) (l : List Node) : List Node :=
  l.map (fun n => if n.serial = serial then { n with status := .handled } else n)

def removeToken (serial : ℕ) (l : List Node) : List Node := l.filter (fun n => n.serial ≠ serial)

namespace Flow

variable (s : Flow)

def setBusy (epid portId : ℕ) : Flow :=
  { s with
    busyBitMask := setElementStatus s.busyBitMask epid portId .elementBusy
    outstanding := update s.outstanding epid true }

def enqueue (r : Route) (token : ℕ) : Flow :=
  let i := inputPort r
  { s with
    mqueue := update s.mqueue i.epid
      (s.mqueue i.epid ++ [⟨s.nextSerial, token, i.cb, i.portId, .queued⟩])
    nextSerial := s.nextSerial + 1 }

def deliver (i : InputPort) (token : ℕ) : Flow :=
  { s with delivered := s.delivered ++ [(i, token)] }

def noteDispatch (epid : ℕ) : Flow :=
  { s with
    outstanding := update s.outstanding epid false
    stack := s.stack.map (fun
      | .continued e serial portId dispatched => .continued e serial portId (dispatched || e = epid)
      | f => f) }

def setElementReady (epid posts : ℕ) : Flow :=
  if tokensPosted (s.mqueue epid) then s
  else
    let r := postTokens epid (setElementStatus s.busyBitMask epid 0 .elementReady) posts
      (s.mqueue epid)
    { s with
      busyBitMask := r.1
      mqueue := update s.mqueue epid r.2.1
      pending := s.pending ++ r.2.2.map (fun serial => (epid, serial)) }

end Flow

inductive Status where
  | ok | busy | error
  deriving DecidableEq, Repr

inductive Event where
  | task
  | continueTask (epid serial : ℕ)
  | dispatch (pid gid token : ℕ)
  /-- The next input port in the loop of `dispatch`, with the memory for a token. -/
  | route (mem : Bool)
  | endDispatch (posts : ℕ)
  | ret (status : Status)

def Frame.isElement : Frame → Bool
  | .dispatch _ _ _ => false
  | _ => true

/-- `none` also stands for a continue task whose token is not queued any more. -/
def step (routes : ℕ → Option (List Route)) (s : Flow) : Event → Option Flow
  | .task => if s.stack = [] then some { s with stack := [.task] } else none
  | .continueTask epid serial =>
    if s.stack = [] ∧ (epid, serial) ∈ s.pending then
      ((s.mqueue epid).find? (fun n => n.serial = serial)).map (fun n =>
        { s.deliver ⟨epid, n.portId, n.cb⟩ n.token with
          pending := s.pending.erase (epid, serial)
          mqueue := update s.mqueue epid (markHandled serial (s.mqueue epid))
          stack := [.continued epid serial n.portId false] })
    else none
  | .dispatch pid gid token =>
    match s.stack with
    | f :: st =>
      if f.isElement then
        (routes gid).map (fun rs => { s with stack := .dispatch pid token rs :: f :: st })
      else none
    | [] => none
  | .route mem =>
    match s.stack with
    | .dispatch pid token (r :: rs) :: st =>
      let s := { s with
        dispatched := s.dispatched ++ [(inputPort r, token)]
        stack := .dispatch pid token rs :: st }
      some (if isElementReady s.busyBitMask r.pidPort then
          { s.deliver (inputPort r) token with stack := .direct r :: s.stack }
        else if mem then s.enqueue r token else s)
    | _ => none
  | .endDispatch posts =>
    match s.stack with
    | .dispatch pid _ [] :: st =>
      let epid := getEpidFromPid pid
      some (({ s with stack := st }.setElementReady epid posts).noteDispatch epid)
    | _ => none
  | .ret status =>
    match s.stack, status with
    | .task :: st, _ => some { s with stack := st }
    | .direct _ :: st, .ok => some { s with stack := st }
    | .direct r :: st, .busy =>
      some ({ s with stack := st }.setBusy (inputPort r).epid (inputPort r).portId)
    | .direct _ :: _ :: st, .error => some { s with stack := st }
    | .continued epid serial _ _ :: st, .ok => some { s with
        stack := st, mqueue := update s.mqueue epid (removeToken serial (s.mqueue epid)) }
    | .continued epid serial portId _ :: st, .busy => some ({ s with
        stack := st
        mqueue := update s.mqueue epid (removeToken serial (s.mqueue epid)) }.setBusy
          epid portId)
    | .continued _ _ _ _ :: st, .error => some { s with stack := st }
    | _, _ => none

end WiringTokens
