import Mathlib.Algebra.Ring.Nat
import Mathlib.Data.Finset.Basic
import Mathlib.Data.List.FinRange
import SosKernel.DvmInterpreter
import SosKernel.GuardedRuns

/-! # The scheduler of the virtual machine

`DVMConcurrencyMngr.c`, `DVMScheduler.c`, `DVMEventHandler.c`, `DVMqueue.c` and the instructions of
`DVMBasiclib.c` that stop a script. A script may run after it got the locks of all shared
variables and buffers that the analysis found in it, and gives them back when it halts.

The loop that executes instructions is cut into steps of one instruction: while `computing`, the
handler of a message has not returned. A queue is the list of its members; `context->queue` is a
field of its own, since `queue_init` forgets the members of a queue without telling them. -/
namespace DvmMachine

open DvmInterpreter GuardedRuns Function

abbrev Id := Fin 8
abbrev LockId := Fin 12

scoped instance neZeroEight : NeZero 8 := ⟨Nat.succ_ne_zero 7⟩

def dvmCpuSlice : ℕ := 50
def libIdBit : ℕ := 0x80
def timerPid : ℕ := 4
def msgTimerTimeout : ℕ := 2
def dvmCapsuleReboot : Id := 0

inductive Status where
  | halt | waiting | ready | run | blocked
  deriving DecidableEq, Repr

inductive QueueId where
  | runQueue | readyQueue | getDataWaitQueue
  deriving DecidableEq, Repr

structure Script where
  moduleID : ℕ
  type : ℕ
  dataSize : ℕ
  libraryMask : BitVec 8
  code : ℕ → ℕ

structure Dvm where
  loaded : Id → Bool
  script : Id → Script
  state : Id → Status
  heldSet : Id → Finset LockId
  releaseSet : Id → Finset LockId
  acquireSet : Id → Finset LockId
  queue : Id → Option QueueId
  numExecuted : Id → ℕ
  frame : Id → Frame
  shared : Shared
  usedVars : Id → Finset LockId
  holder : LockId → Option Id
  queues : QueueId → List Id
  runningContext : Option Id
  conLibraries : BitVec 8
  libraries : BitVec 8
  inErrorState : Bool
  taskRunning : Bool
  halted : Bool
  busy : Bool
  executing : Option Id
  runTasks : ℕ
  computing : Bool

/-- What a step gets from outside. Each message `MSG_RUN_TASK` may be lost. -/
structure Reply where
  answer : Answer
  posted : Bool
  sensor : Bool
  /-- What an extension library makes of the stack, the variables and the program counter. -/
  library : Frame
  submitPost : Bool
  nopPost : Bool
  endPost : Bool

namespace Dvm

variable (s : Dvm) (c : Id)

def setState (st : Status) : Dvm := { s with state := update s.state c st }

def setPc (pc : ℕ) : Dvm := { s with frame := update s.frame c { s.frame c with pc := pc } }

def postRunTask (ok : Bool) : Dvm :=
  { s with runTasks := if ok then s.runTasks + 1 else s.runTasks }

def queueEnqueue (q : QueueId) : Dvm :=
  if (s.queue c).isSome then s
  else
    { s with
      queue := update s.queue c (some q)
      queues := update s.queues q (s.queues q ++ [c]) }

def leaveQueue : Dvm :=
  { s with
    queue := update s.queue c none
    queues := fun q => if s.queue c = some q then (s.queues q).erase c else s.queues q }

def dequeued (q : QueueId) (rest : List Id) : Dvm :=
  { s with
    queue := update s.queue c none
    queues := update s.queues q rest }

def isRunnable : Bool := decide (∀ i ∈ s.acquireSet c, s.holder i = none)

def obtainLocks : Dvm :=
  { s with
    heldSet := update s.heldSet c (s.heldSet c ∪ s.acquireSet c)
    acquireSet := update s.acquireSet c ∅
    holder := fun i => if i ∈ s.acquireSet c then some c else s.holder i }

def releaseLocks : Dvm :=
  { s with
    heldSet := update s.heldSet c (s.heldSet c \ s.releaseSet c)
    releaseSet := update s.releaseSet c ∅
    holder := fun i => if i ∈ s.releaseSet c then none else s.holder i }

def releaseAllLocks : Dvm :=
  { s with
    heldSet := update s.heldSet c ∅
    releaseSet := update s.releaseSet c ∅
    holder := fun i => if i ∈ s.heldSet c then none else s.holder i }

/-- The locks that `analyzeVars` finds in a script, from byte `i` on. -/
def locksFrom (code : ℕ → ℕ) (handlerLen : ℕ) : ℕ → ℕ → Finset LockId
  | 0, _ => ∅
  | fuel + 1, i =>
    if i < handlerLen then
      let rest := locksFrom code handlerLen fuel ((i + bytelength (code i)) % 65536)
      match lockNum (code i) with
      | some n => insert (Fin.ofNat 12 n) rest
      | none => rest
    else ∅

def locksOf (script : Script) : Finset LockId :=
  locksFrom script.code script.dataSize script.dataSize 0

/-- `analyzeVars` for all contexts; nothing is found in a script whose libraries are missing. -/
def analyzed : Id → Finset LockId := fun c =>
  if s.loaded c ∧ s.conLibraries &&& (s.script c).libraryMask = (s.script c).libraryMask
  then locksOf (s.script c) else ∅

def initializeContext : Dvm :=
  { s.leaveQueue c with
    heldSet := update s.heldSet c ∅
    releaseSet := update s.releaseSet c ∅
    acquireSet := update s.acquireSet c (s.usedVars c)
    frame := update s.frame c { s.frame c with pc := 0, sp := 0 }
    state := update s.state c .halt
    numExecuted := update s.numExecuted c 0 }

def executeContext (ok : Bool) : Dvm :=
  let s := s.queueEnqueue c .runQueue
  if s.taskRunning then s else { s with taskRunning := true }.postRunTask ok

def schedulerSubmit (ok : Bool) : Dvm := (s.setState c .ready).executeContext c ok

def started (ok : Bool) : Dvm :=
  { (s.obtainLocks c).schedulerSubmit c ok with
    numExecuted := update s.numExecuted c 0 }

def resumeContext (ok : Bool) : Dvm :=
  let s := s.setState c .waiting
  if s.isRunnable c then s.started c ok else s.queueEnqueue c .readyQueue

/-- The loop of `yieldContext` over the contexts that wait for locks. -/
def examine (ok : Bool) : ℕ → Option Id → Dvm → Dvm
  | 0, _, s => s
  | fuel + 1, start, s =>
    match s.queues .readyQueue with
    | [] => s
    | current :: rest =>
      let u := (s.dequeued current .readyQueue rest).resumeContext current ok
      if s.isRunnable current then examine ok fuel start u
      else if start = none then examine ok fuel (some current) u
      else if start = some current then u
      else examine ok fuel start u

/-- Every waiting context is examined once, and the first one that has to go on waiting twice. -/
def yieldContext (ok : Bool) : Dvm :=
  let s := s.releaseLocks c
  examine ok ((s.queues .readyQueue).length + 1) none s

def haltContext (ok : Bool) : Dvm :=
  let t := (s.releaseAllLocks c).yieldContext c ok
  (if t.state c = .halt then t else t.leaveQueue c).setState c .halt

def machine : Machine := ⟨s.frame c, s.shared, false, false, []⟩

def settle (m : Machine) : Dvm :=
  { s with
    frame := update s.frame c m.frame
    shared := m.shared
    state := if m.error then update s.state c .halt else s.state
    inErrorState := s.inErrorState || m.error }

def releaseProcessor (ok : Bool) : Dvm :=
  { s.postRunTask ok with runningContext := none, taskRunning := s.taskRunning && ok }

/-- The condition of the loops of `computeInstruction` and `execute`, and what follows them. -/
def computeNext (ok : Bool) : Dvm :=
  if s.state c = .run ∧ s.numExecuted c < dvmCpuSlice then { s with computing := true }
  else if dvmCpuSlice ≤ s.numExecuted c then { s with computing := false }.postRunTask ok
  else { s with computing := false }.releaseProcessor ok

def computeInstruction (r : Reply) : Dvm :=
  if (s.frame c).pc = 0 ∧
      s.libraries &&& (s.script c).libraryMask ≠ (s.script c).libraryMask
  then { s.haltContext c r.submitPost with runningContext := none }.postRunTask r.endPost
  else s.computeNext c r.endPost

def expire : Dvm :=
  match s.runningContext with
  | some c =>
    if s.state c = .run ∧ dvmCpuSlice ≤ s.numExecuted c then
      { (s.setState c .ready).queueEnqueue c .runQueue with runningContext := none }
    else s
  | none => s

def pick : Dvm :=
  if s.runningContext = none ∧ s.inErrorState = false then
    match s.queues .runQueue with
    | [] => s
    | c :: rest =>
      { (s.dequeued c .runQueue rest).setState c .run with
        numExecuted := update s.numExecuted c 0, runningContext := some c }
  else s

def opdone (r : Reply) : Dvm :=
  if s.halted then { s with taskRunning := false }
  else
    let s := s.expire.pick
    match s.runningContext with
    | none => { s with taskRunning := false }
    | some c => if s.state c = .run then s.computeInstruction c r else s.releaseProcessor r.endPost

def tryget (r : Reply) : Dvm :=
  if r.sensor then
    ({ s with busy := true, executing := some c }.setState c .blocked).yieldContext c r.submitPost
  else (s.setState c .waiting).queueEnqueue c .getDataWaitQueue

def retryPost (r : Reply) : Dvm :=
  ((s.yieldContext c r.submitPost).resumeContext c r.submitPost).setState c .run

def opcode : ℕ := (s.script c).code (s.frame c).pc

def executed (r : Reply) : Machine :=
  (run (s.script c).code r.answer r.posted (decode (s.opcode c)) (s.machine c)).2

/-- One instruction; `none` if it used memory that is not the machine's. -/
def execute (r : Reply) : Option Dvm :=
  let next := ((s.frame c).pc + 1) % 65536
  match decode (s.opcode c) with
  | .halt => some (((s.haltContext c r.submitPost).setState c .halt).setPc c 0)
  | .getData _ =>
    let s := s.setPc c next
    some (if s.busy then (s.setState c .waiting).queueEnqueue c .getDataWaitQueue
      else s.tryget c r)
  | .nop =>
    let s := ((s.setPc c next).setState c .blocked).postRunTask r.nopPost
    some (s.yieldContext c r.submitPost)
  | .post =>
    if (s.executed c r).broken then none
    else
      let s := s.settle c (s.executed c r)
      some (if r.posted then s else s.retryPost c r)
  | _ => if (s.executed c r).broken then none else some (s.settle c (s.executed c r))

/-- One pass of the loop, with an instruction of the basic or of an extension library. -/
def instruction (r : Reply) : Option Dvm :=
  let t := { s with numExecuted := update s.numExecuted c (s.numExecuted c + 1) }
  (if libIdBit ≤ s.opcode c then some { t with frame := update s.frame c r.library }
    else t.execute c r).map (fun s => s.computeNext c r.endPost)

def engineReboot : Dvm :=
  { s with
    runningContext := none
    queues := fun _ => []
    holder := fun _ => none
    usedVars := s.analyzed
    inErrorState := false
    halted := false
    shared := { s.shared with
      sharedVars := fun _ => ⟨typeInteger, 0⟩
      buffers := fun k => { s.shared.buffers k with size := 0 } } }

def rebootContext (ok : Bool) : Dvm :=
  if s.loaded c then
    let t := { s with
      frame := update s.frame c { s.frame c with vars := fun _ => ⟨typeInteger, 0⟩ } }
    if s.state c = .halt then t else t.haltContext c ok
  else s

def rebootContexts (ok : Bool) : Dvm := (List.finRange 8).foldl (fun s c => s.rebootContext c ok) s

def install (script : Script) : Dvm :=
  { s with
    loaded := update s.loaded c true
    script := update s.script c script
    state := update s.state c .halt
    heldSet := update s.heldSet c ∅
    releaseSet := update s.releaseSet c ∅
    acquireSet := update s.acquireSet c ∅
    queue := update s.queue c none
    numExecuted := update s.numExecuted c 0
    frame := update s.frame c ⟨0, 0, fun _ => ⟨0, 0⟩, fun _ => ⟨0, 0⟩⟩ }

def pushData (data : Option Slot) : Dvm :=
  match data with
  | some v => s.settle c (pushOperand v (s.machine c)).2
  | none => s

def begin (data : Option Slot) (ok : Bool) : Dvm :=
  ((s.initializeContext c).pushData c data).resumeContext c ok

/-- `initEventHandler`, up to the start of the reboot capsule. -/
def rebooted (script : Script) (ok : Bool) : Dvm :=
  let s := s.install c script
  let s := { s with usedVars := update s.usedVars c (s.analyzed c) }.initializeContext c
  s.engineReboot.rebootContexts ok

def loaderDataAvailable (script : Script) (ok : Bool) : Dvm :=
  let s := s.rebooted c script ok
  if s.loaded dvmCapsuleReboot then s.begin dvmCapsuleReboot none ok else s

def wakes (sid type : ℕ) : Bool :=
  s.loaded c && decide ((s.script c).moduleID = sid ∧ (s.script c).type = type)

def timeout (ok : Bool) : Dvm := if s.wakes c timerPid msgTimerTimeout then s.begin c none ok else s

def wake (sid type : ℕ) (data : Id → Option Slot) (ok : Bool) : Dvm :=
  if s.wakes c sid type ∧ s.state c = .halt then s.begin c (data c) ok else s

def eventHandlerDefault (sid type : ℕ) (data : Id → Option Slot) (ok : Bool) : Dvm :=
  (List.finRange 8).foldl (fun s c => s.wake c sid type data ok) s

def delivered (value : BitVec 16) (ok : Bool) : Dvm :=
  match s.executing with
  | some c =>
    { (s.settle c (pushValue value typeInteger (s.machine c)).2).resumeContext c ok with
      executing := none }
  | none => s

def dataReady (value : BitVec 16) (r : Reply) : Dvm :=
  let s := { s with busy := false }.delivered value r.submitPost
  match s.queues .getDataWaitQueue with
  | [] => s
  | current :: rest => (s.dequeued current .getDataWaitQueue rest).tryget current r

end Dvm

inductive Event where
  | instruction
  | runTask
  | halt
  | resume
  | timeout (id : ℕ)
  | userEvent (sid type : ℕ) (data : Id → Option Slot)
  | dataReady (value : BitVec 16)
  | addLibrary (lib : Fin 4)
  | removeLibrary (lib : Fin 4)
  | load (c : Id) (script : Script)

/-- A message that arrives while no other is handled. A timer with a number behind the last
context is looked up behind the table. -/
def handle (s : Dvm) (r : Reply) : Event → Option Dvm
  | .instruction => none
  | .runTask =>
    if s.runTasks = 0 then none else some ({ s with runTasks := s.runTasks - 1 }.opdone r)
  | .halt => some { s with halted := true }
  | .resume =>
    let s := { s with halted := false }
    some (if s.taskRunning then s else { s with taskRunning := true }.opdone r)
  | .timeout id => if h : id < 8 then some (s.timeout ⟨id, h⟩ r.submitPost) else none
  | .userEvent sid type data => some (s.eventHandlerDefault sid type data r.submitPost)
  | .dataReady value => some (s.dataReady value r)
  | .addLibrary lib =>
    some { s with
      conLibraries := s.conLibraries ||| (1#8 <<< lib.val)
      libraries := s.libraries ||| (1#8 <<< lib.val) }.engineReboot
  | .removeLibrary lib =>
    some { s with
      conLibraries := s.conLibraries ^^^ (1#8 <<< lib.val)
      libraries := s.libraries ^^^ (1#8 <<< lib.val) }.engineReboot
  | .load c script => some (s.loaderDataAvailable c script r.submitPost)

def step (s : Dvm) (ev : Event × Reply) : Option Dvm :=
  if s.computing then
    match ev.1, s.runningContext with
    | .instruction, some c => s.instruction c ev.2
    | _, _ => none
  else handle s ev.2 ev.1

def initial (base : BitVec 16) (entries : ℕ → ℕ → BitVec 8) : Dvm :=
  { loaded := fun _ => false
    script := fun _ => ⟨0, 0, 0, 0, fun _ => 0⟩
    state := fun _ => .halt
    heldSet := fun _ => ∅
    releaseSet := fun _ => ∅
    acquireSet := fun _ => ∅
    queue := fun _ => none
    numExecuted := fun _ => 0
    frame := fun _ => ⟨0, 0, fun _ => ⟨0, 0⟩, fun _ => ⟨0, 0⟩⟩
    shared := ⟨fun _ => ⟨typeInteger, 0⟩, fun k => ⟨0, entries k⟩, base⟩
    usedVars := fun _ => ∅
    holder := fun _ => none
    queues := fun _ => []
    runningContext := none
    conLibraries := 0
    libraries := 1
    inErrorState := false
    taskRunning := false
    halted := false
    busy := false
    executing := none
    runTasks := 0
    computing := false }

end DvmMachine
