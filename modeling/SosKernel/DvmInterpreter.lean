import Mathlib.Data.Nat.Notation
import Mathlib.Logic.Function.Basic
import SosKernel.StatePrograms

/-! # The instructions of the virtual machine, `DVMBasiclib.c` and `DVMStacks.c`

Scripts work on an operand stack and local variables of their own and on variables and buffers
that all scripts share. What an instruction touches is recorded. Instructions that stop a script
(`OP_HALT`, `OP_GET_DATA`, `OP_NOP`) are left to the scheduler.

Pointers have 16 bits. `popOperand` returns the address of a stack slot, here its index, and the
slot is read when the source reads it: an underflow in between changes the type of slot 0. -/
namespace DvmInterpreter

def dvmOpdepth : ℕ := 8
def dvmBufLen : ℕ := 64
def dvmNumLocalVars : ℕ := 5
def dvmNumSharedVars : ℕ := 8
def dvmNumBufs : ℕ := 4
def floatPrecision : BitVec 32 := 100#32

inductive Arith where
  | add | sub | mul | div
  deriving DecidableEq, Repr

inductive Unary where
  | abs | incr | decr
  deriving DecidableEq, Repr

inductive Comparison where
  | g | ge | l | le | e | ne
  deriving DecidableEq, Repr

/-- `other` is `OP_START`, `OP_STOP` and what `execute` skips. -/
inductive Instr where
  | halt | push | pop | led
  | getLocal (k : ℕ) | bset | jmp | rand | call | post | postNet | jz | bcast | breadF | bclear
  | setTimer (k : ℕ) | arith (op : Arith) | mod | unary (op : Unary)
  | getData (k : ℕ) | jump (c : Comparison) | jnz
  | getVar (k : ℕ) | setVar (k : ℕ) | bpush (k : ℕ) | pushF | setVarF (k : ℕ) | getVarF (k : ℕ)
  | bappend (n : ℕ) | getLocalF (k : ℕ) | setLocalF (k : ℕ) | setLocal (k : ℕ) | nop | other
  deriving DecidableEq, Repr

/-- The `switch` of `execute`, for opcodes without `LIB_ID_BIT`. -/
def decode (op : ℕ) : Instr :=
  if op = 0 then .halt
  else if op = 1 then .push
  else if op = 2 then .pop
  else if op = 3 then .led
  else if op ≤ 8 then .getLocal (op - 4)
  else if op = 10 then .bset
  else if op = 11 then .jmp
  else if op = 12 then .rand
  else if op = 13 then .call
  else if op = 14 then .post
  else if op = 15 then .postNet
  else if op = 16 then .jz
  else if op = 17 then .bcast
  else if op = 18 then .breadF
  else if op = 19 then .bclear
  else if op = 20 then .unary .decr
  else if 21 ≤ op ∧ op ≤ 28 then .setTimer (op - 21)
  else if op = 29 then .arith .add
  else if op = 30 then .mod
  else if op = 31 then .unary .incr
  else if op = 32 then .arith .sub
  else if op = 33 then .arith .mul
  else if op = 34 then .arith .div
  else if 35 ≤ op ∧ op ≤ 41 then .getData (op - 35)
  else if op = 42 then .jump .ge
  else if op = 43 then .jump .g
  else if op = 44 then .jump .le
  else if op = 45 then .jump .l
  else if op = 46 then .jump .e
  else if op = 47 then .jump .ne
  else if op = 48 then .jnz
  else if 49 ≤ op ∧ op ≤ 56 then .getVar (op - 49)
  else if 57 ≤ op ∧ op ≤ 64 then .setVar (op - 57)
  else if 65 ≤ op ∧ op ≤ 68 then .bpush (op - 65)
  else if op = 69 then .pushF
  else if 70 ≤ op ∧ op ≤ 76 then .setVarF (op - 70)
  else if 77 ≤ op ∧ op ≤ 84 then .getVarF (op - 77)
  else if 85 ≤ op ∧ op ≤ 91 then .bappend (op - 85 + 1)
  else if 92 ≤ op ∧ op ≤ 96 then .getLocalF (op - 92)
  else if 97 ≤ op ∧ op ≤ 100 then .setLocalF (op - 97)
  else if 101 ≤ op ∧ op ≤ 105 then .setLocal (op - 101)
  else if op = 107 then .unary .abs
  else if op = 112 then .nop
  else .other

def bytelength (opcode : ℕ) : ℕ :=
  if opcode = 69 then 5
  else if opcode = 1 ∨ opcode = 11 ∨ opcode = 48 ∨ opcode = 16 ∨ opcode = 43 ∨ opcode = 42 ∨
    opcode = 45 ∨ opcode = 44 ∨ opcode = 46 ∨ opcode = 47 then 2
  else if opcode = 13 ∨ opcode = 14 then 3
  else 1

/-- `none` stands for a negative number. -/
def lockNum (instr : ℕ) : Option ℕ :=
  if 65 ≤ instr ∧ instr ≤ 68 then some (instr - 65)
  else if 70 ≤ instr ∧ instr ≤ 76 then some (instr - 70 + 4)
  else if 77 ≤ instr ∧ instr ≤ 83 then some (instr - 77 + 4)
  else if 57 ≤ instr ∧ instr ≤ 64 then some (instr - 57 + 4)
  else if 49 ≤ instr ∧ instr ≤ 56 then some (instr - 49 + 4)
  else none

def typeNone : ℕ := 0
def typeBuffer : ℕ := 1
def typeInteger : ℕ := 3
def typeFloatDec : ℕ := 6
def typeFloat : ℕ := 7

/-- `DvmStackVariable`; the word is a value or a pointer to a buffer. -/
structure Slot where
  type : ℕ
  word : BitVec 16
  deriving DecidableEq, Repr

structure Buffer where
  size : ℕ
  entries : ℕ → BitVec 8

/-- What a script has of its own. The memory behind `vars` is its entry 5. -/
structure Frame where
  pc : ℕ
  sp : ℕ
  stack : ℕ → Slot
  vars : ℕ → Slot

structure Shared where
  sharedVars : ℕ → Slot
  buffers : ℕ → Buffer
  buffersAddr : BitVec 16

/-- What an instruction touches: by index, and with the type of a slot that is followed. -/
inductive Access where
  | stack (i : ℕ)
  | local (i : ℕ)
  | shared (k : ℕ)
  | buffer (k : ℕ)
  | entry (i : ℕ)
  | pointer (type : ℕ)
  deriving DecidableEq, Repr

structure Machine where
  frame : Frame
  shared : Shared
  error : Bool
  /-- Memory outside of the machine's variables was written or followed. -/
  broken : Bool
  accesses : List Access

abbrev Exec := StateM Machine

/-- What an instruction gets from outside: random numbers, results that C leaves undefined, and
what a called module leaves behind. -/
structure Answer where
  random : BitVec 16
  undefined : BitVec 32
  result : Slot
  resultBuffer : Buffer

def access (a : Access) : Exec Unit := modify (fun m => { m with accesses := m.accesses ++ [a] })

def error : Exec Unit := modify (fun m => { m with error := true })

def setPc (pc : ℕ) : Exec Unit := modify (fun m => { m with frame := { m.frame with pc := pc } })

def advance (n : ℕ) : Exec Unit :=
  modify (fun m => { m with frame := { m.frame with pc := (m.frame.pc + n) % 65536 } })

def slotAt (i : ℕ) : Exec Slot := do
  access (.stack i)
  return (← get).frame.stack i

def setStack (i : ℕ) (v : Slot) : Exec Unit := do
  access (.stack i)
  modify (fun m => { m with frame := { m.frame with stack := Function.update m.frame.stack i v } })

def setSp (sp : ℕ) : Exec Unit := modify (fun m => { m with frame := { m.frame with sp := sp } })

def pushOperand (v : Slot) : Exec Unit := do
  let sp := (← get).frame.sp
  if dvmOpdepth ≤ sp then error
  else
    setStack sp v
    setSp (sp + 1)

def pushValue (val : BitVec 16) (type : ℕ) : Exec Unit := pushOperand ⟨type, val⟩

def bufferAddr (base : BitVec 16) (k : ℕ) : BitVec 16 :=
  base + BitVec.ofNat 16 ((dvmBufLen + 1) * k)

def bufferOf (base : BitVec 16) (addr : BitVec 16) : Option ℕ :=
  (List.range dvmNumBufs).find? (fun k => bufferAddr base k = addr)

def pushBuffer (k : ℕ) : Exec Unit := do
  let base := (← get).shared.buffersAddr
  pushOperand ⟨typeBuffer, bufferAddr base k⟩

def popOperand : Exec ℕ := do
  let sp := (← get).frame.sp
  if sp = 0 then
    let v ← slotAt 0
    setStack 0 { v with type := typeNone }
    error
    return 0
  else
    setSp (sp - 1)
    access (.stack (sp - 1))
    return sp - 1

def localAt (i : ℕ) : Exec Slot := do
  access (.local i)
  return (← get).frame.vars i

def setLocalVar (i : ℕ) (v : Slot) : Exec Unit := do
  access (.local i)
  modify (fun m =>
    { m with
      frame := { m.frame with vars := Function.update m.frame.vars i v }
      broken := m.broken || decide (dvmNumLocalVars ≤ i) })

def sharedAt (k : ℕ) : Exec Slot := do
  access (.shared k)
  return (← get).shared.sharedVars k

def setSharedVar (k : ℕ) (v : Slot) : Exec Unit := do
  access (.shared k)
  modify (fun m =>
    { m with shared := { m.shared with sharedVars := Function.update m.shared.sharedVars k v } })

def pointerAt (i : ℕ) : Exec (Option ℕ) := do
  let v ← slotAt i
  access (.pointer v.type)
  let b := bufferOf (← get).shared.buffersAddr v.word
  modify (fun m => { m with broken := m.broken || b.isNone })
  return b

def sizeOf (k : ℕ) : Exec ℕ := do
  access (.buffer k)
  return ((← get).shared.buffers k).size

def setBuffer (k : ℕ) (f : Buffer → Buffer) : Exec Unit := do
  access (.buffer k)
  modify (fun m => { m with shared := { m.shared with
    buffers := Function.update m.shared.buffers k (f (m.shared.buffers k)) } })

def entryAt (k i : ℕ) : Exec (BitVec 8) := do
  access (.entry i)
  return ((← get).shared.buffers k).entries i

def setEntry (k i : ℕ) (v : BitVec 8) : Exec Unit := do
  access (.entry i)
  setBuffer k (fun b => { b with entries := Function.update b.entries i v })

def setSize (k size : ℕ) : Exec Unit := setBuffer k (fun b => { b with size := size })

def bufferGet (k numBytes bufferOffset : ℕ) (dest : BitVec 16) : Exec (BitVec 16) := do
  let size ← sizeOf k
  if bufferOffset + numBytes ≤ size then
    if numBytes = 2 then
      let high ← entryAt k (bufferOffset + 1)
      let low ← entryAt k bufferOffset
      return high ++ low
    else
      let low ← entryAt k bufferOffset
      return low.setWidth 16
  else return dest

def bufferSet (k bufferOffset : ℕ) (val : BitVec 16) : Exec Unit := do
  if bufferOffset + 2 ≤ dvmBufLen then
    setSize k (bufferOffset + 2)
    setEntry k bufferOffset (val.setWidth 8)
    setEntry k (bufferOffset + 1) (val.extractLsb' 8 8)
  else return ()

def bufferAppend (k numBytes : ℕ) (var : BitVec 16) : Exec Unit := do
  let size ← sizeOf k
  if size + numBytes ≤ dvmBufLen then
    setEntry k size (var.setWidth 8)
    setSize k (size + 1)
    if numBytes = 2 then
      setEntry k (size + 1) (var.extractLsb' 8 8)
      setSize k (size + 2)
    else return ()
  else return ()

def concatenateFrom (dst src start last : ℕ) : ℕ → ℕ → BitVec 16 → Exec Unit
  | 0, _, _ => return ()
  | fuel + 1, i, var => do
    if i < last then
      let num := if 2 ≤ last - i then 2 else last - i
      let var ← bufferGet src num (i - start) var
      bufferAppend dst num var
      concatenateFrom dst src start last fuel (i + num) var
    else return ()

def bufferConcatenate (dst src : ℕ) (var : BitVec 16) : Exec Unit := do
  let start ← sizeOf dst
  let size ← sizeOf src
  let last := min ((start + size) % 256) dvmBufLen
  concatenateFrom dst src start last (last - start) start var

def convertToFloat (high low : BitVec 16) : BitVec 32 := high ++ low

def scaled (v : BitVec 16) : BitVec 32 := v.signExtend 32 * floatPrecision

def pushFloat (res : BitVec 32) : Exec Unit := do
  pushValue (res.setWidth 16) typeFloatDec
  pushValue (res.extractLsb' 16 16) typeFloat

def divide (a b undefined : BitVec 32) : BitVec 32 := if b = 0 then undefined else a.sdiv b

def floatFloat (x : BitVec 32) (op : Arith) (a b : BitVec 32) : BitVec 32 :=
  match op with
  | .add => a + b
  | .sub => a - b
  | .div => divide (a * floatPrecision) b x
  | .mul => divide (a * b) floatPrecision x

def floatInt (x : BitVec 32) (op : Arith) (a : BitVec 32) (b : BitVec 16) : BitVec 32 :=
  match op with
  | .add => a + scaled b
  | .sub => a - scaled b
  | .div => divide a (b.signExtend 32) x
  | .mul => a * b.signExtend 32

def intFloat (x : BitVec 32) (op : Arith) (a : BitVec 16) (b : BitVec 32) : BitVec 32 :=
  match op with
  | .add => scaled a + b
  | .sub => scaled a - b
  | .div => divide (scaled a) b x
  | .mul => scaled a * b

def intInt (x : BitVec 32) (op : Arith) (a b : BitVec 16) : BitVec 16 :=
  match op with
  | .add => a + b
  | .sub => a - b
  | .div => (divide (a.signExtend 32) (b.signExtend 32) x).setWidth 16
  | .mul => a * b

def unaryFloat : Unary → BitVec 32 → BitVec 32
  | .abs, a => if a.slt 0 then -a else a
  | .incr, a => a + floatPrecision
  | .decr, a => a - floatPrecision

def unaryInt : Unary → BitVec 16 → BitVec 16
  | .abs, a => if a.slt 0 then -a else a
  | .incr, a => a + 1
  | .decr, a => a - 1

def compare (a b : BitVec 32) : Comparison → Bool
  | .g => b.slt a
  | .ge => b.sle a
  | .l => a.slt b
  | .le => a.sle b
  | .e => a == b
  | .ne => a != b

-- all instructions but the jumps end with `context->pc += 1`, which is left to `run`
def ledOp : Exec Unit := do
  let arg ← popOperand
  let _ ← slotAt arg

def getVarOp (k : ℕ) : Exec Unit := do
  let v ← sharedAt k
  pushOperand v

def setVarOp (k : ℕ) : Exec Unit := do
  let var ← popOperand
  let v ← slotAt var
  setSharedVar k v

def getVarFOp (k : ℕ) : Exec Unit := do
  let v ← sharedAt k
  pushFloat (scaled v.word)

def setVarFOp (k : ℕ) : Exec Unit := do
  let var ← popOperand
  let v ← slotAt var
  setSharedVar (k + 1) ⟨typeFloatDec, (scaled v.word).setWidth 16⟩
  setSharedVar k ⟨typeFloat, (scaled v.word).extractLsb' 16 16⟩

def randOp (ans : Answer) : Exec Unit := do
  let arg ← popOperand
  let v ← slotAt arg
  pushValue (if v.word = 0 then ans.undefined.setWidth 16 else ans.random.umod v.word) typeInteger

def arithOp (ans : Answer) (op : Arith) : Exec Unit := do
  let arg1 ← popOperand
  let arg2 ← popOperand
  let v1 ← slotAt arg1
  let v2 ← slotAt arg2
  if v1.type = typeFloat then
    let arg3 ← popOperand
    let v3 ← slotAt arg3
    if v3.type = typeFloat then
      let arg4 ← popOperand
      let v4 ← slotAt arg4
      pushFloat (floatFloat ans.undefined op (convertToFloat v1.word v2.word)
        (convertToFloat v3.word v4.word))
    else pushFloat (floatInt ans.undefined op (convertToFloat v1.word v2.word) v3.word)
  else if v2.type = typeFloat then
    let arg3 ← popOperand
    let v3 ← slotAt arg3
    pushFloat (intFloat ans.undefined op v1.word (convertToFloat v2.word v3.word))
  else pushValue (intInt ans.undefined op v1.word v2.word) typeInteger

def unaryOp (op : Unary) : Exec Unit := do
  let arg1 ← popOperand
  let v1 ← slotAt arg1
  if v1.type = typeFloat then
    let arg2 ← popOperand
    let v2 ← slotAt arg2
    pushFloat (unaryFloat op (convertToFloat v1.word v2.word))
  else pushValue (unaryInt op v1.word) typeInteger

def modOp (ans : Answer) : Exec Unit := do
  let arg1 ← popOperand
  let arg2 ← popOperand
  let v1 ← slotAt arg1
  let v2 ← slotAt arg2
  pushValue (if v2.word = 0 then ans.undefined.setWidth 16 else v1.word.srem v2.word) typeInteger

def testedOp : Exec (BitVec 32) := do
  let arg1 ← popOperand
  let v1 ← slotAt arg1
  if v1.type = typeFloat then
    let arg2 ← popOperand
    let v2 ← slotAt arg2
    return convertToFloat v1.word v2.word
  else return v1.word.signExtend 32

def comparedOp : Exec (BitVec 32 × BitVec 32) := do
  let arg1 ← popOperand
  let arg2 ← popOperand
  let v1 ← slotAt arg1
  let v2 ← slotAt arg2
  if v1.type = typeFloat then
    let arg3 ← popOperand
    let v3 ← slotAt arg3
    if v3.type = typeFloat then
      let arg4 ← popOperand
      let v4 ← slotAt arg4
      return (convertToFloat v1.word v2.word, convertToFloat v3.word v4.word)
    else return (convertToFloat v1.word v2.word, scaled v3.word)
  else if v2.type = typeFloat then
    let arg3 ← popOperand
    let v3 ← slotAt arg3
    return (scaled v1.word, convertToFloat v2.word v3.word)
  else return (v1.word.signExtend 32, v2.word.signExtend 32)

def getLocalOp (k : ℕ) : Exec Unit := do
  let v ← localAt k
  if v.type = typeFloat then
    let v1 ← localAt (k + 1)
    pushOperand v1
    pushOperand v
  else pushOperand v

def setLocalOp (k : ℕ) : Exec Unit := do
  let var ← popOperand
  let v ← slotAt var
  setLocalVar k v
  if v.type = typeFloat then
    let var1 ← popOperand
    let v1 ← slotAt var1
    setLocalVar (k + 1) v1
  else return ()

def getLocalFOp (k : ℕ) : Exec Unit := do
  let v ← localAt k
  if v.type = typeInteger then pushFloat (scaled v.word)
  else if v.type = typeFloat then
    let v1 ← localAt (k + 1)
    pushOperand v1
    pushOperand v
  else return ()

def setLocalFOp (k : ℕ) : Exec Unit := do
  let var ← popOperand
  let v ← slotAt var
  if v.type = typeInteger then
    setLocalVar (k + 1) ⟨typeFloatDec, (scaled v.word).setWidth 16⟩
    setLocalVar k ⟨typeFloat, (scaled v.word).extractLsb' 16 16⟩
  else if v.type = typeFloat then
    let var1 ← popOperand
    let v ← slotAt var
    let v1 ← slotAt var1
    setLocalVar k v
    setLocalVar (k + 1) v1
  else return ()

def appendArg (ans : Answer) (bufarg : ℕ) : Exec Unit := do
  let apparg ← popOperand
  let v ← slotAt apparg
  if v.type = typeBuffer then
    let dst ← pointerAt bufarg
    let src ← pointerAt apparg
    match dst, src with
    | some dst, some src => bufferConcatenate dst src (ans.undefined.setWidth 16)
    | _, _ => return ()
  else if v.type = typeFloat then
    let apparg_dec ← popOperand
    let low ← slotAt apparg_dec
    let dst ← pointerAt bufarg
    match dst with
    | some dst =>
      bufferAppend dst 2 low.word
      bufferAppend dst 2 v.word
    | none => return ()
  else
    let dst ← pointerAt bufarg
    match dst with
    | some dst => bufferAppend dst 2 v.word
    | none => return ()

def appendArgs (ans : Answer) (bufarg : ℕ) : ℕ → Exec Unit
  | 0 => return ()
  | n + 1 => do
    appendArg ans bufarg
    appendArgs ans bufarg n

def bappendOp (ans : Answer) (opt : ℕ) : Exec Unit := do
  let bufarg ← popOperand
  appendArgs ans bufarg opt
  let v ← slotAt bufarg
  pushOperand v

def bclearOp : Exec Unit := do
  let bufarg ← popOperand
  let b ← pointerAt bufarg
  match b with
  | some b => setSize b 0
  | none => pure ()
  let v ← slotAt bufarg
  pushOperand v

def breadFOp (ans : Answer) : Exec Unit := do
  let bufarg ← popOperand
  let indexarg ← popOperand
  let b ← pointerAt bufarg
  let i ← slotAt indexarg
  match b with
  | some b =>
    let low ← bufferGet b 2 (i.word.setWidth 8).toNat (ans.undefined.setWidth 16)
    let high ← bufferGet b 2 ((i.word + 2).setWidth 8).toNat (ans.undefined.extractLsb' 16 16)
    pushValue low typeFloatDec
    pushValue high typeFloat
  | none => return ()

def bsetOp : Exec Unit := do
  let bufarg ← popOperand
  let valuearg ← popOperand
  let v ← slotAt valuearg
  if v.type = typeFloat then
    let valuearg1 ← popOperand
    let indexarg ← popOperand
    let v1 ← slotAt valuearg1
    let i ← slotAt indexarg
    let b ← pointerAt bufarg
    match b with
    | some b =>
      bufferSet b (i.word.setWidth 8).toNat v1.word
      bufferSet b ((i.word + 2).setWidth 8).toNat v.word
    | none => return ()
  else
    let indexarg ← popOperand
    let i ← slotAt indexarg
    let b ← pointerAt bufarg
    match b with
    | some b => bufferSet b (i.word.setWidth 8).toNat v.word
    | none => return ()

def postedOp : Exec Unit := do
  let bufarg ← popOperand
  let v ← slotAt bufarg
  if v.type = typeBuffer then
    let b ← pointerAt bufarg
    match b with
    | some b => let _ ← sizeOf b
    | none => return ()
  else if v.type = typeFloat then
    let bufarg_dec ← popOperand
    let _ ← slotAt bufarg_dec
  else return ()

def postNetOp : Exec Unit := do
  let addarg ← popOperand
  let modarg ← popOperand
  let typearg ← popOperand
  let _ ← slotAt addarg
  let _ ← slotAt modarg
  let _ ← slotAt typearg
  postedOp

def bcastOp : Exec Unit := do
  let modarg ← popOperand
  let typearg ← popOperand
  let _ ← slotAt modarg
  let _ ← slotAt typearg
  postedOp

def callSize (callArgs : ℕ) : Exec Unit := do
  let v ← slotAt callArgs
  if v.type = typeBuffer then
    let b ← pointerAt callArgs
    match b with
    | some b => let _ ← sizeOf b
    | none => return ()
  else return ()

/-- The called module may change the slot for the result and the buffer it points to. -/
def callResult (ans : Answer) (retValue : ℕ) : Exec Unit := do
  let r ← slotAt retValue
  let b := bufferOf (← get).shared.buffersAddr r.word
  if r.type = typeBuffer then
    match b with
    | some b => setBuffer b (fun _ => ans.resultBuffer)
    | none => pure ()
  else pure ()
  setStack retValue ans.result

def callOp (ans : Answer) : Exec Unit := do
  let callArgs ← popOperand
  let retValue ← popOperand
  callSize callArgs
  callResult ans retValue
  let r ← slotAt retValue
  pushOperand r

/-- `OP_POST`. If the message can not be sent, the operand is put back. -/
def postOp (posted : Bool) : Exec Unit := do
  let callArgs ← popOperand
  if posted then return ()
  else
    let v ← slotAt callArgs
    pushOperand v

/-- One instruction at `pc`; `code` is what `getOpcode` reads. -/
def run (code : ℕ → ℕ) (ans : Answer) (posted : Bool) (instr : Instr) : Exec Unit := do
  let pc := (← get).frame.pc
  let operand := fun i => BitVec.ofNat 8 (code ((pc + i) % 65536))
  match instr with
  | .halt | .getData _ | .nop => return ()
  | .led | .setTimer _ => ledOp; advance 1
  | .getVar k => getVarOp k; advance 1
  | .setVar k => setVarOp k; advance 1
  | .getVarF k => getVarFOp k; advance 1
  | .setVarF k => setVarFOp k; advance 1
  | .rand => randOp ans; advance 1
  | .arith op => arithOp ans op; advance 1
  | .unary op => unaryOp op; advance 1
  | .mod => modOp ans; advance 1
  | .jmp => setPc (operand 1).toNat
  | .jz =>
    let f ← testedOp
    if f = 0 then setPc (operand 1).toNat else advance 2
  | .jnz =>
    let f ← testedOp
    if f = 0 then advance 2 else setPc (operand 1).toNat
  | .jump c =>
    let (a, b) ← comparedOp
    if compare a b c then setPc (operand 1).toNat else advance 2
  | .bpush k => pushBuffer k; advance 1
  | .getLocal k => getLocalOp k; advance 1
  | .setLocal k => setLocalOp k; advance 1
  | .getLocalF k => getLocalFOp k; advance 1
  | .setLocalF k => setLocalFOp k; advance 1
  | .push => pushValue ((operand 1).setWidth 16) typeInteger; advance 2
  | .pushF =>
    pushValue (operand 3 ++ operand 4) typeFloatDec
    pushValue (operand 1 ++ operand 2) typeFloat
    advance 5
  | .pop => let _ ← popOperand; advance 1
  | .bappend n => bappendOp ans n; advance 1
  | .bclear => bclearOp; advance 1
  | .breadF => breadFOp ans; advance 1
  | .bset => bsetOp; advance 1
  | .postNet => postNetOp; advance 1
  | .bcast => bcastOp; advance 1
  | .call => callOp ans; advance 3
  | .post => postOp posted; advance (if posted then 3 else 0)
  | .other => advance 1

end DvmInterpreter
