import Mathlib.Data.UInt
import SosKernel.ByteStuffing

/-! # The serial line driver, `uart.c`

One record each for `state[TX]` and `state[RX]`, together with the static variables of the
interrupt routines. A heap block is a memory of its own, so a store at a bad index changes
no other block; what the routines ask of the allocator and of the message layer is logged. -/
namespace Uart

open ByteStuffing

def hdlcFlag : UInt8 := 0x7e
def hdlcCtrEsc : UInt8 := 0x7d
def hdlcExt : UInt8 := 0x03
def hdlcSosMsg : UInt8 := 0x01
def hdlcRaw : UInt8 := 0x05
def uartMaxMsgLen : ℕ := 128
def sosMsgHeaderSize : ℕ := 8
def sosMsgTypeOffset : ℕ := 6
def sosMsgLenOffset : ℕ := 7
def msgTimestamp : UInt8 := 16
def uartSosMsgFlag : UInt8 := 0x80
def uartCrcFlag : UInt8 := uartSosMsgFlag
def uartErrorFlag : UInt8 := 0x01
def uartSysSharedFlagsMsk : UInt8 := 0xD1
def ebusy : ℤ := 16

inductive UartState where
  | init | idle | hdlcStart | protocol | data | hdlcStop | ended
  deriving DecidableEq, Repr

inductive HdlcState where
  | idle | start | restart | address | control | protocol | data | escape | padding | crc
  deriving DecidableEq, Repr

inductive MsgState where
  | noState | wait | txRaw | rxRaw | txCrcOnly | rxCrcOnly
  | txStart | txHdr | txData | txCrcLow | txCrcHigh | txEnd
  | rxStart | rxHdr | rxData | rxCrcLow | rxCrcHigh | rxEnd

def crcShift (crc : UInt16) : UInt16 :=
  if crc &&& 0x8000 ≠ 0 then (crc <<< 1) ^^^ 0x1021 else crc <<< 1

def crcByte (crc : UInt16) (b : UInt8) : UInt16 := crcShift^[8] (crc ^^^ (b.toUInt16 <<< 8))

def systimeByte (now : UInt32) (i : ℕ) : UInt8 := (now >>> (UInt32.ofNat (8 * i))).toUInt8

def stampAt (now : UInt32) (i : ℕ) (f : ℕ → UInt8) : ℕ → UInt8 :=
  fun j => if i ≤ j ∧ j < i + 4 then systimeByte now (j - i) else f j

/-- A message as it goes over the line: the fields in front of `data`, and `len` bytes. -/
structure SosMsg where
  header : List UInt8
  payload : List UInt8
  header_length : header.length = sosMsgHeaderSize
  payload_length : payload.length = (header.getD sosMsgLenOffset 0).toNat

def headerLen (header : List UInt8) : ℕ := (header.getD sosMsgLenOffset 0).toNat
def headerType (header : List UInt8) : UInt8 := header.getD sosMsgTypeOffset 0

def SosMsg.len (m : SosMsg) : ℕ := headerLen m.header
def SosMsg.type (m : SosMsg) : UInt8 := headerType m.header

/-- The payload of a time stamp message after a side of the line has filled in its time. -/
def stampPayload (header : List UInt8) (now : UInt32) (i : ℕ) (payload : List UInt8) :
    List UInt8 :=
  if headerType header = msgTimestamp then
    (List.range payload.length).map (stampAt now i (fun j => payload.getD j 0))
  else payload

lemma length_stampPayload (header : List UInt8) (now : UInt32) (i : ℕ) (payload : List UInt8) :
    (stampPayload header now i payload).length = payload.length := by
  rw [stampPayload]
  split <;> simp

def SosMsg.stamp (m : SosMsg) (now : UInt32) : SosMsg where
  header := m.header
  payload := stampPayload m.header now 0 m.payload
  header_length := m.header_length
  payload_length := (length_stampPayload ..).trans m.payload_length

structure Tx where
  state : UartState
  msgState : MsgState
  hdlcState : HdlcState
  msgHdr : Option SosMsg
  buff : List UInt8
  crc : UInt16
  msgLen : ℕ
  idx : ℕ
  flags : UInt8
  savedState : HdlcState

/-- The bytes given to `uart_setByte`, and the flags given to `uart_send_done` if it is called. -/
structure TxOut where
  bytes : List UInt8
  sendDone : Option UInt8

/-- `msg` and `bytes` are what the first argument shows, read as a message and as bytes. -/
def uartStartTransceiverTx (t : Tx) (msg : SosMsg) (bytes : List UInt8) (msgLen : ℕ)
    (flags : UInt8) (now : UInt32) : Tx × TxOut × ℤ :=
  if t.state ≠ .idle then (t, ⟨[], none⟩, -ebusy)
  else
    let t := { t with flags := uartSysSharedFlagsMsk &&& flags }
    let t :=
      if t.flags &&& uartSosMsgFlag ≠ 0 then
        { t with msgHdr := some msg, msgLen := msg.len, buff := msg.payload }
      else { t with buff := bytes, msgLen := msgLen }
    let t := { t with idx := 0, state := .hdlcStart, hdlcState := .start }
    -- the time goes into the message of `msgHdr`, which for raw bytes is an earlier one
    let stamped := t.msgHdr.map (fun m => m.stamp now)
    let t :=
      { t with
        msgHdr := stamped
        buff := if t.flags &&& uartSosMsgFlag ≠ 0 then (msg.stamp now).payload else t.buff }
    (t, ⟨[hdlcFlag], none⟩, 0)

def isEscaped (b : UInt8) : Bool := b = hdlcFlag || b = hdlcCtrEsc || b = hdlcExt

def uartSendByte (t : Tx) (byte : UInt8) : Tx × UInt8 :=
  let t :=
    if t.flags &&& uartCrcFlag ≠ 0 ∧ t.hdlcState = .data then
      { t with crc := crcByte t.crc byte }
    else t
  if t.hdlcState = .escape then
    ({ t with hdlcState := t.savedState, idx := (t.idx + 1) % 256 }, 0x20 ^^^ byte)
  else if isEscaped byte then
    ({ t with savedState := t.hdlcState, hdlcState := .escape }, hdlcCtrEsc)
  else ({ t with idx := (t.idx + 1) % 256 }, byte)

def sendMsgState (t : Tx) : Tx × List UInt8 :=
  match t.msgState with
  | .txHdr =>
    let r := uartSendByte t ((t.msgHdr.map (·.header)).getD [] |>.getD t.idx 0)
    if r.1.idx = sosMsgHeaderSize ∧ r.1.hdlcState ≠ .escape then
      if (t.msgHdr.map (·.len)).getD 0 ≠ 0 then
        ({ r.1 with idx := 0, msgState := .txData }, [r.2])
      else ({ r.1 with idx := 0, hdlcState := .crc, msgState := .txCrcLow }, [r.2])
    else (r.1, [r.2])
  | .txData | .txRaw =>
    let r := uartSendByte t (t.buff.getD t.idx 0)
    if r.1.idx = r.1.msgLen ∧ r.1.hdlcState ≠ .escape then
      if r.1.flags &&& uartCrcFlag ≠ 0 then
        ({ r.1 with hdlcState := .crc, msgState := .txCrcLow }, [r.2])
      else ({ r.1 with state := .ended }, [r.2, hdlcFlag])
    else (r.1, [r.2])
  | .txCrcLow =>
    let r := uartSendByte t t.crc.toUInt8
    if r.1.hdlcState ≠ .escape then ({ r.1 with msgState := .txCrcHigh }, [r.2])
    else (r.1, [r.2])
  | .txCrcHigh =>
    let r := uartSendByte t (t.crc >>> 8).toUInt8
    if r.1.hdlcState ≠ .escape then
      ({ r.1 with msgState := .txEnd, state := .hdlcStop }, [r.2])
    else (r.1, [r.2])
  | _ => (t, [])

def uartSendInterrupt (t : Tx) : Tx × TxOut :=
  match t.state with
  | .hdlcStart =>
    let proto := if t.flags &&& uartSosMsgFlag ≠ 0 then hdlcSosMsg else hdlcRaw
    let t := { t with hdlcState := .data, state := .protocol }
    if t.flags &&& uartCrcFlag ≠ 0 then ({ t with crc := crcByte 0 proto }, ⟨[proto], none⟩)
    else (t, ⟨[proto], none⟩)
  | .protocol =>
    let t := { t with
      state := .data
      msgState := if t.flags &&& uartSosMsgFlag ≠ 0 then .txHdr else .txRaw }
    let r := sendMsgState t
    (r.1, ⟨r.2, none⟩)
  | .data =>
    let r := sendMsgState t
    (r.1, ⟨r.2, none⟩)
  | .hdlcStop => ({ t with state := .ended, msgState := .noState }, ⟨[hdlcFlag], none⟩)
  | .ended =>
    ({ t with state := .idle, hdlcState := .idle }, ⟨[], some (t.flags &&& ~~~uartErrorFlag)⟩)
  | _ =>
    let t := { t with flags := t.flags ||| uartErrorFlag, state := .idle, hdlcState := .idle }
    (t, ⟨[], some (t.flags &&& ~~~uartErrorFlag)⟩)

/-- Interrupts until the transmitter is idle again; `none` when the fuel runs out before. -/
def sendAll : ℕ → Tx → Option (Tx × List UInt8)
  | 0, _ => none
  | fuel + 1, t =>
    let r := uartSendInterrupt t
    if r.1.state = .idle then some (r.1, r.2.bytes)
    else (sendAll fuel r.1).map (fun q => (q.1, r.2.bytes ++ q.2))

def transmit (fuel : ℕ) (t : Tx) (msg : SosMsg) (bytes : List UInt8) (msgLen : ℕ) (flags : UInt8)
    (now : UInt32) : Option (Tx × List UInt8) :=
  let r := uartStartTransceiverTx t msg bytes msgLen flags now
  (sendAll fuel r.1).map (fun q => (q.1, r.2.1.bytes ++ q.2))

inductive Ptr where
  | null
  | payload
  | block (a : ℕ)
  deriving DecidableEq, Repr

/-- A message header that the receiver fills. The header bytes are junk until they are stored. -/
structure RxMsg where
  hdr : ℕ
  header : List UInt8
  data : Ptr
  release : Bool

structure Delivered where
  hdr : ℕ
  header : List UInt8
  payload : List UInt8
  data : Ptr
  release : Bool
  deriving DecidableEq, Repr

inductive Action where
  | create (hdr : ℕ)
  | malloc (a size : ℕ)
  | store (p : Ptr) (idx : ℕ)
  | free (p : Ptr)
  | dispose (hdr : Option ℕ)
  | deliver (m : Option Delivered)
  deriving DecidableEq, Repr

structure Rx where
  state : UartState
  msgState : MsgState
  hdlcState : HdlcState
  msgHdr : Option RxMsg
  buff : Ptr
  crc : UInt16
  msgLen : ℕ
  idx : ℕ
  flags : UInt8
  crcIn : UInt16
  savedState : HdlcState
  mem : ℕ → ℕ → UInt8

/-- One receive interrupt: the error bits, the byte, what `msg_create` and `ker_malloc`
would answer, and the time. -/
structure Input where
  err : Bool
  byte : UInt8
  hdr : Option ℕ
  buf : Option ℕ
  now : UInt32

def uartInit (mem : ℕ → ℕ → UInt8) : Rx where
  state := .idle
  msgState := .noState
  hdlcState := .idle
  msgHdr := none
  buff := .null
  crc := 0
  msgLen := 0
  idx := 0
  flags := 0
  crcIn := 0
  savedState := .idle
  mem := mem

def Rx.read (r : Rx) (p : Ptr) (len : ℕ) : List UInt8 :=
  match p with
  | .block a => (List.range len).map (r.mem a)
  | _ => List.replicate len 0

def Rx.write (r : Rx) (p : Ptr) (f : (ℕ → UInt8) → ℕ → UInt8) : Rx :=
  match p with
  | .block a => { r with mem := Function.update r.mem a (f (r.mem a)) }
  | _ => r

section Write

variable (r : Rx) (p : Ptr) (f : (ℕ → UInt8) → ℕ → UInt8)

@[simp] lemma write_state : (r.write p f).state = r.state := by cases p <;> rfl
@[simp] lemma write_msgState : (r.write p f).msgState = r.msgState := by cases p <;> rfl
@[simp] lemma write_hdlcState : (r.write p f).hdlcState = r.hdlcState := by cases p <;> rfl
@[simp] lemma write_msgHdr : (r.write p f).msgHdr = r.msgHdr := by cases p <;> rfl
@[simp] lemma write_buff : (r.write p f).buff = r.buff := by cases p <;> rfl
@[simp] lemma write_msgLen : (r.write p f).msgLen = r.msgLen := by cases p <;> rfl
@[simp] lemma write_flags : (r.write p f).flags = r.flags := by cases p <;> rfl

end Write

def msgCreate (hdr : ℕ) : RxMsg := ⟨hdr, List.replicate sosMsgHeaderSize 0, .payload, false⟩

def msgDispose : Option RxMsg → List Action
  | none => [.dispose none]
  | some m => (if m.release then [.free m.data] else []) ++ [.dispose (some m.hdr)]

section

variable (r : Rx)

def uartResetRecv : Rx × List Action :=
  let acts := match r.msgHdr with
    | none => []
    | some m => msgDispose (some m)
  ({ r with msgHdr := none, state := .idle, msgState := .noState, hdlcState := .idle }, acts)

/-- The message header for a frame that starts: a new one, or the one still there. -/
def startHeader (e : Input) : Option RxMsg × List Action :=
  match r.msgHdr with
  | none => (e.hdr.map msgCreate, (e.hdr.map Action.create).toList)
  | some m =>
    if m.data ≠ .null ∧ m.release then (some { m with release := false }, [.free m.data])
    else (some m, [])

def recvStart (e : Input) : Rx × List Action :=
  if e.err then uartResetRecv r
  else if e.byte = hdlcFlag then ({ r with state := .hdlcStart }, [])
  else if e.byte = hdlcSosMsg then
    match startHeader r e with
    | (some m, acts) =>
      ({ r with
          msgHdr := some m
          msgState := .rxHdr
          crc := crcByte 0 e.byte
          flags := r.flags ||| uartSosMsgFlag
          idx := 0
          state := .data
          hdlcState := .data }, acts)
    | (none, acts) =>
      let q := uartResetRecv { r with msgHdr := none }
      (q.1, acts ++ q.2)
  else if e.byte = hdlcRaw then
    match e.buf with
    | some a =>
      ({ r with
          buff := .block a
          msgState := .rxRaw
          crc := if r.flags &&& uartCrcFlag ≠ 0 then crcByte 0 e.byte else r.crc
          state := .data
          hdlcState := .data
          idx := 0 }, [.malloc a uartMaxMsgLen])
    | none =>
      let q := uartResetRecv { r with buff := .null }
      ({ q.1 with idx := 0 }, q.2)
  else uartResetRecv r

def headerDone (e : Input) : Rx × List Action :=
  let r := { r with msgLen := headerLen ((r.msgHdr.map (·.header)).getD []) }
  if r.msgLen < uartMaxMsgLen then
    if r.msgLen ≠ 0 then
      match e.buf with
      | some a =>
        ({ r with
            buff := .block a
            msgHdr := r.msgHdr.map (fun m => { m with data := .block a, release := true })
            msgState := .rxData
            idx := 0 }, [.malloc a r.msgLen])
      | none => uartResetRecv { r with buff := .null }
    else
      ({ r with
          msgHdr := r.msgHdr.map (fun m => { m with data := .null, release := false })
          msgState := .rxCrcLow }, [])
  else uartResetRecv r

def storeHeader (byte : UInt8) : Rx :=
  { r with
    msgHdr := r.msgHdr.map (fun m => { m with header := m.header.set r.idx byte })
    idx := (r.idx + 1) % 256
    crc := crcByte r.crc byte }

def recvHdr (byte : UInt8) (e : Input) : Rx × List Action :=
  if byte = hdlcFlag then uartResetRecv r
  else if (storeHeader r byte).idx = sosMsgHeaderSize then headerDone (storeHeader r byte) e
  else (storeHeader r byte, [])

def storeBuff (byte : UInt8) : Rx :=
  { r.write r.buff (fun f => Function.update f r.idx byte) with
    idx := (r.idx + 1) % 256
    crc := if r.flags &&& uartCrcFlag ≠ 0 then crcByte r.crc byte else r.crc }

def recvBuff (byte : UInt8) : Rx × List Action :=
  let u := storeBuff r byte
  let acts := [Action.store r.buff r.idx]
  if u.idx = u.msgLen then
    if u.flags &&& uartSosMsgFlag ≠ 0 then
      ({ u with hdlcState := .crc, msgState := .rxCrcLow }, acts)
    else ((uartResetRecv u).1, acts ++ (uartResetRecv u).2)
  else (u, acts)

/-- The inner `switch` of `uart_recv_interrupt`, on a byte whose escape is undone. -/
def recvMsgState (byte : UInt8) (e : Input) : Rx × List Action :=
  match r.msgState with
  | .rxHdr => recvHdr r byte e
  | .rxRaw | .rxData => recvBuff r byte
  | .rxCrcLow => ({ r with crcIn := byte.toUInt16, msgState := .rxCrcHigh }, [])
  | .rxCrcHigh =>
    ({ r with
        crcIn := r.crcIn ||| (byte.toUInt16 <<< 8)
        hdlcState := .padding
        msgState := .rxEnd
        state := .hdlcStop }, [])
  | _ => uartResetRecv r

def recvData (e : Input) : Rx × List Action :=
  if e.err then uartResetRecv r
  else if e.byte = hdlcCtrEsc then ({ r with savedState := r.hdlcState, hdlcState := .escape }, [])
  else if e.byte = hdlcFlag then uartResetRecv r
  else if r.hdlcState = .escape then
    recvMsgState { r with hdlcState := r.savedState } (e.byte ^^^ 0x20) e
  else recvMsgState r e.byte e

def deliverMsg (now : UInt32) : Rx × List Action :=
  match r.msgHdr with
  | none => (r, [.deliver none])
  | some m =>
    let stamped := headerType m.header = msgTimestamp
    let r := if stamped then r.write m.data (stampAt now 4) else r
    let acts := if stamped then (List.range 4).map (fun i => Action.store m.data (4 + i)) else []
    let d : Delivered := ⟨m.hdr, m.header, r.read m.data (headerLen m.header), m.data, m.release⟩
    (r, acts ++ [.deliver (some d)])

/-- If `msgHdr` is `NULL` here, the log is read up to this byte: see `Action.fatal`. -/
def recvStop (e : Input) : Rx × List Action :=
  if e.byte ≠ hdlcFlag then (r, [])
  else
    let q := if r.crcIn = r.crc then deliverMsg r e.now else (r, msgDispose r.msgHdr)
    ({ q.1 with msgHdr := none, state := .idle, msgState := .noState, hdlcState := .idle }, q.2)

def uartRecvInterrupt (e : Input) : Rx × List Action :=
  match r.state with
  | .idle => if e.err ∨ e.byte ≠ hdlcFlag then (r, []) else ({ r with state := .hdlcStart }, [])
  | .hdlcStart | .protocol => recvStart r e
  | .data => recvData r e
  | .hdlcStop => recvStop r e
  | _ => uartResetRecv r

end

def recvAll (r : Rx) : List Input → Rx × List Action
  | [] => (r, [])
  | e :: es =>
    let q := uartRecvInterrupt r e
    let rest := recvAll q.1 es
    (rest.1, q.2 ++ rest.2)

/-- Bytes without line errors; every request for memory is met with an address of its own. -/
def feed (bytes : List UInt8) : List Input :=
  bytes.mapIdx (fun i b => ⟨false, b, some i, some i, 0⟩)

def Action.delivered : Action → Option (Option Delivered)
  | .deliver m => some m
  | _ => none

def deliveries (acts : List Action) : List (Option Delivered) := acts.filterMap Action.delivered

end Uart
