import SosKernel.GuardedRuns
import SosKernel.UartReceiver

/-! # Memory of the receiver over whole byte streams

The receiver runs beside a ledger of what it has allocated. A run stops at a store outside
of its block, at a second release and at a `NULL` header. -/
namespace UartOwnership

open GuardedRuns Uart UartTransmitter UartReceiver

structure Line where
  rx : Rx
  ledger : Ledger

def step (l : Line) (e : Input) : Option Line :=
  (auditAll l.ledger (uartRecvInterrupt l.rx e).2).map
    (fun ledger => ⟨(uartRecvInterrupt l.rx e).1, ledger⟩)

def initial (mem : ℕ → ℕ → UInt8) : Line := ⟨uartInit mem, ⟨[], []⟩⟩

def Accounted (l : Line) : Prop := l.ledger = owned l.rx
  deriving Decidable

def StampFits (r : Rx) : Prop := ∀ m ∈ r.msgHdr, headerType m.header = msgTimestamp → 8 ≤ r.msgLen

instance (r : Rx) : Decidable (StampFits r) :=
  match h : r.msgHdr with
  | none => isTrue (fun m hm => by rw [h] at hm; cases hm)
  | some m =>
    decidable_of_iff (headerType m.header = msgTimestamp → 8 ≤ r.msgLen)
      ⟨fun hf m' hm' => by rw [h] at hm'; cases hm'; exact hf, fun hf => hf m h⟩

/-- No raw frame is begun, and a time stamp message that comes in whole has eight bytes. -/
def Clean (l : Line) (e : Input) : Prop :=
  (l.rx.state = .hdlcStart → e.err = false → e.byte = hdlcRaw → e.buf = none) ∧
  (l.rx.state = .hdlcStop → e.byte = hdlcFlag → l.rx.crcIn = l.rx.crc → StampFits l.rx)
  deriving Decidable

inductive Tidy (r : Rx) : Prop
  | idle (h : Idle r)
  | waiting (h : Waiting r)
  | receiving (content : List UInt8) (h : Receiving r content)

lemma receiving_step {r : Rx} {content : List UInt8} (h : Receiving r content) (e : Input)
    (hstamp : r.state = .hdlcStop → e.byte = hdlcFlag → r.crcIn = r.crc → StampFits r) :
    auditAll (owned r) (uartRecvInterrupt r e).2 = some (owned (uartRecvInterrupt r e).1) ∧
      Tidy (uartRecvInterrupt r e).1 := by
  have hdata (hs : r.state = .data) : Outcome r (uartRecvInterrupt r e) Tidy := by
    by_cases hstop : e.err = true ∨ e.byte = hdlcFlag
    · exact (h.stopped hs hstop).imp .idle
    · rw [not_or, Bool.not_eq_true] at hstop
      by_cases hesc : e.byte = hdlcCtrEsc
      · rw [recv_escape hs hstop.1 hesc]
        exact ⟨rfl, rfl, .receiving content (h.set_hdlc hs _ _)⟩
      · have hbyte := h.byte hs hstop.1 hesc hstop.2
        split at hbyte
        · exact hbyte.imp (.receiving _)
        · exact hbyte.imp .idle
  cases h with
  | hdr hin => exact ⟨(hdata hin.state).audited, (hdata hin.state).next⟩
  | data _ _ hs | crcLow _ _ hs | crcHigh _ _ hs => exact ⟨(hdata hs).audited, (hdata hs).next⟩
  | stop hold heq hs hlen hpad hcrc =>
    by_cases hflag : e.byte = hdlcFlag
    · refine ⟨hold.stop_audited hs hlen hflag ?_, .idle (recvStop_flag hs hflag).1⟩
      intro hcrc' htype
      exact hstamp hs hflag hcrc' _ hold.msgHdr (hold.header_eq ▸ htype)
    · have hrun : uartRecvInterrupt r e = (r, []) := by
        rw [uartRecvInterrupt, hs]
        exact if_pos hflag
      rw [hrun]
      exact ⟨rfl, .receiving _ (.stop hold heq hs hlen hpad hcrc)⟩

lemma step_accounted {l : Line} {e : Input} (h : Tidy l.rx ∧ Accounted l) (hclean : Clean l e) :
    ∃ l', step l e = some l' ∧ Tidy l'.rx ∧ Accounted l' := by
  have hone : auditAll (owned l.rx) (uartRecvInterrupt l.rx e).2 =
      some (owned (uartRecvInterrupt l.rx e).1) ∧ Tidy (uartRecvInterrupt l.rx e).1 := by
    cases h.1 with
    | idle hidle =>
      have hout := hidle.outcome e
      refine ⟨hout.audited, ?_⟩
      have hnext := hout.next
      split at hnext
      · exact .waiting hnext
      · exact .idle hnext
    | waiting hwait =>
      by_cases hflag : e.err = false ∧ e.byte = hdlcFlag
      · have hout := hwait.flag hflag.1 hflag.2
        exact ⟨hout.audited, .waiting hout.next⟩
      by_cases hsos : e.err = false ∧ e.byte = hdlcSosMsg
      · have hout := hwait.sos hsos.1 hsos.2
        split at hout
        · exact ⟨hout.audited, .receiving [] hout.next.1⟩
        · exact ⟨hout.audited, .idle hout.next⟩
      have hout := hwait.other (fun herr hbyte => hflag ⟨herr, hbyte⟩)
        (fun herr hbyte => hsos ⟨herr, hbyte⟩) (hclean.1 hwait.state)
      exact ⟨hout.audited, .idle hout.next⟩
    | receiving content hrec => exact receiving_step hrec e hclean.2
  refine ⟨⟨(uartRecvInterrupt l.rx e).1, owned (uartRecvInterrupt l.rx e).1⟩, ?_, hone.2, rfl⟩
  rw [step, h.2, hone.1]
  rfl

/-- Without raw frames and short time stamps, every byte stream is received safely. -/
theorem ownership_over_runs (mem : ℕ → ℕ → UInt8) (es : List Input)
    (hv : ValidTrace step Clean (initial mem) es) :
    ∃ l, runTrace step (initial mem) es = some l ∧ Accounted l := by
  have hinit : Tidy (initial mem).rx ∧ Accounted (initial mem) := ⟨.idle ⟨rfl, rfl⟩, rfl⟩
  obtain ⟨l, hrun, -, hacc⟩ := run_invariant (fun _ _ => step_accounted) hinit hv
  exact ⟨l, hrun, hacc⟩

def Fresh (l : Line) (e : Input) : Prop :=
  (∀ a ∈ e.hdr, a ∉ l.ledger.hdrs) ∧ ∀ a ∈ e.buf, a ∉ l.ledger.blocks.map Prod.fst
  deriving Decidable

def start : Line := initial (fun _ _ => 0)

theorem ownership_sample :
    ValidTrace step Clean start (feed (frame sampleMsg)) ∧
      ∃ l, runTrace step start (feed (frame sampleMsg)) = some l ∧ Accounted l :=
  ⟨by decide +kernel,
    ownership_over_runs (fun _ _ => 0) (feed (frame sampleMsg)) (by decide +kernel)⟩

def fullRawFrame : List UInt8 := hdlcFlag :: hdlcRaw :: List.replicate 128 0

def shortRawFrame : List UInt8 := [hdlcFlag, hdlcRaw, 0, hdlcFlag]

/-- A message frame broken off after its header leaves a length and a flag behind. The raw
frame after it then passes for a message, without a header. -/
def rawAfterMessage : List UInt8 :=
  [hdlcFlag, hdlcSosMsg, 1, 2, 0, 0, 0, 0, 0x20, 1, hdlcFlag] ++ [hdlcFlag, hdlcRaw, 0, 0, 0]

lemma stamp_header_length : [1, 2, 0, 0, 0, 0, 16, 1].length = sosMsgHeaderSize := by decide

lemma stamp_payload_length : ([9] : List UInt8).length =
    (([1, 2, 0, 0, 0, 0, 16, 1] : List UInt8).getD sosMsgLenOffset 0).toNat := by decide

def shortStamp : SosMsg :=
  ⟨[1, 2, 0, 0, 0, 0, 16, 1], [9], stamp_header_length, stamp_payload_length⟩

/-- A store behind the buffer, a lost buffer, the release of a `NULL` header, and a time
that does not fit. -/
theorem raw_frames_lose_memory :
    (ValidTrace step Fresh start (feed fullRawFrame) ∧
      (runTrace step start (feed fullRawFrame)).elim False (fun l =>
        l.ledger.blocks = [(1, uartMaxMsgLen)] ∧
        (uartRecvInterrupt l.rx ⟨false, 0, none, none, 0⟩).2 =
          [.store (.block 1) uartMaxMsgLen])) ∧
    (ValidTrace step Fresh start (feed shortRawFrame) ∧
      (runTrace step start (feed shortRawFrame)).elim False
        (fun l => l.rx.state = .idle ∧ ¬ Accounted l)) ∧
    (ValidTrace step Fresh start (feed rawAfterMessage) ∧
      (runTrace step start (feed rawAfterMessage)).elim False (fun l =>
        (uartRecvInterrupt l.rx ⟨false, hdlcFlag, none, none, 0⟩).2 = [.dispose none])) ∧
    (ValidTrace step Fresh start (feed (frame shortStamp).dropLast) ∧
      (runTrace step start (feed (frame shortStamp).dropLast)).elim False (fun l =>
        l.ledger.blocks.map Prod.snd = [1] ∧
        .store l.rx.buff 4 ∈ (uartRecvInterrupt l.rx ⟨false, hdlcFlag, none, none, 0⟩).2)) := by
  decide +kernel

end UartOwnership
