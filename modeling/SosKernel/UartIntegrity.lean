import SosKernel.GuardedRuns
import SosKernel.UartReceiver

/-! # Only frames are handed on

The receiver runs beside the bytes it has seen. A message that it hands on stands in the
stream between two flags. -/
namespace UartIntegrity

open ByteStuffing GuardedRuns Uart UartTransmitter UartReceiver List

structure Watch where
  rx : Rx
  seen : List Input
  log : List (Option Delivered × List Input)

def step (w : Watch) (e : Input) : Option Watch :=
  some {
    rx := (uartRecvInterrupt w.rx e).1
    seen := w.seen ++ [e]
    log := w.log ++
      (deliveries (uartRecvInterrupt w.rx e).2).map (fun d => (d, w.seen ++ [e])) }

def initial (mem : ℕ → ℕ → UInt8) : Watch := ⟨uartInit mem, [], []⟩

/-- No raw frame once a message frame has begun, nothing between CRC and closing flag, and
no escape byte inside an escape. -/
def Orderly (w : Watch) (e : Input) : Prop :=
  (w.rx.state = .hdlcStart → e.err = false → e.byte = hdlcRaw → e.buf.isSome →
    w.rx.flags &&& uartSosMsgFlag = 0) ∧
  (w.rx.state = .hdlcStop → e.byte = hdlcFlag) ∧
  (w.rx.state = .data → w.rx.hdlcState = .escape → e.err = false → e.byte ≠ hdlcCtrEsc)
  deriving Decidable

def Open (seen : List Input) (body : List UInt8) : Prop :=
  ∃ before f seg, seen = before ++ f :: seg ∧ f.byte = hdlcFlag ∧
    seg.map Input.byte = hdlcSosMsg :: body ∧ hdlcFlag ∉ body

def Closed (seen : List Input) (body : List UInt8) : Prop :=
  ∃ before last, seen = before ++ [last] ∧ last.byte = hdlcFlag ∧ Open before body

/-- The message is the last segment of the stream: its bytes, their number and their CRC. -/
def FrameOf (seen : List Input) (m : Delivered) : Prop :=
  ∃ body payload, Closed seen body ∧ m.header.length = sosMsgHeaderSize ∧
    payload.length = headerLen m.header ∧
    unstuff hdlcCtrEsc 0x20 body =
      some (m.header ++ payload ++ crcBytes (frameCrc (m.header ++ payload))) ∧
    (headerType m.header ≠ msgTimestamp → m.payload = payload)

variable {seen : List Input} {body : List UInt8} {r : Rx} {e : Input}

lemma Open.snoc {e : Input} (h : Open seen body) (hflag : e.byte ≠ hdlcFlag) :
    Open (seen ++ [e]) (body ++ [e.byte]) := by
  obtain ⟨before, f, seg, rfl, hf, hseg, hno⟩ := h
  refine ⟨before, f, seg ++ [e], by simp, hf, by simp [hseg], ?_⟩
  simp [hno, hflag.symm]

structure Raw (r : Rx) : Prop where
  state : r.state = .data
  msgState : r.msgState = .rxRaw
  msgHdr : r.msgHdr = none
  flags : r.flags &&& uartSosMsgFlag = 0

structure Decodes (r : Rx) (d : Decoder) : Prop where
  receiving : Receiving r d.out
  pending : r.hdlcState = .escape ↔ d.pending = true
  saved : d.pending = true → r.savedState ≠ .escape

def decoded (body : List UInt8) : Decoder := Decoder.feedAll hdlcCtrEsc 0x20 ⟨[], false⟩ body

inductive Track (r : Rx) (seen : List Input) : Prop
  | idle (h : Idle r)
  | waiting (h : Waiting r) (last : ∃ before f, seen = before ++ [f] ∧ f.byte = hdlcFlag)
  | raw (h : Raw r)
  | frame (body : List UInt8) (isOpen : Open seen body) (h : Decodes r (decoded body))

def TracksQuietly (r : Rx) (seen : List Input) (e : Input) : Prop :=
  deliveries (uartRecvInterrupt r e).2 = [] ∧ Track (uartRecvInterrupt r e).1 (seen ++ [e])

variable {seen : List Input} {u : Rx} {w : Watch}

lemma TracksQuietly.of_outcome {next : Rx → Prop} (h : Outcome r (uartRecvInterrupt r e) next)
    (himp : next (uartRecvInterrupt r e).1 → Track (uartRecvInterrupt r e).1 (seen ++ [e])) :
    TracksQuietly r seen e :=
  ⟨h.quiet, himp h.next⟩

lemma Raw.reset (h : Raw u) : deliveries (uartResetRecv u).2 = [] ∧ Idle (uartResetRecv u).1 := by
  rw [uartResetRecv, h.msgHdr]
  exact ⟨rfl, rfl, rfl⟩

lemma Raw.buff (h : Raw u) (byte : UInt8) :
    deliveries (recvBuff u byte).2 = [] ∧ Track (recvBuff u byte).1 seen := by
  have hstore : Raw (storeBuff u byte) :=
    ⟨by simp [storeBuff, h.state], by simp [storeBuff, h.msgState], by simp [storeBuff, h.msgHdr],
      by simp [storeBuff, h.flags]⟩
  simp only [recvBuff]
  split
  · rw [if_neg (by simp [hstore.flags])]
    refine ⟨?_, .idle hstore.reset.2⟩
    rw [deliveries_append, hstore.reset.1]
    rfl
  · exact ⟨rfl, .raw hstore⟩

lemma Raw.recvMsgState_eq (h : Raw u) (byte : UInt8) (e : Input) :
    recvMsgState u byte e = recvBuff u byte := by
  rw [recvMsgState, h.msgState]

lemma Raw.step (h : Raw r) : TracksQuietly r seen e := by
  have hrun : uartRecvInterrupt r e = recvData r e := by rw [uartRecvInterrupt, h.state]
  rw [TracksQuietly, hrun]
  simp only [recvData]
  split
  · exact ⟨h.reset.1, .idle h.reset.2⟩
  split
  · exact ⟨rfl, .raw ⟨h.state, h.msgState, h.msgHdr, h.flags⟩⟩
  split
  · exact ⟨h.reset.1, .idle h.reset.2⟩
  split
  · have hsaved : Raw { r with hdlcState := r.savedState } :=
      ⟨h.state, h.msgState, h.msgHdr, h.flags⟩
    rw [hsaved.recvMsgState_eq]
    exact hsaved.buff _
  · rw [h.recvMsgState_eq]
    exact h.buff _

lemma Waiting.step (h : Waiting r) (hlast : ∃ before f, seen = before ++ [f] ∧ f.byte = hdlcFlag)
    (hraw : e.err = false → e.byte = hdlcRaw → e.buf.isSome → r.flags &&& uartSosMsgFlag = 0) :
    TracksQuietly r seen e := by
  by_cases hflag : e.err = false ∧ e.byte = hdlcFlag
  · exact .of_outcome (h.flag hflag.1 hflag.2) (fun hw => .waiting hw ⟨seen, e, rfl, hflag.2⟩)
  by_cases hsos : e.err = false ∧ e.byte = hdlcSosMsg
  · have hout := h.sos hsos.1 hsos.2
    split at hout
    · obtain ⟨before, f, rfl, hf⟩ := hlast
      refine .of_outcome hout (fun hnext => .frame [] ⟨before, f, [e], by simp, hf, ?_, ?_⟩ ?_)
      · simp [hsos.2]
      · simp
      · refine ⟨hnext.1, ?_, ?_⟩
        · simp [hnext.2, decoded]
        · simp [decoded]
    · exact .of_outcome hout .idle
  by_cases hstart : e.err = false ∧ e.byte = hdlcRaw ∧ e.buf.isSome
  · obtain ⟨herr, hbyte, hbuf⟩ := hstart
    obtain ⟨a, ha⟩ := Option.isSome_iff_exists.mp hbuf
    have hrun : uartRecvInterrupt r e = recvStart r e := by rw [uartRecvInterrupt, h.state]
    have hne : ¬ hdlcRaw = hdlcFlag ∧ ¬ hdlcRaw = hdlcSosMsg := by decide
    rw [TracksQuietly, hrun, recvStart]
    simp only [herr, hbyte, hne.1, hne.2, ha, Bool.false_eq_true, if_false, if_true]
    exact ⟨rfl, .raw ⟨rfl, rfl, h.msgHdr, hraw herr hbyte hbuf⟩⟩
  · refine .of_outcome (h.other (fun herr hb => hflag ⟨herr, hb⟩)
      (fun herr hb => hsos ⟨herr, hb⟩) (fun herr hb => ?_)) .idle
    cases hbuf : e.buf with
    | none => rfl
    | some a => exact absurd ⟨herr, hb, by simp [hbuf]⟩ hstart

section

variable (h : Decodes r (decoded body))
include h

lemma Decodes.accepted (hs : r.state = .data)
    (hstop : e.err = false ∧ e.byte ≠ hdlcFlag) (hesc : e.byte ≠ hdlcCtrEsc)
    (hopen : Open (seen ++ [e]) (body ++ [e.byte]))
    (hfeed : decoded (body ++ [e.byte]) = ⟨(decoded body).out ++ [unescaped r e.byte], false⟩)
    (hresumed : (resumed r).hdlcState ≠ .escape) : TracksQuietly r seen e := by
  have hout := h.receiving.byte hs hstop.1 hesc hstop.2
  split at hout
  · refine .of_outcome hout (fun hrec => .frame _ hopen ?_)
    have hhdlc : (uartRecvInterrupt r e).1.hdlcState ≠ .escape := by
      rw [recv_byte hs hstop.1 hesc hstop.2]
      exact recvMsgState_hdlc hresumed
    rw [hfeed]
    exact ⟨hrec, by simp [hhdlc], by simp⟩
  · exact .of_outcome hout .idle

lemma Decodes.step (hopen : Open seen body) (hs : r.state = .data)
    (hesc : r.hdlcState = .escape → e.err = false → e.byte ≠ hdlcCtrEsc) :
    TracksQuietly r seen e := by
  by_cases hstop : e.err = true ∨ e.byte = hdlcFlag
  · exact .of_outcome (h.receiving.stopped hs hstop) .idle
  rw [not_or, Bool.not_eq_true] at hstop
  have hopen' := hopen.snoc hstop.2
  have hdec : decoded (body ++ [e.byte]) = (decoded body).feed hdlcCtrEsc 0x20 e.byte :=
    feedAll_snoc ..
  by_cases hpend : r.hdlcState = .escape
  · -- the byte after an escape
    have hd := h.pending.mp hpend
    have hne := hesc hpend hstop.1
    have hfeed : decoded (body ++ [e.byte]) = ⟨(decoded body).out ++ [0x20 ^^^ e.byte], false⟩ := by
      rw [hdec, Decoder.feed, if_pos hd]
    have hbyte : unescaped r e.byte = 0x20 ^^^ e.byte := by
      rw [unescaped, if_pos hpend, UInt8.xor_comm]
    have hresumed : (resumed r).hdlcState ≠ .escape := by
      rw [resumed, if_pos hpend]
      exact h.saved hd
    exact h.accepted hs hstop hne hopen' (hbyte ▸ hfeed) hresumed
  · have hd : ¬ (decoded body).pending = true := fun hp => hpend (h.pending.mpr hp)
    by_cases hbyte : e.byte = hdlcCtrEsc
    · have hfeed : decoded (body ++ [e.byte]) = ⟨(decoded body).out, true⟩ := by
        rw [hdec, Decoder.feed, if_neg hd, if_pos hbyte]
      rw [TracksQuietly, recv_escape hs hstop.1 hbyte]
      refine ⟨rfl, .frame _ hopen' ?_⟩
      rw [hfeed]
      exact ⟨h.receiving.set_hdlc hs _ _, by simp, fun _ => hpend⟩
    · have hfeed : decoded (body ++ [e.byte]) = ⟨(decoded body).out ++ [e.byte], false⟩ := by
        rw [hdec, Decoder.feed, if_neg hd, if_neg hbyte]
      have hplain : unescaped r e.byte = e.byte := if_neg hpend
      have hresumed : (resumed r).hdlcState ≠ .escape := by
        rw [resumed, if_neg hpend]
        exact hpend
      exact h.accepted hs hstop hbyte hopen' (hplain.symm ▸ hfeed) hresumed

lemma Decodes.close (hopen : Open seen body)
    (hs : r.state = .hdlcStop) (hflag : e.byte = hdlcFlag) :
    Track (uartRecvInterrupt r e).1 (seen ++ [e]) ∧
      ∀ d ∈ deliveries (uartRecvInterrupt r e).2, ∃ m, d = some m ∧ FrameOf (seen ++ [e]) m := by
  refine ⟨.idle (recvStop_flag hs hflag).1, fun d hd => ?_⟩
  cases h.receiving with
  | hdr hin => cases hs.symm.trans hin.state
  | data _ _ hdata | crcLow _ _ hdata | crcHigh _ _ hdata => cases hs.symm.trans hdata
  | @stop q header payload lo hi hold heq _ hlen hpad hcrc =>
    rw [hold.stop_deliveries hs hlen hcrc hflag] at hd
    split at hd
    next hmatch =>
      rw [mem_singleton] at hd
      subst hd
      have hnot : (decoded body).pending = false := by
        rw [← Bool.not_eq_true]
        exact fun hp => by cases (h.pending.mpr hp).symm.trans hpad
      have hbytes := (joinBytes_eq_iff lo hi _).mp hmatch
      refine ⟨_, rfl, body, payload, ⟨seen, e, rfl, hflag, hopen⟩, hold.header_length,
        hlen.trans hold.msgLen, unstuff_of_feedAll ?_, fun htype => if_neg htype⟩
      show decoded body = ⟨header ++ payload ++ crcBytes (frameCrc (header ++ payload)), false⟩
      rw [hbytes, ← heq, ← hnot]
    next => cases hd

end

lemma track_step (h : Track w.rx w.seen) (ho : Orderly w e) :
    Track (uartRecvInterrupt w.rx e).1 (w.seen ++ [e]) ∧
      ∀ d ∈ deliveries (uartRecvInterrupt w.rx e).2, ∃ m, d = some m ∧
        FrameOf (w.seen ++ [e]) m := by
  have hquiet (hq : TracksQuietly w.rx w.seen e) :
      Track (uartRecvInterrupt w.rx e).1 (w.seen ++ [e]) ∧
        ∀ d ∈ deliveries (uartRecvInterrupt w.rx e).2, ∃ m, d = some m ∧
          FrameOf (w.seen ++ [e]) m := by
    refine ⟨hq.2, fun d hd => ?_⟩
    rw [hq.1] at hd
    cases hd
  cases h with
  | idle h =>
    refine hquiet (.of_outcome (h.outcome e) (fun hnext => ?_))
    split at hnext
    next hflag => exact .waiting hnext ⟨w.seen, e, rfl, hflag.2⟩
    next => exact .idle hnext
  | waiting h hlast => exact hquiet (Waiting.step h hlast (ho.1 h.state))
  | raw h => exact hquiet h.step
  | frame body hopen h =>
    by_cases hs : w.rx.state = .data
    · exact hquiet (h.step hopen hs (ho.2.2 hs))
    · have hstop : w.rx.state = .hdlcStop := by
        cases h.receiving with
        | hdr hin => exact absurd hin.state hs
        | data _ _ hd | crcLow _ _ hd | crcHigh _ _ hd => exact absurd hd hs
        | stop _ _ hd => exact hd
      exact h.close hopen hstop (ho.2.1 hstop)

structure Sound (w : Watch) : Prop where
  track : Track w.rx w.seen
  log : ∀ p ∈ w.log, p.2 <+: w.seen ∧ ∃ m, p.1 = some m ∧ FrameOf p.2 m

lemma step_sound {e : Input} (h : Sound w) (ho : Orderly w e) :
    ∃ w', step w e = some w' ∧ Sound w' := by
  obtain ⟨htrack, hnew⟩ := track_step h.track ho
  refine ⟨_, rfl, htrack, fun p hp => ?_⟩
  rcases mem_append.mp hp with hold | hp
  · obtain ⟨hpre, hm⟩ := h.log p hold
    exact ⟨hpre.trans (prefix_append ..), hm⟩
  · obtain ⟨d, hd, rfl⟩ := mem_map.mp hp
    exact ⟨prefix_refl _, hnew d hd⟩

lemma seen_run {es : List Input} {w' : Watch} (h : runTrace step w es = some w') :
    w'.seen = w.seen ++ es := by
  induction es generalizing w with
  | nil =>
    cases h
    simp
  | cons e es ih => simpa using ih h

/-- In an orderly stream every message handed on is one whole frame of it. -/
theorem frames_over_runs (mem : ℕ → ℕ → UInt8) (es : List Input)
    (hv : ValidTrace step Orderly (initial mem) es) :
    ∃ w, runTrace step (initial mem) es = some w ∧
      ∀ p ∈ w.log, p.2 <+: es ∧ ∃ m, p.1 = some m ∧ FrameOf p.2 m := by
  have hinit : Sound (initial mem) := ⟨.idle ⟨rfl, rfl⟩, fun p hp => by cases hp⟩
  obtain ⟨w, hrun, hsound⟩ := run_invariant (fun _ _ => step_sound) hinit hv
  have hseen : w.seen = es := seen_run hrun
  refine ⟨w, hrun, ?_⟩
  rw [← hseen]
  exact hsound.log

def start : Watch := initial (fun _ _ => 0)

theorem orderly_sample :
    ValidTrace step Orderly start (feed (frame sampleMsg)) ∧
      ∃ w, runTrace step start (feed (frame sampleMsg)) = some w ∧
        ∀ p ∈ w.log, p.2 <+: feed (frame sampleMsg) ∧ ∃ m, p.1 = some m ∧ FrameOf p.2 m :=
  ⟨by decide +kernel, frames_over_runs (fun _ _ => 0) (feed (frame sampleMsg)) (by decide +kernel)⟩

def lastBody (seen : List Input) : List UInt8 :=
  ((seen.dropLast.map Input.byte).reverse.takeWhile (· ≠ hdlcFlag)).reverse.tail

lemma Closed.lastBody_eq (h : Closed seen body) : lastBody seen = body := by
  obtain ⟨-, last, rfl, -, before, f, seg, rfl, hf, hseg, hno⟩ := h
  have hsos : hdlcSosMsg ≠ hdlcFlag := by decide
  have hall : ∀ b ∈ (hdlcSosMsg :: body).reverse, decide (b ≠ hdlcFlag) = true := by
    intro b hb
    rw [mem_reverse, mem_cons] at hb
    refine decide_eq_true ?_
    rintro rfl
    exact hb.elim (fun heq => hsos heq.symm) hno
  rw [lastBody, dropLast_concat, map_append, map_cons, hseg, hf,
    reverse_append, reverse_cons, append_assoc, takeWhile_append_of_pos hall]
  simp

lemma FrameOf.length_eq {m : Delivered} (h : FrameOf seen m) :
    (unstuff hdlcCtrEsc 0x20 (lastBody seen)).map List.length =
      some (sosMsgHeaderSize + headerLen m.header + 2) := by
  obtain ⟨body, payload, hclosed, hheader, hpay, hbytes, -⟩ := h
  rw [hclosed.lastBody_eq, hbytes]
  simp [hheader, hpay, crcBytes, Nat.add_assoc]

def paddedFrame : List UInt8 := (frame sampleMsg).dropLast ++ [0, hdlcFlag]

/-- The byte is swallowed and the message handed on. -/
theorem padded_frame_is_delivered :
    ∃ w, runTrace step start (feed paddedFrame) = some w ∧
      ∃ p ∈ w.log, ∃ m, p.1 = some m ∧ ¬ FrameOf p.2 m := by
  obtain ⟨w, hrun, p, hp, m, hsome, hne⟩ :
      ∃ w, runTrace step start (feed paddedFrame) = some w ∧ ∃ p ∈ w.log, ∃ m, p.1 = some m ∧
        (unstuff hdlcCtrEsc 0x20 (lastBody p.2)).map List.length ≠
          some (sosMsgHeaderSize + headerLen m.header + 2) := by
    decide +kernel
  exact ⟨w, hrun, p, hp, m, hsome, fun hframe => hne hframe.length_eq⟩

end UartIntegrity
