import SosKernel.Uart

/-! # What the transmitter puts on the line

The interrupts for a message emit one frame: a flag, the protocol byte, header, payload and
CRC in escaped form, and a flag. -/
namespace UartTransmitter

open ByteStuffing Uart List

def escaped (l : List UInt8) : List UInt8 := stuff isEscaped hdlcCtrEsc 0x20 l

def frameCrc (content : List UInt8) : UInt16 := content.foldl crcByte (crcByte 0 hdlcSosMsg)

def crcBytes (c : UInt16) : List UInt8 := [c.toUInt8, (c >>> 8).toUInt8]

def content (m : SosMsg) : List UInt8 := m.header ++ m.payload

def frame (m : SosMsg) : List UInt8 :=
  hdlcFlag :: hdlcSosMsg :: escaped (content m ++ crcBytes (frameCrc (content m))) ++ [hdlcFlag]

lemma frameCrc_snoc (l : List UInt8) (b : UInt8) : frameCrc (l ++ [b]) = crcByte (frameCrc l) b :=
  foldl_append ..

lemma hdlcFlag_not_mem_escaped (l : List UInt8) : hdlcFlag ∉ escaped l := by
  refine not_mem_stuff (by decide) (by decide) (fun b hb => ?_) l
  simp only [isEscaped, Bool.or_eq_true, decide_eq_true_eq] at hb
  rcases hb with (rfl | rfl) | rfl <;> decide

inductive Sends : Tx → List UInt8 → Tx → Prop
  | refl (t : Tx) : Sends t [] t
  | step {t u : Tx} {bs : List UInt8} : (uartSendInterrupt t).1.state ≠ .idle →
      Sends (uartSendInterrupt t).1 bs u → Sends t ((uartSendInterrupt t).2.bytes ++ bs) u

variable {bs l : List UInt8} {b : UInt8}

lemma Sends.trans {t u v : Tx} {cs : List UInt8} (h : Sends t bs u) (h' : Sends u cs v) :
    Sends t (bs ++ cs) v := by
  induction h with
  | refl t => exact h'
  | step hne _ ih =>
    rw [append_assoc]
    exact .step hne (ih h')

lemma Sends.one {t u : Tx} {done : Option UInt8}
    (h : uartSendInterrupt t = (u, ⟨bs, done⟩)) (hne : u.state ≠ .idle) : Sends t bs u := by
  have hrest : Sends (uartSendInterrupt t).1 [] u := by
    rw [h]
    exact .refl u
  have hstep := Sends.step (by rwa [h]) hrest
  rwa [h, append_nil] at hstep

lemma Sends.of_interrupt_eq {t t' u : Tx} (h : Sends t bs u) (hne : bs ≠ [])
    (heq : uartSendInterrupt t' = uartSendInterrupt t) : Sends t' bs u := by
  cases h with
  | refl => exact absurd rfl hne
  | step hidle hrest =>
    rw [← heq] at hidle hrest ⊢
    exact .step hidle hrest

lemma sendAll_of_sends {t u : Tx} (h : Sends t bs u) :
    ∃ n, ∀ fuel, sendAll (n + fuel) t = (sendAll fuel u).map (fun q => (q.1, bs ++ q.2)) := by
  induction h with
  | refl t => exact ⟨0, fun fuel => by simp⟩
  | step hne _ ih =>
    obtain ⟨n, hn⟩ := ih
    refine ⟨n + 1, fun fuel => ?_⟩
    rw [Nat.add_right_comm, sendAll, if_neg hne, hn fuel]
    simp [Function.comp_def]

structure Sending (m : SosMsg) (ms : MsgState) (hs : HdlcState) (k : ℕ) (c : UInt16) (t : Tx) :
    Prop where
  state : t.state = .data
  msgState : t.msgState = ms
  hdlcState : t.hdlcState = hs
  idx : t.idx = k
  crc : t.crc = c
  msgHdr : t.msgHdr = some m
  buff : t.buff = m.payload
  msgLen : t.msgLen = m.len
  flags : t.flags &&& uartCrcFlag ≠ 0

def phaseByte (m : SosMsg) (k : ℕ) (c : UInt16) : MsgState → UInt8
  | .txHdr => m.header.getD k 0
  | .txData => m.payload.getD k 0
  | .txCrcLow => c.toUInt8
  | .txCrcHigh => (c >>> 8).toUInt8
  | _ => 0

def advance (m : SosMsg) (t : Tx) : Tx :=
  match t.msgState with
  | .txHdr =>
    if t.idx = sosMsgHeaderSize then
      if m.len ≠ 0 then { t with idx := 0, msgState := .txData }
      else { t with idx := 0, hdlcState := .crc, msgState := .txCrcLow }
    else t
  | .txData => if t.idx = t.msgLen then { t with hdlcState := .crc, msgState := .txCrcLow } else t
  | .txCrcLow => { t with msgState := .txCrcHigh }
  | .txCrcHigh => { t with msgState := .txEnd, state := .hdlcStop }
  | _ => t

inductive IsPhase : MsgState → HdlcState → Prop
  | hdr : IsPhase .txHdr .data
  | data : IsPhase .txData .data
  | crcLow : IsPhase .txCrcLow .crc
  | crcHigh : IsPhase .txCrcHigh .crc

def phaseCrc (hs : HdlcState) (c : UInt16) (b : UInt8) : UInt16 :=
  if hs = .data then crcByte c b else c

def afterByte (t : Tx) (b : UInt8) : Tx :=
  { t with
    crc := phaseCrc t.hdlcState t.crc b
    idx := (t.idx + 1) % 256
    savedState := if isEscaped b then t.hdlcState else t.savedState }

section Byte

variable {m : SosMsg} {ms : MsgState} {hs : HdlcState} {k : ℕ} {c : UInt16} {t : Tx}

def escapeSent (t : Tx) (b : UInt8) : Tx :=
  { t with crc := phaseCrc t.hdlcState t.crc b, savedState := t.hdlcState, hdlcState := .escape }

section

variable (h : Sending m ms hs k c t)
include h

lemma interrupts_byte (hp : IsPhase ms hs) (hbyte : b = phaseByte m k c ms) :
    if isEscaped b then
      uartSendInterrupt t = (escapeSent t b, ⟨[hdlcCtrEsc], none⟩) ∧
      uartSendInterrupt (escapeSent t b) = (advance m (afterByte t b), ⟨[0x20 ^^^ b], none⟩)
    else uartSendInterrupt t = (advance m (afterByte t b), ⟨[b], none⟩) := by
  obtain ⟨state, msgState, hdlcState, msgHdr, buff, crc, msgLen, idx, flags, saved⟩ := t
  obtain ⟨rfl, rfl, rfl, rfl, rfl, rfl, rfl, rfl, hflags⟩ := h
  split
  next hb =>
    constructor
    · cases hp <;>
        simp_all [uartSendInterrupt, sendMsgState, uartSendByte, escapeSent, phaseByte, phaseCrc]
    · cases hp <;>
        simp_all [uartSendInterrupt, sendMsgState, uartSendByte, escapeSent, advance, afterByte,
          phaseByte, phaseCrc] <;> split_ifs <;> simp_all
  next hb =>
    cases hp <;>
      simp_all [uartSendInterrupt, sendMsgState, uartSendByte, advance, afterByte, phaseByte,
        phaseCrc] <;> split_ifs <;> simp_all

lemma advance_state_ne_idle (b : UInt8) :
    (advance m (afterByte t b)).state ≠ .idle := by
  have hstate : (afterByte t b).state = .data := h.state
  simp only [advance]
  repeat' split
  all_goals simp_all

lemma sends_byte (hp : IsPhase ms hs) :
    Sends t (stuffByte isEscaped hdlcCtrEsc 0x20 (phaseByte m k c ms))
      (advance m (afterByte t (phaseByte m k c ms))) := by
  have hne := advance_state_ne_idle h (phaseByte m k c ms)
  have hint := interrupts_byte h hp rfl
  rw [stuffByte]
  split at hint
  next hb =>
    rw [if_pos hb]
    have hfirst : Sends t [hdlcCtrEsc] (escapeSent t (phaseByte m k c ms)) :=
      .one hint.1 (by simp [escapeSent, h.state])
    exact hfirst.trans (.one hint.2 hne)
  next hb =>
    rw [if_neg hb]
    exact .one hint hne

end

end Byte

section Phases

variable {m : SosMsg} {ms : MsgState} {hs : HdlcState} {k : ℕ} {c : UInt16} {t : Tx}

lemma Sending.after_byte (h : Sending m ms hs k c t) (b : UInt8) :
    Sending m ms hs ((k + 1) % 256) (phaseCrc hs c b) (afterByte t b) where
  state := h.state
  msgState := h.msgState
  hdlcState := h.hdlcState
  idx := by
    show (t.idx + 1) % 256 = (k + 1) % 256
    rw [h.idx]
  crc := by
    show phaseCrc t.hdlcState t.crc b = phaseCrc hs c b
    rw [h.hdlcState, h.crc]
  msgHdr := h.msgHdr
  buff := h.buff
  msgLen := h.msgLen
  flags := h.flags

lemma len_lt (m : SosMsg) : m.len < 256 := UInt8.toNat_lt _

lemma payload_length (m : SosMsg) : m.payload.length = m.len := m.payload_length

lemma drop_cons {tail : List UInt8} (h : l.drop k = b :: tail) :
    l.getD k 0 = b ∧ l.drop (k + 1) = tail ∧ k < l.length := by
  have hk : k < l.length := by
    by_contra hge
    rw [drop_eq_nil_of_le (Nat.le_of_not_lt hge)] at h
    cases h
  rw [drop_eq_getElem_cons hk] at h
  injection h with hb htail
  exact ⟨by simp [List.getD, hk, hb], htail, hk⟩

lemma sends_list {src : List UInt8} (hp : IsPhase ms .data)
    (hbyte : ∀ k c, phaseByte m k c ms = src.getD k 0) (hlen : src.length < 256)
    (hstay : ∀ k c u, Sending m ms .data k c u → k < src.length → advance m u = u)
    (hl : src.drop k = l) (hne : l ≠ []) (h : Sending m ms .data k c t) :
    ∃ u, Sends t (escaped l) (advance m u) ∧
      Sending m ms .data src.length (l.foldl crcByte c) u := by
  induction l generalizing k c t with
  | nil => exact absurd rfl hne
  | cons b l ih =>
    obtain ⟨hb, htail, hk⟩ := drop_cons hl
    have hsend := sends_byte h hp
    rw [hbyte k c, hb] at hsend
    have hafter : Sending m ms .data (k + 1) (crcByte c b) (afterByte t b) := by
      have hmod : (k + 1) % 256 = k + 1 := Nat.mod_eq_of_lt (by omega)
      rw [← hmod]
      exact h.after_byte b
    by_cases hend : k + 1 = src.length
    · -- the last byte
      have hnil : l = [] := by
        rw [← htail]
        exact drop_eq_nil_of_le (Nat.le_of_eq hend.symm)
      subst hnil
      refine ⟨afterByte t b, by simpa [escaped] using hsend, ?_⟩
      rw [← hend]
      exact hafter
    · rw [hstay (k + 1) _ _ hafter (by omega)] at hsend
      have hmore : l ≠ [] := by
        rintro rfl
        have hle := drop_eq_nil_iff.mp htail
        omega
      obtain ⟨u, hu, hsu⟩ := ih htail hmore hafter
      exact ⟨u, hsend.trans hu, hsu⟩

lemma sends_payload (hlen : m.len ≠ 0) (h : Sending m .txData .data 0 c t) :
    ∃ u, Sends t (escaped m.payload) u ∧
      Sending m .txCrcLow .crc m.len (m.payload.foldl crcByte c) u := by
  have hne : m.payload ≠ [] := by
    rw [← length_pos_iff_ne_nil, payload_length]
    omega
  have hstay : ∀ k c u, Sending m .txData .data k c u → k < m.payload.length → advance m u = u := by
    intro k c u hu hk
    rw [payload_length] at hk
    simp [advance, hu.msgState, hu.idx, hu.msgLen, Nat.ne_of_lt hk]
  obtain ⟨u, hsend, hu⟩ := sends_list .data (fun _ _ => rfl)
    (by rw [payload_length]; exact len_lt m) hstay (drop_zero ..) hne h
  rw [payload_length] at hu
  have hadv : advance m u = { u with hdlcState := .crc, msgState := .txCrcLow } := by
    simp [advance, hu.msgState, hu.idx, hu.msgLen]
  rw [hadv] at hsend
  exact ⟨_, hsend, hu.state, rfl, rfl, hu.idx, hu.crc, hu.msgHdr, hu.buff, hu.msgLen, hu.flags⟩

lemma sends_content (h : Sending m .txHdr .data 0 c t) :
    ∃ u, Sends t (escaped (content m)) u ∧
      Sending m .txCrcLow .crc m.len ((content m).foldl crcByte c) u := by
  have hne : m.header ≠ [] := by
    rw [← length_pos_iff_ne_nil, m.header_length]
    decide
  have hstay : ∀ k c u, Sending m .txHdr .data k c u → k < m.header.length → advance m u = u := by
    intro k c u hu hk
    rw [m.header_length] at hk
    simp [advance, hu.msgState, hu.idx, Nat.ne_of_lt hk]
  obtain ⟨u, hsend, hu⟩ := sends_list .hdr (fun _ _ => rfl)
    (by rw [m.header_length]; decide) hstay (drop_zero ..) hne h
  rw [m.header_length] at hu
  by_cases hlen : m.len = 0
  · have hnil : m.payload = [] := by rw [← length_eq_zero_iff, payload_length, hlen]
    have hadv : advance m u = { u with idx := 0, hdlcState := .crc, msgState := .txCrcLow } := by
      simp [advance, hu.msgState, hu.idx, hlen]
    rw [hadv] at hsend
    rw [content, hnil, append_nil, hlen]
    exact ⟨_, hsend, hu.state, rfl, rfl, rfl, hu.crc, hu.msgHdr, hu.buff, hu.msgLen, hu.flags⟩
  · have hadv : advance m u = { u with idx := 0, msgState := .txData } := by
      simp [advance, hu.msgState, hu.idx, hlen]
    rw [hadv] at hsend
    have hdata : Sending m .txData .data 0 (m.header.foldl crcByte c)
        { u with idx := 0, msgState := .txData } :=
      ⟨hu.state, rfl, hu.hdlcState, rfl, hu.crc, hu.msgHdr, hu.buff, hu.msgLen, hu.flags⟩
    obtain ⟨v, hsend', hv⟩ := sends_payload hlen hdata
    rw [content, foldl_append]
    refine ⟨v, ?_, hv⟩
    rw [escaped, stuff_append]
    exact hsend.trans hsend'

lemma sends_crc (h : Sending m .txCrcLow .crc k c t) :
    ∃ u, Sends t (escaped (crcBytes c) ++ [hdlcFlag]) u ∧ u.state = .ended := by
  have hlow := sends_byte h .crcLow
  have h1 := h.after_byte (phaseByte m k c .txCrcLow)
  have hhi : Sending m .txCrcHigh .crc ((k + 1) % 256) c
      (advance m (afterByte t (phaseByte m k c .txCrcLow))) := by
    simp only [advance, h1.msgState]
    exact ⟨h1.state, rfl, h1.hdlcState, h1.idx, h1.crc, h1.msgHdr, h1.buff, h1.msgLen, h1.flags⟩
  have hhigh := hlow.trans (sends_byte hhi .crcHigh)
  have h2 := hhi.after_byte (phaseByte m ((k + 1) % 256) c .txCrcHigh)
  generalize afterByte _ (phaseByte m ((k + 1) % 256) c .txCrcHigh) = u at h2 hhigh
  have hstop : uartSendInterrupt (advance m u) =
      ({ advance m u with state := .ended, msgState := .noState }, ⟨[hdlcFlag], none⟩) := by
    simp [uartSendInterrupt, advance, h2.msgState]
  have hall := hhigh.trans (.one hstop (by simp))
  exact ⟨_, by simpa [escaped, crcBytes, phaseByte] using hall, rfl⟩

end Phases

def started (t : Tx) (m : SosMsg) (flags : UInt8) : Tx :=
  { t with
    state := .protocol
    hdlcState := .data
    msgHdr := some m
    buff := m.payload
    crc := crcByte 0 hdlcSosMsg
    msgLen := m.len
    idx := 0
    flags := uartSysSharedFlagsMsk &&& flags }

lemma shared_flags {flags : UInt8} (h : flags &&& uartCrcFlag ≠ 0) :
    (uartSysSharedFlagsMsk &&& flags) &&& uartCrcFlag ≠ 0 := by
  have hmask : (uartSysSharedFlagsMsk &&& flags) &&& uartCrcFlag = flags &&& uartCrcFlag := by
    rw [UInt8.and_comm uartSysSharedFlagsMsk, UInt8.and_assoc]
    rfl
  rwa [hmask]

lemma interrupt_protocol {t : Tx} (hs : t.state = .protocol) (hf : t.flags &&& uartSosMsgFlag ≠ 0) :
    uartSendInterrupt t = uartSendInterrupt { t with state := .data, msgState := .txHdr } := by
  simp [uartSendInterrupt, hs, hf]

section Message

variable {t : Tx} {flags : UInt8} (m : SosMsg) (bytes : List UInt8) (n : ℕ) (now : UInt32)

lemma uartStart_sends (hidle : t.state = .idle) (hflags : flags &&& uartCrcFlag ≠ 0) :
    ∃ u, uartStartTransceiverTx t m bytes n flags now = (u, ⟨[hdlcFlag], none⟩, 0) ∧
      Sends u [hdlcSosMsg] (started t (m.stamp now) flags) := by
  have hset : (uartSysSharedFlagsMsk &&& flags) &&& uartSosMsgFlag ≠ 0 := shared_flags hflags
  have hcrc : (uartSysSharedFlagsMsk &&& flags) &&& uartCrcFlag ≠ 0 := shared_flags hflags
  refine ⟨{ started t (m.stamp now) flags with
    state := .hdlcStart, hdlcState := .start, crc := t.crc }, ?_, ?_⟩
  · simp [uartStartTransceiverTx, hidle, hset, started]
    rfl
  · have hone : uartSendInterrupt { started t (m.stamp now) flags with
        state := .hdlcStart, hdlcState := .start, crc := t.crc } =
        (started t (m.stamp now) flags, ⟨[hdlcSosMsg], none⟩) := by
      simp [uartSendInterrupt, hset, hcrc, started]
    exact .one hone (by simp [started])

lemma started_sends (hflags : flags &&& uartCrcFlag ≠ 0) :
    ∃ u, Sends (started t m flags)
        (escaped (content m ++ crcBytes (frameCrc (content m))) ++ [hdlcFlag]) u ∧
      u.state = .ended := by
  have hset := shared_flags hflags
  have hfirst : Sending m .txHdr .data 0 (crcByte 0 hdlcSosMsg)
      { started t m flags with state := .data, msgState := .txHdr } :=
    ⟨rfl, rfl, rfl, rfl, rfl, rfl, rfl, rfl, hset⟩
  obtain ⟨u, hu, hcrc⟩ := sends_content hfirst
  obtain ⟨v, hv, hend⟩ := sends_crc hcrc
  refine ⟨v, ?_, hend⟩
  rw [escaped, stuff_append, append_assoc]
  refine (hu.trans hv).of_interrupt_eq (by simp) ?_
  exact interrupt_protocol rfl hset

lemma transmit_eq (hidle : t.state = .idle) (hflags : flags &&& uartCrcFlag ≠ 0) :
    ∃ k u, u.state = .idle ∧ ∀ fuel, k ≤ fuel →
      transmit fuel t m bytes n flags now = some (u, frame (m.stamp now)) := by
  obtain ⟨s, hstart, hs⟩ := uartStart_sends m bytes n now hidle hflags
  obtain ⟨u, hu, hend⟩ := started_sends (m.stamp now) hflags
  obtain ⟨k, hk⟩ := sendAll_of_sends (hs.trans hu)
  have hlast : uartSendInterrupt u = ({ u with state := .idle, hdlcState := .idle },
      ⟨[], some (u.flags &&& ~~~uartErrorFlag)⟩) := by
    simp [uartSendInterrupt, hend]
  refine ⟨k + 1, { u with state := .idle, hdlcState := .idle }, rfl, fun fuel hfuel => ?_⟩
  obtain ⟨rest, rfl⟩ := Nat.exists_eq_add_of_le hfuel
  have hone : sendAll (1 + rest) u = some ({ u with state := .idle, hdlcState := .idle }, []) := by
    rw [Nat.add_comm, sendAll, hlast]
    simp
  rw [transmit, hstart, Nat.add_assoc, hk, hone]
  simp [frame]

end Message

lemma sample_header_length : [1, 2, 0, 0, 0, 0, 0x20, 2].length = sosMsgHeaderSize := by decide

lemma sample_payload_length : [0x7e, 0x03].length =
    (([1, 2, 0, 0, 0, 0, 0x20, 2] : List UInt8).getD sosMsgLenOffset 0).toNat := by decide

def sampleMsg : SosMsg :=
  ⟨[1, 2, 0, 0, 0, 0, 0x20, 2], [0x7e, 0x03], sample_header_length, sample_payload_length⟩

def idleTx : Tx := ⟨.idle, .noState, .idle, none, [], 0, 0, 0, 0, .idle⟩

example : (transmit 40 idleTx sampleMsg [] 0 uartCrcFlag 0).map Prod.snd =
    some (frame sampleMsg) := by
  decide +kernel

end UartTransmitter
