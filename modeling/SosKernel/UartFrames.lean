import SosKernel.GuardedRuns
import SosKernel.UartReceiver

/-! # Frames from one end of the line to the other

A frame that the transmitter emits reaches a receiver that waits for it, whatever came
before, and what a receiver hands on was a frame on the line. -/
namespace UartFrames

open ByteStuffing GuardedRuns Uart UartTransmitter UartReceiver List

def Good (e : Input) : Prop := e.err = false ∧ e.hdr.isSome ∧ e.buf.isSome

def Brings (es : List Input) (bytes : List UInt8) : Prop :=
  es.map Input.byte = bytes ∧ ∀ e ∈ es, Good e

lemma recvAll_append (r : Rx) (es es' : List Input) :
    recvAll r (es ++ es') =
      ((recvAll (recvAll r es).1 es').1, (recvAll r es).2 ++ (recvAll (recvAll r es).1 es').2) := by
  induction es generalizing r with
  | nil => rfl
  | cons e es ih => simp [recvAll, ih]

lemma recvAll_snoc (r : Rx) (es : List Input) (e : Input) :
    recvAll r (es ++ [e]) = ((uartRecvInterrupt (recvAll r es).1 e).1,
      (recvAll r es).2 ++ (uartRecvInterrupt (recvAll r es).1 e).2) := by
  rw [recvAll_append]
  simp [recvAll]

variable {es : List Input} {b : UInt8} {l : List UInt8} {r : Rx} {e : Input} {m : SosMsg}
  {header rest full : List UInt8}

lemma Brings.append {l1 l2 : List UInt8} (h : Brings es (l1 ++ l2)) :
    ∃ es1 es2, es = es1 ++ es2 ∧ Brings es1 l1 ∧ Brings es2 l2 := by
  obtain ⟨es1, es2, rfl, h1, h2⟩ := map_eq_append_iff.mp h.1
  refine ⟨es1, es2, rfl, ⟨h1, fun e he => ?_⟩, h2, fun e he => ?_⟩
  · exact h.2 e (mem_append_left _ he)
  · exact h.2 e (mem_append_right _ he)

lemma Brings.cons (h : Brings es (b :: l)) :
    ∃ e es', es = e :: es' ∧ e.byte = b ∧ Good e ∧ Brings es' l := by
  obtain ⟨e, es', rfl, hb, hl⟩ := map_eq_cons_iff.mp h.1
  exact ⟨e, es', rfl, hb, h.2 e (by simp), hl, fun d hd => h.2 d (mem_cons_of_mem _ hd)⟩

lemma brings_feed (bytes : List UInt8) : Brings (feed bytes) bytes := by
  constructor
  · refine ext_getElem? (fun i => ?_)
    simp [feed, Function.comp_def]
  · intro e he
    obtain ⟨i, -, rfl⟩ := mem_mapIdx.mp he
    exact ⟨rfl, rfl, rfl⟩

/-- Where one stream leaves the receiver and what it hands on, for a result to be chained. -/
structure Quietly (r : Rx) (es : List Input) (next : Rx → Prop) : Prop where
  quiet : deliveries (recvAll r es).2 = []
  next : next (recvAll r es).1

lemma Quietly.append {es' : List Input} {next next' : Rx → Prop} (h : Quietly r es next)
    (h' : next (recvAll r es).1 → Quietly (recvAll r es).1 es' next') :
    Quietly r (es ++ es') next' := by
  obtain ⟨hquiet, hnext⟩ := h' h.next
  refine ⟨?_, ?_⟩
  · rw [recvAll_append, deliveries_append, h.quiet, hquiet]
    rfl
  · rw [recvAll_append]
    exact hnext

lemma Quietly.of_outcome {next : Rx → Prop} (h : Outcome r (uartRecvInterrupt r e) next) :
    Quietly r [e] next := by
  refine ⟨?_, h.next⟩
  simpa [recvAll] using h.quiet

lemma idle_ignores (h : Idle r) (hno : ∀ e ∈ es, e.byte ≠ hdlcFlag) : Quietly r es Idle := by
  induction es generalizing r with
  | nil => exact ⟨rfl, h⟩
  | cons e es ih =>
    have hone : Quietly r [e] Idle := by
      refine .of_outcome ((h.outcome e).imp (fun hnext => ?_))
      rwa [if_neg (fun hflag => hno e (by simp) hflag.2)] at hnext
    exact hone.append (fun hidle => ih hidle (fun d hd => hno d (mem_cons_of_mem _ hd)))

lemma Brings.no_flag (h : Brings es (escaped l)) : ∀ e ∈ es, e.byte ≠ hdlcFlag := by
  intro e he hflag
  refine hdlcFlag_not_mem_escaped l ?_
  rw [← h.1, ← hflag]
  exact mem_map_of_mem he

def InFrame (r : Rx) (content : List UInt8) : Prop := Receiving r content ∧ r.hdlcState ≠ .escape

def AcceptsAt (k : ℕ) (b : UInt8) : Prop :=
  (k < sosMsgHeaderSize → b ≠ hdlcFlag) ∧ (k + 1 = sosMsgHeaderSize → b.toNat < uartMaxMsgLen)
  deriving Decidable

lemma accepts_iff {content : List UInt8} (he : Good e) :
    Accepts content b e ↔ AcceptsAt content.length b := by
  simp [Accepts, AcceptsAt, he.2.2]

lemma recv_plain {content : List UInt8} (h : Receiving r content) (hs : r.state = .data)
    (he : Good e) (hesc : e.byte ≠ hdlcCtrEsc) (hflag : e.byte ≠ hdlcFlag)
    (hhdlc : (resumed r).hdlcState ≠ .escape) :
    Quietly r [e] (fun u => if AcceptsAt content.length (unescaped r e.byte) then
      InFrame u (content ++ [unescaped r e.byte]) else Idle u) := by
  have hout := h.byte hs he.1 hesc hflag
  have hnext : (uartRecvInterrupt r e).1.hdlcState ≠ .escape := by
    rw [recv_byte hs he.1 hesc hflag]
    exact recvMsgState_hdlc hhdlc
  refine .of_outcome ?_
  by_cases hacc : AcceptsAt content.length (unescaped r e.byte)
  · rw [if_pos ((accepts_iff he).mpr hacc)] at hout
    exact hout.imp (fun hrec => (if_pos hacc).mpr ⟨hrec, hnext⟩)
  · rw [if_neg (fun hno => hacc ((accepts_iff he).mp hno))] at hout
    exact hout.imp (fun hidle => (if_neg hacc).mpr hidle)

lemma recv_escape_quietly {content : List UInt8} (h : InFrame r content) (hs : r.state = .data)
    (he : Good e) (hesc : e.byte = hdlcCtrEsc) :
    Quietly r [e] (fun u => Receiving u content ∧ u.state = .data ∧ u.hdlcState = .escape ∧
      u.savedState ≠ .escape) := by
  have hrun := recv_escape hs he.1 hesc
  refine .of_outcome ?_
  rw [hrun]
  exact ⟨rfl, rfl, h.1.set_hdlc hs _ _, hs, rfl, h.2⟩

lemma escaped_byte (h : isEscaped b = true) :
    0x20 ^^^ b ≠ hdlcCtrEsc ∧ 0x20 ^^^ b ≠ hdlcFlag ∧ (0x20 ^^^ b) ^^^ 0x20 = b := by
  simp only [isEscaped, Bool.or_eq_true, decide_eq_true_eq] at h
  rcases h with (rfl | rfl) | rfl <;> decide

lemma recv_stuffed {content : List UInt8} (h : InFrame r content) (hs : r.state = .data)
    (hes : Brings es (stuffByte isEscaped hdlcCtrEsc 0x20 b)) :
    Quietly r es (fun u => if AcceptsAt content.length b then InFrame u (content ++ [b])
      else Idle u) := by
  cases hb : isEscaped b with
  | false =>
    rw [stuffByte, if_neg (by simp [hb])] at hes
    obtain ⟨e, es', rfl, hbyte, he, hnil⟩ := hes.cons
    obtain rfl : es' = [] := map_eq_nil_iff.mp hnil.1
    simp only [isEscaped, Bool.or_eq_false_iff, decide_eq_false_iff_not] at hb
    have hplain : unescaped r e.byte = b := by rw [unescaped, if_neg h.2, hbyte]
    have hresumed : resumed r = r := if_neg h.2
    have hrecv :=
      recv_plain h.1 hs he (hbyte ▸ hb.1.2) (hbyte ▸ hb.1.1) (by rw [hresumed]; exact h.2)
    rwa [hplain] at hrecv
  | true =>
    rw [stuffByte, if_pos hb] at hes
    obtain ⟨e1, es1, rfl, hb1, he1, hes1⟩ := hes.cons
    obtain ⟨e2, es2, rfl, hb2, he2, hnil⟩ := hes1.cons
    obtain rfl : es2 = [] := map_eq_nil_iff.mp hnil.1
    obtain ⟨hesc, hflag, hback⟩ := escaped_byte hb
    refine (recv_escape_quietly h hs he1 hb1).append ?_
    rintro ⟨hrec, hstate, hpending, hsaved⟩
    generalize (recvAll r [e1]).1 = u at hrec hstate hpending hsaved
    have hundone : unescaped u e2.byte = b := by rw [unescaped, if_pos hpending, hb2, hback]
    have hresumed : (resumed u).hdlcState ≠ .escape := by
      rw [resumed, if_pos hpending]
      exact hsaved
    have hrecv := recv_plain hrec hstate he2 (hb2 ▸ hesc) (hb2 ▸ hflag) hresumed
    rwa [hundone] at hrecv

lemma headerLen_append (h : sosMsgHeaderSize ≤ header.length) :
    headerLen (header ++ rest) = headerLen header := by
  have hlt : sosMsgLenOffset < header.length := h
  simp [headerLen, List.getD, getElem?_append_left hlt]

def WholeFrame (full : List UInt8) : Prop := full.length = sosMsgHeaderSize + headerLen full + 2

lemma state_of_receiving {content : List UInt8} (h : Receiving r content)
    (hlen : ¬ WholeFrame content) : r.state = .data := by
  cases h with
  | hdr h => exact h.state
  | data _ _ hs | crcLow _ _ hs | crcHigh _ _ hs => exact hs
  | stop h heq _ hpay =>
    subst heq
    refine absurd ?_ hlen
    rw [WholeFrame, append_assoc, headerLen_append (Nat.le_of_eq h.header_length.symm), ← h.msgLen]
    simp [h.header_length, hpay, Nat.add_assoc]

lemma not_wholeFrame {c : List UInt8} (hfull : WholeFrame full) (heq : full = c ++ l)
    (hl : l ≠ []) : ¬ WholeFrame c := by
  intro hc
  have hsize : sosMsgHeaderSize ≤ c.length := by
    rw [hc]
    omega
  have hpos : 0 < l.length := length_pos_iff_ne_nil.mpr hl
  rw [WholeFrame, heq, headerLen_append hsize, length_append, hc] at hfull
  omega

def Acceptable (k : ℕ) (l : List UInt8) : Prop := ∀ i b, l[i]? = some b → AcceptsAt (k + i) b

lemma acceptable_cons {k : ℕ} : Acceptable k (b :: l) ↔ AcceptsAt k b ∧ Acceptable (k + 1) l := by
  constructor
  · intro h
    refine ⟨h 0 b rfl, fun i d hd => ?_⟩
    rw [Nat.add_assoc, Nat.add_comm 1]
    exact h (i + 1) d hd
  · rintro ⟨hb, hl⟩ i d hd
    cases i with
    | zero =>
      cases hd
      exact hb
    | succ i =>
      rw [← Nat.add_assoc, Nat.add_right_comm]
      exact hl i d hd

lemma recv_body {c : List UInt8} (hfull : WholeFrame full) (heq : full = c ++ l)
    (h : InFrame r c) (hes : Brings es (escaped l)) :
    Quietly r es (fun u => (Acceptable c.length l → InFrame u full) ∧
      (¬ Acceptable c.length l → Idle u)) := by
  induction l generalizing c r es with
  | nil =>
    obtain rfl : es = [] := map_eq_nil_iff.mp hes.1
    rw [append_nil] at heq
    subst heq
    refine ⟨rfl, fun _ => h, fun hno => absurd ?_ hno⟩
    intro i b hb
    simp at hb
  | cons b l ih =>
    have hstate := state_of_receiving h.1 (not_wholeFrame hfull heq (cons_ne_nil b l))
    obtain ⟨es1, es2, rfl, hes1, hes2⟩ := hes.append
    have hbyte := recv_stuffed h hstate hes1
    refine hbyte.append (fun hnext => ?_)
    have hlen : (c ++ [b]).length = c.length + 1 := by simp
    by_cases hacc : AcceptsAt c.length b
    · rw [if_pos hacc] at hnext
      have hrest := ih (by rw [heq, append_assoc]; rfl) hnext hes2
      rw [hlen] at hrest
      exact ⟨hrest.quiet, fun hall => hrest.next.1 (acceptable_cons.mp hall).2,
        fun hno => hrest.next.2 (fun hall => hno (acceptable_cons.mpr ⟨hacc, hall⟩))⟩
    · rw [if_neg hacc] at hnext
      have hrest := idle_ignores hnext hes2.no_flag
      exact ⟨hrest.quiet, fun hall => absurd (acceptable_cons.mp hall).1 hacc, fun _ => hrest.next⟩

/-- What the receiver takes: a header without the value of a flag, and a length it has room for. -/
def WellFormed (m : SosMsg) : Prop := hdlcFlag ∉ m.header ∧ m.len < uartMaxMsgLen
  deriving Decidable

def frameBody (m : SosMsg) : List UInt8 := content m ++ crcBytes (frameCrc (content m))

lemma wholeFrame_body (m : SosMsg) : WholeFrame (frameBody m) := by
  have hlen : headerLen (frameBody m) = m.len := by
    rw [frameBody, content, append_assoc, headerLen_append (Nat.le_of_eq m.header_length.symm)]
    rfl
  rw [WholeFrame, hlen, frameBody, content]
  simp [m.header_length, payload_length, crcBytes, Nat.add_assoc]

lemma body_header (m : SosMsg) {i : ℕ} (hi : i < sosMsgHeaderSize) :
    (frameBody m)[i]? = m.header[i]? := by
  rw [frameBody, content, append_assoc, getElem?_append_left]
  rw [m.header_length]
  exact hi

lemma header_len (h : m.header[sosMsgLenOffset]? = some b) : b.toNat = m.len := by
  simp [SosMsg.len, headerLen, List.getD, h]

lemma acceptable_body (m : SosMsg) : Acceptable 0 (frameBody m) ↔ WellFormed m := by
  constructor
  · intro h
    have hat {i : ℕ} {b : UInt8} (hi : i < sosMsgHeaderSize) (hb : m.header[i]? = some b) :
        AcceptsAt i b := by
      have hacc := h i b ((body_header m hi).trans hb)
      rwa [Nat.zero_add] at hacc
    refine ⟨fun hmem => ?_, ?_⟩
    · obtain ⟨i, hi, hflag⟩ := mem_iff_getElem.mp hmem
      rw [m.header_length] at hi
      exact (hat hi (List.getElem?_eq_some_iff.mpr ⟨by rwa [m.header_length], hflag⟩)).1 hi rfl
    · have hin : sosMsgLenOffset < m.header.length := by
        rw [m.header_length]
        decide
      have hlast := getElem?_eq_getElem hin
      rw [← header_len hlast]
      exact (hat (by decide) hlast).2 rfl
  · rintro ⟨hflag, hlen⟩ i b hb
    rw [Nat.zero_add]
    refine ⟨fun hi => ?_, fun hi => ?_⟩
    · rintro rfl
      rw [body_header m hi] at hb
      exact hflag (mem_of_getElem? hb)
    · obtain rfl : i = sosMsgLenOffset := Nat.succ_injective hi
      rw [body_header m (by decide)] at hb
      rw [header_len hb]
      exact hlen

lemma holding_of_body {q : RxMsg} {payload : List UInt8}
    (h : Holding r q header payload) (heq : frameBody m = header ++ rest) :
    m.header = header ∧ m.payload ++ crcBytes (frameCrc (content m)) = rest ∧
      m.payload.length = r.msgLen ∧ rest.length = r.msgLen + 2 := by
  rw [frameBody, content, append_assoc] at heq
  obtain ⟨rfl, rfl⟩ := append_inj heq (m.header_length.trans h.header_length.symm)
  have hlen := m.payload_length.trans h.msgLen.symm
  exact ⟨rfl, rfl, hlen, by rw [length_append, hlen]; rfl⟩

lemma stopped_of_receiving (h : Receiving r (frameBody m)) :
    ∃ q lo hi, Holding r q m.header m.payload ∧ r.state = .hdlcStop ∧
      m.payload.length = r.msgLen ∧ r.crcIn = joinBytes lo hi ∧
      crcBytes (frameCrc (content m)) = [lo, hi] := by
  cases h with
  | hdr h =>
    have hlt := h.idx_lt
    rw [← h.content_length, wholeFrame_body m] at hlt
    omega
  | data h heq _ _ _ hidx hlt =>
    obtain ⟨-, -, hlen, htotal⟩ := holding_of_body h heq
    omega
  | crcLow h heq _ _ hpay =>
    obtain ⟨-, -, hlen, htotal⟩ := holding_of_body h heq
    omega
  | crcHigh h heq _ _ hpay =>
    rw [append_assoc] at heq
    obtain ⟨-, -, hlen, htotal⟩ := holding_of_body h heq
    rw [length_append, length_singleton] at htotal
    omega
  | stop h heq hs hpay _ hin =>
    rw [append_assoc] at heq
    obtain ⟨rfl, hrest, hlen, -⟩ := holding_of_body h heq
    obtain ⟨rfl, hbytes⟩ := append_inj hrest (hlen.trans hpay.symm)
    exact ⟨_, _, _, h, hs, hpay, hin, hbytes⟩

lemma Brings.frame (h : Brings es (frame m)) :
    ∃ e0 e1 body e2, es = [e0] ++ [e1] ++ body ++ [e2] ∧
      (e0.byte = hdlcFlag ∧ Good e0) ∧ (e1.byte = hdlcSosMsg ∧ Good e1) ∧
      Brings body (escaped (frameBody m)) ∧ e2.byte = hdlcFlag ∧ Good e2 := by
  obtain ⟨e0, es, rfl, hb0, he0, h⟩ := h.cons
  obtain ⟨e1, es, rfl, hb1, he1, h⟩ := h.cons
  have hsplit : Brings es (escaped (frameBody m) ++ [hdlcFlag]) := h
  obtain ⟨body, es', rfl, hbody, hlast⟩ := hsplit.append
  obtain ⟨e2, es', rfl, hb2, he2, hnil⟩ := hlast.cons
  obtain rfl : es' = [] := map_eq_nil_iff.mp hnil.1
  exact ⟨e0, e1, body, e2, rfl, ⟨hb0, he0⟩, ⟨hb1, he1⟩, hbody, hb2, he2⟩

structure Received (m : SosMsg) (q : Rx × List Action) : Prop where
  idle : Idle q.1
  delivered : ∃ d now, deliveries q.2 = [some d] ∧ d.header = m.header ∧
    d.payload = stampPayload m.header now 4 m.payload

lemma recv_frame (h : Idle r ∨ Waiting r) (hes : Brings es (frame m)) :
    (WellFormed m → Received m (recvAll r es)) ∧ (¬ WellFormed m → Quietly r es Waiting) := by
  obtain ⟨e0, e1, body, e2, rfl, ⟨hb0, he0⟩, ⟨hb1, he1⟩, hbody, hb2, he2⟩ := hes.frame
  have hopen : Quietly r [e0] Waiting := by
    refine .of_outcome ?_
    rcases h with hidle | hwait
    · refine (hidle.outcome e0).imp (fun hnext => ?_)
      rwa [if_pos ⟨he0.1, hb0⟩] at hnext
    · exact hwait.flag he0.1 hb0
  have hproto : Quietly r ([e0] ++ [e1]) (InFrame · []) := by
    refine hopen.append (fun hwait => .of_outcome ?_)
    have hsos := hwait.sos he1.1 hb1
    rw [if_pos he1.2.1] at hsos
    exact hsos.imp (fun hnext => ⟨hnext.1, by rw [hnext.2]; decide⟩)
  have hinner := hproto.append
    (fun hframe => recv_body (wholeFrame_body m) (nil_append _).symm hframe hbody)
  rw [length_nil, acceptable_body] at hinner
  constructor
  · intro hok
    obtain ⟨q, lo, hi, hold, hs, hlen, hcrc, hbytes⟩ := stopped_of_receiving (hinner.next.1 hok).1
    have hclose := hold.stop_deliveries hs hlen hcrc hb2
    have hmatch : joinBytes lo hi = frameCrc (m.header ++ m.payload) :=
      (joinBytes_eq_iff lo hi _).mpr hbytes
    rw [if_pos hmatch] at hclose
    rw [recvAll_snoc]
    refine ⟨(recvStop_flag hs hb2).1, deliveredMsg q m.header m.payload e2.now, e2.now, ?_, rfl,
      rfl⟩
    rw [deliveries_append, hinner.quiet, hclose]
    rfl
  · intro hbad
    refine hinner.append (fun hnext => .of_outcome ?_)
    refine ((hnext.2 hbad).outcome e2).imp (fun hclose => ?_)
    rwa [if_pos ⟨he2.1, hb2⟩] at hclose

lemma stamp_of_ne (h : m.type ≠ msgTimestamp) (now : UInt32) : m.stamp now = m := by
  have hpay : stampPayload m.header now 0 m.payload = m.payload := if_neg h
  simp [SosMsg.stamp, hpay]

/-- What the transmitter sends for a message is its frame, and an idle receiver hands the
message on, unless a header byte has the value of a flag. -/
theorem round_trip_iff (m : SosMsg) (htype : m.type ≠ msgTimestamp)
    (hlen : m.len < uartMaxMsgLen) (t : Tx) (ht : t.state = .idle) (bytes : List UInt8) (n : ℕ)
    (flags : UInt8) (hflags : flags &&& uartCrcFlag ≠ 0) (now : UInt32) :
    ∃ k u, (∀ fuel, k ≤ fuel → transmit fuel t m bytes n flags now = some (u, frame m)) ∧
      ∀ r es, Idle r → Brings es (frame m) →
        ((∃ d, deliveries (recvAll r es).2 = [some d] ∧ d.header = m.header ∧
          d.payload = m.payload) ↔ hdlcFlag ∉ m.header) := by
  obtain ⟨k, u, -, hsend⟩ := transmit_eq m bytes n now ht hflags
  rw [stamp_of_ne htype] at hsend
  refine ⟨k, u, hsend, fun r es hidle hes => ?_⟩
  obtain ⟨hgood, hbad⟩ := recv_frame (.inl hidle) hes
  constructor
  · rintro ⟨d, hd, -, -⟩ hflag
    have hquiet := (hbad (fun hok => hok.1 hflag)).quiet
    rw [hd] at hquiet
    cases hquiet
  · intro hflag
    obtain ⟨d, now', hd, hheader, hpay⟩ := (hgood ⟨hflag, hlen⟩).delivered
    exact ⟨d, hd, hheader, hpay.trans (if_neg htype)⟩

theorem round_trip_sample :
    ∃ d, deliveries (recvAll (uartInit (fun _ _ => 0)) (feed (frame sampleMsg))).2 = [some d] ∧
      d.header = sampleMsg.header ∧ d.payload = sampleMsg.payload := by
  obtain ⟨k, u, -, hrecv⟩ := round_trip_iff sampleMsg (by decide) (by decide) idleTx rfl [] 0
    uartCrcFlag (by decide) 0
  exact (hrecv _ _ ⟨rfl, rfl⟩ (brings_feed _)).mpr (by decide)

lemma flag_header_length : [0x7e, 2, 0, 0, 0, 0, 0x20, 0].length = sosMsgHeaderSize := by decide

lemma flag_payload_length : ([] : List UInt8).length =
    (([0x7e, 2, 0, 0, 0, 0, 0x20, 0] : List UInt8).getD sosMsgLenOffset 0).toNat := by decide

def flagMsg : SosMsg :=
  ⟨[0x7e, 2, 0, 0, 0, 0, 0x20, 0], [], flag_header_length, flag_payload_length⟩

/-- It is sent, and nothing is received. -/
theorem flag_in_header_is_lost :
    flagMsg.type ≠ msgTimestamp ∧ flagMsg.len < uartMaxMsgLen ∧
    (transmit 40 idleTx flagMsg [] 0 uartCrcFlag 0).elim False (fun q =>
      q.1.state = .idle ∧
      deliveries (recvAll (uartInit (fun _ _ => 0)) (feed q.2)).2 = []) := by
  decide +kernel

end UartFrames
