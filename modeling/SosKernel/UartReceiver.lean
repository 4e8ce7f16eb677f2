import SosKernel.UartTransmitter

/-! # The receiver between two flags

While a frame comes in, the receiver's state is a function of the bytes it has accepted. -/
namespace UartReceiver

open ByteStuffing Uart UartTransmitter List Function

structure Ledger where
  hdrs : List ℕ
  blocks : List (ℕ × ℕ)
  deriving DecidableEq, Repr

/-- `none` for a store outside of a live block, a release of what is not there, and a `NULL`
header. A delivered message takes its header along, and its block if the release flag is set. -/
def audit (l : Ledger) : Action → Option Ledger
  | .create h => some { l with hdrs := h :: l.hdrs }
  | .malloc a size => some { l with blocks := (a, size) :: l.blocks }
  | .store (.block a) idx => if ∃ b ∈ l.blocks, b.1 = a ∧ idx < b.2 then some l else none
  | .store _ _ => none
  | .free (.block a) =>
    if ∃ b ∈ l.blocks, b.1 = a then
      some { l with blocks := l.blocks.filter (fun b => b.1 ≠ a) }
    else none
  | .free _ => none
  | .dispose (some h) => if h ∈ l.hdrs then some { l with hdrs := l.hdrs.erase h } else none
  | .dispose none => none
  | .deliver (some m) =>
    if m.hdr ∈ l.hdrs then
      if m.release then
        match m.data with
        | .block a =>
          if ∃ b ∈ l.blocks, b.1 = a then
            some ⟨l.hdrs.erase m.hdr, l.blocks.filter (fun b => b.1 ≠ a)⟩
          else none
        | _ => none
      else some { l with hdrs := l.hdrs.erase m.hdr }
    else none
  | .deliver none => none

def auditAll (l : Ledger) (acts : List Action) : Option Ledger := acts.foldlM audit l

def ledgerOf (m : RxMsg) (len : ℕ) : Ledger :=
  match m.release, m.data with
  | true, .block a => ⟨[m.hdr], [(a, len)]⟩
  | _, _ => ⟨[m.hdr], []⟩

def owned (r : Rx) : Ledger :=
  match r.msgHdr with
  | none => ⟨[], []⟩
  | some m => ledgerOf m r.msgLen

variable {r : Rx} {m : RxMsg}

lemma owned_of_msgHdr (h : r.msgHdr = some m) : owned r = ledgerOf m r.msgLen := by rw [owned, h]

@[simp] lemma auditAll_nil (l : Ledger) : auditAll l [] = some l := rfl

@[simp] lemma auditAll_cons (l : Ledger) (a : Action) (acts : List Action) :
    auditAll l (a :: acts) = (audit l a).bind (fun l' => auditAll l' acts) := by
  simp [auditAll, foldlM_cons]

lemma auditAll_append (l : Ledger) (acts acts' : List Action) :
    auditAll l (acts ++ acts') = (auditAll l acts).bind (fun l' => auditAll l' acts') := by
  simp [auditAll, foldlM_append]

@[simp] lemma deliveries_nil : deliveries [] = [] := rfl

lemma deliveries_append (acts acts' : List Action) :
    deliveries (acts ++ acts') = deliveries acts ++ deliveries acts' :=
  filterMap_append

structure Idle (r : Rx) : Prop where
  state : r.state = .idle
  msgHdr : r.msgHdr = none

structure Waiting (r : Rx) : Prop where
  state : r.state = .hdlcStart
  msgHdr : r.msgHdr = none

structure InHeader (r : Rx) (m : RxMsg) (content : List UInt8) : Prop where
  state : r.state = .data
  msgState : r.msgState = .rxHdr
  msgHdr : r.msgHdr = some m
  release : m.release = false
  length : m.header.length = sosMsgHeaderSize
  taken : m.header.take r.idx = content
  idx_lt : r.idx < sosMsgHeaderSize
  crc : r.crc = frameCrc content
  flags : r.flags &&& uartCrcFlag ≠ 0

structure Holding (r : Rx) (m : RxMsg) (header payload : List UInt8) : Prop where
  msgHdr : r.msgHdr = some m
  header_eq : m.header = header
  header_length : header.length = sosMsgHeaderSize
  msgLen : r.msgLen = headerLen header
  msgLen_lt : r.msgLen < uartMaxMsgLen
  payload_eq : r.read m.data payload.length = payload
  crc : r.crc = frameCrc (header ++ payload)
  flags : r.flags &&& uartCrcFlag ≠ 0
  data : (r.msgLen = 0 ∧ m.data = .null ∧ m.release = false) ∨
    ∃ a, 0 < r.msgLen ∧ m.data = .block a ∧ m.release = true

def joinBytes (lo hi : UInt8) : UInt16 := lo.toUInt16 ||| (hi.toUInt16 <<< 8)

lemma joinBytes_toNat (lo hi : UInt8) : (joinBytes lo hi).toNat = hi.toNat * 256 + lo.toNat := by
  have hlo : lo.toNat < 2 ^ 8 := lo.toNat_lt
  have hhi : hi.toNat < 2 ^ 8 := hi.toNat_lt
  have hshift : (hi.toUInt16 <<< 8).toNat = hi.toNat <<< 8 := by
    rw [UInt16.toNat_shiftLeft, UInt8.toNat_toUInt16]
    simp only [UInt16.reduceToNat, Nat.reduceMod, Nat.shiftLeft_eq]
    omega
  rw [joinBytes, UInt16.toNat_or, hshift, UInt8.toNat_toUInt16, Nat.or_comm,
    ← Nat.shiftLeft_add_eq_or_of_lt hlo, Nat.shiftLeft_eq]

lemma high_toNat (c : UInt16) : (c >>> 8).toUInt8.toNat = c.toNat / 256 := by
  have hc : c.toNat < 2 ^ 16 := c.toNat_lt
  rw [UInt16.toNat_toUInt8, UInt16.toNat_shiftRight]
  simp only [UInt16.reduceToNat, Nat.reduceMod, Nat.shiftRight_eq_div_pow]
  omega

lemma joinBytes_eq_iff (lo hi : UInt8) (c : UInt16) :
    joinBytes lo hi = c ↔ crcBytes c = [lo, hi] := by
  have hlo : lo.toNat < 2 ^ 8 := lo.toNat_lt
  have hlow : c.toUInt8.toNat = c.toNat % 256 := UInt16.toNat_toUInt8 c
  rw [← UInt16.toNat_inj, joinBytes_toNat, crcBytes, List.cons.injEq, List.cons.injEq,
    ← UInt8.toNat_inj, ← UInt8.toNat_inj, hlow, high_toNat]
  simp only [and_true]
  omega

inductive Receiving (r : Rx) (content : List UInt8) : Prop
  | hdr {m : RxMsg} (inHeader : InHeader r m content)
  | data {m : RxMsg} {header payload : List UInt8} (holding : Holding r m header payload)
      (content_eq : content = header ++ payload) (state : r.state = .data)
      (msgState : r.msgState = .rxData) (buff : r.buff = m.data) (idx : payload.length = r.idx)
      (idx_lt : r.idx < r.msgLen)
  | crcLow {m : RxMsg} {header payload : List UInt8} (holding : Holding r m header payload)
      (content_eq : content = header ++ payload) (state : r.state = .data)
      (msgState : r.msgState = .rxCrcLow) (length : payload.length = r.msgLen)
  | crcHigh {m : RxMsg} {header payload : List UInt8} {lo : UInt8}
      (holding : Holding r m header payload) (content_eq : content = header ++ payload ++ [lo])
      (state : r.state = .data) (msgState : r.msgState = .rxCrcHigh)
      (length : payload.length = r.msgLen) (crcIn : r.crcIn = lo.toUInt16)
  | stop {m : RxMsg} {header payload : List UInt8} {lo hi : UInt8}
      (holding : Holding r m header payload) (content_eq : content = header ++ payload ++ [lo, hi])
      (state : r.state = .hdlcStop) (length : payload.length = r.msgLen)
      (hdlcState : r.hdlcState = .padding) (crcIn : r.crcIn = joinBytes lo hi)

/-- The next byte does not make the receiver give up: no flag value inside the header, a
length that fits, and memory for a payload. -/
def Accepts (content : List UInt8) (byte : UInt8) (e : Input) : Prop :=
  (content.length < sosMsgHeaderSize → byte ≠ hdlcFlag) ∧
  (content.length + 1 = sosMsgHeaderSize →
    byte.toNat < uartMaxMsgLen ∧ (byte.toNat ≠ 0 → e.buf.isSome))
  deriving Decidable

/-- What one step does to the ledger, that it hands nothing on, and the state it leaves. -/
structure Outcome (r : Rx) (q : Rx × List Action) (next : Rx → Prop) : Prop where
  audited : auditAll (owned r) q.2 = some (owned q.1)
  quiet : deliveries q.2 = []
  next : next q.1

lemma Outcome.imp {q : Rx × List Action} {next next' : Rx → Prop} (h : Outcome r q next)
    (himp : next q.1 → next' q.1) : Outcome r q next' :=
  ⟨h.audited, h.quiet, himp h.next⟩

lemma deliveries_msgDispose (o : Option RxMsg) : deliveries (msgDispose o) = [] := by
  cases o with
  | none => rfl
  | some m => cases hrel : m.release <;> simp [msgDispose, hrel, deliveries, Action.delivered]

lemma audit_msgDispose (h : m.release = true → ∃ a, m.data = .block a) (len : ℕ) :
    auditAll (ledgerOf m len) (msgDispose (some m)) = some ⟨[], []⟩ := by
  cases hrel : m.release with
  | false => simp [msgDispose, ledgerOf, hrel, audit]
  | true =>
    obtain ⟨a, ha⟩ := h hrel
    simp [msgDispose, ledgerOf, hrel, ha, audit]

lemma reset_outcome (h : ∀ m, r.msgHdr = some m → m.release = true → ∃ a, m.data = .block a) :
    Outcome r (uartResetRecv r) Idle := by
  cases hm : r.msgHdr with
  | none => exact ⟨by simp [uartResetRecv, owned, hm], by simp [uartResetRecv, hm], rfl, rfl⟩
  | some m =>
    have hacts : (uartResetRecv r).2 = msgDispose (some m) := by rw [uartResetRecv, hm]
    refine ⟨?_, ?_, rfl, rfl⟩
    · rw [hacts, owned_of_msgHdr hm]
      exact audit_msgDispose (h m hm) r.msgLen
    · rw [hacts]
      exact deliveries_msgDispose _

lemma Holding.release_block {header payload : List UInt8} (h : Holding r m header payload) :
    m.release = true → ∃ a, m.data = .block a := by
  intro hrel
  rcases h.data with ⟨-, -, hno⟩ | ⟨a, -, ha, -⟩
  · rw [hno] at hrel
    cases hrel
  · exact ⟨a, ha⟩

lemma Receiving.reset {content : List UInt8} (h : Receiving r content) :
    Outcome r (uartResetRecv r) Idle := by
  refine reset_outcome (fun m hm hrel => ?_)
  cases h with
  | hdr h =>
    cases hm.symm.trans h.msgHdr
    rw [h.release] at hrel
    cases hrel
  | data h | crcLow h | crcHigh h | stop h =>
    cases hm.symm.trans h.msgHdr
    exact h.release_block hrel

section HeaderByte

variable {content : List UInt8}

section

variable (h : InHeader r m content)
include h

lemma InHeader.content_length : content.length = r.idx := by
  rw [← h.taken, length_take, h.length]
  exact Nat.min_eq_left (Nat.le_of_lt h.idx_lt)

lemma InHeader.next_idx (byte : UInt8) : (storeHeader r byte).idx = r.idx + 1 :=
  Nat.mod_eq_of_lt (Nat.lt_of_le_of_lt h.idx_lt (by decide))

lemma InHeader.taken_succ (byte : UInt8) :
    (m.header.set r.idx byte).take (r.idx + 1) = content ++ [byte] := by
  have hlt : r.idx < m.header.length := h.length ▸ h.idx_lt
  rw [take_add_one, getElem?_set_self hlt, take_set_of_le (Nat.le_refl _), h.taken]
  rfl

lemma InHeader.store (byte : UInt8) (hmore : r.idx + 1 < sosMsgHeaderSize) :
    InHeader (storeHeader r byte) { m with header := m.header.set r.idx byte }
      (content ++ [byte]) where
  state := h.state
  msgState := h.msgState
  msgHdr := by simp [storeHeader, h.msgHdr]
  release := h.release
  length := by simp [h.length]
  taken := by
    rw [h.next_idx byte]
    exact h.taken_succ byte
  idx_lt := by
    rw [h.next_idx byte]
    exact hmore
  crc := by
    rw [frameCrc_snoc, ← h.crc]
    rfl
  flags := h.flags

lemma InHeader.owned_eq : owned r = ⟨[m.hdr], []⟩ := by
  rw [owned_of_msgHdr h.msgHdr, ledgerOf, h.release]

lemma InHeader.complete (byte : UInt8) (hlast : r.idx + 1 = sosMsgHeaderSize) :
    m.header.set r.idx byte = content ++ [byte] ∧ headerLen (content ++ [byte]) = byte.toNat := by
  have hlen : content.length = sosMsgLenOffset := by
    rw [h.content_length]
    exact Nat.succ_injective hlast
  constructor
  · rw [← h.taken_succ byte, hlast]
    simp [h.length]
  · simp [headerLen, ← hlen, List.getD]

end

def headerStored (r : Rx) (m : RxMsg) (content : List UInt8) (byte : UInt8) : Rx :=
  { storeHeader r byte with
    msgHdr := some { m with header := content ++ [byte] }
    msgLen := byte.toNat }

section

variable (h : InHeader r m content) (byte : UInt8)
include h

lemma InHeader.headerDone_eq (e : Input) (hlast : r.idx + 1 = sosMsgHeaderSize) :
    headerDone (storeHeader r byte) e = headerDone (headerStored r m content byte) e := by
  obtain ⟨hheader, hlen⟩ := h.complete byte hlast
  have hmsg : (storeHeader r byte).msgHdr = some { m with header := content ++ [byte] } := by
    rw [← hheader]
    simp [storeHeader, h.msgHdr]
  rw [headerStored, ← hmsg]
  rfl

lemma InHeader.reset_stored (p : Ptr) :
    Outcome r (uartResetRecv { headerStored r m content byte with buff := p }) Idle := by
  have hno : ∀ m', { headerStored r m content byte with buff := p }.msgHdr = some m' →
      m'.release = true → ∃ a, m'.data = .block a := by
    intro m' hm' hrel
    cases hm'
    rw [h.release] at hrel
    cases hrel
  have hreset := reset_outcome hno
  have howned : owned { headerStored r m content byte with buff := p } = owned r := by
    rw [h.owned_eq]
    simp [owned, ledgerOf, headerStored, h.release]
  exact ⟨howned ▸ hreset.audited, hreset.quiet, hreset.next⟩

lemma InHeader.done (e : Input) (hlast : r.idx + 1 = sosMsgHeaderSize) :
    if byte.toNat < uartMaxMsgLen ∧ (byte.toNat ≠ 0 → e.buf.isSome) then
      Outcome r (headerDone (storeHeader r byte) e) (Receiving · (content ++ [byte]))
    else Outcome r (headerDone (storeHeader r byte) e) Idle := by
  obtain ⟨hheader, hlen⟩ := h.complete byte hlast
  have hlength : (content ++ [byte]).length = sosMsgHeaderSize := by
    rw [← hheader, length_set, h.length]
  have hcrc : crcByte r.crc byte = frameCrc (content ++ [byte] ++ []) := by
    rw [append_nil, frameCrc_snoc, ← h.crc]
  rw [h.headerDone_eq byte e hlast]
  by_cases hmax : byte.toNat < uartMaxMsgLen
  · by_cases hzero : byte.toNat = 0
    · have hdone : headerDone (headerStored r m content byte) e =
          ({ headerStored r m content byte with
              msgHdr := some { m with header := content ++ [byte], data := .null, release := false }
              msgState := .rxCrcLow }, []) := by
        simp [headerDone, headerStored, hlen, hzero, show 0 < uartMaxMsgLen by decide]
      rw [if_pos ⟨hmax, fun hne => absurd hzero hne⟩, hdone]
      refine ⟨?_, rfl, ?_⟩
      · rw [h.owned_eq]
        rfl
      · exact .crcLow ⟨rfl, rfl, hlength, hlen.symm, hmax, rfl, hcrc, h.flags,
          .inl ⟨hzero, rfl, rfl⟩⟩ (append_nil _).symm h.state rfl hzero.symm
    · cases hbuf : e.buf with
      | none =>
        have hdone : headerDone (headerStored r m content byte) e =
            uartResetRecv { headerStored r m content byte with buff := .null } := by
          simp [headerDone, headerStored, hlen, hzero, hmax, hbuf]
        rw [if_neg (by simp [hzero]), hdone]
        exact h.reset_stored byte .null
      | some a =>
        have hdone : headerDone (headerStored r m content byte) e =
            ({ headerStored r m content byte with
                buff := .block a
                msgHdr := some
                  { m with header := content ++ [byte], data := .block a, release := true }
                msgState := .rxData
                idx := 0 }, [.malloc a byte.toNat]) := by
          simp [headerDone, headerStored, hlen, hzero, hmax, hbuf]
        rw [if_pos ⟨hmax, fun _ => rfl⟩, hdone]
        have hpos : 0 < byte.toNat := Nat.pos_of_ne_zero hzero
        refine ⟨?_, rfl, ?_⟩
        · rw [h.owned_eq]
          rfl
        · exact .data ⟨rfl, rfl, hlength, hlen.symm, hmax, rfl, hcrc, h.flags,
            .inr ⟨a, hpos, rfl, rfl⟩⟩ (append_nil _).symm h.state rfl rfl rfl hpos
  · have hdone : headerDone (headerStored r m content byte) e =
        uartResetRecv (headerStored r m content byte) := by
      simp [headerDone, headerStored, hlen, hmax]
    rw [if_neg (fun hcond => hmax hcond.1), hdone]
    exact h.reset_stored byte (headerStored r m content byte).buff

lemma InHeader.outcome (e : Input) :
    if Accepts content byte e then
      Outcome r (recvMsgState r byte e) (Receiving · (content ++ [byte]))
    else Outcome r (recvMsgState r byte e) Idle := by
  have hrun : recvMsgState r byte e = recvHdr r byte e := by rw [recvMsgState, h.msgState]
  have hcontent := h.content_length
  by_cases hflag : byte = hdlcFlag
  · have hno : ¬ Accepts content byte e := fun hacc => hacc.1 (hcontent ▸ h.idx_lt) hflag
    rw [if_neg hno, hrun, recvHdr, if_pos hflag]
    exact (Receiving.hdr h).reset
  · rw [hrun, recvHdr, if_neg hflag, h.next_idx byte]
    by_cases hlast : r.idx + 1 = sosMsgHeaderSize
    · have hiff : Accepts content byte e ↔
          byte.toNat < uartMaxMsgLen ∧ (byte.toNat ≠ 0 → e.buf.isSome) := by
        simp [Accepts, hcontent, hlast, hflag]
      simpa only [hiff, if_pos hlast] using h.done byte e hlast
    · have hyes : Accepts content byte e :=
        ⟨fun _ => hflag, fun heq => absurd (hcontent ▸ heq) hlast⟩
      have hstore := h.store byte (Nat.lt_of_le_of_ne h.idx_lt hlast)
      rw [if_pos hyes, if_neg hlast]
      refine ⟨?_, rfl, .hdr hstore⟩
      rw [h.owned_eq, hstore.owned_eq]
      rfl

end

end HeaderByte

section PayloadByte

variable {header payload : List UInt8}

lemma Holding.congr {u : Rx} (h : Holding r m header payload) (hmsg : u.msgHdr = r.msgHdr)
    (hlen : u.msgLen = r.msgLen) (hmem : u.mem = r.mem) (hcrc : u.crc = r.crc)
    (hflags : u.flags = r.flags) : Holding u m header payload where
  msgHdr := hmsg.trans h.msgHdr
  header_eq := h.header_eq
  header_length := h.header_length
  msgLen := hlen.trans h.msgLen
  msgLen_lt := hlen ▸ h.msgLen_lt
  payload_eq := by
    have hread : u.read m.data payload.length = r.read m.data payload.length := by
      simp only [Rx.read, hmem]
    exact hread.trans h.payload_eq
  crc := hcrc.trans h.crc
  flags := hflags ▸ h.flags
  data := hlen ▸ h.data

lemma read_write (r : Rx) (a n : ℕ) (byte : UInt8) :
    (r.write (.block a) (fun f => update f n byte)).read (.block a) (n + 1) =
      r.read (.block a) n ++ [byte] := by
  simp only [Rx.write, Rx.read, update_self, range_succ, map_append, map_cons, map_nil]
  congr 1
  refine map_congr_left (fun j hj => ?_)
  exact update_of_ne (Nat.ne_of_lt (mem_range.mp hj)) ..

section

variable (h : Holding r m header payload)
include h

lemma Holding.store {a : ℕ} (hdata : m.data = .block a) (hbuff : r.buff = m.data)
    (hidx : payload.length = r.idx) (byte : UInt8) :
    Holding (storeBuff r byte) m header (payload ++ [byte]) := by
  have hwrite : storeBuff r byte = { r with
        mem := update r.mem a (update (r.mem a) r.idx byte)
        idx := (r.idx + 1) % 256
        crc := crcByte r.crc byte } := by
    simp [storeBuff, hbuff, hdata, Rx.write, h.flags]
  rw [hwrite]
  refine ⟨h.msgHdr, h.header_eq, h.header_length, h.msgLen, h.msgLen_lt, ?_, ?_, h.flags, h.data⟩
  · have hread := h.payload_eq
    rw [hdata, hidx] at hread
    rw [hdata, length_append, hidx]
    exact (read_write r a r.idx byte).trans (by rw [hread])
  · rw [← append_assoc, frameCrc_snoc, ← h.crc]

lemma payload_outcome (hs : r.state = .data) (hms : r.msgState = .rxData)
    (hbuff : r.buff = m.data) (hidx : payload.length = r.idx) (hlt : r.idx < r.msgLen)
    (byte : UInt8) (e : Input) :
    Outcome r (recvMsgState r byte e) (Receiving · (header ++ payload ++ [byte])) := by
  obtain ⟨a, hpos, hdata, hrel⟩ : ∃ a, 0 < r.msgLen ∧ m.data = .block a ∧ m.release = true :=
    h.data.resolve_left (fun hz => by omega)
  have hstore := h.store hdata hbuff hidx byte
  have hmax : r.msgLen < 128 := h.msgLen_lt
  have hnext : (storeBuff r byte).idx = r.idx + 1 := Nat.mod_eq_of_lt (by omega)
  have hmsgLen : (storeBuff r byte).msgLen = r.msgLen := hstore.msgLen.trans h.msgLen.symm
  have hstate : (storeBuff r byte).state = .data := by simp [storeBuff, hs]
  have haudit : auditAll (owned r) [.store r.buff r.idx] = some (owned r) := by
    rw [owned_of_msgHdr h.msgHdr, ledgerOf, hrel, hbuff, hdata]
    simp [audit, hlt]
  have howned : owned r = owned (storeBuff r byte) := by
    rw [owned_of_msgHdr h.msgHdr, owned_of_msgHdr hstore.msgHdr, hmsgLen]
  have hrun : recvMsgState r byte e = recvBuff r byte := by rw [recvMsgState, hms]
  have hend : (storeBuff r byte).idx = (storeBuff r byte).msgLen ↔ r.idx + 1 = r.msgLen := by
    rw [hnext, hmsgLen]
  by_cases hlast : r.idx + 1 = r.msgLen
  · have hlow : recvBuff r byte = ({ storeBuff r byte with
        hdlcState := .crc, msgState := .rxCrcLow }, [.store r.buff r.idx]) :=
      (if_pos (hend.mpr hlast)).trans (if_pos hstore.flags)
    rw [hrun, hlow]
    refine ⟨haudit.trans (congrArg some howned), rfl, ?_⟩
    refine .crcLow (hstore.congr rfl rfl rfl rfl rfl) (append_assoc ..) hstate rfl ?_
    rw [length_append, length_singleton, hidx, hlast]
    exact hmsgLen.symm
  · have hmore : recvBuff r byte = (storeBuff r byte, [.store r.buff r.idx]) :=
      if_neg (fun heq => hlast (hend.mp heq))
    have hmsgState : (storeBuff r byte).msgState = .rxData := by simp [storeBuff, hms]
    have hbuff' : (storeBuff r byte).buff = m.data := by simp [storeBuff, hbuff]
    rw [hrun, hmore]
    refine ⟨haudit.trans (congrArg some howned), rfl, ?_⟩
    refine .data hstore (append_assoc ..) hstate hmsgState hbuff' ?_ ?_
    · rw [length_append, hidx]
      exact hnext.symm
    · show (storeBuff r byte).idx < (storeBuff r byte).msgLen
      omega

lemma crcLow_outcome (hs : r.state = .data) (hms : r.msgState = .rxCrcLow)
    (hlen : payload.length = r.msgLen) (byte : UInt8) (e : Input) :
    Outcome r (recvMsgState r byte e) (Receiving · (header ++ payload ++ [byte])) := by
  rw [recvMsgState, hms]
  exact ⟨rfl, rfl, .crcHigh (h.congr rfl rfl rfl rfl rfl) rfl hs rfl hlen rfl⟩

lemma crcHigh_outcome {lo : UInt8} (hms : r.msgState = .rxCrcHigh)
    (hlen : payload.length = r.msgLen) (hcrc : r.crcIn = lo.toUInt16) (byte : UInt8) (e : Input) :
    Outcome r (recvMsgState r byte e) (Receiving · (header ++ payload ++ [lo] ++ [byte])) := by
  rw [recvMsgState, hms]
  refine ⟨rfl, rfl, .stop (h.congr rfl rfl rfl rfl rfl) (append_assoc ..) rfl hlen rfl ?_⟩
  rw [hcrc]
  rfl

end

end PayloadByte

lemma Receiving.outcome {content : List UInt8} (h : Receiving r content)
    (hs : r.state = .data) (byte : UInt8) (e : Input) :
    if Accepts content byte e then
      Outcome r (recvMsgState r byte e) (Receiving · (content ++ [byte]))
    else Outcome r (recvMsgState r byte e) Idle := by
  have hpast {header tail : List UInt8} (hlen : header.length = sosMsgHeaderSize) :
      Accepts (header ++ tail) byte e := by
    have hge : sosMsgHeaderSize ≤ (header ++ tail).length := by simp [← hlen]
    exact ⟨fun hlt => by omega, fun heq => by omega⟩
  cases h with
  | hdr h => exact h.outcome byte e
  | data h heq hstate hms hbuff hidx hlt =>
    subst heq
    rw [if_pos (hpast h.header_length)]
    exact payload_outcome h hs hms hbuff hidx hlt byte e
  | crcLow h heq hstate hms hlen =>
    subst heq
    rw [if_pos (hpast h.header_length)]
    exact crcLow_outcome h hs hms hlen byte e
  | crcHigh h heq hstate hms hlen hcrc =>
    subst heq
    rw [append_assoc, if_pos (hpast h.header_length), ← append_assoc]
    exact crcHigh_outcome h hms hlen hcrc byte e
  | stop h heq hstate => cases hs.symm.trans hstate

lemma Receiving.set_hdlc {content : List UInt8} (h : Receiving r content)
    (hs : r.state = .data) (x y : HdlcState) :
    Receiving { r with hdlcState := x, savedState := y } content := by
  cases h with
  | hdr h =>
    exact .hdr ⟨h.state, h.msgState, h.msgHdr, h.release, h.length, h.taken, h.idx_lt, h.crc,
      h.flags⟩
  | data h heq _ hms hbuff hidx hlt =>
    exact .data (h.congr rfl rfl rfl rfl rfl) heq hs hms hbuff hidx hlt
  | crcLow h heq _ hms hlen => exact .crcLow (h.congr rfl rfl rfl rfl rfl) heq hs hms hlen
  | crcHigh h heq _ hms hlen hcrc =>
    exact .crcHigh (h.congr rfl rfl rfl rfl rfl) heq hs hms hlen hcrc
  | stop h heq hstate => cases hs.symm.trans hstate

section Data

variable {content : List UInt8} {e : Input}

def unescaped (r : Rx) (byte : UInt8) : UInt8 :=
  if r.hdlcState = .escape then byte ^^^ 0x20 else byte

def resumed (r : Rx) : Rx :=
  if r.hdlcState = .escape then { r with hdlcState := r.savedState } else r

lemma owned_resumed (r : Rx) : owned (resumed r) = owned r := by
  rw [resumed]
  split <;> rfl

lemma resumed_state (r : Rx) : (resumed r).state = r.state := by
  rw [resumed]
  split <;> rfl

lemma recvMsgState_hdlc {byte : UInt8} (h : r.hdlcState ≠ .escape) :
    (recvMsgState r byte e).1.hdlcState ≠ .escape := by
  have hreset : ∀ u : Rx, (uartResetRecv u).1.hdlcState ≠ .escape := fun u => by
    simp [uartResetRecv]
  have hbuff : (storeBuff r byte).hdlcState ≠ .escape := by
    rw [storeBuff, write_hdlcState]
    exact h
  have hdone : (headerDone (storeHeader r byte) e).1.hdlcState ≠ .escape := by
    simp only [headerDone]
    repeat' split
    all_goals first | exact hreset _ | exact h
  simp only [recvMsgState, recvHdr, recvBuff]
  repeat' split
  all_goals first | exact hreset _ | exact hdone | exact hstore | exact hbuff | exact h | simp

variable (hs : r.state = .data)
include hs

lemma Receiving.stopped (h : Receiving r content)
    (hstop : e.err = true ∨ e.byte = hdlcFlag) : Outcome r (uartRecvInterrupt r e) Idle := by
  have hrun : uartRecvInterrupt r e = uartResetRecv r := by
    rw [uartRecvInterrupt, hs]
    rcases hstop with herr | hflag
    · simp [recvData, herr]
    · simp [recvData, hflag, show ¬ hdlcFlag = hdlcCtrEsc by decide]
  rw [hrun]
  exact h.reset

lemma recv_escape (herr : e.err = false) (hesc : e.byte = hdlcCtrEsc) :
    uartRecvInterrupt r e = ({ r with savedState := r.hdlcState, hdlcState := .escape }, []) := by
  simp [uartRecvInterrupt, hs, recvData, herr, hesc]

lemma recv_byte (herr : e.err = false) (hesc : e.byte ≠ hdlcCtrEsc) (hflag : e.byte ≠ hdlcFlag) :
    uartRecvInterrupt r e = recvMsgState (resumed r) (unescaped r e.byte) e := by
  rw [uartRecvInterrupt, hs]
  simp only [recvData, herr, Bool.false_eq_true, if_false, if_neg hesc, if_neg hflag, resumed,
    unescaped]
  split <;> rfl

lemma Receiving.resumed (h : Receiving r content) : Receiving (resumed r) content := by
  rw [UartReceiver.resumed]
  split
  · exact h.set_hdlc hs r.savedState r.savedState
  · exact h

lemma Receiving.byte (h : Receiving r content) (herr : e.err = false)
    (hesc : e.byte ≠ hdlcCtrEsc) (hflag : e.byte ≠ hdlcFlag) :
    if Accepts content (unescaped r e.byte) e then
      Outcome r (uartRecvInterrupt r e) (Receiving · (content ++ [unescaped r e.byte]))
    else Outcome r (uartRecvInterrupt r e) Idle := by
  have hout := (h.resumed hs).outcome ((resumed_state r).trans hs) (unescaped r e.byte) e
  rw [recv_byte hs herr hesc hflag]
  split at hout
  next hacc => exact (if_pos hacc).mpr ⟨owned_resumed r ▸ hout.audited, hout.quiet, hout.next⟩
  next hacc => exact (if_neg hacc).mpr ⟨owned_resumed r ▸ hout.audited, hout.quiet, hout.next⟩

end Data

lemma Idle.outcome (h : Idle r) (e : Input) :
    Outcome r (uartRecvInterrupt r e)
      (fun u => if e.err = false ∧ e.byte = hdlcFlag then Waiting u else Idle u) := by
  by_cases hflag : e.err = false ∧ e.byte = hdlcFlag
  · have hrun : uartRecvInterrupt r e = ({ r with state := .hdlcStart }, []) := by
      simp [uartRecvInterrupt, h.state, hflag]
    rw [hrun]
    exact ⟨rfl, rfl, (if_pos hflag).mpr ⟨rfl, h.msgHdr⟩⟩
  · have hrun : uartRecvInterrupt r e = (r, []) := by
      rw [uartRecvInterrupt, h.state]
      refine if_pos ?_
      by_contra hno
      rw [not_or, Bool.not_eq_true, not_not] at hno
      exact hflag hno
    rw [hrun]
    exact ⟨rfl, rfl, (if_neg hflag).mpr h⟩

lemma Waiting.sos {e : Input} (h : Waiting r) (herr : e.err = false) (hbyte : e.byte = hdlcSosMsg) :
    if e.hdr.isSome then
      Outcome r (uartRecvInterrupt r e) (fun u => Receiving u [] ∧ u.hdlcState = .data)
    else Outcome r (uartRecvInterrupt r e) Idle := by
  have hrun : uartRecvInterrupt r e = recvStart r e := by rw [uartRecvInterrupt, h.state]
  have hne : ¬ hdlcSosMsg = hdlcFlag := by decide
  have hnone : owned r = ⟨[], []⟩ := by rw [owned, h.msgHdr]
  cases hhdr : e.hdr with
  | none =>
    have hstart : recvStart r e = uartResetRecv { r with msgHdr := none } := by
      simp [recvStart, startHeader, herr, hbyte, hne, h.msgHdr, hhdr]
    rw [hrun, hstart]
    exact ⟨by rw [hnone]; rfl, rfl, rfl, rfl⟩
  | some a =>
    have hstart : recvStart r e = ({ r with
        msgHdr := some (msgCreate a)
        msgState := .rxHdr
        crc := crcByte 0 hdlcSosMsg
        flags := r.flags ||| uartSosMsgFlag
        idx := 0
        state := .data
        hdlcState := .data }, [.create a]) := by
      simp [recvStart, startHeader, herr, hbyte, hne, h.msgHdr, hhdr]
    rw [hrun, hstart]
    have hsize : 0 < sosMsgHeaderSize := by decide
    refine ⟨by rw [hnone]; rfl, rfl, .hdr ⟨rfl, rfl, rfl, rfl, rfl, rfl, hsize, rfl, ?_⟩, rfl⟩
    intro hzero
    have hbit := congrArg (fun x => x.toBitVec.getLsbD 7) hzero
    simp [uartCrcFlag, uartSosMsgFlag] at hbit

lemma Waiting.flag {e : Input} (h : Waiting r) (herr : e.err = false)
    (hflag : e.byte = hdlcFlag) : Outcome r (uartRecvInterrupt r e) Waiting := by
  have hrun : uartRecvInterrupt r e = ({ r with state := .hdlcStart }, []) := by
    simp [uartRecvInterrupt, h.state, recvStart, herr, hflag]
  rw [hrun]
  exact ⟨rfl, rfl, rfl, h.msgHdr⟩

lemma Waiting.other {e : Input} (h : Waiting r)
    (hflag : e.err = false → e.byte ≠ hdlcFlag) (hsos : e.err = false → e.byte ≠ hdlcSosMsg)
    (hraw : e.err = false → e.byte = hdlcRaw → e.buf = none) :
    Outcome r (uartRecvInterrupt r e) Idle := by
  have hrun : uartRecvInterrupt r e = recvStart r e := by rw [uartRecvInterrupt, h.state]
  have hreset : Outcome r (uartResetRecv r) Idle :=
    reset_outcome (fun m hm => by rw [h.msgHdr] at hm; cases hm)
  rw [hrun, recvStart]
  cases herr : e.err with
  | true => exact hreset
  | false =>
    rw [if_neg (hflag herr), if_neg (hsos herr)]
    by_cases hbyte : e.byte = hdlcRaw
    · rw [if_pos hbyte, hraw herr hbyte]
      refine ⟨?_, ?_, rfl, rfl⟩
      · simp [uartResetRecv, h.msgHdr, owned]
      · simp [uartResetRecv, h.msgHdr]
    · rw [if_neg hbyte]
      exact hreset

def deliveredMsg (m : RxMsg) (header payload : List UInt8) (now : UInt32) : Delivered :=
  ⟨m.hdr, header, stampPayload header now 4 payload, m.data, m.release⟩

section Stop

variable {header payload : List UInt8}

def stampStores (m : RxMsg) (header : List UInt8) : List Action :=
  if headerType header = msgTimestamp then
    (List.range 4).map (fun i => Action.store m.data (4 + i))
  else []

lemma deliveries_stampStores (m : RxMsg) (header : List UInt8) :
    deliveries (stampStores m header) = [] := by
  rw [stampStores]
  split <;> rfl

lemma recvStop_flag (hs : r.state = .hdlcStop) (hflag : e.byte = hdlcFlag) :
    Idle (uartRecvInterrupt r e).1 ∧ (uartRecvInterrupt r e).2 =
        if r.crcIn = r.crc then (deliverMsg r e.now).2 else msgDispose r.msgHdr := by
  have hrun : uartRecvInterrupt r e = recvStop r e := by rw [uartRecvInterrupt, hs]
  rw [hrun, recvStop, if_neg (by simp [hflag])]
  refine ⟨⟨rfl, rfl⟩, ?_⟩
  by_cases hcrc : r.crcIn = r.crc
  · simp only [if_pos hcrc]
  · simp only [if_neg hcrc]

section

variable (h : Holding r m header payload)
include h

lemma Holding.getD_payload {a j : ℕ}
    (hdata : m.data = .block a) (hj : j < payload.length) : payload.getD j 0 = r.mem a j := by
  have hread := h.payload_eq
  rw [hdata] at hread
  conv_lhs => rw [← hread]
  simp [Rx.read, List.getD, hj]

lemma Holding.read_stamp (hlen : payload.length = r.msgLen) (now : UInt32) :
    (if headerType header = msgTimestamp then r.write m.data (stampAt now 4) else r).read m.data
      payload.length = stampPayload header now 4 payload := by
  by_cases htype : headerType header = msgTimestamp
  · rw [if_pos htype, stampPayload, if_pos htype]
    rcases h.data with ⟨hz, hdata, -⟩ | ⟨a, -, hdata, -⟩
    · rw [hdata, hlen, hz]
      rfl
    · rw [hdata]
      simp only [Rx.write, Rx.read, update_self]
      refine map_congr_left (fun j hj => ?_)
      rw [stampAt, stampAt, h.getD_payload hdata (mem_range.mp hj)]
  · rw [if_neg htype, stampPayload, if_neg htype]
    exact h.payload_eq

lemma Holding.deliverMsg_eq
    (hlen : payload.length = r.msgLen) (now : UInt32) :
    (deliverMsg r now).2 =
      stampStores m header ++ [.deliver (some (deliveredMsg m header payload now))] := by
  have hread := h.read_stamp hlen now
  rw [hlen, h.msgLen] at hread
  simp only [deliverMsg, h.msgHdr, h.header_eq, hread]
  rfl

lemma Holding.stop_deliveries {lo hi : UInt8}
    (hs : r.state = .hdlcStop) (hlen : payload.length = r.msgLen) (hcrc : r.crcIn = joinBytes lo hi)
    (hflag : e.byte = hdlcFlag) :
    deliveries (uartRecvInterrupt r e).2 = if joinBytes lo hi = frameCrc (header ++ payload) then
        [some (deliveredMsg m header payload e.now)] else [] := by
  rw [(recvStop_flag hs hflag).2, hcrc, h.crc]
  split
  · rw [h.deliverMsg_eq hlen, deliveries_append, deliveries_stampStores]
    rfl
  · exact deliveries_msgDispose _

lemma Holding.stores_audited (hstamp : headerType header = msgTimestamp → 8 ≤ r.msgLen) :
    auditAll (owned r) (stampStores m header) = some (owned r) := by
  by_cases htype : headerType header = msgTimestamp
  · have hlong := hstamp htype
    obtain ⟨a, -, hdata, hrel⟩ : ∃ a, 0 < r.msgLen ∧ m.data = .block a ∧ m.release = true :=
      h.data.resolve_left (fun hz => by omega)
    have hstore : ∀ i < 4, audit (ledgerOf m r.msgLen) (.store m.data (4 + i)) =
        some (ledgerOf m r.msgLen) := by
      intro i hi
      have hin : 4 + i < r.msgLen := by omega
      simp [ledgerOf, audit, hdata, hrel, hin]
    rw [stampStores, if_pos htype, owned_of_msgHdr h.msgHdr]
    simp [range_succ, hstore 0, hstore 1, hstore 2, hstore 3]
  · rw [stampStores, if_neg htype]
    rfl

lemma Holding.stop_audited (hs : r.state = .hdlcStop)
    (hlen : payload.length = r.msgLen) (hflag : e.byte = hdlcFlag)
    (hstamp : r.crcIn = r.crc → headerType header = msgTimestamp → 8 ≤ r.msgLen) :
    auditAll (owned r) (uartRecvInterrupt r e).2 = some (owned (uartRecvInterrupt r e).1) := by
  obtain ⟨hidle, hacts⟩ := recvStop_flag hs hflag
  have howned : owned (uartRecvInterrupt r e).1 = ⟨[], []⟩ := by rw [owned, hidle.msgHdr]
  rw [hacts, howned]
  split
  next hcrc =>
    rw [h.deliverMsg_eq hlen, auditAll_append, h.stores_audited (hstamp hcrc),
      owned_of_msgHdr h.msgHdr]
    rcases h.data with ⟨hz, hdata, hrel⟩ | ⟨a, hpos, hdata, hrel⟩
    · simp [ledgerOf, deliveredMsg, audit, hdata, hrel]
    · simp [ledgerOf, deliveredMsg, audit, hdata, hrel]
  next hcrc =>
    rw [owned_of_msgHdr h.msgHdr, h.msgHdr]
    exact audit_msgDispose h.release_block r.msgLen

end

end Stop

end UartReceiver
