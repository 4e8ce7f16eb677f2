import SosKernel.MessageQueue

/-! # The media access layer of the CC2420, `vmac.c`

Sending only. The answers of the clear-channel test and of `post_short` come with each event,
the wake-up timer may fire at any time, and the two messages that the layer posts to itself
are counted while they wait. -/
namespace Vmac

open GuardedRuns MessageQueue List Option Function

def maxRetries : ℕ := 5
def bcastAddress : ℕ := 0xFFFF
def msgTimestamp : ℕ := 16

inductive SendState where
  | idle
  | backoff
  | waitForAck
  deriving DecidableEq, Repr

structure State where
  vmacMsg : Option ℕ
  vmacSendState : SendState
  retryCount : ℕ
  seqCount : ℕ
  vmacPq : Mq ℕ
  hdrs : ℕ → Message ℕ
  nextPending : ℕ
  ackedPending : ℕ
  held : List ℕ
  reported : List (ℕ × Bool)

def noAck (m : Message ℕ) : Prop := m.daddr = bcastAddress ∨ m.type = msgTimestamp
  deriving Decidable

def incSeq (seqCount : ℕ) : ℕ := if seqCount = 0xFF then 1 else seqCount + 1

section

variable (s : State)

/-- `none` for `NULL` and for a message that the layer does not hold. -/
def msgSendSenddone (msg : Option ℕ) (succ : Bool) : Option State :=
  msg.bind (fun m =>
    if m ∈ s.held then
      some { s with held := s.held.erase m, reported := s.reported ++ [(m, succ)] }
    else none)

def postNext (posted : Bool) : State :=
  if posted then { s with nextPending := s.nextPending + 1 } else s

def giveUp (posted : Bool) : Option State :=
  (msgSendSenddone { s with retryCount := 0 } s.vmacMsg false).map (fun s =>
    let s := { s with vmacMsg := none, vmacSendState := .idle }
    if s.vmacPq.msgCnt ≠ 0 then postNext s posted else s)

/-- On a busy channel the message is not looked at, so that `NULL` waits like any other. -/
def radioMsgSend (msg : Option ℕ) (cca posted : Bool) : Option State :=
  if cca then
    msg.bind (fun m =>
      let s := if s.retryCount = 0 then { s with seqCount := incSeq s.seqCount } else s
      if noAck (s.hdrs m) then
        (msgSendSenddone { s with retryCount := 0 } (some m) true).map (fun s =>
          { s with vmacMsg := none, vmacSendState := .idle })
      else if s.retryCount < maxRetries then
        some { s with
          vmacSendState := .waitForAck, vmacMsg := some m, retryCount := s.retryCount + 1 }
      else giveUp s posted)
  else if s.retryCount < maxRetries then
    some { s with vmacSendState := .backoff, vmacMsg := msg, retryCount := s.retryCount + 1 }
  else giveUp s posted

def sendFromQueue (cca posted : Bool) : Option State :=
  let r := mqDequeue s.vmacPq
  let s := { s with vmacPq := r.1, vmacMsg := r.2 }
  if r.2 = none then some s else radioMsgSend s r.2 cca posted

def radioMsgAlloc (msg : ℕ) (cca posted : Bool) : Option State :=
  if s.vmacSendState ≠ .idle then
    (mqEnqueue s.vmacPq (s.hdrs msg).flag msg).map (fun q => { s with vmacPq := q })
  else radioMsgSend { s with retryCount := 0 } (some msg) cca posted

def macRecvAck (ackSeq : ℕ) (posted : Bool) : State :=
  if s.vmacSendState = .waitForAck ∧ s.seqCount = ackSeq ∧ posted then
    { s with ackedPending := s.ackedPending + 1 }
  else s

end

inductive Event where
  | alloc (msg : ℕ) (m : Message ℕ) (cca posted : Bool)
  | recvAck (ackSeq : ℕ) (posted : Bool)
  | timeout (cca posted : Bool)
  | nextMsg (cca posted : Bool)
  | acked (cca posted : Bool)

def step (s : State) : Event → Option State
  | .alloc msg m cca posted =>
    radioMsgAlloc { s with hdrs := update s.hdrs msg m, held := msg :: s.held } msg cca
      posted
  | .recvAck ackSeq posted => some (macRecvAck s ackSeq posted)
  | .timeout cca posted => radioMsgSend s s.vmacMsg cca posted
  | .nextMsg cca posted =>
    let s := { s with nextPending := s.nextPending - 1 }
    if s.vmacMsg = none then sendFromQueue { s with retryCount := 0 } cca posted else some s
  | .acked cca posted =>
    let s := { s with ackedPending := s.ackedPending - 1, vmacSendState := .idle, retryCount := 0 }
    (msgSendSenddone s s.vmacMsg true).bind (fun s =>
      sendFromQueue { s with vmacMsg := none } cca posted)

def initial (next : ℕ → Option ℕ) (hdrs : ℕ → Message ℕ) (seqCount : ℕ) : State :=
  ⟨none, .idle, 0, seqCount, mqInit next, hdrs, 0, 0, [], []⟩

/-- A header is given again only when it was reported, and only messages in the kernel's
queue are handled. -/
def Possible (s : State) : Event → Prop
  | .alloc msg _ _ _ => msg ∉ s.held
  | .nextMsg _ _ => 0 < s.nextPending
  | .acked _ _ => 0 < s.ackedPending
  | _ => True

/-- No queued message is stranded: an idle layer without a message to wake it has none. -/
def Conserves (s : State) : Prop :=
  s.vmacSendState = .idle → s.nextPending = 0 → s.ackedPending = 0 → (mqDequeue s.vmacPq).2 = none
  deriving Decidable

/-- Whichever way `radio_msg_send` leaves, a message that stays in the queue has a wake-up: one
is pending already, or the message is not done at once and a new one can be posted. -/
def SafeSend (s : State) (m : ℕ) (cca posted : Bool) : Prop :=
  s.vmacPq.msgCnt = 0 ∨ 0 < s.nextPending + s.ackedPending ∨
    ((cca = true → ¬ noAck (s.hdrs m)) ∧ posted = true)
  deriving Decidable

def SafeNext (s : State) (cca posted : Bool) : Prop :=
  (mqDequeue s.vmacPq).2.elim True
    (fun m => SafeSend { s with vmacPq := (mqDequeue s.vmacPq).1 } m cca posted)
  deriving Decidable

/-- Timeouts and acknowledgements find their message, sends are safe, and the byte that counts
the queue does not overflow. -/
def Careful (s : State) : Event → Prop
  | .alloc _ _ _ _ => s.vmacSendState ≠ .idle → s.vmacPq.msgCnt < 255
  | .recvAck _ _ => True
  | .timeout cca posted => s.vmacMsg.elim False (fun m => SafeSend s m cca posted)
  | .nextMsg cca posted =>
    s.vmacMsg = none → SafeNext { s with nextPending := s.nextPending - 1 } cca posted
  | .acked cca posted =>
    s.vmacMsg ≠ none ∧ SafeNext { s with ackedPending := s.ackedPending - 1 } cca posted

instance (s : State) (e) : Decidable (Possible s e) := by
  cases e <;> (dsimp only [Possible]; infer_instance)

instance (s : State) (e) : Decidable (Careful s e) := by
  cases e <;> (dsimp only [Careful]; infer_instance)

structure Holding (s : State) (f : MsgClass → List ℕ) (cur : Option ℕ) : Prop where
  queue : Represents s.vmacPq f
  held : ∀ c, ∀ p ∈ f c, p ∈ s.held
  cur : ∀ p, cur = some p → p ∈ s.held ∧ ∀ c, p ∉ f c
  nodup : s.held.Nodup

structure Queued (s : State) (f : MsgClass → List ℕ) (cur : Option ℕ) : Prop extends
    Holding s f cur where
  count : s.vmacPq.msgCnt = total f
  room : total f ≤ 255

structure Inv (s : State) (f : MsgClass → List ℕ) : Prop where
  queued : Queued s f s.vmacMsg
  idle : s.vmacSendState = .idle ↔ s.vmacMsg = none
  awake : s.vmacSendState = .idle → s.nextPending = 0 → s.ackedPending = 0 → total f = 0

variable {s : State} {f : MsgClass → List ℕ} {m : ℕ} {cca posted : Bool} {cur : Option ℕ}
  {c : MsgClass} {l : List ℕ} {e : Event}

lemma nil_of_total (h : total f = 0) (c : MsgClass) : f c = [] := by
  have hle := length_le_total f c
  exact length_eq_zero_iff.mp (by omega)

lemma Inv.conserves (h : Inv s f) : Conserves s := by
  intro hidle hnext hacked
  have hempty := h.awake hidle hnext hacked
  rcases mqDequeue_cases h.queued.queue with ⟨hrun, -⟩ | ⟨c, p, l, hc, -⟩
  · rw [hrun]
  · rw [nil_of_total hempty c] at hc
    cases hc

lemma Holding.congr {s' : State} (h : Holding s f cur) (hpq : s'.vmacPq = s.vmacPq)
    (hheld : s'.held = s.held) : Holding s' f cur :=
  ⟨hpq ▸ h.queue, hheld ▸ h.held, hheld ▸ h.cur, hheld ▸ h.nodup⟩

lemma Queued.congr {s' : State} (h : Queued s f cur) (hpq : s'.vmacPq = s.vmacPq)
    (hheld : s'.held = s.held) : Queued s' f cur :=
  ⟨h.toHolding.congr hpq hheld, hpq ▸ h.count, h.room⟩

lemma Holding.drop (h : Holding s f (some m)) :
    Holding { s with held := s.held.erase m } f none := by
  obtain ⟨-, hnot⟩ := h.cur m rfl
  refine ⟨h.queue, fun c p hp => ?_, fun p hp => ?_, h.nodup.erase m⟩
  · refine (mem_erase_of_ne ?_).mpr (h.held c p hp)
    rintro rfl
    exact hnot c hp
  · cases hp

lemma Queued.report (h : Queued s f (some m)) (succ : Bool) :
    ∃ s', msgSendSenddone s (some m) succ = some s' ∧
      s' = { s with held := s.held.erase m, reported := s.reported ++ [(m, succ)] } ∧
      Queued s' f none :=
  ⟨_, if_pos (h.cur m rfl).1, rfl, (Queued.mk h.drop h.count h.room).congr rfl rfl⟩

lemma giveUp_inv (h : Queued s f (some m)) (hcur : s.vmacMsg = some m)
    (hpost : s.vmacPq.msgCnt = 0 ∨ 0 < s.nextPending + s.ackedPending ∨ posted = true) :
    ∃ s', giveUp s posted = some s' ∧ Inv s' f := by
  have hready : Queued { s with retryCount := 0 } f (some m) := h.congr rfl rfl
  obtain ⟨u, hrun, rfl, hu⟩ := hready.report false
  have hcount := h.count
  rw [← hcur] at hrun
  rw [giveUp, hrun]
  refine ⟨_, rfl, ?_⟩
  simp only
  split
  next hne =>
    cases posted with
    | true => exact ⟨hu.congr rfl rfl, by simp [postNext], by simp [postNext]⟩
    | false =>
      refine ⟨hu.congr rfl rfl, by simp [postNext], fun _ hnext hacked => ?_⟩
      simp only [postNext, Bool.false_eq_true, if_false] at hnext hacked
      simp [hne, hnext, hacked] at hpost
  next hzero =>
    refine ⟨hu.congr rfl rfl, by simp, fun _ _ _ => ?_⟩
    rw [← hcount]
    exact not_not.mp hzero

lemma seq_eq (s : State) :
    ∃ n, (if s.retryCount = 0 then { s with seqCount := incSeq s.seqCount } else s) =
      { s with seqCount := n } := by
  split
  · exact ⟨_, rfl⟩
  · exact ⟨s.seqCount, rfl⟩

lemma radioMsgSend_inv (h : Queued s f (some m))
    (hcur : s.vmacMsg = some m ∨ s.retryCount < maxRetries) (hsafe : SafeSend s m cca posted) :
    ∃ s', radioMsgSend s (some m) cca posted = some s' ∧ Inv s' f := by
  have hpost : s.vmacPq.msgCnt = 0 ∨ 0 < s.nextPending + s.ackedPending ∨ posted = true :=
    hsafe.imp_right (Or.imp_right And.right)
  cases cca with
  | false =>
    simp only [radioMsgSend, Bool.false_eq_true, if_false]
    by_cases hretry : s.retryCount < maxRetries
    · rw [if_pos hretry]
      exact ⟨_, rfl, h.congr rfl rfl, by simp, by simp⟩
    · rw [if_neg hretry]
      exact giveUp_inv h (hcur.resolve_right hretry) hpost
  | true =>
    obtain ⟨n, hn⟩ := seq_eq s
    simp only [radioMsgSend, bind_some, if_true, hn]
    by_cases hno : noAck (s.hdrs m)
    · rw [if_pos hno]
      have hready : Queued { s with seqCount := n, retryCount := 0 } f (some m) := h.congr rfl rfl
      obtain ⟨u, hrun, rfl, hu⟩ := hready.report true
      rw [hrun]
      refine ⟨_, rfl, hu.congr rfl rfl, by simp, fun _ hnext hacked => ?_⟩
      rw [← h.count]
      simp only at hnext hacked
      rcases hsafe with hzero | hpend | ⟨hlate, -⟩
      · exact hzero
      · omega
      · exact absurd hno (hlate rfl)
    · rw [if_neg hno]
      by_cases hretry : s.retryCount < maxRetries
      · rw [if_pos hretry]
        exact ⟨_, rfl, h.congr rfl rfl, by simp, by simp⟩
      · rw [if_neg hretry]
        have hready : Queued { s with seqCount := n } f (some m) := h.congr rfl rfl
        exact giveUp_inv hready (hcur.resolve_right hretry) hpost

lemma Holding.pop (h : Holding s f none) (hc : f c = m :: l) :
    Holding { s with vmacPq := popHead s.vmacPq c m } (update f c l) (some m) := by
  have hsub : ∀ c', ∀ p ∈ update f c l c', p ∈ f c' := by
    intro c' p hp
    by_cases heq : c' = c
    · subst heq
      rw [update_self] at hp
      rw [hc]
      exact mem_cons_of_mem _ hp
    · rwa [update_of_ne heq] at hp
  refine ⟨popHead_represents h.queue hc, fun c' p hp => h.held c' p (hsub c' p hp), ?_, h.nodup⟩
  rintro p ⟨rfl⟩
  have hmem : m ∈ f c := by simp [hc]
  refine ⟨h.held c m hmem, fun c' hp => ?_⟩
  have heq : c' = c := h.queue.apart c' c m (hsub c' m hp) hmem
  subst heq
  have hd := h.queue.nodup c'
  rw [hc] at hd
  rw [update_self] at hp
  exact (nodup_cons.mp hd).1 hp

lemma Queued.pop (h : Queued s f none) (hc : f c = m :: l) :
    Queued { s with vmacPq := popHead s.vmacPq c m, vmacMsg := some m } (update f c l)
      (some m) := by
  have htotal := sumOf_update List.length f c l
  have hroom := h.room
  rw [hc, length_cons] at htotal
  have hcount : s.vmacPq.msgCnt = total (update f c l) + 1 := by
    rw [h.count]
    simp only [total]
    omega
  have hlt : total (update f c l) < 255 := by
    rw [h.count] at hcount
    omega
  exact ⟨(h.toHolding.pop hc).congr rfl rfl, (congrArg decr hcount).trans (decr_eq hlt), by omega⟩

lemma sendFromQueue_inv (h : Queued s f none) (hidle : s.vmacSendState = .idle)
    (hsafe : SafeNext s cca posted) :
    ∃ s' f', sendFromQueue s cca posted = some s' ∧ Inv s' f' := by
  rcases mqDequeue_cases h.queue with ⟨hrun, hspec⟩ | ⟨c, p, l, hc, hrun, -⟩
  · have hempty : total f = 0 := by
      rcases dequeue_cases f with ⟨-, hnil⟩ | ⟨c, p, l, -, hsome⟩
      · simp [total, sumOf, hnil]
      · rw [hspec] at hsome
        cases congrArg Prod.snd hsome
    refine ⟨{ s with vmacMsg := none }, f, by simp [sendFromQueue, hrun], h.congr rfl rfl, ?_, ?_⟩
    · simp [hidle]
    · exact fun _ _ _ => hempty
  · rw [SafeNext, hrun] at hsafe
    obtain ⟨s', hsend, hinv⟩ := radioMsgSend_inv (h.pop hc) (.inl rfl) hsafe
    exact ⟨s', _, by simp [sendFromQueue, hrun, hsend], hinv⟩

lemma Holding.hold {msg : ℕ} (h : Holding s f cur) (hfresh : msg ∉ s.held) (hdr : Message ℕ) :
    Holding { s with hdrs := update s.hdrs msg hdr, held := msg :: s.held } f cur :=
  ⟨h.queue, fun c p hp => mem_cons_of_mem _ (h.held c p hp),
    fun p hp => ⟨mem_cons_of_mem _ (h.cur p hp).1, (h.cur p hp).2⟩,
    nodup_cons.mpr ⟨hfresh, h.nodup⟩⟩

lemma Queued.hold {msg : ℕ} (h : Queued s f cur) (hfresh : msg ∉ s.held) (hdr : Message ℕ) :
    Queued { s with hdrs := update s.hdrs msg hdr, held := msg :: s.held } f cur :=
  ⟨h.toHolding.hold hfresh hdr, h.count, h.room⟩

lemma Holding.enqueue {msg : ℕ} (h : Holding s f cur) (hheld : msg ∈ s.held)
    (hcur : cur ≠ some msg) (hnew : ∀ c, msg ∉ f c) (flag : ℕ) :
    ∃ q, mqEnqueue s.vmacPq flag msg = some q ∧ q.msgCnt = incr s.vmacPq.msgCnt ∧
      Holding { s with vmacPq := q }
        (update f (classOf flag) (f (classOf flag) ++ [msg])) cur := by
  obtain ⟨q, hrun, hrep, hcnt, -⟩ := mqEnqueue_represents h.queue hnew flag
  generalize classOf flag = c at hrep
  have hsub : ∀ c', ∀ p ∈ update f c (f c ++ [msg]) c', p ∈ f c' ∨ p = msg := by
    intro c' p hp
    by_cases heq : c' = c
    · subst heq
      rwa [update_self, mem_append, mem_singleton] at hp
    · rw [update_of_ne heq] at hp
      exact .inl hp
  refine ⟨q, hrun, hcnt, hrep, ?_, ?_, h.nodup⟩
  · intro c' p hp
    rcases hsub c' p hp with hold | rfl
    · exact h.held c' p hold
    · exact hheld
  · intro p hp
    refine ⟨(h.cur p hp).1, fun c' hmem => ?_⟩
    rcases hsub c' p hmem with hold | rfl
    · exact (h.cur p hp).2 c' hold
    · exact hcur hp

lemma Queued.enqueue {msg : ℕ} (h : Queued s f cur) (hheld : msg ∈ s.held) (hcur : cur ≠ some msg)
    (hnew : ∀ c, msg ∉ f c) (hroom : s.vmacPq.msgCnt < 255) (flag : ℕ) :
    ∃ q f', mqEnqueue s.vmacPq flag msg = some q ∧ Queued { s with vmacPq := q } f' cur := by
  obtain ⟨q, hrun, hcnt, hq⟩ := h.toHolding.enqueue hheld hcur hnew flag
  generalize classOf flag = c at hq
  have htotal := sumOf_update List.length f c (f c ++ [msg])
  rw [length_append, length_singleton] at htotal
  have hnext : total (update f c (f c ++ [msg])) = total f + 1 := by
    simp only [total]
    omega
  have hcount := h.count
  refine ⟨q, _, hrun, hq, ?_, by omega⟩
  rw [hcnt, incr_eq hroom, hcount, hnext]

lemma alloc_inv {msg : ℕ} {hdr : Message ℕ} (h : Inv s f) (hfresh : msg ∉ s.held)
    (hroom : s.vmacSendState ≠ .idle → s.vmacPq.msgCnt < 255) :
    ∃ s' f', step s (.alloc msg hdr cca posted) = some s' ∧ Inv s' f' := by
  have hhold := h.queued.hold hfresh hdr
  have hnew : ∀ c, msg ∉ f c := fun c hp => hfresh (h.queued.held c msg hp)
  by_cases hidle : s.vmacSendState = .idle
  · -- the message is sent at once; what is queued has its wake-up already
    have hready : Queued { s with
        hdrs := update s.hdrs msg hdr, held := msg :: s.held, retryCount := 0 } f
        (some msg) := by
      refine ⟨⟨hhold.queue, hhold.held, ?_, hhold.nodup⟩, hhold.count, hhold.room⟩
      rintro p ⟨rfl⟩
      exact ⟨mem_cons_self, hnew⟩
    have hsafe : SafeSend { s with
        hdrs := update s.hdrs msg hdr, held := msg :: s.held, retryCount := 0 } msg cca
        posted := by
      by_cases hpend : 0 < s.nextPending + s.ackedPending
      · exact .inr (.inl hpend)
      · left
        rw [h.queued.count]
        exact h.awake hidle (by omega) (by omega)
    obtain ⟨s', hsend, hinv⟩ := radioMsgSend_inv hready (.inr (Nat.zero_lt_succ 4)) hsafe
    exact ⟨s', f, (if_neg (not_not_intro hidle)).trans hsend, hinv⟩
  · have hcur : s.vmacMsg ≠ some msg := fun heq => hfresh (h.queued.cur msg heq).1
    obtain ⟨q, f', hrun, hq⟩ := hhold.enqueue mem_cons_self hcur hnew (hroom hidle) hdr.flag
    refine ⟨_, f', ?_, hq, h.idle, fun hidle' => absurd hidle' hidle⟩
    simp [step, radioMsgAlloc, hidle, hrun]

lemma step_inv (h : Inv s f) (hp : Possible s e) (hc : Careful s e) :
    ∃ s' f', step s e = some s' ∧ Inv s' f' := by
  cases e with
  | alloc msg hdr cca posted => exact alloc_inv h hp hc
  | recvAck ackSeq posted =>
    refine ⟨_, f, rfl, ?_⟩
    rw [macRecvAck]
    split
    next hack =>
      refine ⟨h.queued.congr rfl rfl, h.idle, fun hidle => ?_⟩
      cases hack.1.symm.trans hidle
    next => exact h
  | timeout cca posted =>
    obtain ⟨m, hm, hsafe⟩ := exists_of_elim hc
    have hq : Queued s f (some m) := hm ▸ h.queued
    obtain ⟨s', hsend, hinv⟩ := radioMsgSend_inv hq (.inl hm) hsafe
    exact ⟨s', f, by rw [step, hm, hsend], hinv⟩
  | nextMsg cca posted =>
    by_cases hnone : s.vmacMsg = none
    · have hq : Queued { s with nextPending := s.nextPending - 1, retryCount := 0 } f none :=
        (hnone ▸ h.queued).congr rfl rfl
      obtain ⟨s', f', hsend, hinv⟩ := sendFromQueue_inv hq (h.idle.mpr hnone) (hc hnone)
      exact ⟨s', f', (if_pos hnone).trans hsend, hinv⟩
    · refine ⟨{ s with nextPending := s.nextPending - 1 }, f, by simp [step, hnone],
        h.queued.congr rfl rfl, h.idle, fun hidle => absurd (h.idle.mp hidle) hnone⟩
  | acked cca posted =>
    obtain ⟨m, hm⟩ := Option.ne_none_iff_exists'.mp hc.1
    have hq : Queued { s with
        ackedPending := s.ackedPending - 1, vmacSendState := .idle, retryCount := 0 } f (some m) :=
      (hm ▸ h.queued).congr rfl rfl
    obtain ⟨u, hrun, hu, hqueued⟩ := hq.report true
    have hcleared : Queued { u with vmacMsg := none } f none := hqueued.congr rfl rfl
    have hnext : SafeNext { u with vmacMsg := none } cca posted := by
      rw [hu]
      exact hc.2
    obtain ⟨s', f', hsend, hinv⟩ := sendFromQueue_inv hcleared (by rw [hu]) hnext
    refine ⟨s', f', ?_, hinv⟩
    rw [← hm] at hrun
    exact (congrArg (Option.bind · _) hrun).trans hsend

def accounts (s : State) : List ℕ := s.held ++ s.reported.map Prod.fst

def given (es : List Event) : List ℕ :=
  es.flatMap (fun
    | .alloc msg _ _ _ => [msg]
    | _ => [])

section Reports

variable {s' : State} {msg : Option ℕ}

lemma msgSendSenddone_accounts {succ : Bool} (h : msgSendSenddone s msg succ = some s') :
    (accounts s').Perm (accounts s) := by
  obtain ⟨m, rfl, hm⟩ := bind_eq_some_iff.mp h
  split at hm
  next hmem =>
    cases hm
    have hfront : (s.held.erase m ++ [m]).Perm s.held :=
      (perm_append_singleton m _).trans (perm_cons_erase hmem).symm
    have hmove : (s.held.erase m ++ (s.reported.map Prod.fst ++ [m])).Perm
        (s.held.erase m ++ [m] ++ s.reported.map Prod.fst) := by
      rw [append_assoc]
      exact List.Perm.append_left _ perm_append_comm
    simp only [accounts, map_append, map_cons, map_nil]
    exact hmove.trans (hfront.append_right _)
  next => cases hm

lemma giveUp_accounts (h : giveUp s posted = some s') : (accounts s').Perm (accounts s) := by
  obtain ⟨u, hu, rfl⟩ := map_eq_some_iff.mp h
  have hsame := msgSendSenddone_accounts hu
  simp only [postNext]
  split <;> [split; skip] <;> exact hsame

lemma radioMsgSend_accounts (h : radioMsgSend s msg cca posted = some s') :
    (accounts s').Perm (accounts s) := by
  simp only [radioMsgSend] at h
  split at h
  · obtain ⟨m, rfl, hm⟩ := bind_eq_some_iff.mp h
    obtain ⟨n, hn⟩ := seq_eq s
    simp only [hn] at hm
    split at hm
    · obtain ⟨u, hu, rfl⟩ := map_eq_some_iff.mp hm
      exact (msgSendSenddone_accounts hu :)
    · split at hm
      · cases hm
        exact .refl _
      · exact (giveUp_accounts hm :)
  · split at h
    · cases h
      exact .refl _
    · exact giveUp_accounts h

lemma sendFromQueue_accounts (h : sendFromQueue s cca posted = some s') :
    (accounts s').Perm (accounts s) := by
  simp only [sendFromQueue] at h
  split at h
  · cases h
    exact .refl _
  · exact (radioMsgSend_accounts h :)

lemma step_accounts (h : step s e = some s') :
    (accounts s').Perm (given [e] ++ accounts s) := by
  cases e with
  | alloc msg hdr cca posted =>
    simp only [step, radioMsgAlloc] at h
    split at h
    · obtain ⟨q, -, rfl⟩ := map_eq_some_iff.mp h
      exact .refl _
    · exact radioMsgSend_accounts h
  | recvAck ackSeq posted =>
    cases h
    rw [macRecvAck]
    split <;> exact .refl _
  | timeout cca posted => exact radioMsgSend_accounts h
  | nextMsg cca posted =>
    simp only [step] at h
    split at h
    · exact (sendFromQueue_accounts h :)
    · cases h
      exact .refl _
  | acked cca posted =>
    obtain ⟨u, hu, hsend⟩ := bind_eq_some_iff.mp h
    have hsame := msgSendSenddone_accounts hu
    exact (sendFromQueue_accounts hsend).trans hsame

lemma run_accounts {es : List Event} :
    ∀ {s}, runTrace step s es = some s' → (accounts s').Perm (given es ++ accounts s) := by
  induction es with
  | nil =>
    rintro s ⟨⟩
    exact .refl _
  | cons e es ih =>
    intro s h
    obtain ⟨u, hu, hrest⟩ := bind_eq_some_iff.mp h
    have hcons : given (e :: es) = given [e] ++ given es := by simp [given]
    rw [hcons]
    refine (ih hrest).trans (((step_accounts hu).append_left _).trans ?_)
    rw [← append_assoc]
    exact perm_append_comm.append_right _

end Reports

lemma initial_inv (next : ℕ → Option ℕ) (hdrs : ℕ → Message ℕ) (seqCount : ℕ) :
    Inv (initial next hdrs seqCount) (fun _ => []) := by
  have hempty := refines_init hdrs next
  refine ⟨⟨⟨hempty.queue, ?_, ?_, nodup_nil⟩, hempty.count, hempty.room⟩, ?_, fun _ _ _ => rfl⟩
  · intro c p hp
    cases hp
  · intro p hp
    cases hp
  · exact iff_of_true rfl rfl

/-- In a careful run no call gets `NULL` or a message already reported, nothing is stranded, and
a header is reported at most as often as it was given. -/
theorem nothing_stranded_over_runs (next : ℕ → Option ℕ) (hdrs : ℕ → Message ℕ) (seqCount : ℕ)
    (es : List Event)
    (hv : ValidTrace step (fun s e => Possible s e ∧ Careful s e) (initial next hdrs seqCount) es) :
    ∃ s, runTrace step (initial next hdrs seqCount) es = some s ∧ Conserves s ∧
      ∀ m, (s.reported.map Prod.fst).count m ≤ (given es).count m := by
  have hstep : ∀ s e, (∃ f, Inv s f) → Possible s e ∧ Careful s e →
      ∃ u, step s e = some u ∧ ∃ f, Inv u f := by
    rintro s e ⟨f, hf⟩ ⟨hp, hc⟩
    obtain ⟨u, f', hu, hf'⟩ := step_inv hf hp hc
    exact ⟨u, hu, f', hf'⟩
  obtain ⟨s, hrun, f, hinv⟩ := run_invariant hstep ⟨_, initial_inv next hdrs seqCount⟩ hv
  refine ⟨s, hrun, hinv.conserves, fun m => ?_⟩
  have hcount := (run_accounts hrun).count_eq m
  simp only [accounts, initial, count_append, map_nil, count_nil] at hcount
  omega

def messageTo (daddr : ℕ) : Message ℕ := ⟨1, 2, daddr, 0, 32, 0, 0, 0⟩

def quiet : State := initial (fun _ => none) (fun _ => messageTo 3) 1

def twoUnicasts : List Event :=
  [.alloc 1 (messageTo 3) true true, .alloc 2 (messageTo 4) false true, .timeout true true,
    .recvAck 2 true, .acked true true]

theorem nothing_stranded_sample :
    ∃ s, runTrace step quiet twoUnicasts = some s ∧ Conserves s ∧
      ∀ m, (s.reported.map Prod.fst).count m ≤ (given twoUnicasts).count m :=
  nothing_stranded_over_runs (fun _ => none) (fun _ => messageTo 3) 1 twoUnicasts
    (by decide +kernel)

def broadcastWaits : List Event :=
  [.alloc 1 (messageTo 3) true true, .alloc 2 (messageTo bcastAddress) true true,
    .alloc 3 (messageTo 4) true true, .recvAck 2 true, .acked true true]

def loneUnicast : List Event :=
  [.alloc 1 (messageTo 3) true true, .recvAck 2 true, .acked true true]

/-- A unicast is acknowledged while a broadcast and another unicast wait. The broadcast is sent
at once and nothing wakes the layer for the last message. After the acknowledgement of a lone
unicast, its timer calls `radio_msg_send` with `NULL`. -/
theorem broadcast_strands_queue :
    ValidTrace step Possible quiet broadcastWaits ∧
    (runTrace step quiet broadcastWaits).elim False (fun s => ¬ Conserves s) ∧
    ValidTrace step Possible quiet (loneUnicast ++ [.timeout true true]) ∧
    (runTrace step quiet loneUnicast).elim False
      (fun s => s.vmacMsg = none ∧ step s (.timeout true true) = none) := by
  decide +kernel

end Vmac
