import SosKernel.StopAndWait
import SosKernel.Vmac

/-! # What the media access layer sends, hears and reports

Every message that is given to the layer gets a serial number, since its header may come back
with another message. -/
namespace VmacHistory

open GuardedRuns Vmac List Option Function
open MessageQueue hiding step
open StopAndWait hiding step

structure History where
  state : State
  count : ℕ
  serial : ℕ → ℕ
  log : List (Entry ℕ ℕ)

def transmitted (s : State) : Event → Option ℕ
  | .alloc msg _ cca _ => if cca ∧ s.vmacSendState = .idle then some msg else none
  | .recvAck .. => none
  | .timeout cca _ => if cca then s.vmacMsg else none
  | .nextMsg cca _ => if cca ∧ s.vmacMsg = none then (mqDequeue s.vmacPq).2 else none
  | .acked cca _ => if cca then (mqDequeue s.vmacPq).2 else none

def wantsAck (s : State) (m : ℕ) : Bool := decide (¬ noAck (s.hdrs m))

def reports (serial : ℕ → ℕ) (s s' : State) : List (Entry ℕ ℕ) :=
  (s'.reported.drop s.reported.length).map (fun r => .done (serial r.1) (wantsAck s' r.1) r.2)

/-- `MSG_VMAC_TX_ACKED` reports the old message before it sends the next one. -/
def observe (serial : ℕ → ℕ) (s s' : State) (e : Event) : List (Entry ℕ ℕ) :=
  let sends := (transmitted s e).toList.map (fun m => .sent (serial m) s'.seqCount)
  let done := reports serial s s'
  match e with
  | .recvAck ackSeq _ => [.ack ackSeq]
  | .acked _ _ => done.take 1 ++ sends ++ done.drop 1
  | _ => sends ++ done

def serials (h : History) : Event → ℕ → ℕ
  | .alloc msg _ _ _ => update h.serial msg h.count
  | _ => h.serial

def watch (h : History) (e : Event) : Option History :=
  (step h.state e).map (fun s =>
    { state := s
      count := h.count + (given [e]).length
      serial := serials h e
      log := h.log ++ observe (serials h e) h.state s e })

def start (next : ℕ → Option ℕ) (hdrs : ℕ → Message ℕ) (seqCount : ℕ) : History :=
  ⟨initial next hdrs seqCount, 0, fun _ => 0, []⟩

/-- `MSG_VMAC_TX_ACKED` is handled while it is the only one, and the current message is not given
up while one is in the queue. -/
def Prompt (h : History) : Event → Prop
  | .acked _ _ => h.state.ackedPending = 1
  | .timeout _ _ => h.state.ackedPending = 0 ∨ h.state.retryCount < maxRetries
  | _ => True

/-- The timer sends only a message that was sent before, or the first one of all: a message whose
first attempt met a busy channel is not sent later. -/
def FirstTry (h : History) : Event → Prop
  | .timeout true _ => h.state.vmacMsg.elim True (fun m =>
      h.serial m ∈ sentMessages h.log ∨ transmissions h.log = [])
  | _ => True

section Send

variable {s s' : State} {m : ℕ} {cca posted : Bool} {f : MsgClass → List ℕ} {msg : ℕ}

/-- The exits of `radio_msg_send`. -/
inductive Sent (s : State) (m : ℕ) : Bool → State → Prop
  | done (hno : noAck (s.hdrs m)) :
      Sent s m true { s with
        seqCount := if s.retryCount = 0 then incSeq s.seqCount else s.seqCount
        retryCount := 0
        held := s.held.erase m
        reported := s.reported ++ [(m, true)]
        vmacMsg := none
        vmacSendState := .idle }
  | waits (hack : ¬ noAck (s.hdrs m)) (hretry : s.retryCount < maxRetries) :
      Sent s m true { s with
        seqCount := if s.retryCount = 0 then incSeq s.seqCount else s.seqCount
        vmacSendState := .waitForAck
        vmacMsg := some m
        retryCount := s.retryCount + 1 }
  | backs (hretry : s.retryCount < maxRetries) :
      Sent s m false { s with
        vmacSendState := .backoff, vmacMsg := some m, retryCount := s.retryCount + 1 }
  | gives (cca : Bool) (hack : cca = true → ¬ noAck (s.hdrs m))
    (hretry : ¬ s.retryCount < maxRetries)
      (k : ℕ) :
      Sent s m cca { s with
        retryCount := 0
        held := s.held.erase m
        reported := s.reported ++ [(m, false)]
        vmacMsg := none
        vmacSendState := .idle
        nextPending := k }

lemma msgSendSenddone_cases {succ : Bool} (h : msgSendSenddone s (some m) succ = some s') :
    m ∈ s.held ∧ s' = { s with held := s.held.erase m, reported := s.reported ++ [(m, succ)] } := by
  simp only [msgSendSenddone, bind_some, ite_none_right_eq_some, some.injEq] at h
  exact ⟨h.1, h.2.symm⟩

lemma giveUp_cases (hcur : s.vmacMsg = some m) (h : giveUp s posted = some s') :
    ∃ k, s' = { s with
      retryCount := 0
      held := s.held.erase m
      reported := s.reported ++ [(m, false)]
      vmacMsg := none
      vmacSendState := .idle
      nextPending := k } := by
  obtain ⟨u, hu, rfl⟩ := map_eq_some_iff.mp h
  rw [hcur] at hu
  obtain ⟨-, rfl⟩ := msgSendSenddone_cases hu
  simp only [postNext]
  split <;> [split; skip] <;> exact ⟨_, rfl⟩

lemma seq_taken (s : State) :
    (if s.retryCount = 0 then { s with seqCount := incSeq s.seqCount } else s) =
      { s with seqCount := if s.retryCount = 0 then incSeq s.seqCount else s.seqCount } := by
  split <;> rfl

lemma radioMsgSend_cases (h : radioMsgSend s (some m) cca posted = some s')
    (hcur : s.vmacMsg = some m ∨ s.retryCount < maxRetries) : Sent s m cca s' := by
  cases cca with
  | false =>
    simp only [radioMsgSend, Bool.false_eq_true, if_false] at h
    by_cases hretry : s.retryCount < maxRetries
    · rw [if_pos hretry] at h
      cases h
      exact .backs hretry
    · rw [if_neg hretry] at h
      obtain ⟨k, rfl⟩ := giveUp_cases (hcur.resolve_right hretry) h
      exact .gives false (fun hf => by cases hf) hretry k
  | true =>
    simp only [radioMsgSend, bind_some, if_true, seq_taken] at h
    by_cases hno : noAck (s.hdrs m)
    · rw [if_pos hno] at h
      obtain ⟨u, hu, rfl⟩ := map_eq_some_iff.mp h
      obtain ⟨-, rfl⟩ := msgSendSenddone_cases hu
      exact .done hno
    · rw [if_neg hno] at h
      by_cases hretry : s.retryCount < maxRetries
      · rw [if_pos hretry] at h
        cases h
        exact .waits hno hretry
      · rw [if_neg hretry] at h
        have hlater : s.retryCount ≠ 0 := by
          rintro hz
          exact hretry (hz ▸ Nat.zero_lt_succ 4)
        rw [if_neg hlater] at h
        obtain ⟨k, rfl⟩ := giveUp_cases (hcur.resolve_right hretry) h
        exact .gives true (fun _ => hno) hretry k

/-- Without a current message `retry_count` counts nothing. -/
def viewOf (serial : ℕ → ℕ) (s : State) (log : List (Entry ℕ ℕ)) : Sender ℕ ℕ where
  current := s.vmacMsg.map (fun m => (serial m, wantsAck s m))
  attempts := if s.vmacMsg = none then 0 else s.retryCount
  seq := s.seqCount
  waiting := s.vmacSendState = .waitForAck
  pending := s.ackedPending
  log := log

lemma viewOf_congr {serial serial' : ℕ → ℕ} {log : List (Entry ℕ ℕ)}
    (hmsg : s'.vmacMsg = s.vmacMsg) (hretry : s.vmacMsg ≠ none → s'.retryCount = s.retryCount)
    (hseq : s'.seqCount = s.seqCount) (hsend : s'.vmacSendState = s.vmacSendState)
    (hacked : s'.ackedPending = s.ackedPending)
    (hcur : ∀ m, s.vmacMsg = some m → serial' m = serial m ∧ s'.hdrs m = s.hdrs m) :
    viewOf serial' s' log = viewOf serial s log := by
  cases hm : s.vmacMsg with
  | none => simp [viewOf, hmsg, hseq, hsend, hacked, hm]
  | some m =>
    obtain ⟨hserial, hhdr⟩ := hcur m hm
    simp [viewOf, hmsg, hretry (hm ▸ nofun), hseq, hsend, hacked, hm, wantsAck, hserial, hhdr]

def attempt (serial : ℕ → ℕ) (s s' : State) (m : ℕ) (cca : Bool) : List (Entry ℕ ℕ) :=
  (if cca then [.sent (serial m) s'.seqCount] else []) ++ reports serial s s'

lemma Sent.simulates (h : Sent s m cca s') (serial : ℕ → ℕ) (log : List (Entry ℕ ℕ))
    (waiting : Bool) :
    StopAndWait.step incSeq maxRetries
      ⟨some (serial m, wantsAck s m), s.retryCount, s.seqCount, waiting, s.ackedPending, log⟩
      (if cca then .clear else .busy) =
    some (viewOf serial s' (log ++ attempt serial s s' m cca)) := by
  cases h with
  | done hno => simp [StopAndWait.step, close, viewOf, attempt, reports, wantsAck, hno]
  | waits hack hretry => simp [StopAndWait.step, viewOf, attempt, reports, wantsAck, hack, hretry]
  | backs hretry => simp [StopAndWait.step, viewOf, attempt, reports, wantsAck, hretry]
  | gives _ hack hretry k =>
    have hlater : s.retryCount ≠ 0 := by
      rintro hz
      exact hretry (hz ▸ Nat.zero_lt_succ 4)
    cases cca with
    | false => simp [StopAndWait.step, close, viewOf, attempt, reports, wantsAck, hretry]
    | true =>
      simp [StopAndWait.step, close, viewOf, attempt, reports, wantsAck, hretry, hack rfl, hlater]

end Send

section Simulation

variable {s s' : State} {m count : ℕ} {cca posted : Bool} {f : MsgClass → List ℕ} {serial : ℕ → ℕ}
  {log : List (Entry ℕ ℕ)} {cur : Option ℕ}

structure Numbered (count : ℕ) (serial : ℕ → ℕ) (log : List (Entry ℕ ℕ)) (s : State)
    (f : MsgClass → List ℕ) (cur : Option ℕ) : Prop where
  holding : Holding s f cur
  below : ∀ p ∈ s.held, serial p < count
  apart : ∀ p ∈ s.held, ∀ q ∈ s.held, serial p = serial q → p = q
  sentBelow : ∀ n ∈ sentMessages log, n < count
  unsent : ∀ p ∈ s.held, cur ≠ some p → serial p ∉ sentMessages log

structure Inv (h : History) : Prop where
  numbered : ∃ f, Numbered h.count h.serial h.log h.state f h.state.vmacMsg
  idle : h.state.vmacSendState = .idle → h.state.vmacMsg = none
  waits : h.state.vmacMsg = none → h.state.vmacSendState ≠ .waitForAck

lemma Numbered.drop (h : Numbered count serial log s f (some m)) :
    Numbered count serial log { s with held := s.held.erase m } f none := by
  refine ⟨h.holding.drop, fun p hp => h.below p (mem_of_mem_erase hp), ?_, h.sentBelow, ?_⟩
  · exact fun p hp q hq => h.apart p (mem_of_mem_erase hp) q (mem_of_mem_erase hq)
  · intro p hp _
    obtain ⟨hne, hmem⟩ := (h.holding.nodup.mem_erase_iff).mp hp
    exact h.unsent p hmem (fun heq => hne (some.inj heq).symm)

lemma sentMessages_attempt {n : ℕ} (h : n ∈ sentMessages (attempt serial s s' m cca)) :
    n = serial m := by
  have hdone : transmissions (reports serial s s') = [] := by
    rw [reports]
    induction s'.reported.drop s.reported.length with
    | nil => rfl
    | cons r rs ih => exact ih
  cases cca <;> simp [attempt, sentMessages, hdone] at h
  exact h

lemma Numbered.take (h : Numbered count serial log s f none) (hmem : m ∈ s.held)
    (hnew : ∀ c, m ∉ f c) : Numbered count serial log s f (some m) := by
  refine ⟨⟨h.holding.queue, h.holding.held, ?_, h.holding.nodup⟩, h.below, h.apart, h.sentBelow,
    fun p hp _ => h.unsent p hp nofun⟩
  rintro p ⟨rfl⟩
  exact ⟨hmem, hnew⟩

lemma Numbered.pop {c : MsgClass} {l : List ℕ} (h : Numbered count serial log s f none)
    (hc : f c = m :: l) :
    serial m ∉ sentMessages log ∧
      Numbered count serial log { s with vmacPq := popHead s.vmacPq c m } (update f c l)
        (some m) := by
  have hmem : m ∈ s.held := h.holding.held c m (by simp [hc])
  exact ⟨h.unsent m hmem nofun, h.holding.pop hc, h.below, h.apart, h.sentBelow,
    fun p hp _ => h.unsent p hp nofun⟩

section

variable (h : Numbered count serial log s f cur)
include h

lemma Numbered.congr (hpq : s'.vmacPq = s.vmacPq)
    (hheld : s'.held = s.held) : Numbered count serial log s' f cur :=
  ⟨h.holding.congr hpq hheld, hheld ▸ h.below, hheld ▸ h.apart, h.sentBelow, hheld ▸ h.unsent⟩

lemma Numbered.append {l : List (Entry ℕ ℕ)}
    (hl : ∀ n ∈ sentMessages l, ∃ m, cur = some m ∧ n = serial m) :
    Numbered count serial (log ++ l) s f cur := by
  refine ⟨h.holding, h.below, h.apart, fun n hn => ?_, fun p hp hne hn => ?_⟩
  all_goals rw [sentMessages, transmissions_append, map_append, mem_append] at hn
  · rcases hn with hn | hn
    · exact h.sentBelow n hn
    · obtain ⟨m, hcur, rfl⟩ := hl n hn
      exact h.below m (h.holding.cur m hcur).1
  · rcases hn with hn | hn
    · exact h.unsent p hp hne hn
    · obtain ⟨m, hcur, heq⟩ := hl _ hn
      have hpm := h.apart p hp m (h.holding.cur m hcur).1 heq
      exact hne (hpm ▸ hcur)

lemma Numbered.hold (hfresh : msg ∉ s.held) (hdr : Message ℕ) :
    Numbered (count + 1) (update serial msg count) log
      { s with hdrs := update s.hdrs msg hdr, held := msg :: s.held } f cur := by
  have hold : ∀ p ∈ s.held, update serial msg count p = serial p := by
    intro p hp
    refine update_of_ne ?_ _ _
    rintro rfl
    exact hfresh hp
  refine ⟨h.holding.hold hfresh hdr, ?_, ?_, ?_, ?_⟩
  · intro p hp
    rcases mem_cons.mp hp with rfl | hp
    · simp
    · rw [hold p hp]
      exact Nat.lt_succ_of_lt (h.below p hp)
  · intro p hp q hq heq
    rcases mem_cons.mp hp with hpm | hpm <;> rcases mem_cons.mp hq with hqm | hqm
    · rw [hpm, hqm]
    · rw [hpm, update_self, hold q hqm] at heq
      exact absurd heq (h.below q hqm).ne'
    · rw [hqm, update_self, hold p hpm] at heq
      exact absurd heq (h.below p hpm).ne
    · rw [hold p hpm, hold q hqm] at heq
      exact h.apart p hpm q hqm heq
  · exact fun n hn => Nat.lt_succ_of_lt (h.sentBelow n hn)
  · intro p hp hne hmem
    rcases mem_cons.mp hp with rfl | hp
    · rw [update_self] at hmem
      exact absurd (h.sentBelow _ hmem) (lt_irrefl _)
    · rw [hold p hp] at hmem
      exact h.unsent p hp hne hmem

end

lemma Numbered.sent (h : Numbered count serial log s f (some m)) (hs : Sent s m cca s') :
    Inv ⟨s', count, serial, log ++ attempt serial s s' m cca⟩ := by
  have hlog : Numbered count serial (log ++ attempt serial s s' m cca) s f (some m) :=
    h.append (fun n hn => ⟨m, rfl, sentMessages_attempt hn⟩)
  cases hs with
  | done hno => exact ⟨⟨f, hlog.drop.congr rfl rfl⟩, by simp, by simp⟩
  | waits hack hretry => exact ⟨⟨f, hlog.congr rfl rfl⟩, by simp, by simp⟩
  | backs hretry => exact ⟨⟨f, hlog.congr rfl rfl⟩, by simp, by simp⟩
  | gives _ hack hretry k => exact ⟨⟨f, hlog.drop.congr rfl rfl⟩, by simp, by simp⟩

variable {prompt first : Prop} {v u w : Sender ℕ ℕ} {h h' : History} {e : Event}

def view (h : History) : Sender ℕ ℕ := viewOf h.serial h.state h.log

def Allowed (prompt first : Prop) (s : Sender ℕ ℕ) (a : Act ℕ ℕ) : Prop :=
  (prompt → StopAndWait.Prompt maxRetries s a) ∧ (first → StopAndWait.FirstTry s a)

def Reaches (prompt first : Prop) (v u : Sender ℕ ℕ) : Prop :=
  ∃ acts, runTrace (StopAndWait.step incSeq maxRetries) v acts = some u ∧
    ValidTrace (StopAndWait.step incSeq maxRetries) (Allowed prompt first) v acts

lemma Reaches.refl : Reaches prompt first v v := ⟨[], rfl, trivial⟩

lemma Reaches.head {a : Act ℕ ℕ} (ha : Allowed prompt first v a)
    (hs : StopAndWait.step incSeq maxRetries v a = some u) (h : Reaches prompt first u w) :
    Reaches prompt first v w := by
  obtain ⟨acts, hrun, hv⟩ := h
  exact ⟨a :: acts, by simp [runTrace, hs, hrun], ha, by simpa [hs] using hv⟩

lemma Sent.reaches {s0 : State} (h : Sent s m cca s') (hzero : s.retryCount = 0)
    (hnone : s0.vmacMsg = none) (hseq : s0.seqCount = s.seqCount)
    (hpend : s0.ackedPending = s.ackedPending) (hnew : serial m ∉ sentMessages log) :
    Reaches prompt first (viewOf serial s0 log)
      (viewOf serial s' (log ++ attempt serial s s' m cca)) := by
  have hstart : StopAndWait.step incSeq maxRetries (viewOf serial s0 log)
      (.start (serial m) (wantsAck s m)) =
      some ⟨some (serial m, wantsAck s m), s.retryCount, s.seqCount,
        decide (s0.vmacSendState = .waitForAck), s.ackedPending, log⟩ := by
    simp [StopAndWait.step, viewOf, hnone, hzero, hnew, hseq, hpend]
  have hbegin : Allowed prompt first (viewOf serial s0 log)
      (.start (serial m) (wantsAck s m)) := ⟨fun _ => trivial, fun _ => trivial⟩
  refine .head hbegin hstart (.head ?_ (h.simulates serial log _) .refl)
  rw [hzero]
  cases cca with
  | true => exact ⟨fun _ => .inr (Nat.zero_lt_succ 4), fun _ => .inl rfl⟩
  | false => exact ⟨fun _ => .inr (Nat.zero_lt_succ 4), fun _ => trivial⟩

def fromQueue (serial : ℕ → ℕ) (s s' : State) (cca : Bool) : List (Entry ℕ ℕ) :=
  (if cca then (mqDequeue s.vmacPq).2 else none).toList.map
    (fun m => .sent (serial m) s'.seqCount) ++
    reports serial s s'

lemma Sent.frame (h : Sent s m cca s') : s'.hdrs = s.hdrs ∧ ∃ r, s'.reported = s.reported ++ r := by
  cases h with
  | done hno => exact ⟨rfl, _, rfl⟩
  | waits hack hretry => exact ⟨rfl, [], (append_nil _).symm⟩
  | backs hretry => exact ⟨rfl, [], (append_nil _).symm⟩
  | gives _ hack hretry k => exact ⟨rfl, _, rfl⟩

lemma sendFromQueue_reaches (hn : Numbered count serial log s f none)
    (hwait : s.vmacSendState ≠ .waitForAck) (hzero : s.retryCount = 0) (hnone : s.vmacMsg = none)
    (hrun : sendFromQueue s cca posted = some s') :
    Inv ⟨s', count, serial, log ++ fromQueue serial s s' cca⟩ ∧
      (∀ prompt first, Reaches prompt first (viewOf serial s log)
        (viewOf serial s' (log ++ fromQueue serial s s' cca))) ∧
      s'.hdrs = s.hdrs ∧ ∃ r, s'.reported = s.reported ++ r := by
  rcases mqDequeue_cases hn.holding.queue with ⟨hd, -⟩ | ⟨c, p, l, hc, hd, -⟩
  · have hsame : s' = s := by
      simp only [sendFromQueue, hd, if_true, some.injEq] at hrun
      rw [← hrun, ← hnone]
    subst hsame
    have hnil : fromQueue serial s' s' cca = [] := by simp [fromQueue, hd, reports]
    rw [hnil, append_nil]
    refine ⟨⟨⟨f, hnone ▸ hn⟩, fun _ => hnone, fun _ => hwait⟩, fun _ _ => .refl, rfl, [], ?_⟩
    simp
  · simp only [sendFromQueue, hd, reduceCtorEq, if_false] at hrun
    obtain ⟨hnew, hpop⟩ := hn.pop hc
    have hsent := radioMsgSend_cases hrun (.inl rfl)
    have hq : fromQueue serial s s' cca =
        attempt serial { s with vmacPq := popHead s.vmacPq c p, vmacMsg := some p } s' p cca := by
      cases cca <;> simp [fromQueue, attempt, hd, reports]
    have hready : Numbered count serial log
        { s with vmacPq := popHead s.vmacPq c p, vmacMsg := some p } (update f c l)
        (some p) := hpop.congr rfl rfl
    rw [hq]
    exact ⟨hready.sent hsent, fun _ _ => hsent.reaches hzero hnone rfl rfl hnew, hsent.frame⟩

section

variable (hi : Inv h)
include hi

lemma alloc_reaches {hdr : Message ℕ} (hfresh : msg ∉ h.state.held)
    (hw : watch h (.alloc msg hdr cca posted) = some h') :
    Inv h' ∧ Reaches prompt first (view h) (view h') := by
  obtain ⟨s', hstep, rfl⟩ := map_eq_some_iff.mp hw
  obtain ⟨f, hn⟩ := hi.numbered
  have hhold := hn.hold hfresh hdr
  have hnew : ∀ c, msg ∉ f c := fun c hp => hfresh (hn.holding.held c msg hp)
  simp only [step, radioMsgAlloc] at hstep
  by_cases hidle : h.state.vmacSendState = .idle
  · -- the message is sent at once
    have hnone := hi.idle hidle
    rw [if_neg (not_not_intro hidle)] at hstep
    have hsent := radioMsgSend_cases hstep (.inr (Nat.zero_lt_succ 4))
    have hlog : observe (update h.serial msg h.count) h.state s'
        (.alloc msg hdr cca posted) = attempt (update h.serial msg h.count) { h.state with
          retryCount := 0 } s' msg cca := by
      cases cca <;> simp [observe, transmitted, attempt, reports, hidle]
    have hview : view h = viewOf (update h.serial msg h.count) h.state h.log := by
      refine viewOf_congr rfl (fun _ => rfl) rfl rfl rfl (fun m hm => ?_)
      cases hnone.symm.trans hm
    rw [hnone] at hhold
    have hready := (hhold.congr rfl rfl : Numbered _ _ _ { h.state with
      hdrs := update h.state.hdrs msg hdr
      held := msg :: h.state.held
      retryCount := 0 } f none).take mem_cons_self hnew
    have hunsent : update h.serial msg h.count msg ∉ sentMessages h.log :=
      hhold.unsent msg mem_cons_self (some_ne_none msg).symm
    rw [hview, serials, hlog]
    exact ⟨hready.sent hsent, hsent.reaches rfl hnone rfl rfl hunsent⟩
  · -- the message is queued
    have hne : h.state.vmacMsg ≠ some msg := fun heq => hfresh (hn.holding.cur msg heq).1
    rw [if_pos hidle] at hstep
    obtain ⟨q, hq, rfl⟩ := map_eq_some_iff.mp hstep
    obtain ⟨q', hq', -, hhold'⟩ := hhold.holding.enqueue mem_cons_self hne hnew
      (update h.state.hdrs msg hdr msg).flag
    cases hq.symm.trans hq'
    have hlog : observe (serials h (.alloc msg hdr cca posted)) h.state { h.state with
        hdrs := update h.state.hdrs msg hdr
        held := msg :: h.state.held
        vmacPq := q } (.alloc msg hdr cca posted) = [] := by
      simp [observe, transmitted, reports, hidle]
    rw [hlog, append_nil]
    refine ⟨⟨⟨_, hhold', hhold.below, hhold.apart, hhold.sentBelow, hhold.unsent⟩, hi.idle,
      hi.waits⟩, ?_⟩
    have hview : view h = viewOf (serials h (.alloc msg hdr cca posted)) { h.state with
        hdrs := update h.state.hdrs msg hdr
        vmacPq := q } h.log := by
      symm
      refine viewOf_congr rfl (fun _ => rfl) rfl rfl rfl (fun m hm => ?_)
      have hother : m ≠ msg := fun heq => hne (heq ▸ hm)
      exact ⟨update_of_ne hother _ _, update_of_ne hother _ _⟩
    rw [hview]
    exact .refl

lemma recvAck_reaches {ackSeq : ℕ} (hw : watch h (.recvAck ackSeq posted) = some h') :
    Inv h' ∧ Reaches prompt first (view h) (view h') := by
  obtain ⟨s', hstep, rfl⟩ := map_eq_some_iff.mp hw
  cases hstep
  obtain ⟨f, hn⟩ := hi.numbered
  have hlog : Numbered h.count h.serial (h.log ++ [.ack ackSeq]) h.state f h.state.vmacMsg := by
    refine hn.append (fun n hmem => ?_)
    cases hmem
  have hhear : Allowed prompt first (view h) (.hear ackSeq posted) :=
    ⟨fun _ => trivial, fun _ => trivial⟩
  by_cases hack : h.state.vmacSendState = .waitForAck ∧ h.state.seqCount = ackSeq ∧ posted = true
  · have hrun : macRecvAck h.state ackSeq posted =
        { h.state with ackedPending := h.state.ackedPending + 1 } := if_pos hack
    rw [hrun]
    refine ⟨⟨⟨f, hlog.congr rfl rfl⟩, hi.idle, hi.waits⟩, ?_⟩
    refine .head hhear (congrArg some ?_) .refl
    simp [view, viewOf, hack, observe, serials, wantsAck]
  · have hrun : macRecvAck h.state ackSeq posted = h.state := if_neg hack
    rw [hrun]
    refine ⟨⟨⟨f, hlog⟩, hi.idle, hi.waits⟩, ?_⟩
    refine .head hhear (congrArg some ?_) .refl
    simp [view, viewOf, hack, observe, serials]

def backedOff (s : State) : State :=
  { s with vmacSendState := .backoff, vmacMsg := none, retryCount := s.retryCount + 1 }

lemma timeout_reaches (hw : watch h (.timeout cca posted) = some h') :
    Inv h' ∧ Reaches (Prompt h (.timeout cca posted)) (FirstTry h (.timeout cca posted)) (view h)
      (view h') := by
  obtain ⟨s', hstep, rfl⟩ := map_eq_some_iff.mp hw
  obtain ⟨f, hn⟩ := hi.numbered
  have hser : serials h (.timeout cca posted) = h.serial := rfl
  cases hm : h.state.vmacMsg with
  | none =>
    cases cca with
    | true => simp [step, hm, radioMsgSend] at hstep
    | false =>
      -- nothing is there to back off, and only the counter moves
      by_cases hretry : h.state.retryCount < maxRetries
      · have hs' : backedOff h.state = s' := by
          simpa [step, hm, radioMsgSend, hretry, backedOff] using hstep
        subst hs'
        have hlog : observe h.serial h.state (backedOff h.state) (.timeout false posted) = [] := by
          simp [observe, transmitted, reports, backedOff]
        have hview : view h = viewOf h.serial (backedOff h.state) h.log := by
          simp [view, viewOf, backedOff, hm, hi.waits hm]
        rw [hm] at hn
        rw [hview, hser, hlog, append_nil]
        exact ⟨⟨⟨f, hn.congr rfl rfl⟩, by simp [backedOff], by simp [backedOff]⟩, .refl⟩
      · simp [step, hm, radioMsgSend, hretry, giveUp, msgSendSenddone] at hstep
  | some m =>
    simp only [step, hm] at hstep
    have hsent := radioMsgSend_cases hstep (.inl hm)
    have hlog : observe h.serial h.state s' (.timeout cca posted) =
        attempt h.serial h.state s' m cca := by
      cases cca <;> simp [observe, transmitted, attempt, hm]
    have hview : view h = ⟨some (h.serial m, wantsAck h.state m), h.state.retryCount,
        h.state.seqCount, decide (h.state.vmacSendState = .waitForAck), h.state.ackedPending,
        h.log⟩ := by
      simp [view, viewOf, hm]
    rw [hm] at hn
    rw [hview, hser, hlog]
    refine ⟨hn.sent hsent, ?_⟩
    · refine .head ?_ (hsent.simulates h.serial h.log _) .refl
      cases cca with
      | false => exact ⟨id, fun _ => trivial⟩
      | true =>
        refine ⟨id, fun hfirst => .inr ?_⟩
        simp only [FirstTry, hm, elim_some] at hfirst
        exact hfirst.imp_left (fun hmem => ⟨_, rfl, hmem⟩)

lemma nextMsg_reaches (hw : watch h (.nextMsg cca posted) = some h') :
    Inv h' ∧ Reaches prompt first (view h) (view h') := by
  obtain ⟨s', hstep, rfl⟩ := map_eq_some_iff.mp hw
  obtain ⟨f, hn⟩ := hi.numbered
  have hser : serials h (.nextMsg cca posted) = h.serial := rfl
  simp only [step] at hstep
  rw [hser]
  by_cases hnone : h.state.vmacMsg = none
  · rw [if_pos hnone] at hstep
    rw [hnone] at hn
    have hready : Numbered h.count h.serial h.log { h.state with
        nextPending := h.state.nextPending - 1, retryCount := 0 } f none := hn.congr rfl rfl
    obtain ⟨hinv, hreach, -⟩ := sendFromQueue_reaches hready (hi.waits hnone) rfl hnone hstep
    have hlog : observe h.serial h.state s' (.nextMsg cca posted) =
        fromQueue h.serial { h.state with
          nextPending := h.state.nextPending - 1, retryCount := 0 } s' cca := by
      simp [observe, transmitted, fromQueue, hnone, reports]
    have hview : view h = viewOf h.serial { h.state with
        nextPending := h.state.nextPending - 1, retryCount := 0 } h.log :=
      viewOf_congr rfl (absurd hnone) rfl rfl rfl (fun m hm => ⟨rfl, rfl⟩)
    rw [hview, hlog]
    exact ⟨hinv, hreach prompt first⟩
  · rw [if_neg hnone] at hstep
    cases hstep
    have hlog : observe h.serial h.state { h.state with nextPending := h.state.nextPending - 1 }
        (.nextMsg cca posted) = [] := by
      simp [observe, transmitted, hnone, reports]
    rw [hlog, append_nil]
    exact ⟨⟨⟨f, hn.congr rfl rfl⟩, hi.idle, hi.waits⟩, .refl⟩

def finished (s : State) (m : ℕ) : State :=
  { s with
    ackedPending := s.ackedPending - 1
    vmacSendState := .idle
    retryCount := 0
    held := s.held.erase m
    reported := s.reported ++ [(m, true)]
    vmacMsg := none }

lemma acked_reaches (hp : 0 < h.state.ackedPending) (hw : watch h (.acked cca posted) = some h') :
    Inv h' ∧ Reaches (Prompt h (.acked cca posted)) first (view h) (view h') := by
  obtain ⟨s', hstep, rfl⟩ := map_eq_some_iff.mp hw
  obtain ⟨f, hn⟩ := hi.numbered
  have hser : serials h (.acked cca posted) = h.serial := rfl
  obtain ⟨u, hdone, hsend⟩ := bind_eq_some_iff.mp hstep
  rw [hser]
  cases hm : h.state.vmacMsg with
  | none =>
    simp only [hm, msgSendSenddone, bind_none] at hdone
    cases hdone
  | some m =>
    simp only [hm] at hdone
    obtain ⟨-, rfl⟩ := msgSendSenddone_cases hdone
    rw [hm] at hn
    have hclosed : Numbered h.count h.serial
        (h.log ++ [.done (h.serial m) (wantsAck h.state m) true]) (finished h.state m) f none := by
      refine (hn.append (fun n hmem => ?_)).drop.congr rfl rfl
      cases hmem
    obtain ⟨hinv, hreach, hhdrs, r, hr⟩ := sendFromQueue_reaches hclosed nofun rfl rfl hsend
    have hlog : observe h.serial h.state s' (.acked cca posted) =
        [.done (h.serial m) (wantsAck h.state m) true] ++
          fromQueue h.serial (finished h.state m) s' cca := by
      simp [observe, transmitted, fromQueue, reports, hr, hhdrs, wantsAck, finished]
    have hfinish : StopAndWait.step incSeq maxRetries (view h) .finish =
        some (viewOf h.serial (finished h.state m)
          (h.log ++ [.done (h.serial m) (wantsAck h.state m) true])) := by
      simp [StopAndWait.step, close, view, viewOf, hm, hp, finished]
    have hallowed : Allowed (Prompt h (.acked cca posted)) first (view h) .finish :=
      ⟨id, fun _ => trivial⟩
    rw [hlog, ← append_assoc]
    exact ⟨hinv, .head hallowed hfinish (hreach _ _)⟩

lemma watch_reaches (hp : Possible h.state e) (hw : watch h e = some h') :
    Inv h' ∧ Reaches (Prompt h e) (FirstTry h e) (view h) (view h') := by
  cases e with
  | alloc msg hdr cca posted => exact alloc_reaches hi hp hw
  | recvAck ackSeq posted => exact recvAck_reaches hi hw
  | timeout cca posted => exact timeout_reaches hi hw
  | nextMsg cca posted => exact nextMsg_reaches hi hw
  | acked cca posted => exact acked_reaches hi hp hw

end

lemma start_inv (next : ℕ → Option ℕ) (hdrs : ℕ → Message ℕ) (seqCount : ℕ) :
    Inv (start next hdrs seqCount) := by
  have hempty := (initial_inv next hdrs seqCount).queued.toHolding
  refine ⟨⟨fun _ => [], hempty, ?_, ?_, ?_, ?_⟩, fun _ => rfl, fun _ => nofun⟩
  all_goals
    intro p hp
    cases hp

lemma watch_heard (hi : Inv h ∧ Heard (view h)) (hl : Possible h.state e ∧ Prompt h e)
    (hw : watch h e = some h') : Inv h' ∧ Heard (view h') := by
  obtain ⟨hinv, acts, hrun, hv⟩ := watch_reaches hi.1 hl.1 hw
  exact ⟨hinv, run_heard hi.2 (validTrace_imp (fun _ _ ha _ => ha.1 hl.2) hv hv) hrun⟩

/-- In every run in which no acknowledgement outlives its message, success is reported of a unicast
only after an acknowledgement of a transmission of it. -/
theorem success_is_acknowledged_over_runs (next : ℕ → Option ℕ) (hdrs : ℕ → Message ℕ)
    (seqCount : ℕ) (es : List Event) (h : History)
    (hv : ValidTrace watch (fun h e => Possible h.state e ∧ Prompt h e)
      (start next hdrs seqCount) es)
    (hrun : runTrace watch (start next hdrs seqCount) es = some h) : Truthful h.log := by
  have hstart : Heard (view (start next hdrs seqCount)) := by
    refine ⟨fun before after n heq => ?_, ?_, ?_⟩
    · exact absurd heq.symm (append_ne_nil_of_right_ne_nil _ (cons_ne_nil _ _))
    · rintro ⟨⟩
    · rintro ⟨⟩
  have hend := run_invariant_of_some (fun _ _ _ => watch_heard)
    ⟨start_inv next hdrs seqCount, hstart⟩ hv hrun
  exact hend.2.truthful

instance (h : History) (e : Event) : Decidable (Prompt h e) := by
  induction e using Vmac.Event.casesOn <;> (dsimp only [Prompt]; infer_instance)

def atRest : History := start (fun _ => none) (fun _ => messageTo 3) 7

def repeatedUnicast : List Event :=
  [.alloc 1 (messageTo 3) true true, .alloc 2 (messageTo 4) false true, .timeout true true,
    .recvAck 8 true, .acked false true, .timeout true true]

theorem success_is_acknowledged_sample :
    ∃ h, runTrace watch atRest repeatedUnicast = some h ∧
      .done 0 true true ∈ h.log ∧ Truthful h.log := by
  obtain ⟨h, hrun, hmem⟩ : ∃ h, runTrace watch atRest repeatedUnicast = some h ∧
      .done 0 true true ∈ h.log := by decide +kernel
  exact ⟨h, hrun, hmem, success_is_acknowledged_over_runs _ _ _ repeatedUnicast h
    (by decide +kernel) hrun⟩

def acknowledgedTwice : List Event :=
  [.alloc 1 (messageTo 3) true true, .alloc 2 (messageTo 4) true true, .recvAck 8 true,
    .recvAck 8 true, .acked true true, .acked true true]

/-- The acknowledgement of the first message is received twice before `MSG_VMAC_TX_ACKED` is
handled. The second one reports success of the next message, for which nothing came in. -/
theorem second_ack_reports_next :
    ValidTrace watch (fun h e => Possible h.state e) atRest acknowledgedTwice ∧
    ∃ h, runTrace watch atRest acknowledgedTwice = some h ∧ ¬ Truthful h.log := by
  obtain ⟨h, hrun, hlog⟩ : ∃ h, runTrace watch atRest acknowledgedTwice = some h ∧ h.log =
      [.sent 0 8, .ack 8, .ack 8, .done 0 true true, .sent 1 9] ++ .done 1 true true :: [] := by
    decide +kernel
  refine ⟨by decide +kernel, h, hrun, fun htrue => ?_⟩
  obtain ⟨before, after, q, hsplit, hsent, hack⟩ := htrue _ _ 1 hlog
  have hq := mem_append_left after hsent
  have hin := mem_append_right before hack
  rw [← hsplit] at hq hin
  simp at hq hin
  omega

end Simulation

end VmacHistory
