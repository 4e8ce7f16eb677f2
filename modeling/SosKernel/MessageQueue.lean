import SosKernel.GuardedRuns
import SosKernel.PointerChain

/-! # The message queue, `message_queue.c` without preemption

A queue is three singly linked lists with a head and a tail pointer each, and four counters of
one byte. A tail pointer is not reset when its list runs empty. The specification at the end
is three FIFO lists, and the queue refines it in every run. -/
namespace MessageQueue

open PointerChain GuardedRuns List Option Function

variable {α δ : Type*} {c : MsgClass} {prev b : α} {l2 : List α} {n : ℕ}

def sosMsgSystemPriority : ℕ := 0x80
def sosMsgHighPriority : ℕ := 0x40

/-- The members of a message header that the kernel reads; `δ` are the data pointers. -/
structure Message (δ : Type*) where
  did : ℕ
  sid : ℕ
  daddr : ℕ
  saddr : ℕ
  type : ℕ
  len : ℕ
  data : δ
  flag : ℕ

inductive MsgClass where
  | high
  | system
  | low
  deriving DecidableEq, Repr

def flagHighPriority (flag : ℕ) : Bool := flag &&& sosMsgHighPriority ≠ 0
def flagSystem (flag : ℕ) : Bool := flag &&& sosMsgSystemPriority ≠ 0

def classOf (flag : ℕ) : MsgClass :=
  if flagHighPriority flag then .high else if flagSystem flag then .system else .low

structure Ends (α : Type*) where
  head : Option α
  tail : Option α

/-- `mq_t`: `msg_cnt`, the counters and ends of the three lists, and the `next` pointers of the
headers, which only the queue writes. -/
structure Mq (α : Type*) where
  msgCnt : ℕ
  cnt : MsgClass → ℕ
  ends : MsgClass → Ends α
  next : α → Option α

def mqInit (next : α → Option α) : Mq α := ⟨0, fun _ => 0, fun _ => ⟨none, none⟩, next⟩

def incr (c : ℕ) : ℕ := (c + 1) % 256
def decr (c : ℕ) : ℕ := (c + 255) % 256

section Operations

variable [DecidableEq α]

/-- The new last message of one list; `none` if the tail pointer is followed and is `NULL`. -/
def insertTail (e : Ends α) (next : α → Option α) (m : α) : Option (Ends α × (α → Option α)) :=
  match e.head with
  | none => some (⟨some m, some m⟩, next)
  | some _ => e.tail.map (fun t => ({ e with tail := some m }, update next t (some m)))

def mqEnqueue (q : Mq α) (flag : ℕ) (m : α) : Option (Mq α) :=
  let c := classOf flag
  (insertTail (q.ends c) (update q.next m none) m).map (fun r =>
    { msgCnt := incr q.msgCnt
      cnt := update q.cnt c (incr (q.cnt c))
      ends := update q.ends c r.1
      next := r.2 })

def popHead (q : Mq α) (c : MsgClass) (tmp : α) : Mq α :=
  { q with
    msgCnt := decr q.msgCnt
    cnt := update q.cnt c (decr (q.cnt c))
    ends := update q.ends c { q.ends c with head := q.next tmp } }

def mqDequeue (q : Mq α) : Mq α × Option α :=
  match (q.ends .high).head with
  | some tmp => (popHead q .high tmp, some tmp)
  | none =>
    match (q.ends .system).head with
    | some tmp => (popHead q .system tmp, some tmp)
    | none =>
      match (q.ends .low).head with
      | some tmp => (popHead q .low tmp, some tmp)
      | none => (q, none)

/-- The test of `mq_real_get`; `byteAt` is what the memory holds. -/
def headerMatches (byteAt : δ → ℕ → ℕ) (m curr : Message δ) : Bool :=
  m.did = curr.did ∧ m.sid = curr.sid ∧ m.daddr = curr.daddr ∧ m.saddr = curr.saddr ∧
    m.type = curr.type ∧ m.len = curr.len ∧ ∀ i < m.len, byteAt m.data i = byteAt curr.data i

/-- `mq_real_get` on one list. A list that a byte counts is walked through in 255 steps. -/
def mqRealGet (test : α → Bool) (e : Ends α) (next : α → Option α) :
    Option (Ends α × (α → Option α) × Option α) :=
  (findPrev next test 255 e.head e.head).bind (fun r =>
    match r.2 with
    | none => some (e, next, none)
    | some ret =>
      if some ret = e.head then
        some (⟨next ret, if next ret = none then none else e.tail⟩, next, some ret)
      else if some ret = e.tail then
        r.1.map (fun prev => ({ e with tail := some prev }, update next prev none, some ret))
      else r.1.map (fun prev => (e, update next prev (next ret), some ret)))

/-- What `mq_get` does to list `c`: it does not count the list's message out. -/
def getFrom (test : α → Bool) (q : Mq α) (c : MsgClass) : Option (Mq α × Option α) :=
  (mqRealGet test (q.ends c) q.next).map (fun r =>
    ({ q with
      msgCnt := if r.2.2.isSome then decr q.msgCnt else q.msgCnt
      ends := update q.ends c r.1
      next := r.2.1 }, r.2.2))

/-- `mq_get`, which does not search the system list. -/
def mqGet (byteAt : δ → ℕ → ℕ) (msgs : α → Message δ) (q : Mq α) (m : Message δ) :
    Option (Mq α × Option α) :=
  if q.msgCnt = 0 then some (q, none)
  else
    let test := fun p => headerMatches byteAt m (msgs p)
    (getFrom test q .high).bind (fun r => if r.2.isSome then some r else getFrom test r.1 .low)

end Operations

structure Linked (next : α → Option α) (e : Ends α) (l : List α) : Prop where
  chain : Chain next e.head l
  tail : l ≠ [] → e.tail = l.getLast?

variable {next : α → Option α} {e e' : Ends α} {l : List α} {m : α} {q q' : Mq α}

lemma Linked.head (hl : Linked next e l) : e.head = l.head? := by
  have hchain := hl.chain
  cases l with
  | nil => exact hchain
  | cons a l => exact hchain.1

lemma Linked.congr {next' : α → Option α} (hl : Linked next e l)
    (hn : ∀ p ∈ l, next' p = next p) : Linked next' e l :=
  ⟨hl.chain.congr hn, hl.tail⟩

lemma Linked.pop (hl : Linked next e (m :: l)) : Linked next { e with head := next m } l := by
  refine ⟨hl.chain.2, fun hne => ?_⟩
  have htail : e.tail = (m :: l).getLast? := hl.tail (cons_ne_nil _ _)
  cases l with
  | nil => exact absurd rfl hne
  | cons b l => exact htail.trans getLast?_cons_cons

lemma Linked.get_head (hl : Linked next e (m :: l)) :
    Linked next ⟨next m, if next m = none then none else e.tail⟩ l := by
  refine ⟨hl.pop.chain, fun hne => ?_⟩
  have hhead : next m = l.head? := hl.pop.head
  have hsome : next m ≠ none := by
    rw [hhead]
    exact mt head?_eq_none_iff.mp hne
  rw [if_neg hsome]
  exact hl.pop.tail hne

lemma Linked.head_ne (hl : Linked next e (l ++ prev :: m :: l2))
    (hd : (l ++ prev :: m :: l2).Nodup) : some m ≠ e.head := by
  rw [hl.head]
  cases l with
  | nil =>
    rintro heq
    have hne : prev ≠ m := fun h => (nodup_cons.mp hd).1 (h ▸ mem_cons_self)
    exact hne (some.inj heq).symm
  | cons b l =>
    intro heq
    have hmem : m ∈ l ++ prev :: m :: l2 := by simp
    exact (nodup_cons.mp hd).1 (some.inj heq ▸ hmem)

section Lists

variable [DecidableEq α]

lemma insertTail_linked (hl : Linked next e l) (hd : l.Nodup) (hm : m ∉ l) (hend : next m = none) :
    ∃ e' next', insertTail e next m = some (e', next') ∧ Linked next' e' (l ++ [m]) ∧
      ∀ p ∉ l, next' p = next p := by
  cases hlast : l.getLast? with
  | none =>
    have hnil : l = [] := getLast?_eq_none_iff.mp hlast
    subst hnil
    have hhead : e.head = none := hl.chain
    refine ⟨⟨some m, some m⟩, next, by rw [insertTail, hhead], ⟨⟨rfl, hend⟩, fun _ => rfl⟩, ?_⟩
    exact fun p _ => rfl
  | some t =>
    obtain ⟨l', rfl⟩ := getLast?_eq_some_iff.mp hlast
    have htail : e.tail = some t := (hl.tail (by simp)).trans hlast
    obtain ⟨a, hhead⟩ : ∃ a, e.head = some a := by
      rw [hl.head]
      cases l' with
      | nil => exact ⟨t, rfl⟩
      | cons b l' => exact ⟨b, rfl⟩
    refine ⟨{ e with tail := some m }, update next t (some m), ?_, ⟨?_, ?_⟩, ?_⟩
    · rw [insertTail, hhead, htail]
      rfl
    · exact hl.chain.append_last hd hm hend
    · simp
    · intro p hp
      refine update_of_ne ?_ _ _
      rintro rfl
      exact hp (by simp)

lemma Linked.get_last (hl : Linked next e (l ++ [prev, m])) (hd : (l ++ [prev, m]).Nodup) :
    some m = e.tail ∧
      Linked (update next prev none) { e with tail := some prev } (l ++ [prev]) := by
  have htail : e.tail = (l ++ [prev, m]).getLast? := hl.tail (by simp)
  have hend : next m = none := (Chain.tail hl.chain).2
  have hchain := hl.chain.unlink_after hd
  rw [hend] at hchain
  refine ⟨?_, hchain, fun _ => ?_⟩
  · rw [htail]
    simp
  · simp

lemma Linked.get_inner
    (hl : Linked next e (l ++ prev :: m :: b :: l2)) (hd : (l ++ prev :: m :: b :: l2).Nodup) :
    some m ≠ e.tail ∧ Linked (update next prev (next m)) e (l ++ prev :: b :: l2) := by
  have htail : e.tail = (b :: l2).getLast? := by
    rw [hl.tail (by simp), show l ++ prev :: m :: b :: l2 = (l ++ [prev, m]) ++ b :: l2 by simp]
    exact getLast?_append_of_ne_nil _ (cons_ne_nil _ _)
  refine ⟨fun heq => ?_, hl.chain.unlink_after hd, fun _ => ?_⟩
  · have hmem : m ∈ b :: l2 := mem_of_getLast? (heq.trans htail).symm
    have hbehind : (prev :: m :: b :: l2).Nodup := (nodup_append.mp hd).2.1
    exact (nodup_cons.mp (nodup_cons.mp hbehind).2).1 hmem
  · rw [htail, show l ++ prev :: b :: l2 = (l ++ [prev]) ++ b :: l2 by simp]
    exact (getLast?_append_of_ne_nil _ (cons_ne_nil _ _)).symm

lemma mqRealGet_linked (test : α → Bool) (hl : Linked next e l) (hd : l.Nodup)
    (hlen : l.length ≤ 255) :
    ∃ e' next', mqRealGet test e next = some (e', next', l.find? test) ∧
      Linked next' e' (l.eraseP test) ∧ ∀ p ∉ l, next' p = next p := by
  cases hfind : l.find? test with
  | none =>
    have hno : ∀ b ∈ l, test b = false := by simpa using hfind
    obtain ⟨prev, hstop⟩ : ∃ prev, findPrev next test 255 e.head e.head = some (prev, none) :=
      findPrev_none hl.chain hno hlen
    refine ⟨e, next, by rw [mqRealGet, hstop]; rfl, ?_, fun _ _ => rfl⟩
    rw [eraseP_of_forall_not (by simpa using hno)]
    exact hl
  | some ret =>
    obtain ⟨hret, l1, l2, rfl, hno⟩ := find?_eq_some_iff_append.mp hfind
    have hno' : ∀ b ∈ l1, test b = false := by simpa using hno
    have hstop : findPrev next test 255 e.head e.head = some (l1.getLast?.or e.head, some ret) :=
      findPrev_spec hl.chain hno' hret (by simp at hlen; omega)
    have herase : (l1 ++ ret :: l2).eraseP test = l1 ++ l2 := by
      rw [eraseP_append_right _ (by simpa using hno), eraseP_cons_of_pos hret]
    rw [herase, mqRealGet, hstop]
    simp only [bind_some]
    cases hlast : l1.getLast? with
    | none =>
      have hnil : l1 = [] := getLast?_eq_none_iff.mp hlast
      subst hnil
      have hhead : some ret = e.head := hl.head.symm
      rw [if_pos hhead]
      exact ⟨_, next, rfl, hl.get_head, fun _ _ => rfl⟩
    | some prev =>
      obtain ⟨l0, rfl⟩ := getLast?_eq_some_iff.mp hlast
      have hframe : ∀ (x : Option α), ∀ p ∉ l0 ++ [prev] ++ ret :: l2,
          update next prev x p = next p := by
        intro x p hp
        refine update_of_ne ?_ _ _
        rintro rfl
        exact hp (by simp)
      rw [append_assoc] at hl hd
      rw [if_neg (hl.head_ne hd)]
      cases l2 with
      | nil =>
        obtain ⟨htail, hlinked⟩ := hl.get_last hd
        rw [if_pos htail, append_nil]
        exact ⟨_, _, rfl, hlinked, hframe none⟩
      | cons b l2 =>
        obtain ⟨htail, hlinked⟩ := hl.get_inner hd
        rw [if_neg htail, append_assoc]
        exact ⟨_, _, rfl, hlinked, hframe _⟩

end Lists

structure Represents (q : Mq α) (f : MsgClass → List α) : Prop where
  lists : ∀ c, Linked q.next (q.ends c) (f c)
  nodup : ∀ c, (f c).Nodup
  apart : ∀ c c' p, p ∈ f c → p ∈ f c' → c = c'

variable {f : MsgClass → List α}

def sumOf (g : List α → ℕ) (f : MsgClass → List α) : ℕ := g (f .high) + g (f .system) + g (f .low)

lemma sumOf_update (g : List α → ℕ) (f : MsgClass → List α) (c : MsgClass) (l : List α) :
    sumOf g (update f c l) + g (f c) = sumOf g f + g l := by
  cases c <;> simp [sumOf, update] <;> omega

def total (f : MsgClass → List α) : ℕ := sumOf List.length f

lemma length_le_total (f : MsgClass → List α) (c : MsgClass) : (f c).length ≤ total f := by
  cases c <;> simp only [total, sumOf] <;> omega

lemma total_add_one {l : List α}
    (hlen : l.length = (f c).length + 1) : total (update f c l) = total f + 1 := by
  have htotal := sumOf_update List.length f c l
  unfold total
  omega

lemma total_sub_one {l : List α}
    (hlen : (f c).length = l.length + 1) : total f = total (update f c l) + 1 := by
  have htotal := sumOf_update List.length f c l
  unfold total
  omega

def dequeue (f : MsgClass → List α) : (MsgClass → List α) × Option α :=
  match [MsgClass.high, .system, .low].find? (fun c => f c ≠ []) with
  | none => (f, none)
  | some c => (update f c (f c).tail, (f c).head?)

lemma dequeue_cases (f : MsgClass → List α) : (dequeue f = (f, none) ∧ ∀ c, f c = []) ∨
    ∃ c m l, f c = m :: l ∧ dequeue f = (update f c l, some m) := by
  rw [dequeue]
  cases hfind : [MsgClass.high, .system, .low].find? (fun c => f c ≠ []) with
  | none =>
    refine .inl ⟨rfl, fun c => ?_⟩
    have hnil := List.find?_eq_none.mp hfind c
    cases c <;> simpa using hnil
  | some c =>
    have hne : f c ≠ [] := by simpa using find?_some hfind
    obtain ⟨m, l, hc⟩ := exists_cons_of_ne_nil hne
    exact .inr ⟨c, m, l, hc, by simp [hc]⟩

section

variable (hr : Represents q f)
include hr

lemma Represents.replace (hl : Linked q'.next e l)
    (hends : q'.ends = update q.ends c e) (hframe : ∀ c' ≠ c, ∀ p ∈ f c', q'.next p = q.next p)
    (hd : l.Nodup) (hmem : ∀ p ∈ l, p ∈ f c ∨ ∀ c', p ∉ f c') : Represents q' (update f c l) := by
  have hapart : ∀ c' ≠ c, ∀ p ∈ l, p ∉ f c' := by
    intro c' hne p hp hp'
    rcases hmem p hp with hc | hno
    · exact hne (hr.apart c' c p hp' hc)
    · exact hno c' hp'
  constructor
  · intro c'
    rw [hends]
    by_cases hc : c' = c
    · subst hc
      simpa using hl
    · rw [update_of_ne hc, update_of_ne hc]
      exact (hr.lists c').congr (hframe c' hc)
  · intro c'
    by_cases hc : c' = c
    · subst hc
      simpa using hd
    · rw [update_of_ne hc]
      exact hr.nodup c'
  · intro c1 c2 p h1 h2
    by_cases hc1 : c1 = c
    · by_cases hc2 : c2 = c
      · rw [hc1, hc2]
      · rw [hc1, update_self] at h1
        rw [update_of_ne hc2] at h2
        exact absurd h2 (hapart c2 hc2 p h1)
    · rw [update_of_ne hc1] at h1
      by_cases hc2 : c2 = c
      · rw [hc2, update_self] at h2
        exact absurd h1 (hapart c1 hc1 p h2)
      · rw [update_of_ne hc2] at h2
        exact hr.apart c1 c2 p h1 h2

lemma popHead_represents (hc : f c = m :: l) :
    Represents (popHead q c m) (update f c l) := by
  have hl := hr.lists c
  have hd := hr.nodup c
  rw [hc] at hl hd
  refine hr.replace hl.pop rfl (fun _ _ _ _ => rfl) (nodup_cons.mp hd).2 ?_
  intro p hp
  rw [hc]
  exact .inl (mem_cons_of_mem _ hp)

lemma mqDequeue_eq :
    mqDequeue q = match [MsgClass.high, .system, .low].find? (fun c => f c ≠ []) with
      | none => (q, none)
      | some c => (f c).head?.elim (q, none) (fun tmp => (popHead q c tmp, some tmp)) := by
  rw [mqDequeue, (hr.lists .high).head, (hr.lists .system).head, (hr.lists .low).head]
  cases hh : f .high with
  | cons m l => simp [hh]
  | nil =>
    cases hs : f .system with
    | cons m l => simp [hh, hs]
    | nil =>
      cases hl : f .low with
      | cons m l => simp [hh, hs, hl]
      | nil => simp [hh, hs, hl]

lemma mqDequeue_cases :
    (mqDequeue q = (q, none) ∧ dequeue f = (f, none)) ∨
      ∃ c m l, f c = m :: l ∧ mqDequeue q = (popHead q c m, some m) ∧
        dequeue f = (update f c l, some m) := by
  rw [mqDequeue_eq hr, dequeue]
  cases hfind : [MsgClass.high, .system, .low].find? (fun c => f c ≠ []) with
  | none => exact .inl ⟨rfl, rfl⟩
  | some c =>
    have hne : f c ≠ [] := by simpa using find?_some hfind
    obtain ⟨m, l, hc⟩ := exists_cons_of_ne_nil hne
    exact .inr ⟨c, m, l, hc, by simp [hc], by simp [hc]⟩

end

def get (test : α → Bool) (f : MsgClass → List α) : (MsgClass → List α) × Option α :=
  match [MsgClass.high, .low].find? (fun c => (f c).any test) with
  | none => (f, none)
  | some c => (update f c ((f c).eraseP test), (f c).find? test)

lemma get_cases (test : α → Bool) (f : MsgClass → List α) :
    (get test f = (f, none) ∧ ∀ c, c ≠ .system → ∀ p ∈ f c, test p = false) ∨
    ∃ c p, c ≠ .system ∧ (f c).find? test = some p ∧
      get test f = (update f c ((f c).eraseP test), some p) := by
  rw [get]
  cases hfind : [MsgClass.high, .low].find? (fun c => (f c).any test) with
  | none =>
    refine .inl ⟨rfl, fun c hc p hp => ?_⟩
    have hmem : c ∈ [MsgClass.high, .low] := by cases c <;> simp_all
    have hno := List.find?_eq_none.mp hfind c hmem
    simp only [List.any_eq_true, not_exists, not_and] at hno
    exact Bool.eq_false_iff.mpr (hno p hp)
  | some c =>
    have hany : (f c).any test = true := find?_some (p := fun c => (f c).any test) hfind
    obtain ⟨p, hp, htest⟩ := any_eq_true.mp hany
    obtain ⟨b, hb⟩ := isSome_iff_exists.mp (find?_isSome.mpr ⟨p, hp, htest⟩)
    refine .inr ⟨c, b, ?_, hb, by simp [hb]⟩
    have hmem := mem_of_find?_eq_some hfind
    rintro rfl
    simp at hmem

section Queue

variable [DecidableEq α]

lemma mqEnqueue_represents (hr : Represents q f) (hm : ∀ c, m ∉ f c) (flag : ℕ) :
    ∃ q', mqEnqueue q flag m = some q' ∧
      Represents q' (update f (classOf flag) (f (classOf flag) ++ [m])) ∧
      q'.msgCnt = incr q.msgCnt ∧
      q'.cnt = update q.cnt (classOf flag) (incr (q.cnt (classOf flag))) := by
  generalize hc : classOf flag = c
  have hunlinked : ∀ c', ∀ p ∈ f c', update q.next m none p = q.next p := by
    intro c' p hp
    refine update_of_ne ?_ _ _
    rintro rfl
    exact hm c' hp
  obtain ⟨e, next, hrun, hl, hframe⟩ := insertTail_linked
    ((hr.lists c).congr (hunlinked c)) (hr.nodup c) (hm c) (update_self m none q.next)
  refine ⟨⟨incr q.msgCnt, update q.cnt c (incr (q.cnt c)), update q.ends c e,
    next⟩, by simp only [mqEnqueue, hc, hrun, map_some], ?_, rfl, rfl⟩
  refine hr.replace hl rfl ?_ ?_ ?_
  · intro c' hne p hp
    exact (hframe p (fun hp' => hne (hr.apart c' c p hp hp'))).trans (hunlinked c' p hp)
  · rw [nodup_append]
    refine ⟨hr.nodup c, nodup_singleton m, ?_⟩
    rintro a ha b hb rfl
    exact hm c (mem_singleton.mp hb ▸ ha)
  · intro p hp
    rcases mem_append.mp hp with hp | hp
    · exact .inl hp
    · exact .inr (fun c' => mem_singleton.mp hp ▸ hm c')

lemma getFrom_represents (test : α → Bool) (hr : Represents q f) (hlen : (f c).length ≤ 255) :
    ∃ q', getFrom test q c = some (q', (f c).find? test) ∧
      Represents q' (update f c ((f c).eraseP test)) ∧ q'.cnt = q.cnt ∧
      q'.msgCnt = if ((f c).find? test).isSome then decr q.msgCnt else q.msgCnt := by
  obtain ⟨e, next, hrun, hl, hframe⟩ := mqRealGet_linked test (hr.lists c) (hr.nodup c) hlen
  refine ⟨{ q with
      msgCnt := if ((f c).find? test).isSome then decr q.msgCnt else q.msgCnt
      ends := update q.ends c e
      next := next }, by rw [getFrom, hrun]; rfl, ?_, rfl, rfl⟩
  refine hr.replace hl rfl ?_ ((hr.nodup c).sublist eraseP_sublist) ?_
  · exact fun c' hne p hp => hframe p (fun hp' => hne (hr.apart c' c p hp hp'))
  · exact fun p hp => .inl (mem_of_mem_eraseP hp)

lemma mqGet_represents (byteAt : δ → ℕ → ℕ) (msgs : α → Message δ) (m : Message δ)
    (hr : Represents q f) (hcnt : q.msgCnt = total f) (hlen : total f ≤ 255) :
    ∃ q', mqGet byteAt msgs q m = some (q', (get (fun p => headerMatches byteAt m (msgs p)) f).2) ∧
      Represents q' (get (fun p => headerMatches byteAt m (msgs p)) f).1 ∧ q'.cnt = q.cnt ∧
      q'.msgCnt = if (get (fun p => headerMatches byteAt m (msgs p)) f).2.isSome then
        decr q.msgCnt else q.msgCnt := by
  generalize htest : (fun p => headerMatches byteAt m (msgs p)) = test
  have hnone : ∀ {c : MsgClass}, (f c).find? test = none → (f c).any test = false ∧
      update f c ((f c).eraseP test) = f := by
    intro c hfind
    have hno : ∀ p ∈ f c, ¬ test p := by simpa using hfind
    refine ⟨by simpa using hfind, ?_⟩
    rw [eraseP_of_forall_not hno, update_eq_self]
  have hsome : ∀ {c : MsgClass} {p : α}, (f c).find? test = some p → (f c).any test = true := by
    intro c p hfind
    exact any_eq_true.mpr ⟨p, mem_of_find?_eq_some hfind, find?_some hfind⟩
  rw [mqGet]
  split
  next hzero =>
    have hnil : ∀ c, f c = [] := by
      intro c
      have := length_le_total f c
      exact length_eq_zero_iff.mp (by omega)
    have hget : get test f = (f, none) := by simp [get, hnil]
    rw [hget]
    exact ⟨q, rfl, hr, rfl, rfl⟩
  · obtain ⟨q1, hrun1, hr1, hcnt1, hmsg1⟩ :=
      getFrom_represents test hr (Nat.le_trans (length_le_total f .high) hlen)
    simp only [htest, hrun1, bind_some]
    cases hhigh : (f .high).find? test with
    | some p =>
      have hget : get test f = (update f .high ((f .high).eraseP test), some p) := by
        simp [get, hsome hhigh, hhigh]
      rw [hget]
      rw [hhigh] at hmsg1
      exact ⟨q1, rfl, hr1, hcnt1, hmsg1⟩
    | none =>
      rw [hhigh] at hmsg1
      rw [(hnone hhigh).2] at hr1
      obtain ⟨q2, hrun2, hr2, hcnt2, hmsg2⟩ :=
        getFrom_represents test hr1 (Nat.le_trans (length_le_total f .low) hlen)
      have hget : get test f = (update f .low ((f .low).eraseP test), (f .low).find? test) := by
        cases hlow : (f .low).find? test with
        | some p => simp [get, (hnone hhigh).1, hsome hlow, hlow]
        | none => simp [get, (hnone hhigh).1, (hnone hlow).1, (hnone hlow).2]
      rw [hget]
      refine ⟨q2, hrun2, hr2, hcnt2.trans hcnt1, ?_⟩
      rw [hmsg2, hmsg1]
      rfl

end Queue

structure State (α δ : Type*) where
  msgs : α → Message δ
  q : Mq α
  out : List (Option α)

inductive Event (α δ : Type*) where
  | enqueue (p : α) (m : Message δ)
  | dequeue
  | get (byteAt : δ → ℕ → ℕ) (m : Message δ)

structure Fifo (α δ : Type*) where
  msgs : α → Message δ
  lists : MsgClass → List α
  sent : MsgClass → List α
  out : List (Option α)

section Runs

variable [DecidableEq α] {s s' : State α δ} {fs fs' : Fifo α δ} {es : List (Event α δ)}

def step (s : State α δ) : Event α δ → Option (State α δ)
  | .enqueue p m =>
    (mqEnqueue s.q m.flag p).map (fun q => { s with msgs := update s.msgs p m, q := q })
  | .dequeue =>
    let r := mqDequeue s.q
    some { s with q := r.1, out := s.out ++ [r.2] }
  | .get byteAt m =>
    (mqGet byteAt s.msgs s.q m).map (fun r => { s with q := r.1, out := s.out ++ [r.2] })

def fifoStep (f : Fifo α δ) : Event α δ → Option (Fifo α δ)
  | .enqueue p m =>
    let c := classOf m.flag
    some { f with
      msgs := update f.msgs p m
      lists := update f.lists c (f.lists c ++ [p])
      sent := update f.sent c (f.sent c ++ [p]) }
  | .dequeue =>
    let r := dequeue f.lists
    some { f with lists := r.1, out := f.out ++ [r.2] }
  | .get byteAt m =>
    let r := get (fun p => headerMatches byteAt m (f.msgs p)) f.lists
    some { f with lists := r.1, out := f.out ++ [r.2] }

def Legal (f : Fifo α δ) : Event α δ → Prop
  | .enqueue p _ => (∀ c, p ∉ f.lists c) ∧ total f.lists < 255
  | _ => True

def Quiet (f : Fifo α δ) : Event α δ → Prop
  | .get byteAt m => ∀ c, c ≠ .system → ∀ p ∈ f.lists c, headerMatches byteAt m (f.msgs p) = false
  | _ => True

structure Refines (s : State α δ) (f : Fifo α δ) : Prop where
  msgs : s.msgs = f.msgs
  out : s.out = f.out
  queue : Represents s.q f.lists
  count : s.q.msgCnt = total f.lists
  room : total f.lists ≤ 255

def Counts (s : State α δ) (f : Fifo α δ) : Prop := ∀ c, s.q.cnt c = (f.lists c).length

lemma incr_eq (h : n < 255) : incr n = n + 1 := Nat.mod_eq_of_lt (by omega)

lemma decr_eq (h : n < 255) : decr (n + 1) = n := by
  rw [decr]
  omega

/-- Every message was enqueued as often as it was returned and is queued, and the lists keep the
order in which their messages were enqueued. -/
structure Kept (fs : Fifo α δ) : Prop where
  count : ∀ p, sumOf (List.count p) fs.sent =
    fs.out.count (some p) + sumOf (List.count p) fs.lists
  order : ∀ c, (fs.lists c).Sublist (fs.sent c)

lemma count_eraseP {test : α → Bool} (hfind : l.find? test = some b) (p : α) :
    l.count p = [b].count p + (l.eraseP test).count p := by
  obtain ⟨hb, l1, l2, rfl, hno⟩ := find?_eq_some_iff_append.mp hfind
  rw [eraseP_append_right _ (by simpa using hno), eraseP_cons_of_pos hb]
  simp only [count_append, count_cons, count_nil]
  omega

lemma Kept.leave (hk : Kept fs)
    (hcount : ∀ p, (fs.lists c).count p = [b].count p + l.count p) (hsub : l.Sublist (fs.lists c)) :
    Kept { fs with lists := update fs.lists c l, out := fs.out ++ [some b] } := by
  constructor
  · intro p
    have hsum := sumOf_update (List.count p) fs.lists c l
    have hone : [some b].count (some p) = [b].count p := by simp [count_cons]
    have hbefore := hk.count p
    have hp := hcount p
    simp only [count_append, hone]
    omega
  · intro c'
    by_cases hc : c' = c
    · subst hc
      simp only [update_self]
      exact hsub.trans (hk.order c')
    · simp only [update_of_ne hc]
      exact hk.order c'

lemma Kept.none (hk : Kept fs) : Kept { fs with out := fs.out ++ [Option.none] } :=
  ⟨fun p => by simpa [count_append] using hk.count p, hk.order⟩

lemma fifoStep_kept (fs : Fifo α δ) (ev : Event α δ) (fs' : Fifo α δ) (hk : Kept fs)
    (_ : Legal fs ev) (hrun : fifoStep fs ev = some fs') : Kept fs' := by
  cases ev with
  | enqueue p m =>
    cases hrun
    constructor
    · intro b
      have hsent := sumOf_update (List.count b) fs.sent (classOf m.flag)
        (fs.sent (classOf m.flag) ++ [p])
      have hlists := sumOf_update (List.count b) fs.lists (classOf m.flag)
        (fs.lists (classOf m.flag) ++ [p])
      rw [count_append] at hsent hlists
      have hbefore := hk.count b
      simp only
      omega
    · intro c
      by_cases hc : c = classOf m.flag
      · subst hc
        simp only [update_self]
        exact (hk.order _).append_right [p]
      · simp only [update_of_ne hc]
        exact hk.order c
  | dequeue =>
    rw [fifoStep] at hrun
    rcases dequeue_cases fs.lists with ⟨hspec, -⟩ | ⟨c, b, l, hc, hspec⟩
    · simp only [hspec, some.injEq] at hrun
      exact hrun ▸ hk.none
    · simp only [hspec, some.injEq] at hrun
      refine hrun ▸ hk.leave (fun p => ?_) (hc ▸ sublist_cons_self b l)
      rw [hc]
      simp only [count_cons, count_nil]
      omega
  | get byteAt m =>
    rw [fifoStep] at hrun
    rcases get_cases (fun p => headerMatches byteAt m (fs.msgs p)) fs.lists with
      ⟨hspec, -⟩ | ⟨c, b, -, hfind, hspec⟩
    · simp only [hspec, some.injEq] at hrun
      exact hrun ▸ hk.none
    · simp only [hspec, some.injEq] at hrun
      exact hrun ▸ hk.leave (count_eraseP hfind) eraseP_sublist

def CountsAfter (s : State α δ) (fs : Fifo α δ) (es : List (Event α δ)) : Prop :=
  ∀ s' fs', runTrace step s es = some s' → runTrace fifoStep fs es = some fs' → Counts s' fs'

section

variable (hr : Refines s fs)
include hr

lemma enqueue_refines {p : α} {m : Message δ} (hlegal : Legal fs (.enqueue p m)) :
    ∃ s' fs', step s (.enqueue p m) = some s' ∧ fifoStep fs (.enqueue p m) = some fs' ∧
      Refines s' fs' ∧ (Counts s fs → Counts s' fs') := by
  obtain ⟨hfresh, hlt⟩ := hlegal
  obtain ⟨q', hrun, hq, hmsg, hcnt⟩ := mqEnqueue_represents hr.queue hfresh m.flag
  have htotal := total_add_one (f := fs.lists) (c := classOf m.flag)
    (l := fs.lists (classOf m.flag) ++ [p]) (by simp)
  refine ⟨{ s with msgs := update s.msgs p m, q := q' }, _, by rw [step, hrun]; rfl, rfl,
    ⟨by rw [hr.msgs], hr.out, hq, ?_, ?_⟩, fun hc c => ?_⟩
  · rw [hmsg, hr.count, incr_eq hlt, htotal]
  · rw [htotal]
    exact hlt
  · have hle := length_le_total fs.lists (classOf m.flag)
    simp only [hcnt]
    by_cases hcm : c = classOf m.flag
    · subst hcm
      rw [update_self, update_self, hc, incr_eq (by omega), length_append, length_singleton]
    · rw [update_of_ne hcm, update_of_ne hcm, hc]

lemma dequeue_refines :
    ∃ s' fs', step s .dequeue = some s' ∧ fifoStep fs .dequeue = some fs' ∧ Refines s' fs' ∧
      (Counts s fs → Counts s' fs') := by
  rcases mqDequeue_cases hr.queue with ⟨hrun, hspec⟩ | ⟨c, m, l, hc, hrun, hspec⟩
  · exact ⟨{ s with out := s.out ++ [none] }, { fs with out := fs.out ++ [none] },
      by rw [step, hrun], by rw [fifoStep, hspec],
      ⟨hr.msgs, by rw [hr.out], hr.queue, hr.count, hr.room⟩, fun h => h⟩
  · have hlen : (fs.lists c).length = l.length + 1 := by rw [hc, length_cons]
    have htotal := total_sub_one hlen
    have hroom := hr.room
    have hle := length_le_total fs.lists c
    refine ⟨{ s with q := popHead s.q c m, out := s.out ++ [some m] },
      { fs with lists := update fs.lists c l, out := fs.out ++ [some m] },
      by rw [step, hrun], by rw [fifoStep, hspec], ⟨hr.msgs, by rw [hr.out],
        popHead_represents hr.queue hc, ?_, ?_⟩, fun h c' => ?_⟩
    · simp only [popHead]
      rw [hr.count, htotal, decr_eq (by omega)]
    · simp only
      omega
    · simp only [popHead]
      by_cases hcc : c' = c
      · subst hcc
        rw [update_self, update_self, h, hlen, decr_eq (by omega)]
      · rw [update_of_ne hcc, update_of_ne hcc, h]

lemma get_refines (byteAt : δ → ℕ → ℕ) (m : Message δ) :
    ∃ s' fs', step s (.get byteAt m) = some s' ∧ fifoStep fs (.get byteAt m) = some fs' ∧
      Refines s' fs' ∧ (Counts s fs → (Counts s' fs' ↔ Quiet fs (.get byteAt m))) := by
  obtain ⟨q', hrun, hq, hcnt, hmsg⟩ := mqGet_represents byteAt s.msgs m hr.queue hr.count hr.room
  rw [hr.msgs] at hrun hq hmsg
  have hstep : step s (.get byteAt m) = some { s with
      q := q'
      out := s.out ++ [(get (fun p => headerMatches byteAt m (fs.msgs p)) fs.lists).2] } := by
    rw [step, hr.msgs, hrun]
    rfl
  refine ⟨_, _, hstep, rfl, ?_⟩
  rcases get_cases (fun p => headerMatches byteAt m (fs.msgs p)) fs.lists with
    ⟨hget, hno⟩ | ⟨c, p, hc, hfind, hget⟩
  · simp only [hget] at hq hmsg ⊢
    refine ⟨⟨hr.msgs, by rw [hr.out], hq, hmsg.trans hr.count, hr.room⟩, fun h => ?_⟩
    refine iff_of_true (fun c => ?_) hno
    simp only [hcnt]
    exact h c
  · simp only [hget, isSome_some, if_true] at hq hmsg ⊢
    have hp := mem_of_find?_eq_some hfind
    have hmatch : headerMatches byteAt m (fs.msgs p) = true :=
      find?_some (p := fun p => headerMatches byteAt m (fs.msgs p)) hfind
    have hlen : (fs.lists c).length =
        ((fs.lists c).eraseP (fun p => headerMatches byteAt m (fs.msgs p))).length + 1 := by
      rw [length_eraseP_of_mem hp hmatch, Nat.sub_add_cancel (length_pos_of_mem hp)]
    have htotal := total_sub_one hlen
    have hroom := hr.room
    refine ⟨⟨hr.msgs, by rw [hr.out], hq, ?_, ?_⟩, fun h => iff_of_false (fun hright => ?_) ?_⟩
    · rw [hmsg, hr.count, htotal, decr_eq (by omega)]
    · simp only
      omega
    · have hwrong := hright c
      simp only [hcnt, update_self] at hwrong
      have hbefore := h c
      omega
    · exact fun hquiet => by simpa [hmatch] using hquiet c hc p hp

/-- One event of the queue is one event of the specification, and the counters of the lists stay
right if and only if no `mq_get` takes a message out. -/
lemma step_refines {ev : Event α δ} (hlegal : Legal fs ev) :
    ∃ s' fs', step s ev = some s' ∧ fifoStep fs ev = some fs' ∧ Refines s' fs' ∧
      (Counts s fs → (Counts s' fs' ↔ Quiet fs ev)) := by
  cases ev with
  | enqueue p m =>
    obtain ⟨s', fs', hrun, hspec, hr', hcounts⟩ := enqueue_refines hr hlegal
    exact ⟨s', fs', hrun, hspec, hr', fun h => iff_of_true (hcounts h) trivial⟩
  | dequeue =>
    obtain ⟨s', fs', hrun, hspec, hr', hcounts⟩ := dequeue_refines hr
    exact ⟨s', fs', hrun, hspec, hr', fun h => iff_of_true (hcounts h) trivial⟩
  | get byteAt m => exact get_refines hr byteAt m

lemma run_refines
    (hvalid : ValidTrace fifoStep Legal fs es) :
    ∃ s' fs', runTrace step s es = some s' ∧ runTrace fifoStep fs es = some fs' ∧
      Refines s' fs' := by
  induction es generalizing s fs with
  | nil => exact ⟨s, fs, rfl, rfl, hr⟩
  | cons ev es ih =>
    obtain ⟨s1, fs1, hstep, hspec, hr1, -⟩ := step_refines hr hvalid.1
    have hrest : ValidTrace fifoStep Legal fs1 es := by simpa [ValidTrace, hspec] using hvalid.2
    obtain ⟨s', fs', hrun, hrun', hr'⟩ := ih hr1 hrest
    exact ⟨s', fs', by rw [runTrace, hstep]; exact hrun, by rw [runTrace, hspec]; exact hrun', hr'⟩

lemma counts_along_iff (hc : Counts s fs) (hvalid : ValidTrace fifoStep Legal fs es) :
    (∀ es', es' <+: es → CountsAfter s fs es') ↔ ValidTrace fifoStep Quiet fs es := by
  induction es generalizing s fs with
  | nil =>
    refine iff_of_true (fun es' hes' s' fs' hrun hrun' => ?_) trivial
    rw [prefix_nil.mp hes'] at hrun hrun'
    cases hrun
    cases hrun'
    exact hc
  | cons ev es ih =>
    obtain ⟨s1, fs1, hstep, hspec, hr1, hiff⟩ := step_refines hr hvalid.1
    have hrest : ValidTrace fifoStep Legal fs1 es := by simpa [ValidTrace, hspec] using hvalid.2
    have hafter : ∀ es', CountsAfter s fs (ev :: es') ↔ CountsAfter s1 fs1 es' := by
      intro es'
      simp only [CountsAfter, runTrace, hstep, hspec, bind_some]
    have hquiet : ValidTrace fifoStep Quiet fs (ev :: es) ↔
        Quiet fs ev ∧ ValidTrace fifoStep Quiet fs1 es := by
      simp [ValidTrace, hspec]
    rw [hquiet, ← hiff hc]
    constructor
    · intro hall
      have hc1 : Counts s1 fs1 := by
        have hone := (hafter []).mp (hall [ev] (by simp))
        exact hone s1 fs1 rfl rfl
      refine ⟨hc1, (ih hr1 hc1 hrest).mp (fun es' hes' => ?_)⟩
      exact (hafter es').mp (hall (ev :: es') (by simpa using hes'))
    · rintro ⟨hc1, htail⟩ es' hes'
      cases es' with
      | nil =>
        intro s' fs' hrun hrun'
        cases hrun
        cases hrun'
        exact hc
      | cons d es' =>
        obtain ⟨rfl, hrest'⟩ := cons_prefix_cons.mp hes'
        exact (hafter es').mpr ((ih hr1 hc1 hrest).mpr htail es' hrest')

end

def fifoInit (msgs : α → Message δ) : Fifo α δ := ⟨msgs, fun _ => [], fun _ => [], []⟩

def queueInit (msgs : α → Message δ) (next : α → Option α) : State α δ := ⟨msgs, mqInit next, []⟩

omit [DecidableEq α] in
lemma refines_init (msgs : α → Message δ) (next : α → Option α) :
    Refines (queueInit msgs next) (fifoInit msgs) := by
  refine ⟨rfl, rfl, ⟨fun c => ⟨rfl, fun hne => absurd rfl hne⟩, fun _ => nodup_nil, ?_⟩, rfl,
    Nat.zero_le _⟩
  intro c c' p hp
  cases hp

/-- A queue from `mq_init` on behaves as three FIFO lists and `msg_cnt` is their total length;
nothing is lost, duplicated or reordered. The counters of the lists are right all along the run
if and only if no `mq_get` finds a message. -/
theorem mq_refines_fifo_over_runs (msgs : α → Message δ) (next : α → Option α)
    {es : List (Event α δ)} (hvalid : ValidTrace fifoStep Legal (fifoInit msgs) es) :
    (∃ s fs, runTrace step (queueInit msgs next) es = some s ∧
      runTrace fifoStep (fifoInit msgs) es = some fs ∧ Refines s fs ∧ Kept fs) ∧
    ((∀ es', es' <+: es → CountsAfter (queueInit msgs next) (fifoInit msgs) es') ↔
      ValidTrace fifoStep Quiet (fifoInit msgs) es) := by
  have hinit := refines_init msgs next
  constructor
  · obtain ⟨s, fs, hrun, hspec, hr⟩ := run_refines hinit hvalid
    have hkept : Kept (fifoInit msgs : Fifo α δ) :=
      ⟨fun p => by simp [fifoInit, sumOf], fun c => Sublist.refl _⟩
    exact ⟨s, fs, hrun, hspec, hr, run_invariant_of_some fifoStep_kept hkept hvalid hspec⟩
  · exact counts_along_iff hinit (fun _ => rfl) hvalid

end Runs

instance {P : MsgClass → Prop} [DecidablePred P] : Decidable (∀ c, P c) :=
  decidable_of_iff (P .high ∧ P .system ∧ P .low)
    ⟨fun h c => by cases c <;> simp [h], fun h => ⟨h _, h _, h _⟩⟩

instance [DecidableEq α] (fs : Fifo α δ) (ev : Event α δ) : Decidable (Legal fs ev) := by
  cases ev <;> (dsimp only [Legal]; infer_instance)

def plainMessage (flag : ℕ) : Message Unit := ⟨1, 2, 0, 0, 32, 0, (), flag⟩

def sampleEvents : List (Event ℕ Unit) :=
  [.enqueue 1 (plainMessage 0), .enqueue 2 (plainMessage 0x40), .enqueue 3 (plainMessage 0x80),
    .dequeue, .enqueue 4 (plainMessage 0), .dequeue]

theorem mq_refines_fifo_sample :
    ∃ s fs, runTrace step (queueInit (fun _ => plainMessage 0) (fun _ : ℕ => none)) sampleEvents =
        some s ∧
      runTrace fifoStep (fifoInit (fun _ => plainMessage 0)) sampleEvents = some fs ∧
      Refines s fs ∧ Kept fs :=
  (mq_refines_fifo_over_runs (fun _ => plainMessage 0) (fun _ => none)
    (show ValidTrace fifoStep Legal (fifoInit (fun _ => plainMessage 0)) sampleEvents by
      decide +kernel)).1

/-- A low priority message is enqueued and taken out by `mq_get`. The list is empty then, but
`lm_cnt` is 1. -/
theorem mq_get_leaves_count :
    ValidTrace fifoStep Legal (fifoInit (fun _ => plainMessage 0))
      [.enqueue 1 (plainMessage 0), .get (fun _ _ => 0) (plainMessage 0)] ∧
    ∃ s fs, runTrace step (queueInit (fun _ => plainMessage 0) (fun _ : ℕ => none))
        [.enqueue 1 (plainMessage 0), .get (fun _ _ => 0) (plainMessage 0)] = some s ∧
      runTrace fifoStep (fifoInit (fun _ => plainMessage 0))
        [.enqueue 1 (plainMessage 0), .get (fun _ _ => 0) (plainMessage 0)] = some fs ∧
      (∀ c, fs.lists c = []) ∧ s.q.msgCnt = 0 ∧ s.q.cnt .low = 1 := by
  refine ⟨by decide +kernel, _, _, rfl, rfl, ?_, rfl, rfl⟩
  decide +kernel

end MessageQueue
