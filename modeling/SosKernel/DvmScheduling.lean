import SosKernel.DvmQueues

/-! # Which context runs

The run queue holds the contexts that are ready, and the running context is not in it. A context
that waits or is blocked runs only after it was ready again. -/
namespace DvmScheduling

open DvmMachine DvmMachine.Dvm DvmInterpreter DvmMoves DvmQueues GuardedRuns Function Option

variable {s t u : Dvm} {c d : Id} {q : QueueId} {ok : Bool} {rest : List Id}

structure Consistent (s : Dvm) : Prop where
  linked : Linked s
  ready : ∀ c, c ∈ s.queues .runQueue ↔ s.state c = .ready
  running : ∀ c, s.runningContext = some c → s.state c ≠ .ready ∧ c ∉ s.queues .readyQueue
  free : ∀ c, s.state c = .run ∨ s.state c = .blocked → s.queue c = none

def steady : Guard where
  begin s c := s.runningContext ≠ some c
  deliver s c := s.state c = .blocked ∧ s.runningContext ≠ some c
  fail _ _ := True
  retry _ _ := False
  reboot s := s.queues .runQueue = []
  load _ := True
  begin_other := by
    intro s c d data ok _ h
    rw [(begin_same _ _ data _).2.2.1]
    exact h
  deliver_quiet := by
    intro s t c hq h
    rw [hq]
    exact h
  fail_quiet := fun _ h => h
  retry_quiet := fun _ h => h

namespace Consistent

section

variable (h : Consistent s)
include h

lemma not_ready (hc : c ∈ s.queues q) (hq : q ≠ .runQueue) : s.state c ≠ .ready := by
  intro hst
  have h1 := h.linked.queue q c hc
  have h2 := h.linked.queue .runQueue c ((h.ready c).mpr hst)
  exact hq (some.inj (h1.symm.trans h2))

lemma quiet (hq : Quiet s t) : Consistent t := by
  have hl := h.linked.quiet hq
  rw [hq] at hl ⊢
  exact ⟨hl, h.ready, h.running, h.free⟩

lemma dequeued (hq : s.queues q = c :: rest) (hne : q ≠ .runQueue) :
    Consistent (s.dequeued c q rest) := by
  have hst : s.state c ≠ .ready := h.not_ready (by simp [hq]) hne
  refine ⟨h.linked.dequeued hq, ?_, ?_, ?_⟩
  · intro d
    rw [h.linked.mem_dequeued hq, h.ready d]
    refine ⟨And.left, fun hd => ⟨hd, ?_⟩⟩
    rintro rfl
    exact hst hd
  · exact fun d hd => ⟨(h.running d hd).1,
      fun hm => (h.running d hd).2 ((h.linked.mem_dequeued hq).mp hm).1⟩
  · intro d hd
    by_cases he : d = c
    · simp [Dvm.dequeued, he]
    · simpa [Dvm.dequeued, he] using h.free d hd

section

variable (hl : s.loaded c = true)
include hl

lemma resume (hq : s.queue c = none) (hr : s.runningContext ≠ some c) :
    Consistent (s.resumeContext c ok) := by
  have hlinked : Linked (s.resumeContext c ok) := h.linked.resume hl
  have hsame := resumeContext_same s c ok
  have hnot : ∀ q, c ∉ s.queues q := fun q hm => by
    rw [h.linked.queue q c hm] at hq
    cases hq
  -- other contexts are where they were, and so is the state of each
  have hrest : ∀ p, (s.resumeContext c ok).queues = (s.queueEnqueue c p).queues →
      (s.resumeContext c ok).queue = (s.queueEnqueue c p).queue →
      (c ∈ (s.resumeContext c ok).queues .runQueue ↔ (s.resumeContext c ok).state c = .ready) →
      Consistent (s.resumeContext c ok) := by
    intro p hqs hqu hc
    refine ⟨hlinked, ?_, ?_, ?_⟩
    · intro d
      by_cases hd : d = c
      · exact hd ▸ hc
      · rw [hqs, resumeContext_state, mem_enqueue]
        simpa [hd] using h.ready d
    · intro d hd
      rw [hsame.runningContext] at hd
      have hne : d ≠ c := fun e => hr (e ▸ hd)
      rw [hqs, resumeContext_state, mem_enqueue]
      simpa [hne] using h.running d hd
    · intro d hd
      have hne : d ≠ c := by
        rintro rfl
        rw [resumeContext_state] at hd
        split at hd <;> simp at hd
      rw [resumeContext_state, update_of_ne hne] at hd
      rw [hqu, queue_enqueue, if_neg (fun e => hne e.2)]
      exact h.free d hd
  cases hrun : s.isRunnable c with
  | true =>
    have hs := started_spec hrun ok
    refine hrest .runQueue hs.queues hs.queue ?_
    rw [hs.queues, hs.state, mem_enqueue]
    simp [hq]
  | false =>
    have hw := waited_spec hrun ok
    refine hrest .readyQueue hw.queues hw.queue ?_
    rw [hw.queues, hw.state, mem_enqueue]
    simp [hnot]

lemma setState (hc : s.state c ≠ .ready) (st : Status)
    (hst : st ≠ .ready) (hfree : st = .run ∨ st = .blocked → s.queue c = none) :
    Consistent (s.setState c st) := by
  refine ⟨h.linked.setState hl st, ?_, ?_, ?_⟩
  · intro d
    by_cases hd : d = c
    · subst hd
      simpa [Dvm.setState, hst, hc] using h.ready d
    · simpa [Dvm.setState, hd] using h.ready d
  · intro d hd
    refine ⟨?_, (h.running d hd).2⟩
    by_cases he : d = c
    · simpa [Dvm.setState, he] using hst
    · simpa [Dvm.setState, he] using (h.running d hd).1
  · intro d hd
    by_cases he : d = c
    · subst he
      exact hfree (by simpa [Dvm.setState] using hd)
    · exact h.free d (by simpa [Dvm.setState, he] using hd)

lemma wait (hc : s.state c = .waiting) :
    Consistent (s.queueEnqueue c .getDataWaitQueue) := by
  have hu := queueEnqueue_unlocked s c .getDataWaitQueue
  have hsame := queueEnqueue_same s c .getDataWaitQueue
  refine ⟨h.linked.enqueue hl, ?_, ?_, ?_⟩
  · intro d
    rw [hu.state, mem_enqueue]
    simpa using h.ready d
  · intro d hd
    rw [hsame.runningContext] at hd
    rw [hu.state, mem_enqueue]
    simpa using h.running d hd
  · intro d hd
    rw [hu.state] at hd
    rw [queue_enqueue, if_neg]
    · exact h.free d hd
    · rintro ⟨-, rfl⟩
      rw [hc] at hd
      rcases hd with hd | hd <;> cases hd

lemma withdraw : Consistent ((s.leaveQueue c).setState c .halt) := by
  refine ⟨h.linked.leave.setState hl .halt, ?_, ?_, ?_⟩
  · intro d
    change d ∈ (s.leaveQueue c).queues .runQueue ↔ update s.state c .halt d = .ready
    rw [h.linked.mem_leave]
    by_cases hd : d = c
    · simp [hd]
    · simpa [hd] using h.ready d
  · intro d hd
    refine ⟨?_, fun hm => (h.running d hd).2 (h.linked.mem_leave.mp hm).1⟩
    by_cases he : d = c
    · simp [Dvm.setState, he]
    · simpa [Dvm.setState, he, leaveQueue] using (h.running d hd).1
  · intro d hd
    by_cases he : d = c
    · simp [Dvm.setState, leaveQueue, he]
    · simpa [Dvm.setState, leaveQueue, he] using
        h.free d (by simpa [Dvm.setState, leaveQueue, he] using hd)

lemma begin (hr : s.runningContext ≠ some c) (data : Option Slot) :
    Consistent (s.begin c data ok) := by
  have hi : Consistent (s.initializeContext c) := by
    have hw := h.withdraw hl
    exact ⟨h.linked.initialized hl, hw.ready, hw.running, hw.free⟩
  have hst : (s.initializeContext c).state c ≠ .ready := by simp [initializeContext]
  have hq : (s.initializeContext c).queue c = none := by simp [initializeContext, leaveQueue]
  cases data with
  | none => exact hi.resume hl hq hr
  | some v =>
    have hset : ∀ m, Consistent ((s.initializeContext c).settle c m) := by
      intro m
      rw [settle_eq]
      split
      · exact (hi.quiet (calm_quiet m)).setState hl hst .halt (by decide) (fun _ => hq)
      · exact hi.quiet (calm_quiet m)
    exact (hset _).resume hl hq hr

end

lemma examine (hq : s.queues .readyQueue = c :: rest) :
    Consistent ((s.dequeued c .readyQueue rest).resumeContext c ok) := by
  have hmem : c ∈ s.queues .readyQueue := by simp [hq]
  have hl : s.loaded c = true := h.linked.loaded_of_mem hmem
  refine (h.dequeued hq (by decide)).resume hl (by simp [Dvm.dequeued]) ?_
  exact fun hr => (h.running c hr).2 hmem

lemma yield : Consistent (s.yieldContext c ok) := by
  have hr : Consistent (s.releaseLocks c) :=
    ⟨⟨h.linked.queue, h.linked.nodup, h.linked.absent⟩, h.ready, h.running, h.free⟩
  exact examine_induct (fun _ _ _ hq hu => hu.examine hq) _ _ _ hr

lemma halt (hrun : s.state c ≠ .halt) : Consistent (s.haltContext c ok) := by
  have hl : s.loaded c = true := h.linked.loaded_of_state hrun
  have hr : Consistent (s.releaseAllLocks c) :=
    ⟨⟨h.linked.queue, h.linked.nodup, h.linked.absent⟩, h.ready, h.running, h.free⟩
  have hly : ((s.releaseAllLocks c).yieldContext c ok).loaded c = true := by
    rw [(yieldContext_same _ c ok).loaded]
    exact hl
  rw [haltContext_eq hrun]
  exact hr.yield.withdraw hly

lemma load (script : Script) : Consistent (s.loaderDataAvailable c script ok) := by
  have hspec := rebooted_spec h.linked c script ok
  have hcon : Consistent (s.rebooted c script ok) := by
    refine ⟨hspec.linked, ?_, ?_, ?_⟩
    · simp [hspec.cleared.queues, hspec.state]
    · intro d hd
      rw [hspec.cleared.runningContext] at hd
      cases hd
    · intro d hd
      simp [hspec.state] at hd
  unfold loaderDataAvailable
  dsimp only
  split
  · rename_i hl
    refine hcon.begin hl ?_ none
    rw [hspec.cleared.runningContext]
    exact nofun
  · exact hcon

lemma move (hm : Move steady s t) : Consistent t := by
  have hlinked : Linked t := h.linked.move hm
  have hrunning : ∀ {c}, Running s c →
      s.loaded c = true ∧ s.state c ≠ .ready ∧ s.queue c = none := fun {c} hr =>
    ⟨h.linked.loaded_of_state (by rw [hr.2]; decide), by rw [hr.2]; decide, h.free c (.inl hr.2)⟩
  have hmem : ∀ {c rest}, s.queues .getDataWaitQueue = c :: rest →
      s.loaded c = true ∧ s.state c ≠ .ready := fun {c rest} hq => by
    have hc : c ∈ s.queues .getDataWaitQueue := by simp [hq]
    exact ⟨h.linked.loaded_of_mem hc, h.not_ready hc (by decide)⟩
  cases hm with
  | quiet hq => exact h.quiet hq
  | release => exact ⟨hlinked, h.ready, fun _ hc => (by cases hc), h.free⟩
  | begin c data ok hl hg => exact h.begin hl hg data
  | deliver c m ok he hg =>
    have hl := h.linked.loaded_of_executing he
    have hst : s.state c ≠ .ready := by
      rw [hg.1]
      decide
    have hq := h.free c (.inr hg.1)
    have hset : Consistent (s.settle c m) := by
      rw [settle_eq]
      split
      · exact (h.quiet (calm_quiet m)).setState hl hst .halt (by decide) (fun _ => hq)
      · exact h.quiet (calm_quiet m)
    exact hset.resume hl hq hg.2
  | answered => exact ⟨hlinked, h.ready, h.running, h.free⟩
  | asking c _ => exact ⟨hlinked, h.ready, h.running, h.free⟩
  | park c hr =>
    obtain ⟨hl, hst, hq⟩ := hrunning hr
    refine (h.setState hl hst .waiting (by decide) (fun _ => hq)).wait hl ?_
    simp [Dvm.setState]
  | block c ok hr =>
    obtain ⟨hl, hst, hq⟩ := hrunning hr
    exact (h.setState hl hst .blocked (by decide) (fun _ => hq)).yield
  | ask c rest ok hq =>
    obtain ⟨hl, hst⟩ := hmem hq
    refine ((h.dequeued hq (by decide)).setState hl hst .blocked (by decide) (fun _ => ?_)).yield
    simp [Dvm.dequeued]
  | askAgain c rest hq =>
    obtain ⟨hl, hst⟩ := hmem hq
    refine ((h.dequeued hq (by decide)).setState hl hst .waiting (by decide)
      (fun _ => ?_)).wait hl ?_
    · simp [Dvm.dequeued]
    · simp [Dvm.setState]
  | fail c hr _ =>
    obtain ⟨hl, hst, hq⟩ := hrunning hr
    exact h.setState hl hst .halt (by decide) (fun _ => hq)
  | retry c ok _ hg _ => exact hg.elim
  | halt c ok hr => exact h.halt (by rw [hr.2]; decide)
  | expire c hr =>
    obtain ⟨-, hst, hq⟩ := hrunning hr
    have hu := queueEnqueue_unlocked (s.setState c .ready) c .runQueue
    refine ⟨hlinked, ?_, fun _ hc => (by cases hc), ?_⟩
    · intro d
      rw [hu.state, mem_enqueue]
      change d ∈ s.queues .runQueue ∨ (s.queue c = none ∧ d = c ∧ _) ↔
        update s.state c .ready d = .ready
      by_cases he : d = c
      · simp [he, hq]
      · simpa [he] using h.ready d
    · intro d hd
      rw [hu.state] at hd
      have hne : d ≠ c := by
        rintro rfl
        simp [Dvm.setState] at hd
      rw [queue_enqueue, if_neg (fun e => hne e.2)]
      exact h.free d (by simpa [Dvm.setState, hne] using hd)
  | pick c rest hq _ =>
    have hm := fun p d => h.linked.mem_dequeued (p := p) (d := d) hq
    refine ⟨hlinked, ?_, ?_, ?_⟩
    · intro d
      by_cases he : d = c
      · subst he
        simpa [Dvm.setState] using (hm .runQueue d).not.mpr (by simp)
      · simpa [Dvm.setState, he, Dvm.dequeued] using
          ((hm .runQueue d).trans (by simp [he])).trans (h.ready d)
    · rintro d ⟨⟩
      refine ⟨by simp [Dvm.setState], fun hd => ?_⟩
      exact ((hm .readyQueue c).mp hd).2 rfl
    · intro d hd
      by_cases he : d = c
      · simp [Dvm.setState, Dvm.dequeued, he]
      · have hold := h.free d
          (by simpa [Dvm.setState, Dvm.dequeued, he] using hd)
        simpa [Dvm.setState, Dvm.dequeued, he] using hold
  | reboot con lib hg =>
    refine ⟨hlinked, ?_, fun _ hc => (by cases hc), h.free⟩
    intro d
    have hd := h.ready d
    rw [hg] at hd
    exact ⟨fun hc => (by cases hc), fun hst => hd.mpr hst⟩
  | load c script ok _ => exact h.load script

end

end Consistent

lemma initial_consistent (base : BitVec 16) (entries : ℕ → ℕ → BitVec 8) :
    Consistent (initial base entries) := by
  refine ⟨⟨nofun, fun _ => List.nodup_nil, fun c _ => ⟨rfl, rfl, nofun⟩⟩, ?_, nofun, ?_⟩
  · exact fun c => ⟨nofun, nofun⟩
  · rintro c (h | h) <;> cases h

def Posted (s : Dvm) : Prop := s.taskRunning = true → 0 < s.runTasks

/-- What happens besides the scheduling proper: nobody gets the processor, and every task that is
announced gets a message. -/
structure Orderly (s t : Dvm) : Prop where
  run : ∀ c, t.state c = .run → s.state c = .run
  posted : Posted s → Posted t

lemma Orderly.refl (s : Dvm) : Orderly s s := ⟨fun _ => id, id⟩

lemma Orderly.trans (h : Orderly s t) (k : Orderly t u) : Orderly s u :=
  ⟨fun c hc => h.run c (k.run c hc), fun hp => k.posted (h.posted hp)⟩

lemma setState_orderly (s : Dvm) (c : Id) (st : Status) (h : st ≠ .run) :
    Orderly s (s.setState c st) := by
  refine ⟨fun d hd => ?_, fun hp => hp⟩
  simp only [setState, update_apply] at hd
  split at hd
  · exact absurd hd h
  · exact hd

lemma queueEnqueue_orderly (s : Dvm) (c : Id) (q : QueueId) : Orderly s (s.queueEnqueue c q) := by
  unfold queueEnqueue
  split
  · exact Orderly.refl s
  · exact ⟨fun _ hd => hd, fun hp => hp⟩

lemma executeContext_posted (h : Posted s) : Posted (s.executeContext c true) := by
  unfold executeContext
  dsimp only
  split
  · exact (queueEnqueue_orderly s c .runQueue).posted h
  · exact fun _ => Nat.succ_pos _

section

variable (s c)

lemma resumeContext_orderly : Orderly s (s.resumeContext c true) := by
  refine ⟨fun d hd => ?_, fun hp => ?_⟩
  · rw [resumeContext_state, update_apply] at hd
    split at hd
    · split at hd <;> cases hd
    · exact hd
  · cases hr : s.isRunnable c with
    | true =>
      rw [resumeContext_runnable hr]
      exact executeContext_posted
        (s := ((s.setState c .waiting).obtainLocks c).setState c .ready) hp
    | false =>
      rw [resumeContext_waiting hr]
      exact (queueEnqueue_orderly (s.setState c .waiting) c .readyQueue).posted hp

lemma yieldContext_orderly : Orderly s (s.yieldContext c true) := by
  have hstep : ∀ (u : Dvm) current rest, u.queues .readyQueue = current :: rest → Orderly s u →
      Orderly s ((u.dequeued current .readyQueue rest).resumeContext current true) := by
    intro u current rest _ hu
    have hd : Orderly u (u.dequeued current .readyQueue rest) := ⟨fun _ => id, id⟩
    exact (hu.trans hd).trans (resumeContext_orderly _ current)
  exact examine_induct hstep _ _ (s.releaseLocks c) ⟨fun _ => id, id⟩

lemma haltContext_orderly : Orderly s (s.haltContext c true) := by
  have hr : Orderly s (s.releaseAllLocks c) := ⟨fun _ => id, id⟩
  refine (hr.trans (yieldContext_orderly _ c)).trans ?_
  unfold haltContext
  dsimp only
  split
  · exact setState_orderly _ c .halt nofun
  · refine Orderly.trans ?_ (setState_orderly _ c .halt nofun)
    exact ⟨fun _ => id, id⟩

lemma settle_orderly (m : Machine) : Orderly s (s.settle c m) := by
  rw [settle_eq]
  have hc : Orderly s (calm s c m) := ⟨fun _ => id, id⟩
  split
  · exact hc.trans (setState_orderly _ c .halt nofun)
  · exact hc

lemma begin_orderly (data : Option Slot) : Orderly s (s.begin c data true) := by
  have hi : Orderly s (s.initializeContext c) := by
    have hl : Orderly s (s.leaveQueue c) := ⟨fun _ => id, id⟩
    have hst := hl.trans (setState_orderly _ c .halt nofun)
    exact ⟨hst.run, hst.posted⟩
  have hp : Orderly s ((s.initializeContext c).pushData c data) := by
    cases data with
    | none => exact hi
    | some v => exact hi.trans (settle_orderly _ c _)
  exact hp.trans (resumeContext_orderly _ c)

end

variable {r : Reply} {ev : Event × Reply}

section

variable (s)

lemma tryget_orderly (c : Id) (hr : r.submitPost = true) : Orderly s (s.tryget c r) := by
  unfold tryget
  rw [hr]
  split
  · have he : Orderly s { s with busy := true, executing := some c } := ⟨fun _ => id, id⟩
    exact (he.trans (setState_orderly _ c .blocked nofun)).trans (yieldContext_orderly _ c)
  · exact (setState_orderly s c .waiting nofun).trans (queueEnqueue_orderly _ c .getDataWaitQueue)

lemma delivered_orderly (value : BitVec 16) : Orderly s (s.delivered value true) := by
  unfold delivered
  split
  · rename_i c _
    have hres := (settle_orderly s c (pushValue value typeInteger (s.machine c)).2).trans
      (resumeContext_orderly _ c)
    exact ⟨hres.run, hres.posted⟩
  · exact Orderly.refl s

lemma dataReady_orderly (hr : r.submitPost = true) (value : BitVec 16) :
    Orderly s (s.dataReady value r) := by
  have hb : Orderly s { s with busy := false } := ⟨fun _ => id, id⟩
  have hd := hb.trans (delivered_orderly { s with busy := false } value)
  unfold dataReady
  rw [hr]
  dsimp only
  split
  · exact hd
  · refine hd.trans (Orderly.trans ?_ (tryget_orderly _ _ hr))
    exact ⟨fun _ => id, id⟩

lemma eventHandlerDefault_orderly (sid type : ℕ) (data : Id → Option Slot) :
    Orderly s (s.eventHandlerDefault sid type data true) := by
  refine List.foldlRecOn (motive := fun (u : Dvm) => Orderly s u) _ _ (Orderly.refl s) ?_
  intro u hu c _
  unfold wake
  split
  · exact hu.trans (begin_orderly _ c (data c))
  · exact hu

lemma loaderDataAvailable_orderly (c : Id) (script : Script) :
    Orderly s (s.loaderDataAvailable c script true) := by
  have hc : Orderly s (cleared s c script) := by
    refine ⟨fun d hd => ?_, fun h => h⟩
    by_cases he : d = c
    · simp [cleared, engineReboot, initializeContext, he] at hd
    · simpa [cleared, engineReboot, initializeContext, install, he] using hd
  have hr : Orderly s (s.rebooted c script true) := by
    refine rebootContexts_induct (P := fun (u : Dvm) => Orderly s u) ?_ ?_ hc
    · exact fun u f hu => ⟨hu.run, hu.posted⟩
    · exact fun u d hu _ _ => hu.trans (haltContext_orderly _ d)
  unfold loaderDataAvailable
  dsimp only
  split
  · exact hr.trans (begin_orderly _ _ none)
  · exact hr

end

lemma computeNext_state : (s.computeNext c ok).state = s.state := by
  unfold computeNext
  split_ifs <;> rfl

lemma releaseProcessor_posted : Posted (s.releaseProcessor true) := fun _ => Nat.succ_pos _

lemma computeNext_posted (h : (s.computeNext c true).computing = false) :
    Posted (s.computeNext c true) := by
  unfold computeNext at h ⊢
  split_ifs with h1 h2
  · simp [h1] at h
  · exact fun _ => Nat.succ_pos _
  · exact releaseProcessor_posted

lemma computeInstruction_posted (hr : r.endPost = true)
    (h : (s.computeInstruction c r).computing = false) : Posted (s.computeInstruction c r) := by
  unfold computeInstruction at h ⊢
  rw [hr] at h ⊢
  split
  · exact fun _ => Nat.succ_pos _
  · rename_i hc
    rw [if_neg hc] at h
    exact computeNext_posted h

lemma expire_runQueue (h : d ∈ s.expire.queues .runQueue) :
    d ∈ s.queues .runQueue ∨ s.state d = .run := by
  unfold expire at h
  split at h
  · split at h
    · rename_i c _ hslice
      rcases mem_enqueue.mp h with h | ⟨-, rfl, -⟩
      · exact .inl h
      · exact .inr hslice.1
    · exact .inl h
  · exact .inl h

lemma expire_orderly : Orderly s s.expire := by
  unfold expire
  split
  · split
    · rename_i c _ _
      have h := (setState_orderly s c .ready nofun).trans (queueEnqueue_orderly _ c .runQueue)
      exact ⟨h.run, h.posted⟩
    · exact Orderly.refl s
  · exact Orderly.refl s

lemma pick_run (h : s.pick.state d = .run) : s.state d = .run ∨ d ∈ s.queues .runQueue := by
  unfold pick at h
  split at h
  · split at h
    · exact .inl h
    · rename_i c rest hq
      by_cases he : d = c
      · exact .inr (by simp [hq, he])
      · exact .inl (by simpa [setState, dequeued, he] using h)
  · exact .inl h

lemma opdone_posted (hr : r.endPost = true) (h : (s.opdone r).computing = false) :
    Posted (s.opdone r) := by
  unfold opdone at h ⊢
  split
  · exact nofun
  · rename_i hh
    rw [if_neg hh] at h
    dsimp only at h ⊢
    split
    · exact nofun
    · rename_i c hc
      simp only [hc] at h
      split
      · rename_i hst
        rw [if_pos hst] at h
        exact computeInstruction_posted hr h
      · rw [hr]
        exact releaseProcessor_posted

section

variable (hr : r.submitPost = true)
include hr

lemma computeInstruction_run
    (h : (s.computeInstruction c r).state d = .run) : s.state d = .run := by
  unfold computeInstruction at h
  split at h
  · rw [hr] at h
    exact (haltContext_orderly s c).run d h
  · rwa [computeNext_state] at h

lemma opdone_run (h : (s.opdone r).state d = .run) :
    s.state d = .run ∨ d ∈ s.queues .runQueue := by
  have hpicked : s.expire.pick.state d = .run → s.state d = .run ∨ d ∈ s.queues .runQueue := by
    intro hd
    rcases pick_run hd with hd | hd
    · exact .inl (expire_orderly.run d hd)
    · exact (expire_runQueue hd).symm
  unfold opdone at h
  split at h
  · exact .inl h
  · dsimp only at h
    split at h
    · exact hpicked h
    · split at h
      · exact hpicked (computeInstruction_run hr h)
      · exact hpicked h

lemma execute_run (hc : s.state c = .run) (he : s.execute c r = some t)
    (h : t.state d = .run) : s.state d = .run := by
  have hpc : ∀ n, Orderly s (s.setPc c n) := fun _ => ⟨fun _ => id, id⟩
  unfold execute at he
  rw [hr] at he
  split at he
  · cases he
    exact ((haltContext_orderly s c).trans (setState_orderly _ c .halt nofun)).run d h
  · cases he
    split at h
    · exact (((hpc _).trans (setState_orderly _ c .waiting nofun)).trans
        (queueEnqueue_orderly _ c .getDataWaitQueue)).run d h
    · exact ((hpc _).trans (tryget_orderly _ c hr)).run d h
  · cases he
    have hb := (hpc (((s.frame c).pc + 1) % 65536)).trans (setState_orderly _ c .blocked nofun)
    exact hb.run d ((yieldContext_orderly
      (((s.setPc c (((s.frame c).pc + 1) % 65536)).setState c .blocked).postRunTask r.nopPost)
      c).run d h)
  · split at he
    · cases he
    · cases he
      split at h
      · exact (settle_orderly s c _).run d h
      · -- the context had the processor before
        unfold retryPost at h
        rw [hr] at h
        by_cases hd : d = c
        · exact hd ▸ hc
        · have hres := ((settle_orderly s c (s.executed c r)).trans
            (yieldContext_orderly _ c)).trans (resumeContext_orderly _ c)
          exact hres.run d (by simpa [setState, hd] using h)
  · split at he
    · cases he
    · cases he
      exact (settle_orderly s c _).run d h

lemma instruction_run (hc : s.state c = .run)
    (he : s.instruction c r = some t) (h : t.state d = .run) : s.state d = .run := by
  unfold instruction at he
  obtain ⟨u, hu, rfl⟩ := map_eq_some_iff.mp he
  rw [computeNext_state] at h
  split at hu
  · cases hu
    exact h
  · exact execute_run (s := { s with
      numExecuted := update s.numExecuted c (s.numExecuted c + 1) }) hr hc hu h

end

lemma instruction_posted (hr : r.endPost = true) (he : s.instruction c r = some t)
    (h : t.computing = false) : Posted t := by
  unfold instruction at he
  obtain ⟨u, -, rfl⟩ := map_eq_some_iff.mp he
  rw [hr] at h ⊢
  exact computeNext_posted h

def Steady (s : Dvm) (ev : Event × Reply) : Prop :=
  Legal steady s ev ∧ ev.2.submitPost = true ∧ ev.2.endPost = true

lemma handle_orderly {ev : Event} (hsub : r.submitPost = true) (hend : r.endPost = true)
    (h : handle s r ev = some t) :
    (∀ d, t.state d = .run → s.state d = .run ∨ d ∈ s.queues .runQueue) ∧
    (Posted s → t.computing = false → Posted t) := by
  have horderly : ∀ u, Orderly s u →
      (∀ d, u.state d = .run → s.state d = .run ∨ d ∈ s.queues .runQueue) ∧
      (Posted s → u.computing = false → Posted u) :=
    fun u hu => ⟨fun d hd => .inl (hu.run d hd), fun hp _ => hu.posted hp⟩
  have hopdone : ∀ u : Dvm, u.state = s.state → u.queues = s.queues →
      (∀ d, (u.opdone r).state d = .run → s.state d = .run ∨ d ∈ s.queues .runQueue) ∧
      (Posted s → (u.opdone r).computing = false → Posted (u.opdone r)) := by
    intro u hst hq
    refine ⟨fun d hd => ?_, fun _ hc => opdone_posted hend hc⟩
    rw [← hst, ← hq]
    exact opdone_run hsub hd
  cases ev with
  | instruction => cases h
  | runTask =>
    simp only [handle] at h
    split at h
    · cases h
    · cases h
      exact hopdone _ rfl rfl
  | halt =>
    cases h
    exact horderly _ ⟨fun _ => id, id⟩
  | resume =>
    cases h
    split
    · exact horderly _ ⟨fun _ => id, id⟩
    · exact hopdone _ rfl rfl
  | timeout id =>
    simp only [handle, hsub] at h
    split at h
    · cases h
      unfold timeout
      split
      · exact horderly _ (begin_orderly s _ none)
      · exact horderly _ (Orderly.refl s)
    · cases h
  | userEvent sid type data =>
    simp only [handle, hsub] at h
    cases h
    exact horderly _ (eventHandlerDefault_orderly s sid type data)
  | dataReady value =>
    cases h
    exact horderly _ (dataReady_orderly s hsub value)
  | addLibrary lib =>
    cases h
    exact horderly _ ⟨fun _ => id, id⟩
  | removeLibrary lib =>
    cases h
    exact horderly _ ⟨fun _ => id, id⟩
  | load c script =>
    simp only [handle, hsub] at h
    cases h
    exact horderly _ (loaderDataAvailable_orderly s c script)

lemma step_run (h : Consistent s) (hc : Computing s) (hl : Steady s ev) (hs : step s ev = some t)
    (hd : t.state d = .run) : s.state d = .run ∨ s.state d = .ready := by
  unfold step at hs
  split at hs
  · rename_i hcomp
    obtain ⟨c, hrun⟩ := hc hcomp
    split at hs
    · rename_i e _ he
      have : e = c := some.inj (he.symm.trans hrun.1)
      subst this
      exact .inl (instruction_run hl.2.1 hrun.2 hs hd)
    · cases hs
  · exact ((handle_orderly hl.2.1 hl.2.2 hs).1 d hd).imp_right (h.ready d).mp

lemma step_posted (h : s.computing = false → Posted s) (hl : Steady s ev)
    (hs : step s ev = some t) (hc : t.computing = false) : Posted t := by
  unfold step at hs
  split at hs
  · split at hs
    · exact instruction_posted hl.2.2 hs hc
    · cases hs
  · rename_i hidle
    exact (handle_orderly hl.2.1 hl.2.2 hs).2 (h (by simpa using hidle)) hc

structure Scheduled (s : Dvm) : Prop where
  consistent : Consistent s
  computing : Computing s
  posted : s.computing = false → Posted s

lemma Scheduled.step (h : Scheduled s) (hl : Steady s ev) (hs : step s ev = some t) : Scheduled t :=
  ⟨step_keeps (fun _ _ h hm => h.move hm) h.consistent h.computing hl.1 hs, step_computing hs,
    step_posted h.posted hl hs⟩

lemma initial_scheduled (base : BitVec 16) (entries : ℕ → ℕ → BitVec 8) :
    Scheduled (initial base entries) :=
  ⟨initial_consistent base entries, nofun, fun _ => nofun⟩

lemma ready_before_running {es : List (Event × Reply)} (h : Scheduled s)
    (hv : ValidTrace step Steady s es) (hrun : runTrace step s es = some u)
    (hs : s.state c ≠ .run) (hu : u.state c = .run) :
    ∃ before after v, es = before ++ after ∧ runTrace step s before = some v ∧
      v.state c = .ready := by
  induction es generalizing s with
  | nil =>
    cases hrun
    exact absurd hu hs
  | cons e es ih =>
    obtain ⟨v, hv', hrest⟩ := bind_eq_some_iff.mp hrun
    by_cases hready : s.state c = .ready
    · exact ⟨[], e :: es, s, rfl, rfl, hready⟩
    · have hnot : v.state c ≠ .run := fun hc =>
        (step_run h.consistent h.computing hv.1 hv' hc).elim hs hready
      have hvalid : ValidTrace step Steady v es := by simpa [ValidTrace, hv'] using hv.2
      obtain ⟨before, after, w, rfl, hw, hst⟩ := ih (h.step hv.1 hv') hvalid hrest hnot
      exact ⟨e :: before, after, w, rfl, by simp [runTrace, hv', hw], hst⟩

/-- In every run exactly the contexts that are ready are in the run queue, each once; the running
context is not in it; a message for an announced task is pending while no message is handled; and
a context that is blocked or waits executes an instruction only after it was ready. -/
theorem scheduler_consistent_over_runs (base : BitVec 16) (entries : ℕ → ℕ → BitVec 8)
    (es : List (Event × Reply)) (s : Dvm)
    (hv : ValidTrace step Steady (initial base entries) es)
    (hrun : runTrace step (initial base entries) es = some s) :
    (∀ c, c ∈ s.queues .runQueue ↔ s.state c = .ready) ∧ (s.queues .runQueue).Nodup ∧
    (∀ c, s.runningContext = some c → c ∉ s.queues .runQueue) ∧
    (s.computing = false → s.taskRunning = true → s.queues .runQueue ≠ [] → s.halted = false →
      s.inErrorState = false → 0 < s.runTasks) ∧
    ∀ c later u, s.state c = .blocked ∨ s.state c = .waiting → ValidTrace step Steady s later →
      runTrace step s later = some u → u.computing = true ∧ u.runningContext = some c →
      ∃ before after v, later = before ++ after ∧ runTrace step s before = some v ∧
        v.state c = .ready := by
  have hinv : ∀ s ev t, Scheduled s → Steady s ev → step s ev = some t → Scheduled t :=
    fun _ _ _ h hl hs => h.step hl hs
  have h : Scheduled s := run_invariant_of_some hinv (initial_scheduled base entries) hv hrun
  refine ⟨h.consistent.ready, h.consistent.linked.nodup .runQueue, ?_, ?_, ?_⟩
  · intro c hc hm
    exact (h.consistent.running c hc).1 ((h.consistent.ready c).mp hm)
  · exact fun hc ht _ _ _ => h.posted hc ht
  · intro c later u hpark hvl hrl hu
    have hend : Scheduled u := run_invariant_of_some hinv h hvl hrl
    obtain ⟨d, hd, hrunning⟩ := hend.computing hu.1
    have hdc : d = c := some.inj (hd.symm.trans hu.2)
    refine ready_before_running h hvl hrl ?_ (hdc ▸ hrunning)
    rcases hpark with hst | hst <;> rw [hst] <;> exact nofun

instance : Decidable (steady.begin s c) := inferInstanceAs (Decidable (s.runningContext ≠ some c))

instance : Decidable (steady.deliver s c) :=
  inferInstanceAs (Decidable (s.state c = .blocked ∧ s.runningContext ≠ some c))

instance : Decidable (steady.fail s c) := inferInstanceAs (Decidable True)

instance : Decidable (steady.retry s c) := inferInstanceAs (Decidable False)

instance : Decidable (steady.reboot s) := inferInstanceAs (Decidable (s.queues .runQueue = []))

instance : Decidable (steady.load s) := inferInstanceAs (Decidable True)

instance (ev : Event × Reply) : Decidable (Steady s ev) := inferInstanceAs (Decidable (_ ∧ _ ∧ _))

def asksSensor : List (Event × Reply) :=
  [(.load 1 (timerScript [35, 0]), smooth), (.timeout 1, smooth), (.runTask, smooth),
    (.instruction, smooth)]

def getsData : List (Event × Reply) := [(.dataReady 7, smooth), (.runTask, smooth)]

theorem scheduler_consistent_sample :
    ∃ s u, runTrace step booted asksSensor = some s ∧ s.state 1 = .blocked ∧
      runTrace step s getsData = some u ∧ u.runningContext = some 1 ∧
      ∃ before after v, getsData = before ++ after ∧ runTrace step s before = some v ∧
        v.state 1 = .ready := by
  obtain ⟨s, hrun, hstate, hvalid, u, hu, hrunning⟩ : ∃ s, runTrace step booted asksSensor =
        some s ∧ s.state 1 = .blocked ∧ ValidTrace step Steady s getsData ∧
      ∃ u, runTrace step s getsData = some u ∧
        u.computing = true ∧ u.runningContext = some 1 := by decide +kernel
  have h := scheduler_consistent_over_runs 4096 (fun _ _ => 0) asksSensor s (by decide +kernel) hrun
  exact ⟨s, u, hrun, hstate, hu, hrunning.2,
    h.2.2.2.2 1 getsData u (.inl hstate) hvalid hu hrunning⟩

def postingScript : Script := timerScript [1, 1, 14, 0, 0, 35, 0]

/-- The message for the task is lost: the script waits for it for ever. Or `OP_POST` fails: the
script stays in the run queue when it tries again, and later runs on while it is blocked and waits
for the sensor. -/
theorem failing_post_breaks_schedule :
    (runTrace step booted [(.load 1 (timerScript [35, 0]), smooth),
      (.timeout 1, { smooth with submitPost := false })]).elim False
      (fun s => s.taskRunning = true ∧ s.queues .runQueue = [1] ∧ s.halted = false ∧
        s.inErrorState = false ∧ s.runTasks = 0) ∧
    (runTrace step booted [(.load 1 postingScript, smooth), (.timeout 1, smooth),
      (.runTask, smooth), (.instruction, smooth), (.instruction, { smooth with posted := false }),
      (.instruction, smooth), (.instruction, smooth)]).elim False
      (fun s => s.computing = false ∧ s.state 1 = .blocked ∧ s.queues .runQueue = [1] ∧
        (step s (.runTask, smooth)).elim False
          (fun u => u.computing = true ∧ u.runningContext = some 1)) := by
  decide +kernel

end DvmScheduling
