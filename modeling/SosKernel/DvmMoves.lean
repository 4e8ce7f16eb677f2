import SosKernel.DvmMachine

/-! # The moves of the virtual machine

Every step of the machine is a chain of moves: a context starts, gets its data, blocks, fails,
halts, loses or gets the processor. -/
namespace DvmMoves

open DvmMachine DvmMachine.Dvm DvmInterpreter GuardedRuns Function List

variable {s t u : Dvm} {c d : Id} {ok : Bool} {ev : Event × Reply}

structure Same (s t : Dvm) : Prop where
  loaded : t.loaded = s.loaded
  script : t.script = s.script
  frame : t.frame = s.frame
  shared : t.shared = s.shared
  usedVars : t.usedVars = s.usedVars
  runningContext : t.runningContext = s.runningContext
  conLibraries : t.conLibraries = s.conLibraries
  libraries : t.libraries = s.libraries
  inErrorState : t.inErrorState = s.inErrorState
  halted : t.halted = s.halted
  busy : t.busy = s.busy
  executing : t.executing = s.executing
  computing : t.computing = s.computing

lemma Same.refl (s : Dvm) : Same s s := by constructor <;> rfl

lemma Same.trans (h : Same s t) (k : Same t u) : Same s u :=
  ⟨k.loaded.trans h.loaded, k.script.trans h.script, k.frame.trans h.frame,
    k.shared.trans h.shared, k.usedVars.trans h.usedVars,
    k.runningContext.trans h.runningContext, k.conLibraries.trans h.conLibraries,
    k.libraries.trans h.libraries, k.inErrorState.trans h.inErrorState,
    k.halted.trans h.halted, k.busy.trans h.busy, k.executing.trans h.executing,
    k.computing.trans h.computing⟩

lemma queueEnqueue_same (s : Dvm) (c : Id) (q : QueueId) : Same s (s.queueEnqueue c q) := by
  unfold queueEnqueue
  split
  · exact Same.refl s
  · constructor <;> rfl

section

variable (s c ok)

lemma executeContext_same : Same s (s.executeContext c ok) := by
  have hq := queueEnqueue_same s c .runQueue
  unfold executeContext
  dsimp only
  split
  · exact hq
  · exact hq.trans (by constructor <;> rfl)

lemma resumeContext_same : Same s (s.resumeContext c ok) := by
  unfold resumeContext
  dsimp only
  split
  · obtain ⟨h1, h2, h3, h4, h5, h6, h7, h8, h9, h10, h11, h12, h13⟩ :=
      executeContext_same (((s.setState c .waiting).obtainLocks c).setState c .ready) c ok
    exact ⟨h1, h2, h3, h4, h5, h6, h7, h8, h9, h10, h11, h12, h13⟩
  · have hw : Same s (s.setState c .waiting) := by constructor <;> rfl
    exact hw.trans (queueEnqueue_same _ c .readyQueue)

end

lemma examine_induct {P : Dvm → Prop}
    (hstep : ∀ s current rest, s.queues .readyQueue = current :: rest → P s →
      P ((s.dequeued current .readyQueue rest).resumeContext current ok))
    (fuel : ℕ) (start : Option Id) (s : Dvm) (h : P s) : P (examine ok fuel start s) := by
  induction fuel generalizing start s with
  | zero => exact h
  | succ fuel ih =>
    unfold examine
    split
    · exact h
    · rename_i current rest hq
      have hu := hstep s current rest hq h
      split_ifs
      · exact ih _ _ hu
      · exact ih _ _ hu
      · exact hu
      · exact ih _ _ hu

section

variable (s c ok)

lemma yieldContext_same : Same s (s.yieldContext c ok) := by
  have hstep : ∀ t current rest, t.queues .readyQueue = current :: rest → Same s t →
      Same s ((t.dequeued current .readyQueue rest).resumeContext current ok) := by
    intro t current rest _ h
    have hd : Same t (t.dequeued current .readyQueue rest) := by constructor <;> rfl
    exact (h.trans hd).trans (resumeContext_same _ current ok)
  have hr : Same s (s.releaseLocks c) := by constructor <;> rfl
  exact examine_induct hstep _ _ _ hr

lemma haltContext_same : Same s (s.haltContext c ok) := by
  have hr : Same s (s.releaseAllLocks c) := by constructor <;> rfl
  refine (hr.trans (yieldContext_same _ c ok)).trans ?_
  unfold haltContext
  dsimp only
  split <;> constructor <;> rfl

end

lemma isRunnable_iff : s.isRunnable c = true ↔ ∀ i ∈ s.acquireSet c, s.holder i = none := by
  simp [isRunnable]

structure Unlocked (s t : Dvm) : Prop where
  state : t.state = s.state
  heldSet : t.heldSet = s.heldSet
  releaseSet : t.releaseSet = s.releaseSet
  acquireSet : t.acquireSet = s.acquireSet
  holder : t.holder = s.holder

lemma queueEnqueue_unlocked (s : Dvm) (c : Id) (q : QueueId) : Unlocked s (s.queueEnqueue c q) := by
  unfold queueEnqueue
  split <;> exact ⟨rfl, rfl, rfl, rfl, rfl⟩

section

variable (s c ok)

lemma executeContext_unlocked : Unlocked s (s.executeContext c ok) := by
  obtain ⟨h1, h2, h3, h4, h5⟩ := queueEnqueue_unlocked s c .runQueue
  unfold executeContext
  dsimp only
  split <;> exact ⟨h1, h2, h3, h4, h5⟩

lemma executeContext_queues : (s.executeContext c ok).queues = (s.queueEnqueue c .runQueue).queues ∧
    (s.executeContext c ok).queue = (s.queueEnqueue c .runQueue).queue := by
  unfold executeContext
  dsimp only
  split <;> exact ⟨rfl, rfl⟩

end

lemma resumeContext_runnable (h : s.isRunnable c = true) :
    s.resumeContext c ok = (s.setState c .waiting).started c ok := by
  have hw : (s.setState c .waiting).isRunnable c = true := h
  simp only [resumeContext, hw, if_true]

lemma resumeContext_waiting (h : s.isRunnable c = false) :
    s.resumeContext c ok = (s.setState c .waiting).queueEnqueue c .readyQueue := by
  have hw : (s.setState c .waiting).isRunnable c = false := h
  simp only [resumeContext, hw, Bool.false_eq_true, if_false]

structure Started (s t : Dvm) (c : Id) : Prop where
  state : t.state = update s.state c .ready
  heldSet : t.heldSet = update s.heldSet c (s.heldSet c ∪ s.acquireSet c)
  releaseSet : t.releaseSet = s.releaseSet
  acquireSet : t.acquireSet = update s.acquireSet c ∅
  holder : ∀ i, t.holder i = if i ∈ s.acquireSet c then some c else s.holder i
  queue : t.queue = (s.queueEnqueue c .runQueue).queue
  queues : t.queues = (s.queueEnqueue c .runQueue).queues

structure Waited (s t : Dvm) (c : Id) : Prop where
  state : t.state = update s.state c .waiting
  heldSet : t.heldSet = s.heldSet
  releaseSet : t.releaseSet = s.releaseSet
  acquireSet : t.acquireSet = s.acquireSet
  holder : t.holder = s.holder
  queue : t.queue = (s.queueEnqueue c .readyQueue).queue
  queues : t.queues = (s.queueEnqueue c .readyQueue).queues

lemma queueEnqueue_congr (hq : t.queue = s.queue) (hqs : t.queues = s.queues) (q : QueueId) :
    (t.queueEnqueue c q).queue = (s.queueEnqueue c q).queue ∧
    (t.queueEnqueue c q).queues = (s.queueEnqueue c q).queues := by
  unfold queueEnqueue
  rw [hq]
  split
  · exact ⟨hq, hqs⟩
  · rw [hqs]
    exact ⟨rfl, rfl⟩

lemma started_spec (h : s.isRunnable c = true) (ok : Bool) :
    Started s (s.resumeContext c ok) c := by
  rw [resumeContext_runnable h]
  set t := ((s.setState c .waiting).obtainLocks c).setState c .ready with ht
  have hu := executeContext_unlocked t c ok
  have hq := executeContext_queues t c ok
  have hc : _ := queueEnqueue_congr (s := s) (t := t) (c := c) rfl rfl .runQueue
  refine ⟨?_, hu.heldSet, hu.releaseSet, hu.acquireSet, fun i => congrFun hu.holder i,
    hq.2.trans hc.1, hq.1.trans hc.2⟩
  refine hu.state.trans ?_
  simp [ht, setState, obtainLocks]

lemma waited_spec (h : s.isRunnable c = false) (ok : Bool) : Waited s (s.resumeContext c ok) c := by
  rw [resumeContext_waiting h]
  have hu := queueEnqueue_unlocked (s.setState c .waiting) c .readyQueue
  have hc : _ := queueEnqueue_congr (s := s) (t := s.setState c .waiting) (c := c) rfl rfl
    .readyQueue
  exact ⟨hu.state, hu.heldSet, hu.releaseSet, hu.acquireSet, hu.holder, hc.1, hc.2⟩

lemma resumeContext_state : (s.resumeContext c ok).state =
    update s.state c (if s.isRunnable c then .ready else .waiting) := by
  cases h : s.isRunnable c with
  | true => exact (started_spec h _).state
  | false => exact (waited_spec h _).state

def Quiet (s t : Dvm) : Prop :=
  t = { s with
    numExecuted := t.numExecuted, frame := t.frame, shared := t.shared
    conLibraries := t.conLibraries, libraries := t.libraries, inErrorState := t.inErrorState
    taskRunning := t.taskRunning, halted := t.halted, busy := t.busy, runTasks := t.runTasks
    computing := t.computing }

def Running (s : Dvm) (c : Id) : Prop := s.runningContext = some c ∧ s.state c = .run

structure Guard where
  begin : Dvm → Id → Prop
  deliver : Dvm → Id → Prop
  fail : Dvm → Id → Prop
  retry : Dvm → Id → Prop
  reboot : Dvm → Prop
  load : Dvm → Prop
  begin_other : ∀ {s c d} data ok, c ≠ d → begin s c → begin (s.begin d data ok) c
  deliver_quiet : ∀ {s t c}, Quiet s t → deliver s c → deliver t c
  fail_quiet : ∀ {s t c}, Quiet s t → fail s c → fail t c
  retry_quiet : ∀ {s t c}, Quiet s t → retry s c → retry t c

inductive Move (G : Guard) (s : Dvm) : Dvm → Prop where
  | quiet {u : Dvm} (h : Quiet s u) : Move G s u
  | release : Move G s { s with runningContext := none }
  | begin (c : Id) (data : Option Slot) (ok : Bool) (hl : s.loaded c = true) (h : G.begin s c) :
    Move G s (s.begin c data ok)
  | deliver (c : Id) (m : Machine) (ok : Bool) (he : s.executing = some c) (h : G.deliver s c) :
    Move G s ((s.settle c m).resumeContext c ok)
  | answered : Move G s { s with executing := none }
  | asking (c : Id) (h : Running s c ∨ c ∈ s.queues .getDataWaitQueue) :
    Move G s { s with executing := some c }
  | park (c : Id) (h : Running s c) :
    Move G s ((s.setState c .waiting).queueEnqueue c .getDataWaitQueue)
  | block (c : Id) (ok : Bool) (h : Running s c) :
    Move G s ((s.setState c .blocked).yieldContext c ok)
  | ask (c : Id) (rest : List Id) (ok : Bool) (h : s.queues .getDataWaitQueue = c :: rest) :
    Move G s (((s.dequeued c .getDataWaitQueue rest).setState c .blocked).yieldContext c ok)
  | askAgain (c : Id) (rest : List Id) (h : s.queues .getDataWaitQueue = c :: rest) :
    Move G s (((s.dequeued c .getDataWaitQueue rest).setState c .waiting).queueEnqueue c
      .getDataWaitQueue)
  | fail (c : Id) (h : Running s c) (hg : G.fail s c) : Move G s (s.setState c .halt)
  | retry (c : Id) (ok : Bool) {u : Dvm} (h : Running s c) (hg : G.retry s c)
    (hu : u = s ∨ G.fail s c ∧ u = s.setState c .halt) :
    Move G s (((u.yieldContext c ok).resumeContext c ok).setState c .run)
  | halt (c : Id) (ok : Bool) (h : Running s c) : Move G s (s.haltContext c ok)
  | expire (c : Id) (h : Running s c) :
    Move G s { (s.setState c .ready).queueEnqueue c .runQueue with runningContext := none }
  | pick (c : Id) (rest : List Id) (h : s.queues .runQueue = c :: rest)
    (hr : s.runningContext = none) :
    Move G s { (s.dequeued c .runQueue rest).setState c .run with runningContext := some c }
  | reboot (con lib : BitVec 8) (h : G.reboot s) :
    Move G s { s with conLibraries := con, libraries := lib }.engineReboot
  | load (c : Id) (script : Script) (ok : Bool) (h : G.load s) :
    Move G s (s.loaderDataAvailable c script ok)

abbrev Moves (G : Guard) : Dvm → Dvm → Prop := Relation.ReflTransGen (Move G)

variable {G : Guard}

def Legal (G : Guard) (s : Dvm) (ev : Event × Reply) : Prop :=
  match ev.1 with
  | .instruction => ∀ c, s.runningContext = some c →
      ((s.executed c ev.2).error = true → G.fail s c) ∧
      (decode (s.opcode c) = .post ∧ ev.2.posted = false → G.retry s c)
  | .timeout id => ∀ c : Id, c.val = id ∧ s.wakes c timerPid msgTimerTimeout = true → G.begin s c
  | .userEvent sid type _ => ∀ c, s.wakes c sid type = true ∧ s.state c = .halt → G.begin s c
  | .dataReady _ => ∀ c, s.executing = some c → G.deliver s c
  | .addLibrary _ => G.reboot s
  | .removeLibrary _ => G.reboot s
  | .load _ _ => G.load s
  | .runTask => True
  | .halt => True
  | .resume => True

instance [∀ s c, Decidable (G.begin s c)] [∀ s c, Decidable (G.deliver s c)]
    [∀ s c, Decidable (G.fail s c)] [∀ s c, Decidable (G.retry s c)]
    [∀ s, Decidable (G.reboot s)] [∀ s, Decidable (G.load s)] (s : Dvm) (ev : Event × Reply) :
    Decidable (Legal G s ev) := by
  obtain ⟨e, r⟩ := ev
  cases e <;> (dsimp only [Legal]; infer_instance)

def Computing (s : Dvm) : Prop := s.computing = true → ∃ c, Running s c

lemma quiet_moves (h : Quiet s t) : Moves G s t := .single (.quiet h)

lemma releaseProcessor_moves : Moves G s (s.releaseProcessor ok) := by
  have hq : Quiet s { s.postRunTask ok with taskRunning := s.taskRunning && ok } := rfl
  exact (quiet_moves hq).tail .release

lemma computeNext_moves : Moves G s (s.computeNext c ok) := by
  unfold computeNext
  split_ifs
  · exact quiet_moves rfl
  · exact quiet_moves rfl
  · have hq : Quiet s { s with computing := false } := rfl
    exact (quiet_moves hq).trans releaseProcessor_moves

lemma computeInstruction_moves (h : Running s c) (r : Reply) :
    Moves G s (s.computeInstruction c r) := by
  unfold computeInstruction
  split
  · have hm : Moves G s { s.haltContext c r.submitPost with runningContext := none } :=
      (Relation.ReflTransGen.single (.halt c r.submitPost h)).tail .release
    exact hm.trans (quiet_moves rfl)
  · exact computeNext_moves

lemma expire_moves : Moves G s s.expire := by
  unfold expire
  split
  · rename_i c hc
    split
    · rename_i h
      exact .single (.expire c ⟨hc, h.1⟩)
    · exact .refl
  · exact .refl

lemma pick_moves : Moves G s s.pick := by
  unfold pick
  split
  · rename_i h
    split
    · exact .refl
    · rename_i c rest hq
      have hm : Moves G s _ := .single (.pick c rest hq h.1)
      exact hm.trans (quiet_moves rfl)
  · exact .refl

lemma opdone_moves (r : Reply) : Moves G s (s.opdone r) := by
  unfold opdone
  split
  · exact quiet_moves rfl
  · refine (expire_moves.trans pick_moves).trans ?_
    dsimp only
    split
    · exact quiet_moves rfl
    · rename_i c hc
      split
      · rename_i hrun
        exact computeInstruction_moves ⟨hc, hrun⟩ r
      · exact releaseProcessor_moves

lemma haltContext_setState : (s.haltContext c ok).setState c .halt = s.haltContext c ok := by
  simp only [haltContext, setState, update_idem]

def calm (s : Dvm) (c : Id) (m : Machine) : Dvm :=
  { s with
    frame := update s.frame c m.frame
    shared := m.shared
    inErrorState := s.inErrorState || m.error }

lemma calm_quiet (m : Machine) : Quiet s (calm s c m) := rfl

lemma settle_eq (m : Machine) :
    s.settle c m = if m.error then (calm s c m).setState c .halt else calm s c m := by
  cases he : m.error <;> simp [settle, calm, setState, he]

lemma settle_moves (h : Running s c) (m : Machine) (hg : m.error = true → G.fail s c) :
    Moves G s (s.settle c m) := by
  rw [settle_eq]
  split
  · rename_i he
    exact (quiet_moves (calm_quiet m)).tail (.fail c h (G.fail_quiet (calm_quiet m) (hg he)))
  · exact quiet_moves (calm_quiet m)

lemma retryPost_moves (h : Running s c) (m : Machine) (r : Reply)
    (hf : m.error = true → G.fail s c) (hg : G.retry s c) :
    Moves G s ((s.settle c m).retryPost c r) := by
  have hq := calm_quiet (s := s) (c := c) m
  refine (quiet_moves hq).tail (.retry c r.submitPost h (G.retry_quiet hq hg) ?_)
  rw [settle_eq]
  split
  · rename_i he
    exact .inr ⟨G.fail_quiet hq (hf he), rfl⟩
  · exact .inl rfl

lemma tryget_moves (h : Running s c) (r : Reply) : Moves G s (s.tryget c r) := by
  unfold tryget
  split
  · have hq : Quiet s { s with busy := true } := rfl
    have hm : Moves G s { s with busy := true, executing := some c } :=
      (quiet_moves hq).tail (.asking c (.inl h))
    exact hm.tail (.block c r.submitPost h)
  · exact .single (.park c h)

section

variable (h : Running s c) (r : Reply) (hf : (s.executed c r).error = true → G.fail s c)
    (hg : decode (s.opcode c) = .post ∧ r.posted = false → G.retry s c)
include h r hf hg

lemma execute_moves (he : s.execute c r = some t) : Moves G s t := by
  unfold execute at he
  split at he
  · cases he
    rw [haltContext_setState]
    exact (Relation.ReflTransGen.single (.halt c r.submitPost h)).trans (quiet_moves rfl)
  · cases he
    have hq : Quiet s (s.setPc c (((s.frame c).pc + 1) % 65536)) := rfl
    have hrun : Running (s.setPc c (((s.frame c).pc + 1) % 65536)) c := h
    refine (quiet_moves hq).trans ?_
    split
    · exact .single (.park c hrun)
    · exact tryget_moves hrun r
  · cases he
    have hq : Quiet s ((s.setPc c (((s.frame c).pc + 1) % 65536)).postRunTask r.nopPost) := rfl
    exact (quiet_moves hq).tail (.block c r.submitPost h)
  · rename_i hop
    split at he
    · cases he
    · cases he
      split
      · exact settle_moves h _ hf
      · rename_i hp
        exact retryPost_moves h _ r hf (hg ⟨hop, by simpa using hp⟩)
  · split at he
    · cases he
    · cases he
      exact settle_moves h _ hf

lemma instruction_moves (he : s.instruction c r = some t) : Moves G s t := by
  unfold instruction at he
  obtain ⟨u, hu, rfl⟩ := Option.map_eq_some_iff.mp he
  refine Relation.ReflTransGen.trans ?_ computeNext_moves
  split at hu
  · cases hu
    exact quiet_moves rfl
  · have hq : Quiet s { s with
      numExecuted := update s.numExecuted c (s.numExecuted c + 1) } := rfl
    exact (quiet_moves hq).trans (execute_moves h r (fun e => G.fail_quiet hq (hf e))
      (fun e => G.retry_quiet hq (hg e)) hu)

end

lemma loaded_retried (h : s.loaded c = true) (ok : Bool) :
    (s.yieldContext c ok).loaded c = true ∧
      ((s.yieldContext c ok).resumeContext c ok).loaded c = true := by
  rw [(resumeContext_same _ c ok).loaded, (yieldContext_same s c ok).loaded]
  exact ⟨h, h⟩

lemma begin_same (s : Dvm) (c : Id) (data : Option Slot) (ok : Bool) :
    (s.begin c data ok).loaded = s.loaded ∧ (s.begin c data ok).script = s.script ∧
    (s.begin c data ok).runningContext = s.runningContext ∧
    (s.begin c data ok).computing = s.computing := by
  have h := resumeContext_same ((s.initializeContext c).pushData c data) c ok
  unfold Dvm.begin
  rw [h.loaded, h.script, h.runningContext, h.computing]
  cases data <;> exact ⟨rfl, rfl, rfl, rfl⟩

lemma begin_state (data : Option Slot) (h : d ≠ c) : (s.begin c data ok).state d = s.state d := by
  unfold Dvm.begin
  rw [resumeContext_state, update_of_ne h]
  cases data with
  | none => simp [pushData, initializeContext, h]
  | some v =>
    rw [pushData, settle_eq]
    split <;> simp [initializeContext, leaveQueue, calm, setState, h]

lemma begin_heldSet (data : Option Slot) (h : d ≠ c) :
    (s.begin c data ok).heldSet d = s.heldSet d := by
  have hp : ((s.initializeContext c).pushData c data).heldSet d = s.heldSet d := by
    cases data <;> simp [pushData, settle, initializeContext, h]
  unfold Dvm.begin
  cases hr : ((s.initializeContext c).pushData c data).isRunnable c with
  | true => rw [(started_spec hr _).heldSet, update_of_ne h, hp]
  | false => rw [(waited_spec hr _).heldSet, hp]

lemma begin_holder (data : Option Slot) (h : d ≠ c) (i : LockId)
    (hd : s.holder i ≠ some d) : (s.begin c data ok).holder i ≠ some d := by
  have hp : ((s.initializeContext c).pushData c data).holder = s.holder := by cases data <;> rfl
  unfold Dvm.begin
  cases hr : ((s.initializeContext c).pushData c data).isRunnable c with
  | true =>
    rw [(started_spec hr _).holder, hp]
    split
    · exact fun e => h (Option.some.inj e).symm
    · exact hd
  | false =>
    rw [(waited_spec hr _).holder, hp]
    exact hd

lemma eventHandlerDefault_moves (sid type : ℕ) (data : Id → Option Slot)
    (h : ∀ c, s.wakes c sid type = true ∧ s.state c = .halt → G.begin s c) :
    Moves G s (s.eventHandlerDefault sid type data ok) := by
  have hfold : ∀ (l : List Id) (s : Dvm), l.Nodup →
      (∀ c ∈ l, s.wakes c sid type = true ∧ s.state c = .halt → G.begin s c) →
      Moves G s (l.foldl (fun s c => s.wake c sid type data ok) s) := by
    intro l
    induction l with
    | nil => exact fun s _ _ => .refl
    | cons c l ih =>
      intro s hn h
      obtain ⟨hc, hn⟩ := nodup_cons.mp hn
      rw [foldl_cons]
      unfold wake
      split
      · rename_i hw
        have hl : s.loaded c = true := (Bool.and_eq_true_iff.mp hw.1).1
        refine .head (.begin c (data c) ok hl (h c mem_cons_self hw)) (ih _ hn ?_)
        -- the contexts still to be looked at are as before
        intro d hd hdw
        have hne : d ≠ c := fun e => hc (e ▸ hd)
        have hsame := begin_same s c (data c) ok
        rw [wakes, hsame.1, hsame.2.1, begin_state (data c) hne] at hdw
        exact G.begin_other _ ok hne (h d (mem_cons_of_mem c hd) hdw)
      · exact ih s hn (fun d hd => h d (mem_cons_of_mem c hd))
  exact hfold _ s (nodup_finRange 8) (fun c _ => h c)

lemma delivered_moves (value : BitVec 16) (h : ∀ c, s.executing = some c → G.deliver s c) :
    Moves G s (s.delivered value ok) := by
  unfold delivered
  split
  · rename_i c hc
    have hm : Move G s _ := .deliver c (pushValue value typeInteger (s.machine c)).2 ok hc (h c hc)
    exact (Relation.ReflTransGen.single hm).tail .answered
  · exact .refl

lemma dataReady_moves (value : BitVec 16) (r : Reply)
    (h : ∀ c, s.executing = some c → G.deliver s c) : Moves G s (s.dataReady value r) := by
  have hbusy : Quiet s { s with busy := false } := rfl
  have hd : Moves G s ({ s with busy := false }.delivered value r.submitPost) :=
    (quiet_moves hbusy).trans
      (delivered_moves value (fun c hc => G.deliver_quiet hbusy (h c hc)))
  unfold dataReady
  dsimp only
  refine hd.trans ?_
  generalize { s with busy := false }.delivered value r.submitPost = u
  split
  · exact .refl
  · rename_i current rest hq
    unfold tryget
    split
    · have hb : Quiet u { u with busy := true } := rfl
      have hmem : current ∈ u.queues .getDataWaitQueue := by simp [hq]
      have hm : Moves G u { u with busy := true, executing := some current } :=
        (quiet_moves hb).tail (.asking current (.inr hmem))
      exact hm.tail (.ask current rest r.submitPost hq)
    · exact .single (.askAgain current rest hq)

lemma step_moves (hc : Computing s) (hl : Legal G s ev) (h : step s ev = some t) : Moves G s t := by
  obtain ⟨ev, r⟩ := ev
  unfold step at h
  split at h
  · rename_i hcomp
    obtain ⟨c, hrun⟩ := hc hcomp
    split at h
    · rename_i d he hd
      have : d = c := Option.some.inj (hd.symm.trans hrun.1)
      subst this
      subst he
      have hleg := hl d hd
      exact instruction_moves hrun r hleg.1 hleg.2 h
    · cases h
  · cases ev with
    | instruction => cases h
    | runTask =>
      simp only [handle] at h
      split at h
      · cases h
      · cases h
        exact .head (.quiet (u := { s with runTasks := s.runTasks - 1 }) rfl) (opdone_moves r)
    | halt =>
      cases h
      exact quiet_moves rfl
    | resume =>
      have hq : Quiet s { s with halted := false } := rfl
      cases h
      split
      · exact quiet_moves hq
      · have ht : Quiet s { s with halted := false, taskRunning := true } := rfl
        exact (quiet_moves ht).trans (opdone_moves r)
    | timeout id =>
      simp only [handle] at h
      split at h
      · rename_i hid
        cases h
        unfold timeout
        split
        · rename_i hw
          have hload : s.loaded ⟨id, hid⟩ = true := (Bool.and_eq_true_iff.mp hw).1
          exact .single (.begin _ none r.submitPost hload (hl ⟨id, hid⟩ ⟨rfl, hw⟩))
        · exact .refl
      · cases h
    | userEvent sid type data =>
      cases h
      exact eventHandlerDefault_moves sid type data hl
    | dataReady value =>
      cases h
      exact dataReady_moves value r hl
    | addLibrary lib =>
      cases h
      exact .single (.reboot _ _ hl)
    | removeLibrary lib =>
      cases h
      exact .single (.reboot _ _ hl)
    | load c script =>
      cases h
      exact .single (.load c script r.submitPost hl)

lemma computeNext_computing (h : s.runningContext = some c) : Computing (s.computeNext c ok) := by
  unfold computeNext
  split_ifs with hrun
  · exact fun _ => ⟨c, h, hrun.1⟩
  · exact nofun
  · exact nofun

lemma computeInstruction_computing (h : s.computing = false) (hc : s.runningContext = some c)
    (r : Reply) : Computing (s.computeInstruction c r) := by
  unfold computeInstruction
  split
  · intro hcomp
    have hsame : (s.haltContext c r.submitPost).computing = true := hcomp
    rw [(haltContext_same s c r.submitPost).computing, h] at hsame
    cases hsame
  · exact computeNext_computing hc

lemma expire_computing : s.expire.computing = s.computing := by
  unfold expire
  split
  · split
    · exact (queueEnqueue_same _ _ _).computing
    · rfl
  · rfl

lemma pick_computing : s.pick.computing = s.computing := by
  unfold pick
  split
  · split <;> rfl
  · rfl

lemma opdone_computing (h : s.computing = false) (r : Reply) : Computing (s.opdone r) := by
  have hidle : s.expire.pick.computing = false := by rw [pick_computing, expire_computing, h]
  unfold opdone
  split
  · exact fun hc => absurd hc (by simp [h])
  · dsimp only
    split
    · exact fun hc => absurd hc (by simp [hidle])
    · rename_i c hc
      split
      · exact computeInstruction_computing hidle hc r
      · exact fun hc => absurd hc (by simp [releaseProcessor, postRunTask, hidle])

lemma tryget_same (r : Reply) : (s.tryget c r).runningContext = s.runningContext ∧
    (s.tryget c r).computing = s.computing := by
  unfold tryget
  split
  · have h := yieldContext_same
      ({ s with busy := true, executing := some c }.setState c .blocked) c r.submitPost
    exact ⟨h.runningContext, h.computing⟩
  · have h := queueEnqueue_same (s.setState c .waiting) c .getDataWaitQueue
    exact ⟨h.runningContext, h.computing⟩

lemma execute_runningContext {r : Reply} (h : s.execute c r = some t) :
    t.runningContext = s.runningContext := by
  unfold execute at h
  split at h
  · cases h
    exact (haltContext_same s c r.submitPost).runningContext
  · cases h
    split
    · exact (queueEnqueue_same _ c .getDataWaitQueue).runningContext
    · exact (tryget_same r).1
  · cases h
    exact (yieldContext_same _ c r.submitPost).runningContext
  · split at h
    · cases h
    · cases h
      split
      · rfl
      · exact ((yieldContext_same _ c r.submitPost).trans
          (resumeContext_same _ c r.submitPost)).runningContext
  · split at h
    · cases h
    · cases h
      rfl

lemma instruction_computing {r : Reply} (hc : s.runningContext = some c)
    (h : s.instruction c r = some t) : Computing t := by
  unfold instruction at h
  obtain ⟨u, hu, rfl⟩ := Option.map_eq_some_iff.mp h
  refine computeNext_computing ?_
  split at hu
  · cases hu
    exact hc
  · exact (execute_runningContext hu).trans hc

lemma eventHandlerDefault_computing (sid type : ℕ) (data : Id → Option Slot) :
    (s.eventHandlerDefault sid type data ok).computing = s.computing := by
  refine foldlRecOn (motive := fun (u : Dvm) => u.computing = s.computing) _ _ rfl ?_
  intro u hu c _
  unfold wake
  split
  · exact (begin_same _ c (data c) _).2.2.2.trans hu
  · exact hu

lemma dataReady_computing (value : BitVec 16) (r : Reply) :
    (s.dataReady value r).computing = s.computing := by
  have hd : ({ s with busy := false }.delivered value r.submitPost).computing = s.computing := by
    unfold delivered
    split
    · exact (resumeContext_same _ _ r.submitPost).computing
    · rfl
  unfold dataReady
  dsimp only
  split
  · exact hd
  · exact (tryget_same r).2.trans hd

lemma rebootContexts_computing : (s.rebootContexts ok).computing = s.computing := by
  refine foldlRecOn (motive := fun (u : Dvm) => u.computing = s.computing) _ _ rfl ?_
  intro u hu c _
  unfold rebootContext
  split
  · split
    · exact hu
    · exact (haltContext_same _ c ok).computing.trans hu
  · exact hu

lemma loaderDataAvailable_computing (script : Script) :
    (s.loaderDataAvailable c script ok).computing = s.computing := by
  have hr : (s.rebooted c script ok).computing = s.computing := rebootContexts_computing
  unfold loaderDataAvailable
  dsimp only
  split
  · exact (begin_same _ _ none _).2.2.2.trans hr
  · exact hr

lemma step_computing (h : step s ev = some t) : Computing t := by
  obtain ⟨ev, r⟩ := ev
  unfold step at h
  split at h
  · split at h
    · rename_i d _ hd
      exact instruction_computing hd h
    · cases h
  · rename_i hidle
    have hidle : s.computing = false := by simpa using hidle
    have hkept : ∀ u : Dvm, u.computing = s.computing → Computing u :=
      fun u hu hcomp => absurd hcomp (by simp [hu, hidle])
    cases ev with
    | instruction => cases h
    | runTask =>
      simp only [handle] at h
      split at h
      · cases h
      · cases h
        refine opdone_computing ?_ r
        exact hidle
    | halt =>
      cases h
      exact hkept _ rfl
    | resume =>
      cases h
      split
      · exact hkept _ rfl
      · refine opdone_computing ?_ r
        exact hidle
    | timeout id =>
      simp only [handle] at h
      split at h
      · cases h
        unfold timeout
        split
        · exact hkept _ (begin_same _ _ none _).2.2.2
        · exact hkept _ rfl
      · cases h
    | userEvent sid type data =>
      cases h
      exact hkept _ (eventHandlerDefault_computing sid type data)
    | dataReady value =>
      cases h
      exact hkept _ (dataReady_computing value r)
    | addLibrary lib =>
      cases h
      exact hkept _ rfl
    | removeLibrary lib =>
      cases h
      exact hkept _ rfl
    | load c script =>
      cases h
      exact hkept _ (loaderDataAvailable_computing script)

section

variable {I : Dvm → Prop} (hmove : ∀ s t, I s → Move G s t → I t) (hI : I s) (hc : Computing s)
include hmove hI hc

lemma step_keeps (hl : Legal G s ev) (h : step s ev = some t) : I t := by
  have hm := step_moves hc hl h
  clear hl h
  induction hm with
  | refl => exact hI
  | tail _ hlast ih => exact hmove _ _ ih hlast

lemma run_keeps {es : List (Event × Reply)} (hv : ValidTrace step (Legal G) s es)
    (hrun : runTrace step s es = some t) : I t ∧ Computing t := by
  have hstep : ∀ s ev t, I s ∧ Computing s → Legal G s ev → step s ev = some t →
      I t ∧ Computing t := fun s ev t h hl hs =>
    ⟨step_keeps hmove h.1 h.2 hl hs, step_computing hs⟩
  exact run_invariant_of_some hstep ⟨hI, hc⟩ hv hrun

end

def smooth : Reply :=
  ⟨⟨0, 0, ⟨typeInteger, 0⟩, ⟨0, fun _ => 0⟩⟩, true, true,
    ⟨0, 0, fun _ => ⟨0, 0⟩, fun _ => ⟨0, 0⟩⟩, true, true, true⟩

def timerScript (code : List ℕ) : Script :=
  ⟨timerPid, msgTimerTimeout, code.length, 0, fun i => code.getD i 0⟩

def booted : Dvm := initial 4096 (fun _ _ => 0)

end DvmMoves
