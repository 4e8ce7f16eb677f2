import SosKernel.DvmMoves

/-! # The queues of the virtual machine

A context in a queue knows the queue, and is in it once. Contexts without a script are in no
queue. -/
namespace DvmQueues

open DvmMachine DvmMachine.Dvm DvmInterpreter DvmMoves List Function

variable {s t : Dvm} {c d : Id} {q p : QueueId} {ok : Bool} {rest : List Id} {G : Guard}
  {P : Dvm → Prop}

structure Linked (s : Dvm) : Prop where
  queue : ∀ q c, c ∈ s.queues q → s.queue c = some q
  nodup : ∀ q, (s.queues q).Nodup
  absent : ∀ c, s.loaded c = false → s.state c = .halt ∧ s.queue c = none ∧ s.executing ≠ some c

namespace Linked

lemma loaded_of_mem (h : Linked s) (hc : c ∈ s.queues q) : s.loaded c = true := by
  by_contra hl
  have hnone := (h.absent c (by simpa using hl)).2.1
  rw [h.queue q c hc] at hnone
  cases hnone

lemma loaded_of_state (h : Linked s) (hc : s.state c ≠ .halt) : s.loaded c = true := by
  by_contra hl
  exact hc (h.absent c (by simpa using hl)).1

lemma loaded_of_executing (h : Linked s) (hc : s.executing = some c) : s.loaded c = true := by
  by_contra hl
  exact (h.absent c (by simpa using hl)).2.2 hc

lemma mem_dequeued (h : Linked s) (hq : s.queues q = c :: rest) :
    d ∈ (s.dequeued c q rest).queues p ↔ d ∈ s.queues p ∧ d ≠ c := by
  have hn : c ∉ rest ∧ rest.Nodup := nodup_cons.mp (hq ▸ h.nodup q)
  by_cases hp : p = q
  · subst hp
    simp only [dequeued, update_self, hq, mem_cons]
    constructor
    · intro hd
      exact ⟨.inr hd, fun e => hn.1 (e ▸ hd)⟩
    · rintro ⟨hd | hd, hne⟩
      · exact absurd hd hne
      · exact hd
  · simp only [dequeued, update_of_ne hp]
    refine ⟨fun hd => ⟨hd, ?_⟩, And.left⟩
    rintro rfl
    have h1 := h.queue p d hd
    have h2 := h.queue q d (by simp [hq])
    exact hp (Option.some.inj (h1.symm.trans h2))

lemma mem_leave (h : Linked s) : d ∈ (s.leaveQueue c).queues p ↔ d ∈ s.queues p ∧ d ≠ c := by
  by_cases hp : s.queue c = some p
  · simp only [leaveQueue, hp, if_true]
    rw [(h.nodup p).mem_erase_iff, and_comm]
  · simp only [leaveQueue, hp, if_false]
    refine ⟨fun hd => ⟨hd, ?_⟩, And.left⟩
    rintro rfl
    exact hp (h.queue p d hd)

end Linked

lemma mem_enqueue : d ∈ (s.queueEnqueue c q).queues p ↔
    d ∈ s.queues p ∨ (s.queue c = none ∧ d = c ∧ p = q) := by
  unfold queueEnqueue
  cases hc : s.queue c with
  | some x => simp
  | none =>
    by_cases hp : p = q
    · subst hp
      simp
    · simp [hp]

lemma queue_enqueue : (s.queueEnqueue c q).queue d =
    if s.queue c = none ∧ d = c then some q else s.queue d := by
  unfold queueEnqueue
  cases hc : s.queue c with
  | some x => simp
  | none =>
    by_cases hd : d = c
    · subst hd
      simp
    · simp [hd]

namespace Linked

section

variable (h : Linked s)
include h

lemma quiet (hq : Quiet s t) : Linked t := by
  rw [hq]
  exact ⟨h.queue, h.nodup, h.absent⟩

lemma dequeued (hq : s.queues q = c :: rest) : Linked (s.dequeued c q rest) := by
  refine ⟨?_, ?_, ?_⟩
  · intro p d hd
    obtain ⟨hd, hne⟩ := (h.mem_dequeued hq).mp hd
    simpa [Dvm.dequeued, hne] using h.queue p d hd
  · intro p
    by_cases hp : p = q
    · subst hp
      simpa [Dvm.dequeued] using (nodup_cons.mp (hq ▸ h.nodup p)).2
    · simpa [Dvm.dequeued, hp] using h.nodup p
  · intro d hd
    obtain ⟨h1, h2, h3⟩ := h.absent d hd
    refine ⟨h1, ?_, h3⟩
    by_cases hne : d = c
    · simp [Dvm.dequeued, hne]
    · simpa [Dvm.dequeued, hne] using h2

lemma leave : Linked (s.leaveQueue c) := by
  refine ⟨?_, ?_, ?_⟩
  · intro p d hd
    obtain ⟨hd, hne⟩ := h.mem_leave.mp hd
    simpa [leaveQueue, hne] using h.queue p d hd
  · intro p
    simp only [leaveQueue]
    split
    · exact (h.nodup p).erase c
    · exact h.nodup p
  · intro d hd
    obtain ⟨h1, h2, h3⟩ := h.absent d hd
    refine ⟨h1, ?_, h3⟩
    by_cases hne : d = c
    · simp [leaveQueue, hne]
    · simpa [leaveQueue, hne] using h2

section

variable (hl : s.loaded c = true)
include hl

lemma setState (st : Status) : Linked (s.setState c st) := by
  refine ⟨h.queue, h.nodup, ?_⟩
  intro d hd
  have hne : d ≠ c := by
    rintro rfl
    exact absurd hd (by simp [Dvm.setState, hl])
  simpa [Dvm.setState, hne] using h.absent d hd

lemma enqueue : Linked (s.queueEnqueue c q) := by
  have hsame := queueEnqueue_same s c q
  refine ⟨?_, ?_, ?_⟩
  · intro p d hd
    rw [queue_enqueue]
    rcases mem_enqueue.mp hd with hd | ⟨hc, rfl, rfl⟩
    · have hp := h.queue p d hd
      rw [if_neg, hp]
      rintro ⟨hc, rfl⟩
      rw [hp] at hc
      cases hc
    · rw [if_pos ⟨hc, rfl⟩]
  · intro p
    unfold queueEnqueue
    split
    · exact h.nodup p
    · rename_i hc
      by_cases hp : p = q
      · subst hp
        have hnot : c ∉ s.queues p := fun hm => hc (by simp [h.queue p c hm])
        simpa [nodup_append, h.nodup p] using fun a ha (e : a = c) => hnot (e ▸ ha)
      · simpa [hp] using h.nodup p
  · intro d hd
    rw [hsame.loaded] at hd
    rw [hsame.executing, (queueEnqueue_unlocked s c q).state, queue_enqueue, if_neg]
    · exact h.absent d hd
    · rintro ⟨-, rfl⟩
      rw [hl] at hd
      cases hd

lemma resume : Linked (s.resumeContext c ok) := by
  have hsame := resumeContext_same s c ok
  have hother : ∀ q, (s.resumeContext c ok).queue = (s.queueEnqueue c q).queue →
      (s.resumeContext c ok).queues = (s.queueEnqueue c q).queues →
      Linked (s.resumeContext c ok) := by
    intro q hq hqs
    have he := h.enqueue (q := q) hl
    refine ⟨by rw [hq, hqs]; exact he.queue, by rw [hqs]; exact he.nodup, ?_⟩
    intro d hd
    rw [hsame.loaded] at hd
    have hne : d ≠ c := fun e => by
      rw [e, hl] at hd
      cases hd
    have hd' := he.absent d ((queueEnqueue_same s c q).loaded ▸ hd)
    rw [(queueEnqueue_same s c q).executing, (queueEnqueue_unlocked s c q).state] at hd'
    rw [hsame.executing, resumeContext_state, update_of_ne hne, hq]
    exact hd'
  cases hr : s.isRunnable c with
  | true => exact hother .runQueue (started_spec hr _).queue (started_spec hr _).queues
  | false => exact hother .readyQueue (waited_spec hr _).queue (waited_spec hr _).queues

omit hl in
lemma yield : Linked (s.yieldContext c ok) := by
  have hstep : ∀ t current rest, t.queues .readyQueue = current :: rest → Linked t →
      Linked ((t.dequeued current .readyQueue rest).resumeContext current ok) := by
    intro t current rest hq ht
    have hl : t.loaded current = true := ht.loaded_of_mem (q := .readyQueue) (by simp [hq])
    exact (ht.dequeued hq).resume hl
  exact examine_induct hstep _ _ (s.releaseLocks c) ⟨h.queue, h.nodup, h.absent⟩

lemma halt : Linked (s.haltContext c ok) := by
  have hr : Linked (s.releaseAllLocks c) := ⟨h.queue, h.nodup, h.absent⟩
  have hy : Linked ((s.releaseAllLocks c).yieldContext c ok) := hr.yield
  have hly : ((s.releaseAllLocks c).yieldContext c ok).loaded c = true := by
    rw [(yieldContext_same (s.releaseAllLocks c) c ok).loaded]
    exact hl
  unfold haltContext
  dsimp only
  split
  · exact hy.setState hly .halt
  · exact hy.leave.setState hly .halt

lemma settle (m : Machine) : Linked (s.settle c m) := by
  rw [settle_eq]
  split
  · exact (h.quiet (calm_quiet m)).setState hl .halt
  · exact h.quiet (calm_quiet m)

lemma initialized : Linked (s.initializeContext c) := by
  have hs : Linked ((s.leaveQueue c).setState c .halt) := h.leave.setState hl .halt
  exact ⟨hs.queue, hs.nodup, hs.absent⟩

lemma begin (data : Option Slot) : Linked (s.begin c data ok) := by
  have hi := h.initialized hl
  cases data with
  | none => exact hi.resume hl
  | some v => exact (hi.settle hl _).resume hl

end

end

end Linked

lemma yieldContext_state (h : (s.yieldContext c ok).state d = .halt) : s.state d = .halt := by
  have hstep : ∀ (u : Dvm) current rest, u.queues .readyQueue = current :: rest →
      (u.state d = .halt → s.state d = .halt) →
      ((u.dequeued current .readyQueue rest).resumeContext current ok).state d = .halt →
      s.state d = .halt := by
    intro u current rest _ hu hd
    rw [resumeContext_state, update_apply] at hd
    split at hd
    · split at hd <;> cases hd
    · exact hu hd
  exact examine_induct (P := fun (u : Dvm) => u.state d = .halt → s.state d = .halt) hstep _ _
    (s.releaseLocks c) (fun h => h) h

lemma haltContext_eq (h : s.state c ≠ .halt) : s.haltContext c ok =
    (((s.releaseAllLocks c).yieldContext c ok).leaveQueue c).setState c .halt := by
  have hy : ((s.releaseAllLocks c).yieldContext c ok).state c ≠ .halt :=
    fun he => h (yieldContext_state (s := s.releaseAllLocks c) he)
  simp only [haltContext, if_neg hy]

structure Cleared (s : Dvm) : Prop where
  queues : ∀ q, s.queues q = []
  holder : ∀ i, s.holder i = none
  runningContext : s.runningContext = none

lemma engineReboot_cleared (s : Dvm) : Cleared s.engineReboot := ⟨fun _ => rfl, fun _ => rfl, rfl⟩

lemma yieldContext_cleared (h : s.queues .readyQueue = []) :
    s.yieldContext c ok = s.releaseLocks c := by
  have hq : (s.releaseLocks c).queues .readyQueue = [] := h
  simp only [yieldContext, hq, examine]

structure HaltedAt (s t : Dvm) (c : Id) : Prop where
  cleared : Cleared t
  state : t.state = update s.state c .halt
  heldSet : t.heldSet = update s.heldSet c ∅
  releaseSet : t.releaseSet = update s.releaseSet c ∅
  linked : Linked s → s.loaded c = true → Linked t
  loaded : t.loaded = s.loaded

lemma haltContext_cleared (h : Cleared s) (c : Id) (ok : Bool) :
    HaltedAt s (s.haltContext c ok) c := by
  have hq : (s.releaseAllLocks c).queues .readyQueue = [] := h.queues .readyQueue
  have hr : (s.haltContext c ok).runningContext = none :=
    (haltContext_same s c ok).runningContext.trans h.runningContext
  have hloaded := (haltContext_same s c ok).loaded
  have hlinked : Linked s → s.loaded c = true → Linked (s.haltContext c ok) := fun h hl => h.halt hl
  unfold haltContext at hr hloaded hlinked ⊢
  simp only [yieldContext_cleared hq] at hr hloaded hlinked ⊢
  split at hr
  all_goals
    rename_i hst
    simp only [hst, if_true, if_false] at hlinked hloaded ⊢
    refine ⟨⟨fun q => ?_, fun i => ?_, hr⟩, rfl, ?_, ?_, hlinked, hloaded⟩
  · exact h.queues q
  · simp [Dvm.setState, releaseLocks, releaseAllLocks, h.holder]
  · simp [Dvm.setState, releaseLocks, releaseAllLocks]
  · simp [Dvm.setState, releaseLocks, releaseAllLocks]
  · simp [Dvm.setState, leaveQueue, releaseLocks, releaseAllLocks, h.queues]
  · simp [Dvm.setState, leaveQueue, releaseLocks, releaseAllLocks, h.holder]
  · simp [Dvm.setState, leaveQueue, releaseLocks, releaseAllLocks]
  · simp [Dvm.setState, leaveQueue, releaseLocks, releaseAllLocks]

structure Rebooted (t : Dvm) : Prop where
  cleared : Cleared t
  state : ∀ c, t.state c = .halt
  linked : Linked t

lemma rebootContexts_induct (hvars : ∀ s f, P s → P { s with frame := f })
    (hhalt : ∀ s c, P s → s.loaded c = true → s.state c ≠ .halt → P (s.haltContext c ok))
    (h : P s) : P (s.rebootContexts ok) := by
  refine foldlRecOn (motive := P) _ _ h ?_
  intro u hu c _
  unfold rebootContext
  split
  · rename_i hl
    split
    · exact hvars _ _ hu
    · rename_i hst
      exact hhalt _ c (hvars _ _ hu) hl hst
  · exact hu

lemma rebootContext_spec (h : Cleared s) (c : Id) (ok : Bool) : Cleared (s.rebootContext c ok) ∧
    (s.rebootContext c ok).loaded = s.loaded ∧ ∀ d, (s.rebootContext c ok).state d =
      if d = c ∧ s.loaded c = true then .halt else s.state d := by
  unfold rebootContext
  split
  · rename_i hl
    split
    · rename_i hst
      refine ⟨⟨h.queues, h.holder, h.runningContext⟩, rfl, fun d => ?_⟩
      split
      · rename_i hd
        rw [hd.1, hst]
      · rfl
    · have hspec := haltContext_cleared (s := { s with
        frame := update s.frame c { s.frame c with vars := fun _ => ⟨typeInteger, 0⟩ } })
        ⟨h.queues, h.holder, h.runningContext⟩ c ok
      refine ⟨hspec.cleared, hspec.loaded, fun d => ?_⟩
      rw [hspec.state, update_apply]
      simp [hl]
  · rename_i hl
    exact ⟨h, rfl, fun d => by simp [hl]⟩

lemma rebootContexts_state (h : Cleared s) (hl : s.loaded c = true) :
    (s.rebootContexts ok).state c = .halt := by
  have hfold : ∀ (l : List Id) (s : Dvm), Cleared s → s.loaded c = true →
      c ∈ l ∨ s.state c = .halt →
      (l.foldl (fun s c => s.rebootContext c ok) s).state c = .halt := by
    intro l
    induction l with
    | nil => exact fun s _ _ h => h.resolve_left not_mem_nil
    | cons a l ih =>
      intro s hs hload h
      obtain ⟨hcl, hlo, hst⟩ := rebootContext_spec hs a ok
      refine ih _ hcl (by rw [hlo]; exact hload) ?_
      rw [hst]
      by_cases hca : c = a
      · subst hca
        exact .inr (by simp [hload])
      · simp only [hca, false_and, if_false]
        exact h.imp_left (fun h => (mem_cons.mp h).resolve_left hca)
  exact hfold _ s h hl (.inl (mem_finRange c))

def cleared (s : Dvm) (c : Id) (script : Script) : Dvm :=
  let s := s.install c script
  ({ s with
    usedVars := update s.usedVars c (s.analyzed c) }.initializeContext c).engineReboot

lemma cleared_linked (h : Linked s) (script : Script) : Linked (cleared s c script) := by
  refine ⟨fun q d hd => absurd hd (not_mem_nil), fun q => nodup_nil, ?_⟩
  intro d hd
  have hne : d ≠ c := by
    rintro rfl
    simp [cleared, engineReboot, initializeContext, leaveQueue, install] at hd
  have hd' : s.loaded d = false := by
    simpa [cleared, engineReboot, initializeContext, leaveQueue, install, hne] using hd
  simpa [cleared, engineReboot, initializeContext, leaveQueue, install, hne] using h.absent d hd'

lemma rebooted_induct {script : Script} (hvars : ∀ u f, P u → P { u with frame := f })
    (hhalt : ∀ u d, Cleared u → P u → u.loaded d = true → P (u.haltContext d ok))
    (h : P (cleared s c script)) :
    Cleared (s.rebooted c script ok) ∧ P (s.rebooted c script ok) := by
  refine rebootContexts_induct (P := fun u => Cleared u ∧ P u) ?_ ?_ ⟨engineReboot_cleared _, h⟩
  · exact fun u f hu => ⟨⟨hu.1.queues, hu.1.holder, hu.1.runningContext⟩, hvars u f hu.2⟩
  · exact fun u d hu hl _ => ⟨(haltContext_cleared hu.1 d ok).cleared, hhalt u d hu.1 hu.2 hl⟩

lemma rebooted_spec (h : Linked s) (c : Id) (script : Script) (ok : Bool) :
    Rebooted (s.rebooted c script ok) := by
  obtain ⟨hcleared, hlinked⟩ := rebooted_induct
    (fun u f hu => ⟨hu.queue, hu.nodup, hu.absent⟩) (fun u d _ hu hl => hu.halt hl)
    (cleared_linked h script)
  refine ⟨hcleared, ?_, hlinked⟩
  intro d
  by_cases hd : (cleared s c script).loaded d = true
  · exact rebootContexts_state (engineReboot_cleared _) hd
  · -- a context without a script was halted before, and the loop passes it by
    by_contra hst
    have hl := hlinked.loaded_of_state hst
    have hsame : (s.rebooted c script ok).loaded = (cleared s c script).loaded :=
      (rebooted_induct (P := fun u => u.loaded = (cleared s c script).loaded) (fun _ _ hu => hu)
        (fun u d _ hu _ => (haltContext_same u d ok).loaded.trans hu) rfl).2
    rw [hsame] at hl
    exact hd hl

lemma rebooted_releaseSet (h : ∀ d, s.releaseSet d = ∅) (script : Script) :
    ∀ d, (s.rebooted c script ok).releaseSet d = ∅ := by
  refine (rebooted_induct (P := fun u => ∀ d, u.releaseSet d = ∅) (fun _ _ hu => hu) ?_ ?_).2
  · intro u e hc hu _ d
    rw [(haltContext_cleared hc e ok).releaseSet]
    by_cases he : d = e
    · simp [he]
    · rw [update_of_ne he]
      exact hu d
  · intro d
    by_cases hd : d = c
    · simp [cleared, engineReboot, initializeContext, hd]
    · simpa [cleared, engineReboot, initializeContext, install, hd] using h d

lemma Linked.load (h : Linked s) (script : Script) :
    Linked (s.loaderDataAvailable c script ok) := by
  have hr := rebooted_spec h c script ok
  unfold loaderDataAvailable
  dsimp only
  split
  · rename_i hl
    exact hr.linked.begin hl none
  · exact hr.linked

lemma Linked.move (h : Linked s) (hm : Move G s t) : Linked t := by
  have hrun : ∀ {c}, Running s c → s.loaded c = true :=
    fun hr => h.loaded_of_state (by rw [hr.2]; exact nofun)
  cases hm with
  | quiet hq => exact h.quiet hq
  | release => exact ⟨h.queue, h.nodup, h.absent⟩
  | begin c data ok hl _ => exact h.begin hl data
  | deliver c m ok he _ =>
    have hl := h.loaded_of_executing he
    exact (h.settle hl m).resume hl
  | answered =>
    exact ⟨h.queue, h.nodup, fun d hd => ⟨(h.absent d hd).1, (h.absent d hd).2.1, nofun⟩⟩
  | asking c hc =>
    have hl : s.loaded c = true := hc.elim hrun h.loaded_of_mem
    refine ⟨h.queue, h.nodup, fun d hd => ⟨(h.absent d hd).1, (h.absent d hd).2.1, ?_⟩⟩
    rintro hcd
    cases hcd
    exact absurd hd (by simp [hl])
  | park c hr => exact (h.setState (hrun hr) .waiting).enqueue (hrun hr)
  | block c ok hr => exact (h.setState (hrun hr) .blocked).yield
  | ask c rest ok hq =>
    have hl : s.loaded c = true := h.loaded_of_mem (q := .getDataWaitQueue) (by simp [hq])
    exact ((h.dequeued hq).setState hl .blocked).yield
  | askAgain c rest hq =>
    have hl : s.loaded c = true := h.loaded_of_mem (q := .getDataWaitQueue) (by simp [hq])
    exact ((h.dequeued hq).setState hl .waiting).enqueue hl
  | fail c hr _ => exact h.setState (hrun hr) .halt
  | @retry c ok u hr _ hu =>
    have hl := hrun hr
    have hboth : Linked u ∧ u.loaded c = true := by
      rcases hu with rfl | ⟨_, rfl⟩
      · exact ⟨h, hl⟩
      · exact ⟨h.setState hl .halt, hl⟩
    have hy : (u.yieldContext c ok).loaded c = true := by
      rw [(yieldContext_same u c ok).loaded, hboth.2]
    have hr : ((u.yieldContext c ok).resumeContext c ok).loaded c = true := by
      rw [(resumeContext_same _ c ok).loaded, hy]
    exact (hboth.1.yield.resume hy).setState hr .run
  | halt c ok hr => exact h.halt (hrun hr)
  | expire c hr =>
    have he := (h.setState (hrun hr) .ready).enqueue (q := .runQueue) (hrun hr)
    exact ⟨he.queue, he.nodup, he.absent⟩
  | pick c rest hq _ =>
    have hl : s.loaded c = true := h.loaded_of_mem (q := .runQueue) (by simp [hq])
    have hp := (h.dequeued hq).setState hl .run
    exact ⟨hp.queue, hp.nodup, hp.absent⟩
  | reboot con lib _ => exact ⟨fun q d hd => absurd hd (not_mem_nil), fun q => nodup_nil, h.absent⟩
  | load c script ok _ => exact h.load script

def Waiting (s : Dvm) : Prop := ∀ c ∈ s.queues .readyQueue, s.isRunnable c = false

lemma isRunnable_false : s.isRunnable c = false ↔ ∃ i ∈ s.acquireSet c, s.holder i ≠ none := by
  simp [isRunnable]

lemma isRunnable_resume (hd : s.isRunnable d = false) :
    (s.resumeContext c ok).isRunnable d = false := by
  obtain ⟨i, hi, hh⟩ := isRunnable_false.mp hd
  refine isRunnable_false.mpr ⟨i, ?_⟩
  cases hr : s.isRunnable c with
  | true =>
    have hst := started_spec hr ok
    have hne : d ≠ c := by
      rintro rfl
      rw [hr] at hd
      cases hd
    rw [hst.acquireSet, hst.holder, update_of_ne hne]
    refine ⟨hi, ?_⟩
    split
    · exact nofun
    · exact hh
  | false =>
    have hw := waited_spec hr ok
    rw [hw.acquireSet, hw.holder]
    exact ⟨hi, hh⟩

lemma Waiting.resume (h : Waiting s) : Waiting (s.resumeContext c ok) := by
  intro d hd
  refine isRunnable_resume ?_
  cases hr : s.isRunnable c with
  | true =>
    rw [(started_spec hr _).queues] at hd
    rcases mem_enqueue.mp hd with hd | ⟨_, _, hq⟩
    · exact h d hd
    · cases hq
  | false =>
    rw [(waited_spec hr _).queues] at hd
    rcases mem_enqueue.mp hd with hd | ⟨_, rfl, _⟩
    · exact h d hd
    · exact hr

/-- In the loop of `yieldContext`: the queue holds the contexts that were not examined yet, and then
those that have to go on waiting. -/
structure Rotated (s : Dvm) (start : Option Id) (todo failed : List Id) : Prop where
  linked : Linked s
  queue : s.queues .readyQueue = todo ++ failed
  start : start = failed.head?
  failed : ∀ c ∈ failed, s.isRunnable c = false

def examined (s : Dvm) (ok : Bool) (current : Id) (rest : List Id) : Dvm :=
  (s.dequeued current .readyQueue rest).resumeContext current ok

lemma examined_linked (h : Linked s) (hq : s.queues .readyQueue = c :: rest) :
    Linked (examined s ok c rest) := by
  have hl : s.loaded c = true := h.loaded_of_mem (q := .readyQueue) (by simp [hq])
  exact (h.dequeued hq).resume hl

lemma examined_runnable (hr : s.isRunnable c = true) :
    (examined s ok c rest).queues .readyQueue = rest := by
  have hr' : (s.dequeued c .readyQueue rest).isRunnable c = true := hr
  unfold examined
  rw [(started_spec hr' _).queues, queueEnqueue]
  split <;> simp [dequeued]

lemma examined_waiting (hr : s.isRunnable c = false) :
    (examined s ok c rest).queues .readyQueue = rest ++ [c] := by
  have hr' : (s.dequeued c .readyQueue rest).isRunnable c = false := hr
  unfold examined
  rw [(waited_spec hr' _).queues]
  simp [queueEnqueue, dequeued]

lemma examined_failed (hd : s.isRunnable d = false) : (examined s ok c rest).isRunnable d = false :=
  isRunnable_resume hd

namespace Rotated

variable {start : Option Id} {todo failed : List Id}

section

variable (h : Rotated s start (c :: todo) failed)
include h

lemma started (hr : s.isRunnable c = true) (ok : Bool) :
    Rotated (examined s ok c (todo ++ failed)) start todo failed :=
  ⟨examined_linked h.linked h.queue, examined_runnable hr, h.start,
    fun d hd => examined_failed (h.failed d hd)⟩

lemma waited (hr : s.isRunnable c = false) (ok : Bool) :
    Rotated (examined s ok c (todo ++ failed)) (if start = none then some c else start) todo
      (failed ++ [c]) := by
  refine ⟨examined_linked h.linked h.queue, ?_, ?_, ?_⟩
  · rw [examined_waiting hr, append_assoc]
  · rw [h.start]
    cases failed <;> simp
  · intro d hd
    rcases mem_append.mp hd with hd | hd
    · exact examined_failed (h.failed d hd)
    · rw [mem_singleton.mp hd]
      exact examined_failed hr

lemma start_ne : start ≠ some c := by
  intro hs
  have hmem : c ∈ failed := List.mem_of_mem_head? (h.start ▸ hs)
  have hn := h.linked.nodup .readyQueue
  rw [h.queue, cons_append, nodup_cons] at hn
  exact hn.1 (mem_append_right todo hmem)

end

lemma ends (h : Rotated s start todo failed) (ok : Bool) :
    ∃ t, Waiting t ∧ ∀ fuel, todo.length < fuel → examine ok fuel start s = t := by
  induction todo generalizing s start failed with
  | nil =>
    cases failed with
    | nil =>
      refine ⟨s, fun c hc => absurd hc (by simp [h.queue]), ?_⟩
      rintro (_ | fuel) hf
      · exact absurd hf (Nat.not_lt_zero _)
      · simp [examine, h.queue]
    | cons a f =>
      have hq : s.queues .readyQueue = a :: f := h.queue
      have hfail := h.failed a mem_cons_self
      refine ⟨examined s ok a f, ?_, ?_⟩
      · intro d hd
        rw [examined_waiting hfail] at hd
        refine examined_failed (h.failed d ?_)
        simpa [or_comm] using hd
      · rintro (_ | fuel) hf
        · exact absurd hf (Nat.not_lt_zero _)
        · have hs : start = some a := h.start
          simp [examine, hq, hfail, hs, examined]
  | cons c todo ih =>
    have hq : s.queues .readyQueue = c :: (todo ++ failed) := h.queue
    cases hr : s.isRunnable c with
    | true =>
      obtain ⟨t, ht, hend⟩ := ih (h.started hr ok)
      refine ⟨t, ht, ?_⟩
      rintro (_ | fuel) hf
      · exact absurd hf (Nat.not_lt_zero _)
      · rw [← hend fuel (Nat.lt_of_succ_lt_succ hf)]
        simp [examine, hq, hr, examined]
    | false =>
      obtain ⟨t, ht, hend⟩ := ih (h.waited hr ok)
      refine ⟨t, ht, ?_⟩
      rintro (_ | fuel) hf
      · exact absurd hf (Nat.not_lt_zero _)
      · rw [← hend fuel (Nat.lt_of_succ_lt_succ hf)]
        have hne := h.start_ne
        by_cases hs : start = none
        · simp [examine, hq, hr, hs, examined]
        · simp [examine, hq, hr, hs, hne, examined]

end Rotated

lemma rotated_release (h : Linked s) : Rotated (s.releaseLocks c) none (s.queues .readyQueue) [] :=
  ⟨⟨h.queue, h.nodup, h.absent⟩, (append_nil _).symm, rfl, nofun⟩

lemma waiting_yield (h : Linked s) : Waiting (s.yieldContext c ok) := by
  obtain ⟨t, ht, hend⟩ := (rotated_release h).ends ok
  have : s.yieldContext c ok = t := hend _ (Nat.lt_succ_self _)
  rwa [this]

namespace Waiting

lemma halt (h : Linked s) : Waiting (s.haltContext c ok) := by
  have hr : Linked (s.releaseAllLocks c) := ⟨h.queue, h.nodup, h.absent⟩
  have hy : Waiting ((s.releaseAllLocks c).yieldContext c ok) := waiting_yield hr
  unfold haltContext
  dsimp only
  split
  · exact hy
  · exact fun d hd => hy d (hr.yield.mem_leave.mp hd).1

lemma begin (h : Waiting s) (hl : Linked s) (data : Option Slot) : Waiting (s.begin c data ok) := by
  -- the context leaves its queue, and needs other locks then
  have hi : Waiting (s.initializeContext c) := by
    intro d hd
    obtain ⟨hd, hne⟩ := hl.mem_leave.mp hd
    have hd' := h d hd
    rw [isRunnable_false] at hd' ⊢
    simpa [initializeContext, leaveQueue, hne] using hd'
  cases data with
  | none => exact hi.resume
  | some v => exact Waiting.resume (s := (s.initializeContext c).settle c _) hi

lemma dequeued (h : Waiting s) (hl : Linked s) (hq : s.queues q = c :: rest) :
    Waiting (s.dequeued c q rest) :=
  fun d hd => h d ((hl.mem_dequeued hq).mp hd).1

lemma enqueue (h : Waiting s) (hq : q ≠ .readyQueue) : Waiting (s.queueEnqueue c q) := by
  intro d hd
  have hu := queueEnqueue_unlocked s c q
  rw [isRunnable, hu.acquireSet, hu.holder]
  rcases mem_enqueue.mp hd with hd | ⟨_, _, hp⟩
  · exact h d hd
  · exact absurd hp.symm hq

lemma load (hl : Linked s) (script : Script) : Waiting (s.loaderDataAvailable c script ok) := by
  have hr := rebooted_spec hl c script ok
  have hw : Waiting (s.rebooted c script ok) := fun d hd => absurd hd (by simp [hr.cleared.queues])
  unfold loaderDataAvailable
  dsimp only
  split
  · exact hw.begin hr.linked none
  · exact hw

lemma move (h : Waiting s) (hl : Linked s) (hm : Move G s t) : Waiting t := by
  cases hm with
  | quiet hq =>
    rw [hq]
    exact h
  | release => exact h
  | begin c data ok _ _ => exact h.begin hl data
  | deliver c m ok _ _ => exact Waiting.resume h
  | answered => exact h
  | asking c _ => exact h
  | park c _ => exact Waiting.enqueue h nofun
  | block c ok hr =>
    have hload := hl.loaded_of_state (by rw [hr.2]; exact nofun)
    exact waiting_yield (hl.setState hload .blocked)
  | ask c rest ok hq =>
    have hload : s.loaded c = true := hl.loaded_of_mem (q := .getDataWaitQueue) (by simp [hq])
    exact waiting_yield ((hl.dequeued hq).setState hload .blocked)
  | askAgain c rest hq =>
    have hd : Waiting (s.dequeued c .getDataWaitQueue rest) := h.dequeued hl hq
    exact Waiting.enqueue (s := (s.dequeued c .getDataWaitQueue rest).setState c .waiting) hd nofun
  | fail c _ _ => exact h
  | @retry c ok u hr _ hu =>
    have hload := hl.loaded_of_state (by rw [hr.2]; exact nofun)
    have hu : Linked u := by
      rcases hu with rfl | ⟨_, rfl⟩
      · exact hl
      · exact hl.setState hload .halt
    have hw : Waiting ((u.yieldContext c ok).resumeContext c ok) := (waiting_yield hu).resume
    exact hw
  | halt c ok _ => exact Waiting.halt hl
  | expire c _ => exact Waiting.enqueue h nofun
  | pick c rest hq _ => exact h.dequeued hl hq
  | reboot con lib _ => exact fun d hd => absurd hd not_mem_nil
  | load c script ok _ => exact Waiting.load hl script

end Waiting

end DvmQueues
