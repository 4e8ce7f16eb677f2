import SosKernel.DvmQueues

/-! # The locks of the virtual machine

A lock knows its holder and a context knows its locks. -/
namespace DvmLocks

open DvmMachine DvmMachine.Dvm DvmInterpreter DvmMoves DvmQueues GuardedRuns Function

variable {s t : Dvm} {c d : Id} {q : QueueId} {ok : Bool} {rest : List Id} {x : Option Id}

def Active (s : Dvm) (c : Id) : Prop :=
  s.state c = .run ∨ s.state c = .ready ∨ s.state c = .blocked
  deriving Decidable

def Involved (s : Dvm) (c : Id) : Prop :=
  Active s c ∨ c ∈ s.queues .runQueue ∨ c ∈ s.queues .getDataWaitQueue

def Holds (s : Dvm) (c : Id) : Prop := s.usedVars c ⊆ s.heldSet c ∧ s.acquireSet c = ∅

/-- The two records of the locks agree. The context `x`, if any, is just giving its locks back. -/
structure Owned (x : Option Id) (s : Dvm) : Prop where
  linked : Linked s
  holder : ∀ i c, s.holder i = some c ↔ i ∈ s.heldSet c
  release : ∀ c, s.releaseSet c = ∅
  holds : ∀ c, some c ≠ x → Involved s c → Holds s c
  waiting : ∀ c ∈ s.queues .readyQueue, s.acquireSet c = s.usedVars c

lemma Owned.of_involved (h : Owned none s) (hinv : Involved s c) : Holds s c :=
  h.holds c (Option.some_ne_none c) hinv

def exclusive : Guard where
  begin s c := s.heldSet c = ∅
  deliver s c := s.state c = .blocked
  fail _ _ := True
  retry _ _ := True
  reboot s := ∀ c, s.heldSet c = ∅ ∧ ¬ Active s c
  load s := ∀ c, s.state c = .halt → s.heldSet c = ∅
  begin_other := by
    intro s c d data ok hne h
    rw [begin_heldSet data hne]
    exact h
  deliver_quiet := by
    intro s t c hq h
    rw [hq]
    exact h
  fail_quiet := fun _ h => h
  retry_quiet := fun _ h => h

lemma Holds.resume (h : Holds s d) : Holds (s.resumeContext c ok) d := by
  have hused := (resumeContext_same s c ok).usedVars
  cases hr : s.isRunnable c with
  | true =>
    have hs := started_spec hr ok
    unfold Holds
    rw [hused, hs.heldSet, hs.acquireSet]
    by_cases hd : d = c
    · subst hd
      simpa using h.1.trans Finset.subset_union_left
    · simpa [hd] using And.intro h.1 h.2
  | false =>
    have hw := waited_spec hr ok
    unfold Holds
    rw [hused, hw.heldSet, hw.acquireSet]
    exact h

lemma Involved.of_resume (h : Involved (s.resumeContext c ok) d) :
    Involved s d ∨ d = c ∧ s.isRunnable c = true := by
  unfold Involved Active at *
  rw [resumeContext_state] at h
  cases hr : s.isRunnable c with
  | true =>
    by_cases hd : d = c
    · exact .inr ⟨hd, rfl⟩
    · rw [(started_spec hr _).queues] at h
      simp only [update_of_ne hd, mem_enqueue, hd, false_and, and_false, or_false] at h
      exact .inl h
  | false =>
    rw [(waited_spec hr _).queues] at h
    by_cases hd : d = c
    · subst hd
      simp only [hr, mem_enqueue] at h
      exact .inl (.inr (by simpa using h))
    · simp only [update_of_ne hd, mem_enqueue, hd, false_and, and_false, or_false] at h
      exact .inl h

lemma Involved.of_dequeued (hl : Linked s) (hq : s.queues q = c :: rest)
    (h : Involved (s.dequeued c q rest) d) : Involved s d := by
  refine h.imp_right (Or.imp ?_ ?_)
  · exact fun hm => ((hl.mem_dequeued hq).mp hm).1
  · exact fun hm => ((hl.mem_dequeued hq).mp hm).1

lemma Involved.of_leave (hl : Linked s) (h : Involved (s.leaveQueue c) d) : Involved s d := by
  refine h.imp_right (Or.imp ?_ ?_)
  · exact fun hm => (hl.mem_leave.mp hm).1
  · exact fun hm => (hl.mem_leave.mp hm).1

lemma Involved.of_setState {st : Status} (hne : d ≠ c) (h : Involved (s.setState c st) d) :
    Involved s d := by
  simpa [Involved, Active, Dvm.setState, hne] using h

lemma Involved.of_stop (h : Involved (s.setState c .halt) d) : Involved s d := by
  by_cases he : d = c
  · exact h.imp_left (by simp [Active, he, Dvm.setState])
  · exact h.of_setState he

lemma Involved.of_enqueue (hne : d ≠ c) (h : Involved (s.queueEnqueue c q) d) : Involved s d := by
  unfold Involved Active at *
  rw [(queueEnqueue_unlocked s c q).state] at h
  simpa [mem_enqueue, hne] using h

lemma Involved.of_initialized (hl : Linked s) (h : Involved (s.initializeContext c) d) :
    Involved s d ∧ d ≠ c := by
  have hmem : ∀ p, d ∈ (s.initializeContext c).queues p → d ∈ s.queues p ∧ d ≠ c :=
    fun p hm => hl.mem_leave.mp hm
  have hne : d ≠ c := by
    rintro rfl
    rcases h with hst | hm | hm
    · simp [Active, initializeContext] at hst
    · exact (hmem _ hm).2 rfl
    · exact (hmem _ hm).2 rfl
  refine ⟨Or.imp ?_ (Or.imp (fun hm => (hmem _ hm).1) (fun hm => (hmem _ hm).1)) h, hne⟩
  simp [Active, initializeContext, hne]

lemma releaseLocks_eq (h : s.releaseSet c = ∅) : s.releaseLocks c = s := by
  have hrel : update s.releaseSet c ∅ = s.releaseSet := by rw [← h, update_eq_self]
  simp only [Dvm.releaseLocks, h, hrel, Finset.sdiff_empty, update_eq_self,
    Finset.notMem_empty, if_false]

namespace Owned

section

variable (h : Owned x s)
include h

lemma resume (hl : s.loaded c = true)
    (hc : (c ∉ s.queues .readyQueue ∧ s.acquireSet c = s.usedVars c) ∨ Holds s c) :
    Owned x (s.resumeContext c ok) := by
  have hlinked : Linked (s.resumeContext c ok) := h.linked.resume hl
  have hused := (resumeContext_same s c ok).usedVars
  cases hr : s.isRunnable c with
  | true =>
    have hs := started_spec hr ok
    have hfree := isRunnable_iff.mp hr
    refine ⟨hlinked, ?_, ?_, ?_, ?_⟩
    · intro i d
      rw [hs.holder, hs.heldSet]
      by_cases hd : d = c
      · subst hd
        by_cases hi : i ∈ s.acquireSet d
        · simp [hi]
        · simp [hi, h.holder]
      · rw [update_of_ne hd]
        by_cases hi : i ∈ s.acquireSet c
        · -- the lock was free
          have hnot : i ∉ s.heldSet d := fun hm => by
            have := (h.holder i d).mpr hm
            rw [hfree i hi] at this
            cases this
          simp [hi, hnot, Ne.symm hd]
        · simp [hi, h.holder]
    · intro d
      rw [hs.releaseSet]
      exact h.release d
    · intro d hd hinv
      rcases Involved.of_resume hinv with hinv | ⟨rfl, -⟩
      · exact (h.holds d hd hinv).resume
      · unfold Holds
        rw [hused, hs.heldSet, hs.acquireSet, update_self, update_self]
        refine ⟨?_, rfl⟩
        rcases hc with ⟨-, hc⟩ | hc
        · rw [hc]
          exact Finset.subset_union_right
        · exact hc.1.trans Finset.subset_union_left
    · intro d hd
      rw [hs.queues] at hd
      rcases mem_enqueue.mp hd with hmem | ⟨_, _, hq⟩
      · rw [hused, hs.acquireSet]
        by_cases he : d = c
        · subst he
          rcases hc with ⟨hc, -⟩ | hc
          · exact absurd hmem hc
          · rw [update_self, ← h.waiting d hmem, hc.2]
        · rw [update_of_ne he]
          exact h.waiting d hmem
      · cases hq
  | false =>
    have hw := waited_spec hr ok
    refine ⟨hlinked, ?_, ?_, ?_, ?_⟩
    · rw [hw.holder, hw.heldSet]
      exact h.holder
    · rw [hw.releaseSet]
      exact h.release
    · intro d hd hinv
      rcases Involved.of_resume hinv with hinv | ⟨-, hrun⟩
      · exact (h.holds d hd hinv).resume
      · rw [hr] at hrun
        cases hrun
    · intro d hd
      rw [hw.acquireSet, hused]
      rw [hw.queues] at hd
      rcases mem_enqueue.mp hd with hd | ⟨_, rfl, _⟩
      · exact h.waiting d hd
      · rcases hc with ⟨-, hc⟩ | hc
        · exact hc
        · -- a context that needs no lock can run
          obtain ⟨i, hi, -⟩ := isRunnable_false.mp hr
          rw [hc.2] at hi
          cases hi

lemma quiet (hq : Quiet s t) : Owned x t := by
  have hl := h.linked.quiet hq
  rw [hq] at hl ⊢
  exact ⟨hl, h.holder, h.release, h.holds, h.waiting⟩

lemma setState (hl : s.loaded c = true) (hc : Holds s c) (st : Status) :
    Owned x (s.setState c st) := by
  refine ⟨h.linked.setState hl st, h.holder, h.release, ?_, h.waiting⟩
  intro d hd hinv
  by_cases he : d = c
  · exact he ▸ hc
  · exact h.holds d hd (hinv.of_setState he)

lemma dequeued (hq : s.queues q = c :: rest) : Owned x (s.dequeued c q rest) := by
  refine ⟨h.linked.dequeued hq, h.holder, h.release, ?_, ?_⟩
  · exact fun d hd hinv => h.holds d hd (hinv.of_dequeued h.linked hq)
  · exact fun d hd => h.waiting d ((h.linked.mem_dequeued hq).mp hd).1

lemma enqueue (hl : s.loaded c = true) (hc : Holds s c) (hq : q ≠ .readyQueue) :
    Owned x (s.queueEnqueue c q) := by
  have hu := queueEnqueue_unlocked s c q
  have hsame := queueEnqueue_same s c q
  have hholds : ∀ d, Holds s d → Holds (s.queueEnqueue c q) d := by
    intro d hd
    unfold Holds
    rw [hu.heldSet, hu.acquireSet, hsame.usedVars]
    exact hd
  refine ⟨h.linked.enqueue hl, ?_, ?_, ?_, ?_⟩
  · rw [hu.holder, hu.heldSet]
    exact h.holder
  · rw [hu.releaseSet]
    exact h.release
  · intro d hd hinv
    refine hholds d ?_
    by_cases he : d = c
    · exact he ▸ hc
    · exact h.holds d hd (hinv.of_enqueue he)
  · intro d hd
    rw [hu.acquireSet, hsame.usedVars]
    rcases mem_enqueue.mp hd with hd | ⟨_, _, hp⟩
    · exact h.waiting d hd
    · exact absurd hp.symm hq

lemma examine (hq : s.queues .readyQueue = c :: rest) :
    Owned x ((s.dequeued c .readyQueue rest).resumeContext c ok) := by
  have hmem : c ∈ s.queues .readyQueue := by simp [hq]
  have hl : s.loaded c = true := h.linked.loaded_of_mem hmem
  refine (h.dequeued hq).resume hl (.inl ⟨?_, h.waiting c hmem⟩)
  exact fun hm => ((h.linked.mem_dequeued hq).mp hm).2 rfl

lemma yield : Owned x (s.yieldContext c ok) :=
  examine_induct (fun _ _ _ hq hu => hu.examine hq) _ _ _
    ((releaseLocks_eq (h.release c)).symm ▸ h)

end

end Owned

lemma Holds.yield (h : Holds s d) (hrel : s.releaseSet c = ∅) : Holds (s.yieldContext c ok) d := by
  have hstep : ∀ u current rest, u.queues .readyQueue = current :: rest → Holds u d →
      Holds ((u.dequeued current .readyQueue rest).resumeContext current ok) d :=
    fun u current rest _ hu => Holds.resume hu
  exact examine_induct hstep _ _ _ ((releaseLocks_eq hrel).symm ▸ h)

namespace Owned

section

variable (h : Owned none s)
include h

lemma releaseAllLocks : Owned (some c) (s.releaseAllLocks c) := by
  refine ⟨⟨h.linked.queue, h.linked.nodup, h.linked.absent⟩, ?_, ?_, ?_, h.waiting⟩
  · intro i d
    simp only [Dvm.releaseAllLocks]
    by_cases hi : i ∈ s.heldSet c
    · -- nobody else has a lock of the context
      have hc := (h.holder i c).mpr hi
      by_cases hd : d = c
      · simp [hi, hd]
      · have hnot : i ∉ s.heldSet d := fun hm => by
          have := (h.holder i d).mpr hm
          rw [hc] at this
          exact hd (Option.some.inj this).symm
        simp [hi, hd, hnot]
    · by_cases hd : d = c
      · subst hd
        simp [hi, h.holder]
      · simp [hi, hd, h.holder]
  · intro d
    by_cases hd : d = c
    · simp [Dvm.releaseAllLocks, hd]
    · simpa [Dvm.releaseAllLocks, hd] using h.release d
  · intro d hd hinv
    have hne : d ≠ c := fun e => hd (e ▸ rfl)
    have hold := h.of_involved hinv
    simpa [Holds, Dvm.releaseAllLocks, hne] using And.intro hold.1 hold.2

lemma halt (hrun : s.state c ≠ .halt) : Owned none (s.haltContext c ok) := by
  have hl : s.loaded c = true := h.linked.loaded_of_state hrun
  have hlinked : Linked (s.haltContext c ok) := h.linked.halt hl
  have hy : Owned (some c) ((s.releaseAllLocks c).yieldContext c ok) := h.releaseAllLocks.yield
  rw [haltContext_eq hrun] at hlinked ⊢
  refine ⟨hlinked, hy.holder, hy.release, ?_, ?_⟩
  · intro d _ hinv
    have hmem : ∀ q, d ∈ (((s.releaseAllLocks c).yieldContext c ok).leaveQueue c).queues q →
        d ∈ ((s.releaseAllLocks c).yieldContext c ok).queues q ∧ d ≠ c :=
      fun q hm => hy.linked.mem_leave.mp hm
    by_cases hd : d = c
    · -- the context is halted and in no queue
      subst hd
      rcases hinv with hst | hm | hm
      · simp [Active, Dvm.setState] at hst
      · exact absurd rfl (hmem _ hm).2
      · exact absurd rfl (hmem _ hm).2
    · refine hy.holds d (by simpa using hd) ?_
      refine Or.imp ?_ (Or.imp (fun hm => (hmem _ hm).1) (fun hm => (hmem _ hm).1)) hinv
      simp [Active, Dvm.setState, hd, leaveQueue]
  · exact fun d hd => hy.waiting d (hy.linked.mem_leave.mp hd).1

lemma initialized (hl : s.loaded c = true) (hc : s.heldSet c = ∅) :
    Owned none (s.initializeContext c) := by
  have hheld : (s.initializeContext c).heldSet = s.heldSet := by simp [initializeContext, ← hc]
  refine ⟨h.linked.initialized hl, ?_, ?_, ?_, ?_⟩
  · rw [hheld]
    exact h.holder
  · intro d
    by_cases hd : d = c
    · simp [initializeContext, hd]
    · simpa [initializeContext, hd] using h.release d
  · intro d _ hinv
    obtain ⟨hinv, hne⟩ := hinv.of_initialized h.linked
    have hold : Holds s d := h.of_involved hinv
    unfold Holds
    simpa [initializeContext, leaveQueue, hne] using And.intro hold.1 hold.2
  · intro d hd
    obtain ⟨hd, hne⟩ := h.linked.mem_leave.mp hd
    simpa [initializeContext, leaveQueue, hne] using h.waiting d hd

lemma begin (hl : s.loaded c = true) (hc : s.heldSet c = ∅) (data : Option Slot) :
    Owned none (s.begin c data ok) := by
  have hi : Owned none (s.initializeContext c) := h.initialized hl hc
  have hneeds : c ∉ (s.initializeContext c).queues .readyQueue ∧
      (s.initializeContext c).acquireSet c = (s.initializeContext c).usedVars c :=
    ⟨fun hm => (h.linked.mem_leave.mp hm).2 rfl, by simp [initializeContext, leaveQueue]⟩
  cases data with
  | none => exact hi.resume hl (.inl hneeds)
  | some v =>
    -- pushing the data leaves a halted context halted, whether it fails or not
    have hset : ∀ m, Owned none ((s.initializeContext c).settle c m) := by
      intro m
      rw [settle_eq]
      split
      · have hq := hi.quiet (calm_quiet (c := c) m)
        exact ⟨hq.linked.setState hl .halt, hq.holder, hq.release,
          fun d hd hinv => hq.holds d hd hinv.of_stop, hq.waiting⟩
      · exact hi.quiet (calm_quiet m)
    exact (hset _).resume hl (.inl hneeds)

lemma load (hguard : exclusive.load s) (script : Script) :
    Owned none (s.loaderDataAvailable c script ok) := by
  have hspec := rebooted_spec h.linked c script ok
  have hhalted : ∀ d, (s.rebooted c script ok).state d = .halt →
      (s.rebooted c script ok).heldSet d = ∅ := by
    refine (rebooted_induct (P := fun u => ∀ d, u.state d = .halt → u.heldSet d = ∅)
      (fun _ _ hu => hu) ?_ ?_).2
    · intro u e hc hu _ d hd
      have hh := haltContext_cleared hc e ok
      rw [hh.state] at hd
      rw [hh.heldSet]
      by_cases he : d = e
      · simp [he]
      · rw [update_of_ne he] at hd ⊢
        exact hu d hd
    · intro d
      by_cases hd : d = c
      · simp [cleared, engineReboot, initializeContext, hd]
      · simpa [cleared, engineReboot, initializeContext, install, hd] using hguard d
  have hheld : ∀ d, (s.rebooted c script ok).heldSet d = ∅ := fun d => hhalted d (hspec.state d)
  have hown : Owned none (s.rebooted c script ok) := by
    refine ⟨hspec.linked, ?_, rebooted_releaseSet h.release script, ?_, ?_⟩
    · simp [hspec.cleared.holder, hheld]
    · intro d _ hinv
      simp [Involved, Active, hspec.state, hspec.cleared.queues] at hinv
    · intro d hd
      simp [hspec.cleared.queues] at hd
  unfold loaderDataAvailable
  dsimp only
  split
  · rename_i hl
    exact hown.begin hl (hheld _) none
  · exact hown

lemma reboot (hguard : exclusive.reboot s) : Owned none s.engineReboot := by
  refine ⟨⟨fun q d hd => absurd hd List.not_mem_nil, fun q => List.nodup_nil, h.linked.absent⟩,
    ?_, h.release, ?_, fun d hd => absurd hd List.not_mem_nil⟩
  · intro i d
    have hheld := (hguard d).1
    simp [engineReboot, hheld]
  · intro d _ hinv
    rcases hinv with hst | hm | hm
    · exact absurd hst (hguard d).2
    · exact absurd hm List.not_mem_nil
    · exact absurd hm List.not_mem_nil

lemma move (hm : Move exclusive s t) : Owned none t := by
  have hlinked : Linked t := h.linked.move hm
  have hholds : ∀ {c}, Running s c → s.loaded c = true ∧ Holds s c := fun {c} hr =>
    ⟨h.linked.loaded_of_state (by rw [hr.2]; decide), h.of_involved (.inl (.inl hr.2))⟩
  have hmem : ∀ {c rest}, s.queues .getDataWaitQueue = c :: rest →
      s.loaded c = true ∧ Holds s c := fun {c rest} hq => by
    have hc : c ∈ s.queues .getDataWaitQueue := by simp [hq]
    exact ⟨h.linked.loaded_of_mem hc, h.of_involved (.inr (.inr hc))⟩
  cases hm with
  | quiet hq => exact h.quiet hq
  | release => exact ⟨hlinked, h.holder, h.release, h.holds, h.waiting⟩
  | begin c data ok hl hg => exact h.begin hl hg data
  | deliver c m ok he hg =>
    have hl := h.linked.loaded_of_executing he
    have hc := h.of_involved (.inl (.inr (.inr hg)))
    have hset : Owned none (s.settle c m) := by
      rw [settle_eq]
      split
      · exact (h.quiet (calm_quiet m)).setState hl hc .halt
      · exact h.quiet (calm_quiet m)
    exact hset.resume hl (.inr hc)
  | answered => exact ⟨hlinked, h.holder, h.release, h.holds, h.waiting⟩
  | asking c _ => exact ⟨hlinked, h.holder, h.release, h.holds, h.waiting⟩
  | park c hr =>
    obtain ⟨hl, hc⟩ := hholds hr
    exact (h.setState hl hc .waiting).enqueue hl hc (by decide)
  | block c ok hr =>
    obtain ⟨hl, hc⟩ := hholds hr
    exact (h.setState hl hc .blocked).yield
  | ask c rest ok hq =>
    obtain ⟨hl, hc⟩ := hmem hq
    exact ((h.dequeued hq).setState hl hc .blocked).yield
  | askAgain c rest hq =>
    obtain ⟨hl, hc⟩ := hmem hq
    exact ((h.dequeued hq).setState hl hc .waiting).enqueue hl hc (by decide)
  | fail c hr _ =>
    obtain ⟨hl, hc⟩ := hholds hr
    exact h.setState hl hc .halt
  | @retry c ok u hr _ hu =>
    obtain ⟨hl, hc⟩ := hholds hr
    have hboth : Owned none u ∧ u.loaded c = true ∧ Holds u c := by
      rcases hu with rfl | ⟨_, rfl⟩
      · exact ⟨h, hl, hc⟩
      · exact ⟨h.setState hl hc .halt, hl, hc⟩
    have hy : Holds (u.yieldContext c ok) c := hboth.2.2.yield (hboth.1.release c)
    obtain ⟨hly, hlr⟩ := loaded_retried hboth.2.1 ok
    exact (hboth.1.yield.resume hly (.inr hy)).setState hlr hy.resume .run
  | halt c ok hr => exact h.halt (by rw [hr.2]; decide)
  | expire c hr =>
    obtain ⟨hl, hc⟩ := hholds hr
    have he := (h.setState hl hc .ready).enqueue (q := .runQueue) hl hc (by decide)
    exact ⟨hlinked, he.holder, he.release, he.holds, he.waiting⟩
  | pick c rest hq _ =>
    have hc : c ∈ s.queues .runQueue := by simp [hq]
    have hp := (h.dequeued hq).setState (h.linked.loaded_of_mem hc)
      (h.of_involved (.inr (.inl hc))) .run
    exact ⟨hlinked, hp.holder, hp.release, hp.holds, hp.waiting⟩
  | reboot con lib hg =>
    exact reboot
      ⟨⟨h.linked.queue, h.linked.nodup, h.linked.absent⟩, h.holder, h.release, h.holds,
        h.waiting⟩ hg
  | load c script ok hg => exact h.load hg script

end

end Owned

lemma initial_owned (base : BitVec 16) (entries : ℕ → ℕ → BitVec 8) :
    Owned none (initial base entries) := by
  refine ⟨⟨nofun, fun _ => List.nodup_nil, fun c _ => ⟨rfl, rfl, nofun⟩⟩, ?_, fun _ => rfl, ?_,
    nofun⟩
  · exact fun i c => ⟨nofun, nofun⟩
  · rintro c _ (hst | hm | hm)
    · simp [Active, initial] at hst
    · cases hm
    · cases hm

/-- In every run a lock has the holder that has it, a context that runs, is ready or is blocked
has the locks of its script, and two such contexts share no variable and no buffer. -/
theorem mutual_exclusion_over_runs (base : BitVec 16) (entries : ℕ → ℕ → BitVec 8)
    (es : List (Event × Reply)) (s : Dvm)
    (hv : ValidTrace step (Legal exclusive) (initial base entries) es)
    (hrun : runTrace step (initial base entries) es = some s) :
    (∀ i c, s.holder i = some c ↔ i ∈ s.heldSet c) ∧
    (∀ i c d, i ∈ s.heldSet c → i ∈ s.heldSet d → c = d) ∧
    (∀ c, Active s c → s.usedVars c ⊆ s.heldSet c) ∧
    ∀ c d, c ≠ d → Active s c → Active s d → Disjoint (s.usedVars c) (s.usedVars d) := by
  have h : Owned none s := (run_keeps (fun _ _ h hm => h.move hm) (initial_owned base entries)
    nofun hv hrun).1
  have hone : ∀ i c d, i ∈ s.heldSet c → i ∈ s.heldSet d → c = d := by
    intro i c d hc hd
    have hic := (h.holder i c).mpr hc
    have hid := (h.holder i d).mpr hd
    exact Option.some.inj (hic.symm.trans hid)
  have hheld : ∀ c, Active s c → s.usedVars c ⊆ s.heldSet c :=
    fun c hc => (h.of_involved (.inl hc)).1
  refine ⟨h.holder, hone, hheld, fun c d hne hc hd => ?_⟩
  rw [Finset.disjoint_left]
  exact fun i hi hj => hne (hone i c d (hheld c hc hi) (hheld d hd hj))

instance : Decidable (exclusive.begin s c) := inferInstanceAs (Decidable (s.heldSet c = ∅))

instance : Decidable (exclusive.deliver s c) := inferInstanceAs (Decidable (s.state c = .blocked))

instance : Decidable (exclusive.fail s c) := inferInstanceAs (Decidable True)

instance : Decidable (exclusive.retry s c) := inferInstanceAs (Decidable True)

instance : Decidable (exclusive.reboot s) :=
  inferInstanceAs (Decidable (∀ c, s.heldSet c = ∅ ∧ ¬ Active s c))

instance : Decidable (exclusive.load s) :=
  inferInstanceAs (Decidable (∀ c, s.state c = .halt → s.heldSet c = ∅))

/-- Two scripts that read the first shared variable, `GETVAR+0; HALT`. -/
def bothLoaded : List (Event × Reply) :=
  [(.load 1 (timerScript [49, 0]), smooth), (.load 2 (timerScript [49, 0]), smooth)]

def oneAfterTheOther : List (Event × Reply) :=
  bothLoaded ++ [(.timeout 1, smooth), (.timeout 2, smooth), (.runTask, smooth),
    (.instruction, smooth), (.instruction, smooth), (.runTask, smooth)]

theorem mutual_exclusion_sample :
    ∃ s, runTrace step booted oneAfterTheOther = some s ∧ s.state 2 = .run ∧
      s.usedVars 2 = {4} ∧ s.holder 4 = some 2 ∧ s.usedVars 2 ⊆ s.heldSet 2 := by
  obtain ⟨s, hrun, hstate, hused, hholder⟩ : ∃ s, runTrace step booted oneAfterTheOther = some s ∧
      s.state 2 = .run ∧ s.usedVars 2 = {4} ∧ s.holder 4 = some 2 := by decide +kernel
  have h := mutual_exclusion_over_runs 4096 (fun _ _ => 0) oneAfterTheOther s
    (by decide +kernel) hrun
  exact ⟨s, hrun, hstate, hused, hholder, h.2.2.1 2 (.inl hstate)⟩

/-- A library is added while the first script is ready: its lock is free then, and the second
script gets it too. -/
def libraryBetween : List (Event × Reply) :=
  bothLoaded ++ [(.timeout 1, smooth), (.addLibrary 1, smooth), (.timeout 2, smooth)]

theorem reboot_gives_lock_twice :
    (runTrace step booted libraryBetween).elim False (fun s =>
      Active s 1 ∧ Active s 2 ∧ s.usedVars 1 = {4} ∧ s.usedVars 2 = {4} ∧
      4 ∈ s.heldSet 1 ∧ s.holder 4 = some 2) ∧
    -- a timer that goes off again takes the lock of its own context away
    (runTrace step booted (bothLoaded ++ [(.timeout 1, smooth), (.timeout 1, smooth)])).elim False
      (fun s => s.holder 4 = some 1 ∧ 4 ∉ s.heldSet 1) := by
  decide +kernel

end DvmLocks
