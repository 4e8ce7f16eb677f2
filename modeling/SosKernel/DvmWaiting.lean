import SosKernel.DvmLocks

/-! # Waiting for locks

A context in `readyQueue` waits for a lock that another context has, which has not halted. It is
so because a context gives its locks back before it halts. -/
namespace DvmWaiting

open DvmMachine DvmMachine.Dvm DvmInterpreter DvmMoves DvmQueues DvmLocks GuardedRuns Function
open Option

variable {s t : Dvm} {c d : Id} {q : QueueId} {ok : Bool} {rest : List Id} {x : Option Id}

def Free (s : Dvm) (c : Id) : Prop := ∀ i, s.holder i ≠ some c
  deriving Decidable

/-- Who has a lock gives it back some time: it knows the lock, is not halted and waits for no
other. The context `x`, if any, is about to be resumed. -/
structure Served (x : Option Id) (s : Dvm) : Prop where
  linked : Linked s
  holder : ∀ i c, s.holder i = some c →
    i ∈ s.heldSet c ∧ (some c ≠ x → s.state c ≠ .halt) ∧ s.acquireSet c = ∅
  release : ∀ c, s.releaseSet c = ∅
  involved : ∀ c, Involved s c → s.acquireSet c = ∅

def served : Guard where
  begin s c := Free s c
  deliver _ _ := True
  fail s c := Free s c
  retry _ _ := True
  reboot _ := True
  load _ := True
  begin_other := fun data _ hne h i => begin_holder data hne i (h i)
  deliver_quiet := fun _ h => h
  fail_quiet := by
    intro s t c hq h
    rw [hq]
    exact h
  retry_quiet := fun _ h => h

lemma acquireSet_resume (h : s.acquireSet d = ∅) : (s.resumeContext c ok).acquireSet d = ∅ := by
  cases hr : s.isRunnable c with
  | true =>
    rw [(started_spec hr _).acquireSet, update_apply]
    split
    · rfl
    · exact h
  | false => rw [(waited_spec hr _).acquireSet, h]

lemma Free.resume (h : Free s d) (hd : s.acquireSet d = ∅) : Free (s.resumeContext c ok) d := by
  intro i
  cases hr : s.isRunnable c with
  | true =>
    rw [(started_spec hr _).holder]
    split
    · rename_i hi
      rintro ⟨⟩
      rw [hd] at hi
      cases hi
    · exact h i
  | false =>
    rw [(waited_spec hr _).holder]
    exact h i

namespace Served

lemma resume (h : Served (some c) s) (hl : s.loaded c = true) :
    Served none (s.resumeContext c ok) := by
  have hlinked : Linked (s.resumeContext c ok) := h.linked.resume hl
  have hinvolved : ∀ d, Involved (s.resumeContext c ok) d →
      (s.resumeContext c ok).acquireSet d = ∅ := by
    intro d hinv
    rcases Involved.of_resume hinv with hinv | ⟨rfl, hr⟩
    · exact acquireSet_resume (h.involved d hinv)
    · rw [(started_spec hr _).acquireSet, update_self]
  have hstate : ∀ d, (some d ≠ some c → s.state d ≠ .halt) →
      (s.resumeContext c ok).state d ≠ .halt := by
    intro d hd
    rw [resumeContext_state, update_apply]
    split
    · split <;> exact nofun
    · rename_i hne
      exact hd (fun e => hne (some.inj e))
  cases hr : s.isRunnable c with
  | true =>
    have hs := started_spec hr ok
    refine ⟨hlinked, ?_, ?_, hinvolved⟩
    · intro i d hd
      rw [hs.holder] at hd
      split at hd
      · rename_i hi
        cases hd
        refine ⟨?_, fun _ => hstate c (fun e => absurd rfl e), ?_⟩
        · rw [hs.heldSet, update_self]
          exact Finset.mem_union_right _ hi
        · rw [hs.acquireSet, update_self]
      · obtain ⟨h1, h2, h3⟩ := h.holder i d hd
        refine ⟨?_, fun _ => hstate d h2, acquireSet_resume h3⟩
        rw [hs.heldSet, update_apply]
        split
        · rename_i he
          exact Finset.mem_union_left _ (he ▸ h1)
        · exact h1
    · rw [hs.releaseSet]
      exact h.release
  | false =>
    have hw := waited_spec hr ok
    refine ⟨hlinked, ?_, ?_, hinvolved⟩
    · intro i d hd
      rw [hw.holder] at hd
      obtain ⟨h1, h2, h3⟩ := h.holder i d hd
      rw [hw.heldSet]
      exact ⟨h1, fun _ => hstate d h2, acquireSet_resume h3⟩
    · rw [hw.releaseSet]
      exact h.release

lemma except (h : Served none s) : Served x s :=
  ⟨h.linked, fun i c hc => ⟨(h.holder i c hc).1, fun _ => (h.holder i c hc).2.1 nofun,
    (h.holder i c hc).2.2⟩, h.release, h.involved⟩

section

variable (h : Served x s)
include h

lemma quiet (hq : Quiet s t) : Served x t := by
  have hl := h.linked.quiet hq
  rw [hq] at hl ⊢
  exact ⟨hl, h.holder, h.release, h.involved⟩

lemma setState (hl : s.loaded c = true) (hc : s.acquireSet c = ∅)
    (st : Status) (hst : st ≠ .halt) : Served x (s.setState c st) := by
  refine ⟨h.linked.setState hl st, ?_, h.release, ?_⟩
  · intro i d hd
    obtain ⟨h1, h2, h3⟩ := h.holder i d hd
    refine ⟨h1, fun hx => ?_, h3⟩
    simp only [Dvm.setState, update_apply]
    split
    · exact hst
    · exact h2 hx
  · intro d hinv
    by_cases he : d = c
    · exact he ▸ hc
    · exact h.involved d (hinv.of_setState he)

lemma dequeued (hq : s.queues q = c :: rest) : Served x (s.dequeued c q rest) :=
  ⟨h.linked.dequeued hq, h.holder, h.release,
    fun d hinv => h.involved d (hinv.of_dequeued h.linked hq)⟩

lemma enqueue (hl : s.loaded c = true) (hc : s.acquireSet c = ∅) :
    Served x (s.queueEnqueue c q) := by
  have hu := queueEnqueue_unlocked s c q
  refine ⟨h.linked.enqueue hl, ?_, ?_, ?_⟩
  · rw [hu.holder, hu.heldSet, hu.state, hu.acquireSet]
    exact h.holder
  · rw [hu.releaseSet]
    exact h.release
  · intro d hinv
    rw [hu.acquireSet]
    by_cases he : d = c
    · exact he ▸ hc
    · exact h.involved d (hinv.of_enqueue he)

lemma leave : Served x (s.leaveQueue c) :=
  ⟨h.linked.leave, h.holder, h.release, fun d hinv => h.involved d (hinv.of_leave h.linked)⟩

end

lemma stop (h : Served none s) (hl : s.loaded c = true) (hc : Free s c ∨ x = some c) :
    Served x (s.setState c .halt) := by
  refine ⟨h.linked.setState hl .halt, ?_, h.release, ?_⟩
  · intro i d hd
    obtain ⟨h1, h2, h3⟩ := h.holder i d hd
    refine ⟨h1, fun hx => ?_, h3⟩
    have hne : d ≠ c := by
      rintro rfl
      rcases hc with hc | hc
      · exact hc i hd
      · exact hx hc.symm
    simpa [Dvm.setState, hne] using h2 (some_ne_none d)
  · exact fun d hinv => h.involved d hinv.of_stop

lemma examine (h : Served none s) (hq : s.queues .readyQueue = c :: rest) :
    Served none ((s.dequeued c .readyQueue rest).resumeContext c ok) := by
  have hl : s.loaded c = true := h.linked.loaded_of_mem (q := .readyQueue) (by simp [hq])
  exact (h.dequeued hq).except.resume hl

lemma yield (h : Served none s) : Served none (s.yieldContext c ok) :=
  examine_induct (fun _ _ _ hq hu => hu.examine hq) _ _ _
    ((releaseLocks_eq (h.release c)).symm ▸ h)

end Served

lemma acquireSet_yield (h : s.acquireSet d = ∅) : (s.yieldContext c ok).acquireSet d = ∅ := by
  have hstep : ∀ (u : Dvm) current rest, u.queues .readyQueue = current :: rest →
      u.acquireSet d = ∅ →
      ((u.dequeued current .readyQueue rest).resumeContext current ok).acquireSet d = ∅ :=
    fun u current rest _ hu => acquireSet_resume hu
  exact examine_induct hstep _ _ (s.releaseLocks c) h

lemma Free.yield (h : Free s d) (hd : s.acquireSet d = ∅) (hrel : s.releaseSet c = ∅) :
    Free (s.yieldContext c ok) d := by
  have hstep : ∀ (u : Dvm) current rest, u.queues .readyQueue = current :: rest →
      Free u d ∧ u.acquireSet d = ∅ →
      Free ((u.dequeued current .readyQueue rest).resumeContext current ok) d ∧
      ((u.dequeued current .readyQueue rest).resumeContext current ok).acquireSet d = ∅ :=
    fun u current rest _ hu => ⟨Free.resume hu.1 hu.2, acquireSet_resume hu.2⟩
  exact (examine_induct hstep _ _ _ ((releaseLocks_eq hrel).symm ▸ ⟨h, hd⟩)).1

namespace Served

section

variable (h : Served none s)
include h

lemma releaseAllLocks : Served none (s.releaseAllLocks c) ∧ Free (s.releaseAllLocks c) c := by
  have hback : ∀ i d, (s.releaseAllLocks c).holder i = some d →
      i ∉ s.heldSet c ∧ s.holder i = some d := by
    intro i d hd
    simp only [Dvm.releaseAllLocks] at hd
    split at hd
    · cases hd
    · rename_i hi
      exact ⟨hi, hd⟩
  have hother : ∀ i d, (s.releaseAllLocks c).holder i = some d → d ≠ c := by
    rintro i d hd rfl
    obtain ⟨hi, hd⟩ := hback i d hd
    exact hi (h.holder i d hd).1
  refine ⟨⟨⟨h.linked.queue, h.linked.nodup, h.linked.absent⟩, ?_, ?_, h.involved⟩, ?_⟩
  · intro i d hd
    have hne := hother i d hd
    obtain ⟨h1, h2, h3⟩ := h.holder i d (hback i d hd).2
    refine ⟨?_, h2, h3⟩
    simpa [Dvm.releaseAllLocks, hne] using h1
  · intro d
    by_cases hd : d = c
    · simp [Dvm.releaseAllLocks, hd]
    · simpa [Dvm.releaseAllLocks, hd] using h.release d
  · exact fun i hi => hother i c hi rfl

lemma halt (hr : Running s c) : Served none (s.haltContext c ok) := by
  have hrun : s.state c ≠ .halt := by
    rw [hr.2]
    exact nofun
  have hl : s.loaded c = true := h.linked.loaded_of_state hrun
  have hneeds : s.acquireSet c = ∅ := h.involved c (.inl (.inl hr.2))
  obtain ⟨hserved, hfree⟩ := h.releaseAllLocks
  have hy : Free ((s.releaseAllLocks c).yieldContext c ok) c :=
    hfree.yield hneeds (hserved.release c)
  have hly : ((s.releaseAllLocks c).yieldContext c ok).loaded c = true := by
    rw [(yieldContext_same _ c ok).loaded]
    exact hl
  rw [haltContext_eq hrun]
  exact hserved.yield.leave.stop hly (.inl hy)

lemma initialized (hl : s.loaded c = true) (hc : Free s c) :
    Served none (s.initializeContext c) := by
  refine ⟨h.linked.initialized hl, ?_, ?_, ?_⟩
  · intro i d hd
    have hne : d ≠ c := fun e => hc i (e ▸ hd)
    obtain ⟨h1, h2, h3⟩ := h.holder i d hd
    simpa [initializeContext, leaveQueue, hne] using ⟨h1, h2 (some_ne_none d), h3⟩
  · intro d
    by_cases hd : d = c
    · simp [initializeContext, hd]
    · simpa [initializeContext, hd] using h.release d
  · intro d hinv
    obtain ⟨hinv, hne⟩ := hinv.of_initialized h.linked
    have hold : s.acquireSet d = ∅ := h.involved d hinv
    simpa [initializeContext, hne] using hold

lemma begin (hl : s.loaded c = true) (hc : Free s c) (data : Option Slot) :
    Served none (s.begin c data ok) := by
  have hi : Served none (s.initializeContext c) := h.initialized hl hc
  cases data with
  | none => exact hi.except.resume hl
  | some v =>
    have hset : ∀ m, Served none ((s.initializeContext c).settle c m) := by
      intro m
      rw [settle_eq]
      split
      · exact (hi.quiet (calm_quiet m)).stop hl (.inl hc)
      · exact hi.quiet (calm_quiet m)
    exact (hset _).except.resume hl

lemma load (script : Script) : Served none (s.loaderDataAvailable c script ok) := by
  have hspec := rebooted_spec h.linked c script ok
  have hown : Served none (s.rebooted c script ok) := by
    refine ⟨hspec.linked, ?_, rebooted_releaseSet h.release script, ?_⟩
    · intro i d hd
      rw [hspec.cleared.holder] at hd
      cases hd
    · intro d hinv
      simp [Involved, Active, hspec.state, hspec.cleared.queues] at hinv
  unfold loaderDataAvailable
  dsimp only
  split
  · rename_i hl
    refine hown.begin hl (fun i => ?_) none
    rw [hspec.cleared.holder]
    exact (some_ne_none _).symm
  · exact hown

lemma move (hm : Move served s t) : Served none t := by
  have hlinked : Linked t := h.linked.move hm
  have hrunning : ∀ {c}, Running s c → s.loaded c = true ∧ s.acquireSet c = ∅ := fun {c} hr =>
    ⟨h.linked.loaded_of_state (by rw [hr.2]; decide), h.involved c (.inl (.inl hr.2))⟩
  have hmem : ∀ {c rest}, s.queues .getDataWaitQueue = c :: rest →
      s.loaded c = true ∧ s.acquireSet c = ∅ := fun {c rest} hq => by
    have hc : c ∈ s.queues .getDataWaitQueue := by simp [hq]
    exact ⟨h.linked.loaded_of_mem hc, h.involved c (.inr (.inr hc))⟩
  cases hm with
  | quiet hq => exact h.quiet hq
  | release => exact ⟨hlinked, h.holder, h.release, h.involved⟩
  | begin c data ok hl hg => exact h.begin hl hg data
  | deliver c m ok he _ =>
    have hl := h.linked.loaded_of_executing he
    have hset : Served (some c) (s.settle c m) := by
      rw [settle_eq]
      split
      · exact (h.quiet (calm_quiet m)).stop hl (.inr rfl)
      · exact (h.quiet (calm_quiet m)).except
    exact hset.resume hl
  | answered => exact ⟨hlinked, h.holder, h.release, h.involved⟩
  | asking c _ => exact ⟨hlinked, h.holder, h.release, h.involved⟩
  | park c hr =>
    obtain ⟨hl, hc⟩ := hrunning hr
    exact (h.setState hl hc .waiting (by decide)).enqueue hl hc
  | block c ok hr =>
    obtain ⟨hl, hc⟩ := hrunning hr
    exact (h.setState hl hc .blocked (by decide)).yield
  | ask c rest ok hq =>
    obtain ⟨hl, hc⟩ := hmem hq
    exact ((h.dequeued hq).setState hl hc .blocked (by decide)).yield
  | askAgain c rest hq =>
    obtain ⟨hl, hc⟩ := hmem hq
    exact ((h.dequeued hq).setState hl hc .waiting (by decide)).enqueue hl hc
  | fail c hr hg => exact h.stop (hrunning hr).1 (.inl hg)
  | @retry c ok u hr _ hu =>
    obtain ⟨hl, hc⟩ := hrunning hr
    have hboth : Served none u ∧ u.loaded c = true ∧ u.acquireSet c = ∅ := by
      rcases hu with rfl | ⟨hg, rfl⟩
      · exact ⟨h, hl, hc⟩
      · exact ⟨h.stop hl (.inl hg), hl, hc⟩
    obtain ⟨hly, hlr⟩ := loaded_retried hboth.2.1 ok
    have hneeds : ((u.yieldContext c ok).resumeContext c ok).acquireSet c = ∅ :=
      acquireSet_resume (acquireSet_yield hboth.2.2)
    exact (hboth.1.yield.except.resume hly).setState hlr hneeds .run (by decide)
  | halt c ok hr => exact h.halt hr
  | expire c hr =>
    obtain ⟨hl, hc⟩ := hrunning hr
    have he := (h.setState hl hc .ready (by decide)).enqueue (q := .runQueue) hl hc
    exact ⟨hlinked, he.holder, he.release, he.involved⟩
  | pick c rest hq _ =>
    have hc : c ∈ s.queues .runQueue := by simp [hq]
    have hp := (h.dequeued hq).setState (h.linked.loaded_of_mem hc)
      (h.involved c (.inr (.inl hc))) .run (by decide)
    exact ⟨hlinked, hp.holder, hp.release, hp.involved⟩
  | reboot con lib _ =>
    refine ⟨hlinked, nofun, h.release, ?_⟩
    rintro d (hst | hm | hm)
    · exact h.involved d (.inl hst)
    · cases hm
    · cases hm
  | load c script ok _ => exact h.load script

end

end Served

lemma initial_served (base : BitVec 16) (entries : ℕ → ℕ → BitVec 8) :
    Served none (initial base entries) := by
  have h := initial_owned base entries
  exact ⟨h.linked, nofun, h.release, fun c hinv => (h.of_involved hinv).2⟩

/-- In every run a context that waits in `readyQueue` needs a lock that another context has, and
the other one is not halted. -/
theorem waits_for_another_over_runs (base : BitVec 16) (entries : ℕ → ℕ → BitVec 8)
    (es : List (Event × Reply)) (s : Dvm)
    (hv : ValidTrace step (Legal served) (initial base entries) es)
    (hrun : runTrace step (initial base entries) es = some s) :
    ∀ c ∈ s.queues .readyQueue, ∃ i ∈ s.acquireSet c, ∃ d,
      s.holder i = some d ∧ d ≠ c ∧ s.state d ≠ .halt := by
  have hmove : ∀ s t, Served none s ∧ Waiting s → Move served s t →
      Served none t ∧ Waiting t := fun s t h hm => ⟨h.1.move hm, h.2.move h.1.linked hm⟩
  obtain ⟨hserved, hwaiting⟩ := (run_keeps hmove ⟨initial_served base entries, nofun⟩ nofun hv
    hrun).1
  intro c hc
  obtain ⟨i, hi, hlocked⟩ := isRunnable_false.mp (hwaiting c hc)
  obtain ⟨d, hd⟩ := ne_none_iff_exists'.mp hlocked
  obtain ⟨-, hstate, hneeds⟩ := hserved.holder i d hd
  refine ⟨i, hi, d, hd, ?_, hstate (some_ne_none d)⟩
  -- a context that has a lock asks for none
  rintro rfl
  rw [hneeds] at hi
  cases hi

instance : Decidable (served.begin s c) := inferInstanceAs (Decidable (Free s c))

instance : Decidable (served.deliver s c) := inferInstanceAs (Decidable True)

instance : Decidable (served.fail s c) := inferInstanceAs (Decidable (Free s c))

instance : Decidable (served.retry s c) := inferInstanceAs (Decidable True)

instance : Decidable (served.reboot s) := inferInstanceAs (Decidable True)

instance : Decidable (served.load s) := inferInstanceAs (Decidable True)

def secondWaits : List (Event × Reply) :=
  bothLoaded ++ [(.timeout 1, smooth), (.timeout 2, smooth), (.runTask, smooth)]

theorem waits_for_another_sample :
    ∃ s, runTrace step booted secondWaits = some s ∧ s.queues .readyQueue = [2] ∧
      ∃ i ∈ s.acquireSet 2, ∃ d, s.holder i = some d ∧ d ≠ 2 ∧ s.state d ≠ .halt := by
  obtain ⟨s, hrun, hqueue⟩ : ∃ s, runTrace step booted secondWaits = some s ∧
      s.queues .readyQueue = [2] := by decide +kernel
  have h := waits_for_another_over_runs 4096 (fun _ _ => 0) secondWaits s (by decide +kernel) hrun
  exact ⟨s, hrun, hqueue, h 2 (by simp [hqueue])⟩

def failingScript : Script := timerScript [49, 2, 2, 0]

/-- The timer of a context that has its lock goes off again: it waits for its own lock. Or a
script is stopped by an error: the other one waits for the lock of a halted context. -/
theorem waits_for_itself_or_halted :
    (runTrace step booted (bothLoaded ++ [(.timeout 1, smooth), (.timeout 1, smooth)])).elim False
      (fun s => s.queues .readyQueue = [1] ∧ s.acquireSet 1 = {4} ∧ s.holder 4 = some 1) ∧
    (runTrace step booted [(.load 1 failingScript, smooth), (.load 2 (timerScript [49, 0]), smooth),
      (.timeout 1, smooth), (.timeout 2, smooth), (.runTask, smooth), (.instruction, smooth),
      (.instruction, smooth), (.instruction, smooth)]).elim False
      (fun s => s.computing = false ∧ s.queues .readyQueue = [2] ∧ s.acquireSet 2 = {4} ∧
        s.holder 4 = some 1 ∧ s.state 1 = .halt) := by
  decide +kernel

end DvmWaiting
