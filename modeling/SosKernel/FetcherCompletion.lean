import SosKernel.FetcherReassembly
import SosKernel.FetcherMoves

/-! # What a posted completion says

A requester reads success off the retry counter of the fetch state it is handed. -/
namespace FetcherCompletion

open HeapBlocks PointerChain Fetcher FetcherMoves GuardedRuns
open CodeMemory hiding State

variable {c : Config} {s s' : State} {p : ℕ} {key : ℕ} {r : ℤ}

def Truthful (s : State) : Prop :=
  ∀ f ∈ s.done, isFetcherSucceed f = true → ∀ missing ∈ f.map.bitmap, missing = false
  deriving Decidable

structure Inv (s : State) : Prop where
  truthful : Truthful s
  noRetry : s.noMemRetry = false

structure SameLog (s s' : State) : Prop where
  done : s'.done = s.done
  noMemRetry : s'.noMemRetry = s.noMemRetry

lemma Inv.same (h : Inv s) (hsame : SameLog s s') : Inv s' := by
  constructor
  · intro f hf
    rw [hsame.done] at hf
    exact h.truthful f hf
  · rw [hsame.noMemRetry]
    exact h.noRetry

lemma enqueue_sameLog (h : enqueue s p key = some s') : SameLog s s' := by
  obtain ⟨cams, ⟨-, rfl⟩ | ⟨t, -, rfl⟩⟩ := enqueue_cases h <;> exact ⟨rfl, rfl⟩

lemma fetcherRequest_sameLog {reqId size src : ℕ}
    (h : fetcherRequest c s reqId key size src p = some (s', r)) : SameLog s s' := by
  rcases fetcherRequest_cases h with ⟨-, rfl⟩ | ⟨-, -, h⟩
  · exact ⟨rfl, rfl⟩
  · exact ⟨(enqueue_sameLog h).done, (enqueue_sameLog h).noMemRetry⟩

lemma fetcherCancel_sameLog (h : fetcherCancel s key = some (s', r)) :
    SameLog s s' := by
  rcases fetcherCancel_cases h with rfl | ⟨p, cams, -, -, rfl⟩ | ⟨q, t, rfl⟩
  · exact ⟨rfl, rfl⟩
  · split <;> exact ⟨rfl, rfl⟩
  · exact ⟨rfl, rfl⟩

lemma Inv.quiet {served : List ℕ} (h : Inv s) (hq : Quiet served s s') : Inv s' :=
  h.same ⟨hq.done, hq.noRetry⟩

lemma Inv.ends {env : Env} {P : Prop} (h : Inv s) (henv : env.msgHeader = true)
    (he : Ends env P s s') : Inv s' := by
  cases he with
  | quiet hq => exact h.quiet hq
  | posts s1 p _ hq hp hmap hrun =>
    obtain ⟨q, cams, hq', rfl⟩ := sendFetcherDone_cases henv hrun
    cases hp.symm.trans hq'
    refine ⟨fun f hf hsucc => ?_, rfl⟩
    rcases List.mem_append.mp hf with hf | hf
    · exact (h.quiet hq).truthful f hf hsucc
    · rw [List.mem_singleton.mp hf] at hsucc ⊢
      simpa [checkMap] using hmap hsucc

def HasHeader : Event → Prop
  | .fragment _ env => env.msgHeader = true
  | .requestTimer env => env.msgHeader = true
  | _ => True

lemma step_preserves_invariant (s : State) (e : Event) (s' : State) (h : Inv s)
    (hlegal : HasHeader e) (hrun : Fetcher.step c s e = some s') : Inv s' := by
  cases e with
  | request reqId key size src p =>
    obtain ⟨r, hr, rfl⟩ := Option.map_eq_some_iff.mp hrun
    exact h.same (fetcherRequest_sameLog hr)
  | cancel key =>
    obtain ⟨r, hr, rfl⟩ := Option.map_eq_some_iff.mp hrun
    exact h.same (fetcherCancel_sameLog hr)
  | restart p src =>
    have hsame := enqueue_sameLog hrun
    exact h.same ⟨hsame.done, hsame.noMemRetry⟩
  | fragment f env => exact h.ends hlegal (handleFragment_ends hrun)
  | overheard =>
    cases hrun
    exact h.quiet (handleOverheardRequest_quiet s)
  | serve msg saddr sizeofModHeader timerOk => exact h.quiet (handleRequest_quiet hrun)
  | requestTimer env =>
    rcases handleRequestTimer_cases hrun with ⟨hretry, -⟩ | ⟨-, hrun⟩
    · cases hretry.symm.trans h.noRetry
    · exact h.ends hlegal (handleRequestTimeout_ends hrun)
  | transmitTimer pktMem postOk => exact h.quiet (handleTransmitTimer_quiet hrun)
  | sendDone =>
    cases hrun
    exact h.same ⟨rfl, rfl⟩

/-- In every run from an idle fetcher in which completions get their message headers, what
is posted as a success is complete. -/
theorem completion_truthful_over_runs {events : List Event} (hdone : s.done = [])
    (hretry : s.noMemRetry = false) (hevents : ∀ e ∈ events, HasHeader e)
    (hrun : runTrace (Fetcher.step c) s events = some s') : Truthful s' := by
  have hinv : Inv s := ⟨by simp [Truthful, hdone], hretry⟩
  exact (run_invariant_of_some step_preserves_invariant hinv (validTrace_of_forall hevents s)
    hrun).truthful

open FetcherReassembly (sampleFetcher sampleEvents sampleEnv)
open CodeMemoryCoherence (sampleConfig)

theorem completion_truthful_sample : ∃ s', runTrace (Fetcher.step sampleConfig) sampleFetcher
    (.request 17 5 128 1 900 :: sampleEvents) = some s' ∧ s'.done ≠ [] ∧ Truthful s' := by
  obtain ⟨s', hrun, hdone⟩ : ∃ s', runTrace (Fetcher.step sampleConfig) sampleFetcher
      (.request 17 5 128 1 900 :: sampleEvents) = some s' ∧ s'.done ≠ [] := by decide +kernel
  refine ⟨s', hrun, hdone, completion_truthful_over_runs rfl rfl (fun e he => ?_) hrun⟩
  simp only [sampleEvents, List.mem_cons, List.not_mem_nil, or_false] at he
  rcases he with rfl | rfl | rfl | rfl | rfl | rfl | rfl <;> trivial

/-- The post of a failed fetch finds no message header. Before it is tried again, an overheard
request resets the retry counter, so the fetch is reported as a success. -/
theorem retried_completion_untruthful :
    ∃ s', runTrace (Fetcher.step sampleConfig) sampleFetcher
      [.request 17 5 128 1 900, .requestTimer sampleEnv, .requestTimer sampleEnv,
        .requestTimer sampleEnv, .requestTimer { sampleEnv with msgHeader := false, retx := 4 },
        .overheard, .requestTimer sampleEnv] = some s' ∧ ¬ Truthful s' := by
  decide +kernel

end FetcherCompletion
