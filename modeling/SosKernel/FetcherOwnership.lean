import Mathlib.Data.List.Perm.Subperm
import SosKernel.FetcherReassembly
import SosKernel.FetcherMoves

/-! # Who owns the fetch states

The list from `fst` is followed through every step together with the heap: its nodes are distinct
blocks of the fetcher, and the map being served is none of them. -/
namespace FetcherOwnership

open HeapBlocks PointerChain Fetcher FetcherMoves GuardedRuns List Option Function
open CodeMemory hiding State

variable {c : Config} {s s' : State} {p : ℕ} {l l1 l2 : List ℕ} {h : Heap}
  {q pid key src : ℕ} {env : Env} {r : ℤ}

def OwnedBlock (h : Heap) (p : ℕ) : Prop := ∃ b ∈ h, b.addr = p ∧ b.owner = kerFetcherPid
  deriving Decidable

def Owned (s : State) : Prop := ∃ l, Chain s.next s.fst l ∧ ∀ p ∈ l, OwnedBlock s.heap p

structure Links (s : State) (l : List ℕ) : Prop where
  chain : Chain s.next s.fst l
  nodup : l.Nodup
  owned : ∀ p ∈ l, OwnedBlock s.heap p
  serving : ∀ m, s.sendMap = some m → m.addr ∈ addrs s.heap ∧ m.addr ∉ l

lemma OwnedBlock.free (hq : OwnedBlock h q) (hne : q ≠ p) : OwnedBlock (kerFree h p) q := by
  obtain ⟨b, hb, haddr, howner⟩ := hq
  exact ⟨b, mem_kerFree_of_ne hb (haddr ▸ hne), haddr, howner⟩

lemma OwnedBlock.changeOwn (hq : OwnedBlock h q) (hne : q ≠ p) :
    OwnedBlock (kerChangeOwn h p pid) q := by
  obtain ⟨b, hb, haddr, howner⟩ := hq
  exact ⟨b, mem_kerChangeOwn_of_ne hb (haddr ▸ hne), haddr, howner⟩

lemma OwnedBlock.mem_addrs (hp : OwnedBlock h p) : p ∈ addrs h := by
  obtain ⟨b, hb, haddr, -⟩ := hp
  exact mem_map.mpr ⟨b, hb, haddr⟩

lemma OwnedBlock.malloc (hp : OwnedBlock h p) : OwnedBlock (kerMalloc h q pid) p := by
  obtain ⟨b, hb, hrest⟩ := hp
  refine ⟨b, ?_, hrest⟩
  unfold kerMalloc
  split
  · exact hb
  · exact mem_cons_of_mem _ hb

lemma Links.pop (hl : Links s (p :: l)) : Links { s with fst := s.next p } l := by
  refine ⟨hl.chain.2, hl.nodup.of_cons, fun q hq => ?_, fun m hm => ?_⟩
  · exact hl.owned q (mem_cons_of_mem _ hq)
  · obtain ⟨hmem, hno⟩ := hl.serving m hm
    exact ⟨hmem, fun hh => hno (mem_cons_of_mem _ hh)⟩

lemma Links.unlink {q t : ℕ} (hl : Links s (l1 ++ q :: t :: l2)) :
    Links { s.setState q { s.states q with next := s.next t } with heap := kerFree s.heap t }
      (l1 ++ q :: l2) := by
  have hsub : (l1 ++ q :: l2).Sublist (l1 ++ q :: t :: l2) :=
    ((sublist_cons_self t l2).cons_cons q).append_left l1
  have ht : t ∉ l1 ++ q :: l2 := by
    have hd : (l1 ++ [q] ++ t :: l2).Nodup := by simpa using hl.nodup
    simpa using (nodup_cons.mp (nodup_middle.mp hd)).1
  refine ⟨?_, hl.nodup.sublist hsub, fun p hp => ?_, fun m hm => ?_⟩
  · have hchain := hl.chain.unlink_after hl.nodup
    rwa [← next_setState s q { s.states q with next := s.next t }] at hchain
  · apply (hl.owned p (hsub.subset hp)).free
    rintro rfl
    exact ht hp
  · obtain ⟨hmem, hno⟩ := hl.serving m hm
    refine ⟨mem_addrs_kerFree hmem ?_, fun hh => hno (hsub.subset hh)⟩
    rintro rfl
    exact hno (by simp)

section

variable (hl : Links s l)
include hl

lemma Links.length_le : l.length ≤ s.heap.length := by
  have hsub : l ⊆ addrs s.heap := fun p hp => (hl.owned p hp).mem_addrs
  have hlen := (hl.nodup.subperm hsub).length_le
  rwa [addrs, length_map] at hlen

lemma Links.owned_all : Owned s := ⟨l, hl.chain, hl.owned⟩

structure SameLinks (s s' : State) : Prop where
  heap : s'.heap = s.heap
  next : s'.next = s.next
  fst : s'.fst = s.fst
  sendMap : s'.sendMap = s.sendMap

lemma Links.same (hsame : SameLinks s s') : Links s' l := by
  constructor
  · rw [hsame.next, hsame.fst]
    exact hl.chain
  · exact hl.nodup
  · rw [hsame.heap]
    exact hl.owned
  · rw [hsame.heap, hsame.sendMap]
    exact hl.serving

omit hl in
lemma setStatus_sameLinks {key : ℕ} {status : FetchStatus}
    (hrun : setStatus s key status = some s') : SameLinks s s' := by
  obtain ⟨cam, -, rfl⟩ := map_eq_some_iff.mp hrun
  constructor <;> rfl

lemma Links.eq_cons (hp : s.fst = some p) : ∃ l', l = p :: l' := Chain.eq_cons (hp ▸ hl.chain)

lemma Links.setState (hp : p ∉ l) (f : FetcherState) : Links (s.setState p f) l := by
  refine ⟨hl.chain.congr (fun q hq => ?_), hl.nodup, hl.owned, hl.serving⟩
  rw [next_setState, update_of_ne]
  rintro rfl
  exact hp hq

lemma Links.free (hp : p ∉ l) (hserve : ∀ m, s.sendMap = some m → m.addr ≠ p) :
    Links { s with heap := kerFree s.heap p } l := by
  refine ⟨hl.chain, hl.nodup, fun q hq => ?_, fun m hm => ?_⟩
  · apply (hl.owned q hq).free
    rintro rfl
    exact hp hq
  · obtain ⟨hmem, hno⟩ := hl.serving m hm
    exact ⟨mem_addrs_kerFree hmem (hserve m hm), hno⟩

lemma Links.changeOwn (hp : p ∉ l) (pid : ℕ) :
    Links { s with heap := kerChangeOwn s.heap p pid } l := by
  refine ⟨hl.chain, hl.nodup, fun q hq => ?_, fun m hm => ?_⟩
  · apply (hl.owned q hq).changeOwn
    rintro rfl
    exact hp hq
  · rw [addrs_kerChangeOwn]
    exact hl.serving m hm

lemma freeSendStateMap_links : Links (freeSendStateMap s) l := by
  unfold freeSendStateMap
  cases hm : s.sendMap with
  | none => exact ⟨hl.chain, hl.nodup, hl.owned, fun m hm => by cases hm⟩
  | some m =>
    obtain ⟨-, hno⟩ := hl.serving m hm
    refine ⟨hl.chain, hl.nodup, fun q hq => ?_, fun m hm => by cases hm⟩
    apply (hl.owned q hq).free
    rintro rfl
    exact hno hq

lemma enqueue_links (hp : p ∉ l) (howned : OwnedBlock s.heap p)
    (hnext : s.next p = none) (hserve : ∀ m, s.sendMap = some m → m.addr ≠ p)
    (hrun : enqueue s p key = some s') : Links s' (l ++ [p]) := by
  have hall : ∀ q ∈ l ++ [p], OwnedBlock s.heap q := by
    intro q hq
    rcases mem_append.mp hq with hq | hq
    · exact hl.owned q hq
    · rw [mem_singleton.mp hq]
      exact howned
  have hnodup : (l ++ [p]).Nodup := by
    rw [nodup_append]
    refine ⟨hl.nodup, nodup_singleton p, fun a ha b hb hab => hp ?_⟩
    rw [mem_singleton.mp hb] at hab
    exact hab ▸ ha
  have hserving : ∀ m, s.sendMap = some m → m.addr ∈ addrs s.heap ∧ m.addr ∉ l ++ [p] := by
    intro m hm
    obtain ⟨hmem, hno⟩ := hl.serving m hm
    refine ⟨hmem, fun hh => ?_⟩
    rcases mem_append.mp hh with hh | hh
    · exact hno hh
    · exact hserve m hm (mem_singleton.mp hh)
  cases hfst : s.fst with
  | none =>
    have hnil : l = [] := hl.chain.unique (by rw [hfst]; exact rfl)
    subst hnil
    simp only [enqueue, hfst] at hrun
    obtain ⟨s1, hs1, rfl⟩ := map_eq_some_iff.mp hrun
    have hsame := setStatus_sameLinks hs1
    refine ⟨⟨rfl, ?_⟩, hnodup, ?_, ?_⟩
    · exact (congrFun hsame.next p).trans hnext
    · rw [hsame.heap]
      exact hall
    · rw [hsame.heap, hsame.sendMap]
      exact hserving
  | some q =>
    simp only [enqueue, hfst] at hrun
    obtain ⟨s1, hs1, hrun⟩ := bind_eq_some_iff.mp hrun
    have hsame := setStatus_sameLinks hs1
    have hl1 := hl.same hsame
    rw [collect_spec hl1.chain (Nat.le_succ_of_le hl1.length_le)] at hrun
    obtain ⟨t, ht, rfl⟩ := map_eq_some_iff.mp hrun
    -- the loop stops at the last state, whose link is set
    obtain ⟨l0, rfl⟩ := List.getLast?_eq_some_iff.mp ht
    refine ⟨?_, hnodup, ?_, ?_⟩
    · rw [next_setState]
      exact hl1.chain.append_last hl.nodup hp ((congrFun hsame.next p).trans hnext)
    · intro q hq
      rw [show (s1.setState t _).heap = s.heap from hsame.heap]
      exact hall q hq
    · intro m hm
      rw [show (s1.setState t _).heap = s.heap from hsame.heap]
      exact hserving m (hsame.sendMap.symm.trans hm)

end

section

variable (hl : Links s l)
include hl

lemma fetcherRequest_links {reqId size : ℕ}
    (hfresh : p ∉ addrs s.heap) (hrun : fetcherRequest c s reqId key size src p = some (s', r)) :
    ∃ l', Links s' l' := by
  rcases fetcherRequest_cases hrun with ⟨-, rfl⟩ | ⟨-, hp, hs1⟩
  · exact ⟨l, hl⟩
  have hnot : p ∉ l := fun hh => hfresh (hl.owned p hh).mem_addrs
  have hheap : kerMalloc s.heap p kerFetcherPid = ⟨p, kerFetcherPid, kerFetcherPid⟩ :: s.heap :=
    if_neg hp
  have hl1 : Links { s with heap := kerMalloc s.heap p kerFetcherPid } l := by
    refine ⟨hl.chain, hl.nodup, fun q hq => (hl.owned q hq).malloc, fun m hm => ?_⟩
    obtain ⟨hmem, hno⟩ := hl.serving m hm
    rw [hheap]
    exact ⟨mem_cons_of_mem _ hmem, hno⟩
  refine ⟨l ++ [p], enqueue_links (hl1.setState hnot _) hnot ?_ ?_ ?_ hs1⟩
  · refine ⟨⟨p, kerFetcherPid, kerFetcherPid⟩, ?_, rfl, rfl⟩
    simp [State.setState, hheap]
  · rw [next_setState, update_self]
  · rintro m hm rfl
    exact hfresh (hl.serving m hm).1

lemma fetcherRestart_links (hp : p ∉ l)
    (howned : OwnedBlock s.heap p) (hserve : ∀ m, s.sendMap = some m → m.addr ≠ p)
    (hrun : fetcherRestart s p src = some s') : ∃ l', Links s' l' := by
  refine ⟨l ++ [p], enqueue_links (hl.setState hp _) hp howned ?_ hserve hrun⟩
  rw [next_setState, update_self]

lemma fetcherCancel_links
    (hrun : fetcherCancel s key = some (s', r)) : ∃ l', Links s' l' := by
  cases hfst : s.fst with
  | none =>
    simp only [fetcherCancel, hfst] at hrun
    cases hrun
    exact ⟨l, hl⟩
  | some p =>
    obtain ⟨l', rfl⟩ := hl.eq_cons hfst
    simp only [fetcherCancel, hfst] at hrun
    split at hrun
    · obtain ⟨s1, hs1, heq⟩ := map_eq_some_iff.mp hrun
      obtain ⟨cams, rfl⟩ := startNewFetch_cases hs1
      have hserve : ∀ m, s.sendMap = some m → m.addr ≠ p := by
        rintro m hm rfl
        exact (hl.serving m hm).2 mem_cons_self
      have hl1 : Links { s with fst := s.next p, cams := cams } l' :=
        hl.pop.same ⟨rfl, rfl, rfl, rfl⟩
      have hl2 := hl1.free (nodup_cons.mp hl.nodup).1 hserve
      cases heq
      split
      · exact ⟨l', freeSendStateMap_links hl2⟩
      · exact ⟨l', hl2⟩
    · have hlen : l'.length ≤ s.heap.length + 1 := by
        have hle := hl.length_le
        rw [length_cons] at hle
        omega
      rcases findPrev_behind hl.chain.2 hlen with
        ⟨q, hnone, -⟩ | ⟨l0, q, t, l2, hsplit, -, hfound⟩
      · rw [hnone] at hrun
        cases q <;> cases hrun <;> exact ⟨_, hl⟩
      · rw [hfound] at hrun
        rw [hsplit] at hl
        cases hrun
        exact ⟨_, hl.unlink⟩

lemma Links.quiet {served : List ℕ} (hq : Quiet served s s')
    (hserved : ∀ a ∈ served, a ∈ addrs s.heap ∧ a ∉ l) : Links s' l := by
  refine ⟨by rw [hq.next, hq.fst]; exact hl.chain, hl.nodup, fun p hp => ?_, fun m' hm' => ?_⟩
  · obtain ⟨b, hb, rfl, howner⟩ := hl.owned p hp
    rcases hq.heap b hb with hb | ⟨ha, -⟩ | ⟨-, m, hm, ha⟩
    · exact ⟨b, hb, rfl, howner⟩
    · exact absurd hp (hserved _ ha).2
    · exact absurd hp (ha ▸ (hl.serving m hm).2)
  · obtain ⟨hmem, hno⟩ : m'.addr ∈ addrs s.heap ∧ m'.addr ∉ l := by
      rcases hq.sendMap m' hm' with ha | ⟨m, hm, ha⟩
      · exact hserved _ ha
      · exact ha ▸ hl.serving m hm
    refine ⟨(hq.addrs hmem).resolve_right ?_, hno⟩
    rintro ⟨hnone, -⟩
    cases hnone.symm.trans hm'

lemma sendFetcherDone_links (henv : env.msgHeader = true)
    (hrun : sendFetcherDone s env = some s') : ∃ l', Links s' l' := by
  obtain ⟨p, cams, hp, rfl⟩ := sendFetcherDone_cases henv hrun
  obtain ⟨l', rfl⟩ := hl.eq_cons hp
  exact ⟨l', (hl.pop.changeOwn (nodup_cons.mp hl.nodup).1 kerSchedPid).same
    ⟨rfl, rfl, rfl, rfl⟩⟩

lemma Links.ends {P : Prop} (henv : env.msgHeader = true)
    (he : Ends env P s s') : ∃ l', Links s' l' := by
  cases he with
  | quiet hq => exact ⟨l, hl.quiet hq nofun⟩
  | posts s1 p _ hq _ _ hrun => exact sendFetcherDone_links (hl.quiet hq nofun) henv hrun

end

def NotLinked (s : State) (p : ℕ) : Prop :=
  (collect s.next (s.heap.length + 1) s.fst).elim False (fun l => p ∉ l)
  deriving Decidable

/-- New blocks are fresh, a completion has its message header, `fetcher_restart` is handed a
block of the fetcher that is in no use, and a request to serve comes in a block of its own. -/
def Legal (s : State) : Event → Prop
  | .request _ _ _ _ p => p ∉ addrs s.heap
  | .restart p _ => OwnedBlock s.heap p ∧ NotLinked s p ∧ s.sendMap.elim True (fun m => m.addr ≠ p)
  | .fragment _ env => env.msgHeader = true
  | .requestTimer env => env.msgHeader = true
  | .serve msg _ _ _ => msg.addr ∈ addrs s.heap ∧ ¬ OwnedBlock s.heap msg.addr
  | _ => True

instance (e : Event) : Decidable (Legal s e) := by cases e <;> (dsimp only [Legal]; infer_instance)

lemma NotLinked.not_mem (hp : NotLinked s p) (hl : Links s l) : p ∉ l := by
  rwa [NotLinked, collect_spec hl.chain (Nat.le_succ_of_le hl.length_le)] at hp

lemma step_preserves_invariant (s : State) (e : Event) (s' : State)
    (hinv : ∃ l, Links s l) (hlegal : Legal s e) (hrun : Fetcher.step c s e = some s') :
    ∃ l, Links s' l := by
  obtain ⟨l, hl⟩ := hinv
  cases e with
  | request reqId key size src p =>
    obtain ⟨r, hr, rfl⟩ := map_eq_some_iff.mp hrun
    exact fetcherRequest_links hl hlegal hr
  | cancel key =>
    obtain ⟨r, hr, rfl⟩ := map_eq_some_iff.mp hrun
    exact fetcherCancel_links hl hr
  | restart p src =>
    obtain ⟨howned, hfree, hserve⟩ := hlegal
    apply fetcherRestart_links hl (hfree.not_mem hl) howned _ hrun
    intro m hm
    rwa [hm] at hserve
  | fragment f env => exact hl.ends hlegal (handleFragment_ends hrun)
  | overheard =>
    cases hrun
    exact ⟨l, hl.quiet (handleOverheardRequest_quiet s) nofun⟩
  | serve msg saddr sizeofModHeader timerOk =>
    refine ⟨l, hl.quiet (handleRequest_quiet hrun) fun a ha => ?_⟩
    rw [mem_singleton.mp ha]
    exact ⟨hlegal.1, fun hh => hlegal.2 (hl.owned _ hh)⟩
  | requestTimer env =>
    rcases handleRequestTimer_cases hrun with ⟨-, hrun⟩ | ⟨-, hrun⟩
    · exact sendFetcherDone_links hl hlegal hrun
    · exact hl.ends hlegal (handleRequestTimeout_ends hrun)
  | transmitTimer pktMem postOk => exact ⟨l, hl.quiet (handleTransmitTimer_quiet hrun) nofun⟩
  | sendDone =>
    cases hrun
    exact ⟨l, hl.same ⟨rfl, rfl, rfl, rfl⟩⟩

/-- From an idle fetcher on, the linked fetch states are live blocks of the fetcher. -/
theorem fetch_states_owned_over_runs {events : List Event} (hidle : s.fst = none)
    (hquiet : s.sendMap = none) (hvalid : ValidTrace (Fetcher.step c) Legal s events)
    (hrun : runTrace (Fetcher.step c) s events = some s') : Owned s' := by
  have hinit : Links s [] := by
    refine ⟨hidle, nodup_nil, fun p hp => ?_, fun m hm => ?_⟩
    · cases hp
    · rw [hquiet] at hm
      cases hm
  obtain ⟨l, hl⟩ := run_invariant_of_some step_preserves_invariant ⟨[], hinit⟩ hvalid hrun
  exact hl.owned_all

open FetcherReassembly (sampleFetcher sampleFragment sampleEnv)
open CodeMemoryCoherence (sampleConfig)

def queuedEvents : List Event :=
  [.request 17 5 128 1 900, .request 17 5 128 1 960, .fragment (sampleFragment 0) sampleEnv,
    .requestTimer sampleEnv, .fragment (sampleFragment 1) sampleEnv, .overheard,
    .request 17 5 64 1 1000, .cancel 5]

theorem fetch_states_owned_sample :
    ∃ s', runTrace (Fetcher.step sampleConfig) sampleFetcher queuedEvents = some s' ∧
      s'.fst = some 1000 ∧ Owned s' := by
  refine ⟨_, rfl, by decide +kernel, ?_⟩
  apply fetch_states_owned_over_runs rfl rfl
    (by decide +kernel : ValidTrace (Fetcher.step sampleConfig) Legal sampleFetcher queuedEvents)
  rfl

/-- A completion that finds no message header leaves `fst` pointing at a freed block. -/
theorem failed_completion_dangling :
    ∃ s', runTrace (Fetcher.step sampleConfig) sampleFetcher
      [.request 17 5 64 1 900,
        .fragment (sampleFragment 0) { sampleEnv with msgHeader := false }] = some s' ∧
      s'.noMemRetry = true ∧ ¬ Owned s' := by
  refine ⟨_, rfl, rfl, ?_⟩
  rintro ⟨l, hchain, howned⟩
  cases l with
  | nil => cases hchain
  | cons p l =>
    obtain ⟨b, hb, -⟩ := howned p mem_cons_self
    cases hb

end FetcherOwnership
