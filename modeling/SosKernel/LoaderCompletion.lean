import SosKernel.FetcherJobs
import SosKernel.Loader

/-! # A completed fetch and its code memory

Between the post of a completion and its delivery the loader may process a version table. -/
namespace LoaderCompletion

open HeapBlocks PointerChain FetcherMoves FetcherJobs Loader GuardedRuns List Option
open CodeMemory hiding State
open Fetcher hiding State Event step

variable {c : Config} {s s' : State} {l : List ℕ} {key p saddr : ℕ} {v : VersionData}
  {ans : Answers} {f : Fetcher.State} {f' : Fetcher.State} {stop : Bool}

def Matches (s : State) (p : ℕ) : Prop :=
  ∃ cam, s.fetcher.cams (s.fetcher.states p).map.key = some cam ∧ cam.cm = s.cm p
  deriving Decidable

def AppliedOwn (a : Applied) : Prop := a.used = a.filled ∧ checkMap a.fetch.map = true

structure Inv (s : State) (l : List ℕ) : Prop where
  jobs : Jobs s.fetcher s.cm l s.pending
  applied : ∀ a ∈ s.applied, AppliedOwn a

lemma Inv.matches (h : Inv s l) (hp : p ∈ l ++ s.pending) : Matches s p :=
  map_eq_some_iff.mp (h.jobs.entry p hp)

def TableSafe (s : State) (pending : List ℕ) (v : VersionData) : Prop :=
  ∀ p ∈ pending, ∀ i < numLoaderParamsEntries + numLoaderModuleEntries,
    keyOf s.fetcher p = sysShmName kerDftLoaderPid i →
      s.version (sysShmName kerDftLoaderPid i) = (v.entry i).ver

structure Frame (s s' : State) : Prop where
  pending : s'.pending = s.pending
  keys : ∀ p ∈ s.pending, keyOf s'.fetcher p = keyOf s.fetcher p
  version : ∀ p ∈ s.pending, s'.version (keyOf s.fetcher p) = s.version (keyOf s.fetcher p)

lemma Frame.refl (s : State) : Frame s s := ⟨rfl, fun _ _ => rfl, fun _ _ => rfl⟩

lemma Frame.trans {s'' : State} (h : Frame s s') (h' : Frame s' s'') : Frame s s'' := by
  refine ⟨h'.pending.trans h.pending, fun p hp => ?_, fun p hp => ?_⟩
  · rw [h'.keys p (h.pending ▸ hp), h.keys p hp]
  · rw [← h.version p hp, ← h.keys p hp, h'.version p (h.pending ▸ hp)]

lemma TableSafe.frame (h : TableSafe s s.pending v) (hf : Frame s s') :
    TableSafe s' s'.pending v := by
  intro p hp i hi hkey
  rw [hf.pending] at hp
  rw [hf.keys p hp] at hkey
  rw [← hkey, hf.version p hp, hkey]
  exact h p hp i hi hkey

lemma Inv.setCodemem (h : Inv s l) (codemem : CodeMemory.State) : Inv (s.setCodemem codemem) l :=
  ⟨h.jobs.outside codemem h.jobs.live (fun m hm => (h.jobs.serving m hm).1), h.applied⟩

lemma freeCode_inv {cm : ℕ} (h : Inv s l) (hrun : freeCode c s cm = some s') :
    Inv s' l ∧ keyOf s'.fetcher = keyOf s.fetcher ∧ Frame s s' := by
  obtain ⟨r, -, rfl⟩ := map_eq_some_iff.mp hrun
  exact ⟨h.setCodemem r.1, rfl, rfl, fun _ _ => rfl, fun _ _ => rfl⟩

section

variable (h : Inv s l) (hkey : ∀ q ∈ l ++ s.pending, keyOf s.fetcher q ≠ key)
include h hkey

lemma Inv.setCam (cam : Option FetcherCam) : Inv (s.setCam key cam) l :=
  ⟨h.jobs.setCam hkey cam, h.applied⟩

lemma requestNewModule_inv {size : UInt8} {type : FetchType} {r : ℤ}
    (hrun : requestNewModule c s key size saddr type ans = some (s', r)) :
    Frame s s' ∧ ((r = 0 ∧ Inv s' (l ++ [ans.block])) ∨
      (r ≠ 0 ∧ Inv s' l ∧ keyOf s'.fetcher = keyOf s.fetcher)) := by
  obtain ⟨cam, -, hrun⟩ := bind_eq_some_iff.mp hrun
  obtain ⟨q, -, hrun⟩ := bind_eq_some_iff.mp hrun
  set s1 := (s.setCodemem q.1).setCam key (some { cam with cm := q.2, fetchtype := type })
  have h1 : Inv s1 l := (h.setCodemem q.1).setCam hkey _
  have hframe1 : Frame s s1 := ⟨rfl, fun _ _ => rfl, fun _ _ => rfl⟩
  split at hrun
  · obtain ⟨hs', hr⟩ := Prod.mk.inj (some.inj hrun)
    subst hs' hr
    exact ⟨hframe1, .inr ⟨by decide, h1, rfl⟩⟩
  split at hrun
  · cases hrun
  next hfresh =>
    obtain ⟨⟨f, r'⟩, hreq, hrun⟩ := bind_eq_some_iff.mp hrun
    simp only at hrun
    split at hrun
    next hr =>
      -- no memory for the fetch state: the code memory is given back
      have hf := (fetcherRequest_cases hreq).elim And.right fun h => absurd h.1 hr
      subst hf
      obtain ⟨s3, hs3, heq⟩ := map_eq_some_iff.mp hrun
      cases heq
      obtain ⟨h3, hkeys, hframe⟩ := freeCode_inv h1 hs3
      exact ⟨hframe1.trans hframe, .inr ⟨by decide, h3, hkeys⟩⟩
    next hr =>
      cases hrun
      have hcam : s1.fetcher.cams key = some { cam with cm := q.2, fetchtype := type } :=
        Function.update_self ..
      rw [not_not.mp hr] at hreq
      obtain ⟨hjobs, hstates⟩ := h1.jobs.request hfresh hkey hcam hreq
      refine ⟨⟨rfl, fun p hp => ?_, fun _ _ => rfl⟩, .inl ⟨rfl, hjobs, h1.applied⟩⟩
      exact congrArg (fun g => g.map.key) (hstates p hp)

lemma insertModule_inv {e : TableEntry}
    (hrun : insertModule c s key e saddr ans = some (s', stop)) :
    (∃ l', Inv s' l') ∧ Frame s s' := by
  obtain ⟨⟨s1, r⟩, hreq, heq⟩ := map_eq_some_iff.mp hrun
  obtain ⟨hframe, hcase⟩ := requestNewModule_inv h hkey hreq
  rcases hcase with ⟨hr, h1⟩ | ⟨hr, h1, hkeys⟩
  · simp only [hr, ne_eq, not_true_eq_false, if_false] at heq
    cases heq
    refine ⟨⟨_, h1.jobs, h1.applied⟩, hframe.trans ⟨rfl, fun _ _ => rfl, fun p hp => ?_⟩⟩
    -- the version that is set is not that of a posted fetch
    apply Function.update_of_ne
    rw [hframe.pending] at hp
    rw [hframe.keys p hp]
    exact hkey p (mem_append_right _ hp)
  · simp only [ne_eq, hr, not_false_eq_true, if_true] at heq
    cases heq
    refine ⟨⟨l, h1.setCam ?_ none⟩, hframe.trans ⟨rfl, fun _ _ => rfl, fun _ _ => rfl⟩⟩
    intro q hq
    rw [hframe.pending] at hq
    rw [hkeys]
    exact hkey q hq

end

lemma dropCode_inv {cam : FetcherCam} (h : Inv s l) (hcam : s.fetcher.cams key = some cam)
    (hpending : ∀ q ∈ s.pending, keyOf s.fetcher q ≠ key) (hrun : dropCode c s key cam = some s') :
    (∃ l', Inv s' l' ∧ ∀ q ∈ l' ++ s'.pending, keyOf s'.fetcher q ≠ key) ∧ Frame s s' := by
  obtain ⟨s1, hs1, hrun⟩ := bind_eq_some_iff.mp hrun
  suffices hgoal : (∃ l', Inv s1 l' ∧ ∀ q ∈ l' ++ s1.pending, keyOf s1.fetcher q ≠ key) ∧
      Frame s s1 by
    obtain ⟨⟨l', h1, hne⟩, hframe1⟩ := hgoal
    obtain ⟨h2, hkeys, hframe⟩ := freeCode_inv h1 hrun
    refine ⟨⟨l', h2, fun q hq => ?_⟩, hframe1.trans hframe⟩
    rw [hframe.pending] at hq
    rw [hkeys]
    exact hne q hq
  split at hs1
  · obtain ⟨⟨f, r⟩, hcancel, rfl⟩ := map_eq_some_iff.mp hs1
    obtain ⟨l', hjobs, hne, hkeys⟩ := h.jobs.cancel hpending hcancel
    refine ⟨⟨l', ⟨hjobs, h.applied⟩, fun q hq => ?_⟩, rfl, fun p _ => hkeys p, fun _ _ => rfl⟩
    rw [hkeys]
    exact hne q hq
  next hdone =>
    cases hs1
    refine ⟨⟨l, h, fun q hq heq => ?_⟩, Frame.refl s⟩
    rcases mem_append.mp hq with hq | hq
    · -- a linked fetch would have an entry that is not done
      obtain ⟨cam', hcam', hstatus⟩ := h.jobs.active q hq
      rw [heq, hcam] at hcam'
      cases hcam'
      exact hdone hstatus
    · exact hpending q hq heq

lemma processEntry_inv {i : ℕ} (h : Inv s l) (hsafe : TableSafe s s.pending v)
    (hi : i < numLoaderParamsEntries + numLoaderModuleEntries)
    (hrun : processEntry c s v saddr ans i = some (s', stop)) : (∃ l', Inv s' l') ∧ Frame s s' := by
  set key := sysShmName kerDftLoaderPid i with hkeydef
  cases hcam : s.fetcher.cams key with
  | none =>
    simp only [processEntry, ← hkeydef, hcam] at hrun
    -- a fetch of the key would have an entry
    have hno : ∀ q ∈ l ++ s.pending, keyOf s.fetcher q ≠ key := by
      intro q hq heq
      have hentry := h.jobs.entry q hq
      rw [heq, hcam] at hentry
      cases hentry
    split at hrun
    · cases hrun
      exact ⟨⟨l, h⟩, Frame.refl s⟩
    split at hrun
    · cases hrun
      exact ⟨⟨l, h⟩, Frame.refl s⟩
    · have hopen := h.setCam hno (some ans.junk)
      obtain ⟨hinv, hframe⟩ := insertModule_inv hopen hno hrun
      exact ⟨hinv, hframe.pending, hframe.keys, hframe.version⟩
  | some cam =>
    simp only [processEntry, ← hkeydef, hcam] at hrun
    split at hrun
    · cases hrun
      exact ⟨⟨l, h⟩, Frame.refl s⟩
    next hver =>
      have hpending : ∀ q ∈ s.pending, keyOf s.fetcher q ≠ key :=
        fun q hq heq => hver (hsafe q hq i hi heq)
      obtain ⟨s1, hs1, hrun⟩ := bind_eq_some_iff.mp hrun
      obtain ⟨⟨l', h1, hne⟩, hframe⟩ := dropCode_inv h hcam hpending hs1
      split at hrun
      · cases hrun
        exact ⟨⟨l', h1.setCam hne none⟩, hframe.trans ⟨rfl, fun _ _ => rfl, fun _ _ => rfl⟩⟩
      · obtain ⟨hinv, hframe'⟩ := insertModule_inv h1 hne hrun
        exact ⟨hinv, hframe.trans hframe'⟩

lemma processEntries_inv {ans : ℕ → Answers} (is : List ℕ) (h : ∃ l, Inv s l)
    (hsafe : TableSafe s s.pending v)
    (his : ∀ i ∈ is, i < numLoaderParamsEntries + numLoaderModuleEntries)
    (hrun : processEntries c v saddr ans is s = some s') : ∃ l, Inv s' l := by
  induction is generalizing s with
  | nil =>
    cases hrun
    exact h
  | cons i is ih =>
    obtain ⟨l, h⟩ := h
    obtain ⟨⟨s1, stop⟩, hentry, hrun⟩ := bind_eq_some_iff.mp hrun
    obtain ⟨h1, hframe⟩ := processEntry_inv h hsafe (his i mem_cons_self) hentry
    split at hrun
    · cases hrun
      exact h1
    · exact ih h1 (hsafe.frame hframe) (fun j hj => his j (mem_cons_of_mem _ hj)) hrun

lemma processVersionData_inv {ans : ℕ → Answers} (h : Inv s l) (hsafe : TableSafe s s.pending v)
    (hrun : processVersionData c s v saddr ans = some s') : ∃ l', Inv s' l' :=
  processEntries_inv _ ⟨l, h⟩ hsafe (fun _ hi => mem_range.mp hi) hrun

lemma handleVersionData_inv {pkt : VersionData} {ans : ℕ → Answers} (h : Inv s l)
    (hsafe : s.versionData.version < pkt.version → TableSafe s s.pending pkt)
    (hrun : handleVersionData c s pkt saddr ans = some s') : ∃ l', Inv s' l' := by
  simp only [handleVersionData] at hrun
  generalize hs1 : (if s.versionData.version ≤ pkt.version then { s with recentNeighbor := saddr }
    else s : State) = s1 at hrun
  obtain ⟨h1, hframe⟩ : Inv s1 l ∧ Frame s s1 := by
    rw [← hs1]
    split
    · exact ⟨⟨h.jobs, h.applied⟩, rfl, fun _ _ => rfl, fun _ _ => rfl⟩
    · exact ⟨h, Frame.refl s⟩
  split at hrun
  next hnew =>
    have h2 : Inv { s1 with versionData := pkt } l := ⟨h1.jobs, h1.applied⟩
    have hframe2 : Frame s1 { s1 with versionData := pkt } := ⟨rfl, fun _ _ => rfl, fun _ _ => rfl⟩
    exact processVersionData_inv h2 ((hsafe hnew).frame (hframe.trans hframe2)) hrun
  · cases hrun
    exact ⟨l, h1⟩

lemma fetcherCommit_eq (s : State) (key : ℕ) :
    ∃ codemem, fetcherCommit c s key = s.setCodemem codemem := by
  unfold fetcherCommit
  cases s.fetcher.cams key with
  | none => exact ⟨s.fetcher.codemem, rfl⟩
  | some _ => exact ⟨_, rfl⟩

lemma Inv.deliver {x : ℕ} {rest : List ℕ} (h : Inv s l) (hpending : s.pending = p :: rest)
    (hown : x = s.cm p) (hsucc : isFetcherSucceed (s.fetcher.states p) = true)
    (codemem : CodeMemory.State) :
    Inv { s with
      pending := rest
      fetcher := { s.fetcher with codemem := codemem }
      applied := s.applied ++ [⟨x, s.fetcher.states p, s.cm p⟩] } l := by
  have hjobs := h.jobs
  rw [hpending] at hjobs
  have htail := hjobs.tail.1
  refine ⟨htail.outside codemem htail.live (fun m hm => (htail.serving m hm).1), fun a ha => ?_⟩
  rcases mem_append.mp ha with ha | ha
  · exact h.applied a ha
  · rw [mem_singleton.mp ha]
    exact ⟨hown, hjobs.truthful p mem_cons_self hsucc⟩

lemma handleFetcherDone_inv {ans : ℕ → Answers} (h : Inv s l)
    (hsafe : ∀ p rest, s.pending = p :: rest → isFetcherSucceed (s.fetcher.states p) = true →
      TableSafe s rest s.versionData)
    (hrun : handleFetcherDone c s ans = some s') : ∃ l', Inv s' l' := by
  cases hpending : s.pending with
  | nil =>
    simp only [handleFetcherDone, hpending] at hrun
    cases hrun
    exact ⟨l, h⟩
  | cons p rest =>
    have hjobs := h.jobs
    rw [hpending] at hjobs
    simp only [handleFetcherDone, hpending] at hrun
    split at hrun
    next hsucc =>
      obtain ⟨cam, hcam, hrun⟩ := bind_eq_some_iff.mp hrun
      obtain ⟨codemem, hcommit⟩ :=
        fetcherCommit_eq { s with pending := rest } (s.fetcher.states p).map.key
      rw [hcommit] at hcam hrun
      obtain ⟨cam', hcam', hown⟩ := h.matches (by rw [hpending]; simp : p ∈ l ++ s.pending)
      have hsame : cam = cam' := some.inj (hcam.symm.trans hcam')
      subst hsame
      have hsafe' := hsafe p rest hpending hsucc
      refine processVersionData_inv (h.deliver hpending hown hsucc codemem) ?_ hrun
      exact fun q hq i hi hkey => hsafe' q hq i hi hkey
    · obtain ⟨f, hrestart, rfl⟩ := map_eq_some_iff.mp hrun
      have hheap : addrs (kerChangeOwn s.fetcher.heap p kerDftLoaderPid) = addrs s.fetcher.heap :=
        addrs_kerChangeOwn ..
      have hmoved := hjobs.outside s.fetcher.codemem (by rw [hheap]; exact hjobs.live)
        (by rw [hheap]; exact fun m hm => (hjobs.serving m hm).1)
      exact ⟨l ++ [p], (hmoved.restart hrestart).1, h.applied⟩

lemma jobs_of_quiet {cm : ℕ → ℕ} {kept served : List ℕ}
    (h : Jobs f cm l kept) (hq : Quiet served f f')
    (hserved : ∀ a ∈ served, a ∈ addrs f.heap ∧ a ∉ l ++ kept) :
    ∃ l', Jobs f' cm l' (kept ++ posted f f') := by
  have hnone : posted f f' = [] := by rw [posted, hq.done, if_pos rfl]
  rw [hnone, append_nil]
  exact ⟨l, h.quiet hq hserved⟩

lemma jobs_of_ends {cm : ℕ → ℕ} {kept : List ℕ} {env : Env} {P : Prop}
    (henv : env.msgHeader = true) (he : Ends env P f f') (h : Jobs f cm l kept) :
    ∃ l', Jobs f' cm l' (kept ++ posted f f') := by
  cases he with
  | quiet hq => exact jobs_of_quiet h hq nofun
  | posts f1 p _ hq hp hmap hrun =>
    have h1 := h.quiet hq (fun a ha => by cases ha)
    obtain ⟨l', rfl⟩ := h1.fst_mem hp
    obtain ⟨h2, hdone⟩ := h1.post hmap henv hrun
    have hone : posted f f' = [p] := by
      rw [posted, hdone, hq.done, if_neg (by simp), ← hq.fst, hp]
      rfl
    rw [hone]
    exact ⟨l', h2⟩

open FetcherOwnership (NotLinked)

/-- The loader is the only one to request, cancel and restart fetches. A completion has its
message header, and a request to serve comes in a block of its own. -/
def LegalFetch (s : State) : Fetcher.Event → Prop
  | .request _ _ _ _ _ => False
  | .cancel _ => False
  | .restart _ _ => False
  | .fragment _ env => env.msgHeader = true
  | .requestTimer env => env.msgHeader = true
  | .serve msg _ _ _ => msg.addr ∈ addrs s.fetcher.heap ∧ NotLinked s.fetcher msg.addr ∧
    msg.addr ∉ s.pending
  | _ => True

def KeepsBlocks (s : State) (heap : Heap) : Prop :=
  ∀ p ∈ addrs s.fetcher.heap, p ∈ s.pending ∨ ¬ NotLinked s.fetcher p ∨
    (∃ m ∈ s.fetcher.sendMap, m.addr = p) → p ∈ addrs heap
  deriving Decidable

/-- No table that is processed has another version for a fetch whose completion is queued. -/
def Legal (s : State) : Event → Prop
  | .versionData pkt _ _ => s.versionData.version < pkt.version → TableSafe s s.pending pkt
  | .fetcherDone _ => ∀ p ∈ s.pending.head?, isFetcherSucceed (s.fetcher.states p) = true →
    TableSafe s s.pending.tail s.versionData
  | .fetcher e => LegalFetch s e
  | .outside heap _ => KeepsBlocks s heap

instance (pending : List ℕ) : Decidable (TableSafe s pending v) :=
  inferInstanceAs (Decidable (∀ p ∈ pending, ∀ i < _, _ → _))

instance (e : Fetcher.Event) : Decidable (LegalFetch s e) := by
  induction e using Fetcher.Event.casesOn <;> (dsimp only [LegalFetch]; infer_instance)

instance (e : Event) : Decidable (Legal s e) := by cases e <;> (dsimp only [Legal]; infer_instance)

lemma notLinked_iff (h : Inv s l) : NotLinked s.fetcher p ↔ p ∉ l := by
  rw [NotLinked, collect_spec h.jobs.chain (Nat.le_succ_of_le h.jobs.length_le)]
  rfl

lemma fetcher_step_inv {e : Fetcher.Event} (h : Inv s l) (hlegal : LegalFetch s e)
    (hrun : Fetcher.step c s.fetcher e = some f) :
    ∃ l', Jobs f s.cm l' (s.pending ++ posted s.fetcher f) := by
  cases e with
  | request reqId key size src p => exact hlegal.elim
  | cancel key => exact hlegal.elim
  | restart p src => exact hlegal.elim
  | fragment d env => exact jobs_of_ends hlegal (handleFragment_ends hrun) h.jobs
  | overheard =>
    cases hrun
    exact jobs_of_quiet h.jobs (handleOverheardRequest_quiet s.fetcher) nofun
  | serve msg saddr sizeofModHeader timerOk =>
    obtain ⟨hlive, hlinked, hpending⟩ := hlegal
    refine jobs_of_quiet h.jobs (handleRequest_quiet hrun) fun a ha => ?_
    rw [mem_singleton.mp ha]
    refine ⟨hlive, fun hin => ?_⟩
    rcases mem_append.mp hin with hin | hin
    · exact (notLinked_iff h).mp hlinked hin
    · exact hpending hin
  | requestTimer env =>
    rcases handleRequestTimer_cases hrun with ⟨hretry, -⟩ | ⟨-, hrun⟩
    · cases h.jobs.noRetry.symm.trans hretry
    · exact jobs_of_ends hlegal (handleRequestTimeout_ends hrun) h.jobs
  | transmitTimer pktMem postOk => exact jobs_of_quiet h.jobs (handleTransmitTimer_quiet hrun) nofun
  | sendDone =>
    cases hrun
    exact jobs_of_quiet h.jobs
      (quiet_members s.fetcher s.fetcher.codemem _ s.fetcher.sent) nofun

lemma step_preserves_invariant (s : State) (e : Event) (s' : State)
    (h : ∃ l, Inv s l) (hlegal : Legal s e) (hrun : step c s e = some s') :
    ∃ l, Inv s' l := by
  obtain ⟨l, h⟩ := h
  cases e with
  | versionData pkt saddr ans => exact handleVersionData_inv h hlegal hrun
  | fetcherDone ans =>
    apply handleFetcherDone_inv h _ hrun
    intro p rest hpending hsucc
    have hsafe := hlegal p (by rw [hpending]; rfl) hsucc
    rwa [hpending] at hsafe
  | fetcher e =>
    obtain ⟨f, hf, rfl⟩ := map_eq_some_iff.mp hrun
    obtain ⟨l', hjobs⟩ := fetcher_step_inv h hlegal hf
    exact ⟨l', hjobs, h.applied⟩
  | outside heap codemem =>
    cases hrun
    refine ⟨l, h.jobs.outside codemem (fun p hp => ?_) (fun m hm => ?_), h.applied⟩
    · apply hlegal p (h.jobs.live p hp)
      rcases mem_append.mp hp with hp | hp
      · exact .inr (.inl (fun hno => (notLinked_iff h).mp hno hp))
      · exact .inl hp
    · exact hlegal m.addr (h.jobs.serving m hm).1 (.inr (.inr ⟨m, hm, rfl⟩))

/-- In every run from an idle loader in which no processed table has another version for a fetch
whose completion is queued, the entries of the running fetch and of every queued completion
name the code memory of that fetch, and whatever was applied was the code memory of a fetch that
is complete. -/
theorem completions_match_over_runs {events : List Event} (hidle : s.fetcher.fst = none)
    (hquiet : s.fetcher.sendMap = none) (hretry : s.fetcher.noMemRetry = false)
    (hpending : s.pending = []) (happlied : s.applied = [])
    (hvalid : ValidTrace (step c) Legal s events)
    (hrun : runTrace (step c) s events = some s') :
    (∀ p ∈ s'.pending, Matches s' p) ∧ (∀ p, s'.fetcher.fst = some p → Matches s' p) ∧
      ∀ a ∈ s'.applied, a.used = a.filled ∧ checkMap a.fetch.map = true := by
  have hinit : Inv s [] := by
    have hjobs : Jobs s.fetcher s.cm [] [] := by
      refine ⟨⟨hidle, nodup_nil, ?_, ?_, ?_, ?_, hretry⟩, ?_⟩
      · exact fun p hp => by cases hp
      · intro m hm
        rw [hquiet] at hm
        cases hm
      · exact fun p hp => by cases hp
      · exact fun p hp => by cases hp
      · exact fun p hp => by cases hp
    refine ⟨by rw [hpending]; exact hjobs, fun a ha => ?_⟩
    rw [happlied] at ha
    cases ha
  obtain ⟨l, h⟩ := run_invariant_of_some step_preserves_invariant ⟨[], hinit⟩ hvalid hrun
  refine ⟨fun p hp => h.matches (mem_append_right _ hp), fun p hp => ?_, h.applied⟩
  obtain ⟨l', rfl⟩ := h.jobs.fst_mem hp
  exact h.matches (by simp)

open FetcherReassembly (sampleFetcher sampleEnv)
open CodeMemoryCoherence (sampleConfig)

def sampleLoader : State where
  fetcher := { sampleFetcher with
    cams := fun _ => none, codemem := codememInit sampleConfig (fun _ => 0xff) }
  cm _ := 0
  version _ := 0
  versionData := ⟨1, fun _ => 0, fun _ => 0, fun _ => 0, fun _ => 0⟩
  recentNeighbor := 0
  pending := []
  applied := []

def sampleTable (version : ℕ) (ver : UInt8) : VersionData :=
  ⟨version, fun _ => 0, fun _ => 0, fun i => if i = 0 then ver else 0,
    fun i => if i = 0 then 1 else 0⟩

def sampleAnswers (block : ℕ) (_ : ℕ) : Answers :=
  ⟨true, true, ⟨0, .data, .done⟩, true, some fun _ => 0, block⟩

def sampleData (i : ℕ) : Event :=
  .fetcher (.fragment ⟨i, 17 * 256 + 8, replicate 64 7, by decide⟩ sampleEnv)

def fetchedEvents : List Event :=
  [.versionData (sampleTable 2 0x81) 3 (sampleAnswers 900), sampleData 0, sampleData 1,
    sampleData 2, sampleData 3]

theorem completions_match_sample :
    ∃ s', ValidTrace (step sampleConfig) Legal sampleLoader
        (fetchedEvents ++ [.fetcherDone (sampleAnswers 0)]) ∧
      runTrace (step sampleConfig) sampleLoader
        (fetchedEvents ++ [.fetcherDone (sampleAnswers 0)]) = some s' ∧
      s'.applied.map Applied.used = [0x100] ∧
      (∀ p ∈ s'.pending, Matches s' p) ∧ (∀ p, s'.fetcher.fst = some p → Matches s' p) ∧
      ∀ a ∈ s'.applied, a.used = a.filled ∧ checkMap a.fetch.map = true := by
  have hvalid : ValidTrace (step sampleConfig) Legal sampleLoader
      (fetchedEvents ++ [.fetcherDone (sampleAnswers 0)]) := by decide +kernel
  obtain ⟨s', hrun, hused⟩ : ∃ s', runTrace (step sampleConfig) sampleLoader
      (fetchedEvents ++ [.fetcherDone (sampleAnswers 0)]) = some s' ∧
      s'.applied.map Applied.used = [0x100] := by decide +kernel
  exact ⟨s', hvalid, hrun, hused, completions_match_over_runs rfl rfl rfl rfl rfl hvalid hrun⟩

/-- A newer table arrives while the completion of the module is queued. The module is then
linked from the code memory of the second fetch, which has received nothing. -/
theorem completion_applied_to_new_code :
    ∃ s' s'', runTrace (step sampleConfig) sampleLoader
        (fetchedEvents ++ [.versionData (sampleTable 3 0x82) 3 (sampleAnswers 960)]) = some s' ∧
      s'.pending = [900] ∧ ¬ Matches s' 900 ∧
      step sampleConfig s' (.fetcherDone (sampleAnswers 0)) = some s'' ∧
      s''.applied.map (fun a => (a.used, a.filled)) = [(0x200, 0x100)] ∧
      s''.fetcher.fst = some 960 ∧ s''.cm 960 = 0x200 ∧
      checkMap (s''.fetcher.states 960).map = false := by
  obtain ⟨s', hrun, hpending, hno, s'', hdone⟩ : ∃ s', runTrace (step sampleConfig)
        sampleLoader (fetchedEvents ++ [.versionData (sampleTable 3 0x82) 3 (sampleAnswers 960)]) =
        some s' ∧ s'.pending = [900] ∧ ¬ Matches s' 900 ∧
      ∃ s'', step sampleConfig s' (.fetcherDone (sampleAnswers 0)) = some s'' ∧
        s''.applied.map (fun a => (a.used, a.filled)) = [(0x200, 0x100)] ∧
        s''.fetcher.fst = some 960 ∧ s''.cm 960 = 0x200 ∧
        checkMap (s''.fetcher.states 960).map = false := by decide +kernel
  exact ⟨s', s'', hrun, hpending, hno, hdone⟩

end LoaderCompletion
