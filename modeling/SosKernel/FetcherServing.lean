import SosKernel.FetcherReassembly
import SosKernel.FetcherMoves

/-! # Which fragments a node serves

The map of fragments to be sent is masked with the map of the running fetch when a request comes
in. -/
namespace FetcherServing

open HeapBlocks PointerChain Fetcher FetcherMoves GuardedRuns List Option
open CodeMemory hiding State

variable {c : Config} {s s' : State} {p : ℕ} {f f' m m' : FetcherBitmap} {env : Env}
  {key src : ℕ} {pktMem postOk : Bool} {b : SendMap} {r : ℤ}

def headMap (s : State) : Option FetcherBitmap := s.fst.map (fun p => (s.states p).map)

def wanted (s : State) : Option FetcherBitmap := s.sendMap.map SendMap.map

def Held (f m : FetcherBitmap) : Prop :=
  f.key = m.key → ∀ i : ℕ, m.bitmap[i]? = some true → f.bitmap[i]? = some false

def Served (s : State) : Prop := ∀ f ∈ headMap s, ∀ m ∈ wanted s, Held f m

lemma Held.mono (h : Held f m) (hf : Received f f') (hm : Narrows m m') : Held f' m' := by
  intro hkey i hi
  apply hf.present
  apply h
  · rw [← hf.key, hkey, hm.key]
  · exact hm.wanted i hi

lemma headMap_of_fst (hp : s.fst = some p) : headMap s = some (s.states p).map := by
  rw [headMap, hp]
  rfl

lemma wanted_of_sendMap (hb : s.sendMap = some b) : wanted s = some b.map := by
  rw [wanted, hb]
  rfl

lemma Served.quiet (h : Served s) (hq : Quiet [] s s') : Served s' := by
  intro f' hf' m' hm'
  obtain ⟨p, hp, rfl⟩ := map_eq_some_iff.mp hf'
  obtain ⟨b', hb', rfl⟩ := map_eq_some_iff.mp hm'
  obtain ⟨b, hb, hnarrows⟩ := hq.narrows rfl b' hb'
  have hp' : s.fst = some p := hq.fst ▸ hp
  exact (h _ (headMap_of_fst hp') _ (wanted_of_sendMap hb)).mono (hq.maps p) hnarrows

lemma Served.congr (h : Served s) (hhead : headMap s' = headMap s)
    (hwanted : wanted s' = wanted s) : Served s' := by
  intro f hf m hm
  exact h f (hhead ▸ hf) m (hwanted ▸ hm)

lemma headMap_setState {g : FetcherState} (hmap : s.fst = some p → g.map = (s.states p).map) :
    headMap (s.setState p g) = headMap s := by
  unfold headMap State.setState
  cases hfst : s.fst with
  | none => rfl
  | some q =>
    by_cases hq : q = p
    · subst hq
      simp [hmap hfst]
    · simp [Function.update_of_ne hq]

def Unserved (s : State) (key : ℕ) : Prop := ∀ m ∈ wanted s, m.key ≠ key
  deriving Decidable

lemma served_of_unserved (h : ∀ f ∈ headMap s, Unserved s f.key) : Served s := by
  intro f hf m hm hkey
  exact absurd hkey.symm (h f hf m hm)

lemma enqueue_served (h : Served s)
    (hhead : s.fst = none → Unserved s (s.states p).map.key) (hrun : enqueue s p key = some s') :
    Served s' := by
  obtain ⟨cams, ⟨hnone, rfl⟩ | ⟨t, -, rfl⟩⟩ := enqueue_cases hrun
  · apply served_of_unserved
    rintro f ⟨⟩
    exact hhead hnone
  · exact h.congr (headMap_setState fun _ => rfl) rfl

lemma fetcherRequest_served {reqId size : ℕ} (h : Served s)
    (hfresh : s.fst ≠ some p) (hhead : s.fst = none → Unserved s key)
    (hrun : fetcherRequest c s reqId key size src p = some (s', r)) : Served s' := by
  rcases fetcherRequest_cases hrun with ⟨-, rfl⟩ | ⟨-, -, hs1⟩
  · exact h
  have h1 : Served (fresh c s reqId key size src p) :=
    h.congr (headMap_setState fun hp => absurd hp hfresh) rfl
  refine enqueue_served h1 (fun hnone => ?_) hs1
  rw [fresh, states_setState_self]
  exact hhead hnone

lemma fetcherRestart_served (h : Served s) (hhead : s.fst = none → Unserved s (s.states p).map.key)
    (hrun : fetcherRestart s p src = some s') : Served s' := by
  refine enqueue_served (h.congr (headMap_setState ?_) (by rfl)) (fun hnone => ?_) hrun
  · exact fun _ => rfl
  · rw [states_setState_self]
    exact hhead hnone

lemma fetcherCancel_served (h : Served s)
    (hnext : ∀ f ∈ headMap s, f.key = key → ∀ q ∈ s.fst.bind s.next,
      (s.states q).map.key ≠ key → Unserved s (s.states q).map.key)
    (hrun : fetcherCancel s key = some (s', r)) : Served s' := by
  rcases fetcherCancel_cases hrun with rfl | ⟨p, cams, hp, hkey, rfl⟩ | ⟨q, t, rfl⟩
  · exact h
  · split
    · -- the map of the cancelled key is given up with it
      intro f _ m hm
      cases hm
    next hother =>
      apply served_of_unserved
      intro f hf m hm
      obtain ⟨q, hq, rfl⟩ := map_eq_some_iff.mp hf
      by_cases hsame : (s.states q).map.key = key
      · obtain ⟨b, hb, rfl⟩ := map_eq_some_iff.mp hm
        have hb' : s.sendMap = some b := hb
        rw [hsame]
        exact fun hbkey => hother (by simp [hb', hbkey])
      · exact hnext _ (headMap_of_fst hp) hkey q (by rw [hp]; exact hq) hsame m hm
  · exact h.congr (headMap_setState fun _ => rfl) rfl

def NextUnserved (s : State) : Prop :=
  ∀ q ∈ s.fst.bind s.next, Unserved s (s.states q).map.key
  deriving Decidable

lemma sendFetcherDone_served (henv : env.msgHeader = true) (hnext : NextUnserved s)
    (hrun : sendFetcherDone s env = some s') : Served s' := by
  obtain ⟨p, cams, hp, rfl⟩ := sendFetcherDone_cases henv hrun
  apply served_of_unserved
  intro f hf
  obtain ⟨q, hq, rfl⟩ := map_eq_some_iff.mp hf
  exact hnext q (by rw [hp]; exact hq)

lemma NextUnserved.quiet (h : NextUnserved s) (hq : Quiet [] s s') : NextUnserved s' := by
  intro q hnext m' hm'
  obtain ⟨b', hb', rfl⟩ := map_eq_some_iff.mp hm'
  obtain ⟨b, hb, hnarrows⟩ := hq.narrows rfl b' hb'
  rw [hq.fst, hq.next] at hnext
  rw [(hq.maps q).key, hnarrows.key]
  exact h q hnext _ (wanted_of_sendMap hb)

section

variable (h : Served s) (henv : env.msgHeader = true)
include h henv

lemma Served.ends {P : Prop} (hnext : P → NextUnserved s) (he : Ends env P s s') : Served s' := by
  cases he with
  | quiet hq => exact h.quiet hq
  | posts s1 p hP hq _ _ hrun => exact sendFetcherDone_served henv ((hnext hP).quiet hq) hrun

def GivesUp (s : State) : Prop :=
  s.noMemRetry = true ∨ ∃ p ∈ s.fst, fetcherRequestMaxRetx < ((s.states p).retx + 1) % 256
  deriving Decidable

lemma handleRequestTimer_served
    (hnext : GivesUp s → NextUnserved s) (hrun : handleRequestTimer s env = some s') :
    Served s' := by
  rcases handleRequestTimer_cases hrun with ⟨hretry, hrun⟩ | ⟨-, hrun⟩
  · exact sendFetcherDone_served henv (hnext (.inl hretry)) hrun
  · exact h.ends henv (fun hover => hnext (.inr hover)) (handleRequestTimeout_ends hrun)

def Completes (s : State) (d : FetcherFragment) : Prop :=
  ∃ f ∈ headMap s, f.key = d.key ∧
    checkMap { f with bitmap := f.bitmap.set d.fragId false } = true
  deriving Decidable

lemma handleFragment_served {d : FetcherFragment} (hnext : Completes s d → NextUnserved s)
    (hrun : handleFragment c s d env = some s') : Served s' := by
  refine h.ends henv ?_ (handleFragment_ends hrun)
  rintro ⟨p, hp, hfills⟩
  exact hnext ⟨_, headMap_of_fst hp, hfills⟩

end

lemma served_of_masked (hm : Masked s m) (hfst : s'.fst = s.fst)
    (hstates : s'.states = s.states) (hsend : s'.sendMap = some b) (hb : b.map = m) :
    Served s' := by
  rintro f hf m' hm'
  obtain ⟨p, hp, rfl⟩ := map_eq_some_iff.mp hf
  rw [wanted_of_sendMap hsend, hb] at hm'
  cases hm'
  rw [hstates]
  exact hm p (hfst ▸ hp)

lemma handleRequest_served {msg : SendMap} {saddr sizeofModHeader : ℕ} {timerOk : Bool}
    (h : Served s) (hrun : handleRequest c s msg saddr sizeofModHeader timerOk = some s') :
    Served s' := by
  rcases handleRequest_cases hrun with rfl | ⟨m, hm, rfl | ⟨b, -, rfl⟩⟩
  · exact h
  · exact served_of_masked hm rfl rfl rfl rfl
  · exact served_of_masked hm rfl rfl rfl rfl

lemma sendFragment_sent (hrun : sendFragment c s pktMem postOk = some s') :
    s'.sent = s.sent ∨ ∃ m ∈ wanted s, ∃ i, m.bitmap[i]? = some true ∧
      s'.sent = s.sent ++ [(m.key, i)] := by
  have hsent : ∀ (s1 : State) (b : SendMap), (finishSend s1 b).sent = s1.sent := by
    intro s1 b
    unfold finishSend
    split <;> rfl
  cases hm : s.sendMap with
  | none =>
    simp only [sendFragment, hm] at hrun
    cases hrun
    exact .inl rfl
  | some m =>
    simp only [sendFragment, hm] at hrun
    split at hrun
    · cases hrun
      exact .inl rfl
    split at hrun
    · cases hrun
      exact .inl rfl
    next hfound =>
      set i := m.map.bitmap.findIdx id with hi
      have hlt : i < m.map.bitmap.length := lt_of_le_of_ne findIdx_le_length hfound
      have hbit : m.map.bitmap[i]? = some true := by
        rw [getElem?_eq_getElem hlt]
        exact congrArg some (findIdx_getElem (w := hlt))
      split at hrun
      · cases hrun
        exact .inl (hsent _ _)
      · obtain ⟨r, -, rfl⟩ := map_eq_some_iff.mp hrun
        split
        · exact .inl (hsent _ _)
        · exact .inr ⟨m.map, wanted_of_sendMap hm, i, hbit, hsent _ _⟩

/-- The fetcher's own events, and what others do to the shared entries and to code memory. -/
inductive Action where
  | fetcher (e : Event)
  | outside (cams : ℕ → Option FetcherCam) (codemem : CodeMemory.State)

def step (c : Config) (s : State) : Action → Option State
  | .fetcher e => Fetcher.step c s e
  | .outside cams codemem => some { s with cams := cams, codemem := codemem }

/-- A fetch that becomes the head is none whose fragments are to be sent. Completions have
their message header, and `ker_malloc` does not return the block of the head. -/
def LegalEvent (s : State) : Event → Prop
  | .request _ key _ _ p => s.fst ≠ some p ∧ (s.fst = none → Unserved s key)
  | .restart p _ => s.fst = none → Unserved s (s.states p).map.key
  | .cancel key => ∀ f ∈ headMap s, f.key = key → ∀ q ∈ s.fst.bind s.next,
    (s.states q).map.key ≠ key → Unserved s (s.states q).map.key
  | .fragment d env => env.msgHeader = true ∧ (Completes s d → NextUnserved s)
  | .requestTimer env => env.msgHeader = true ∧ (GivesUp s → NextUnserved s)
  | _ => True

def Legal (s : State) : Action → Prop
  | .fetcher e => LegalEvent s e
  | .outside _ _ => True

instance (e : Event) : Decidable (LegalEvent s e) := by
  induction e using Event.casesOn <;> (dsimp only [LegalEvent]; infer_instance)

instance (a : Action) : Decidable (Legal s a) := by cases a <;> (dsimp only [Legal]; infer_instance)

lemma handleTransmitTimer_sent
    (hrun : handleTransmitTimer c s pktMem postOk = some s') :
    s'.sent = s.sent ∨ ∃ m ∈ wanted s, ∃ i, m.bitmap[i]? = some true ∧
      s'.sent = s.sent ++ [(m.key, i)] := by
  simp only [handleTransmitTimer] at hrun
  split at hrun
  · exact sendFragment_sent hrun
  · cases hrun
    exact .inl rfl

lemma step_preserves_served (s : State) (a : Action) (s' : State) (h : Served s)
    (hlegal : Legal s a) (hrun : step c s a = some s') : Served s' := by
  cases a with
  | outside cams codemem =>
    cases hrun
    exact h
  | fetcher e =>
    cases e with
    | request reqId key size src p =>
      obtain ⟨r, hr, rfl⟩ := map_eq_some_iff.mp hrun
      exact fetcherRequest_served h hlegal.1 hlegal.2 hr
    | cancel key =>
      obtain ⟨r, hr, rfl⟩ := map_eq_some_iff.mp hrun
      exact fetcherCancel_served h hlegal hr
    | restart p src => exact fetcherRestart_served h hlegal hrun
    | fragment d env => exact handleFragment_served h hlegal.1 hlegal.2 hrun
    | overheard =>
      cases hrun
      exact h.quiet (handleOverheardRequest_quiet s)
    | serve msg saddr sizeofModHeader timerOk => exact handleRequest_served h hrun
    | requestTimer env => exact handleRequestTimer_served h hlegal.1 hlegal.2 hrun
    | transmitTimer pktMem postOk => exact h.quiet (handleTransmitTimer_quiet hrun)
    | sendDone =>
      cases hrun
      exact h

/-- In every run from an idle fetcher in which no fetch becomes the head while fragments of its
key are to be sent, a fragment that the node sends is not one that it still misses. -/
theorem served_fragments_held_over_runs {actions : List Action} (hidle : s.fst = none)
    (hvalid : ValidTrace (step c) Legal s actions)
    (hrun : runTrace (step c) s actions = some s') {pktMem postOk : Bool} {s'' : State}
    (hsend : Fetcher.step c s' (.transmitTimer pktMem postOk) = some s'') {key i p : ℕ}
    (hsent : s''.sent = s'.sent ++ [(key, i)]) (hp : s'.fst = some p)
    (hkey : (s'.states p).map.key = key) : (s'.states p).map.bitmap[i]? = some false := by
  have hinit : Served s := by
    intro f hf
    rw [headMap, hidle] at hf
    cases hf
  have h := run_invariant_of_some step_preserves_served hinit hvalid hrun
  rcases handleTransmitTimer_sent hsend with hnone | ⟨m, hm, j, hj, hlog⟩
  · rw [hnone] at hsent
    simp at hsent
  · rw [hlog] at hsent
    obtain ⟨hmkey, hji⟩ : m.key = key ∧ j = i := by simpa using hsent
    subst hji
    exact h _ (headMap_of_fst hp) m hm (hkey.trans hmkey.symm) j hj

open FetcherReassembly (sampleFetcher sampleFragment sampleEnv)
open CodeMemoryCoherence (sampleConfig)

def sampleRequest : Event :=
  .serve ⟨700, ⟨5, [true, true, false, false, false, false, false, false]⟩⟩ 2 12 true

def sampleActions : List Action :=
  [.fetcher (.request 17 5 128 1 900), .fetcher (.fragment (sampleFragment 0) sampleEnv),
    .fetcher sampleRequest]

theorem served_fragments_held_sample :
    ∃ s' s'', ValidTrace (step sampleConfig) Legal sampleFetcher sampleActions ∧
      runTrace (step sampleConfig) sampleFetcher sampleActions = some s' ∧
      Fetcher.step sampleConfig s' (.transmitTimer true true) = some s'' ∧
      s''.sent = s'.sent ++ [(5, 0)] ∧ s'.fst = some 900 ∧ (s'.states 900).map.key = 5 ∧
      (s'.states 900).map.bitmap[0]? = some false := by
  have hvalid : ValidTrace (step sampleConfig) Legal sampleFetcher sampleActions := by
    decide +kernel
  obtain ⟨s', hrun, s'', hsend, hsent, hp, hkey⟩ :
      ∃ s', runTrace (step sampleConfig) sampleFetcher sampleActions = some s' ∧
        ∃ s'', Fetcher.step sampleConfig s' (.transmitTimer true true) = some s'' ∧
          s''.sent = s'.sent ++ [(5, 0)] ∧ s'.fst = some 900 ∧ (s'.states 900).map.key = 5 := by
    decide +kernel
  exact ⟨s', s'', hvalid, hrun, hsend, hsent, hp, hkey,
    served_fragments_held_over_runs rfl hvalid hrun hsend hsent hp hkey⟩

/-- Another node asks for a module that is there; before its fragments are sent, a new fetch of
the same key starts. The node then sends a fragment that it misses. -/
theorem new_fetch_serves_missing :
    ∃ s' s'', runTrace (step sampleConfig) sampleFetcher
        [.fetcher sampleRequest, .fetcher (.request 17 5 128 1 900)] = some s' ∧
      Fetcher.step sampleConfig s' (.transmitTimer true true) = some s'' ∧
      s''.sent = s'.sent ++ [(5, 0)] ∧ s'.fst = some 900 ∧ (s'.states 900).map.key = 5 ∧
      (s'.states 900).map.bitmap[0]? = some true := by
  refine ⟨_, _, rfl, rfl, ?_, ?_, ?_, ?_⟩ <;> decide +kernel

end FetcherServing
