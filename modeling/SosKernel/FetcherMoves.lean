import SosKernel.Fetcher

/-! # What the handlers of the fetcher do

A handler leaves the list of fetches alone (`Quiet`), may post the fetch at its head after that
(`Ends`), or is one of the requests of a module. -/
namespace FetcherMoves

open HeapBlocks PointerChain Fetcher List Option Function
open CodeMemory hiding State

variable {c : Config} {s s' : State} {p key : ℕ} {served : List ℕ} {env : Env}
  {m m' : FetcherBitmap} {b msg : SendMap} {d : FetcherFragment} {saddr sizeofModHeader : ℕ}
  {timerOk : Bool} {r : ℤ}

structure Received (f f' : FetcherBitmap) : Prop where
  key : f'.key = f.key
  present : ∀ i : ℕ, f.bitmap[i]? = some false → f'.bitmap[i]? = some false

structure Narrows (m m' : FetcherBitmap) : Prop where
  key : m'.key = m.key
  wanted : ∀ i : ℕ, m'.bitmap[i]? = some true → m.bitmap[i]? = some true

lemma Received.refl (f : FetcherBitmap) : Received f f := ⟨rfl, fun _ h => h⟩

lemma Narrows.refl (m : FetcherBitmap) : Narrows m m := ⟨rfl, fun _ h => h⟩

lemma narrows_set (m : FetcherBitmap) (i : ℕ) :
    Narrows m { m with bitmap := m.bitmap.set i false } := by
  refine ⟨rfl, fun j h => ?_⟩
  by_cases hij : i = j
  · subst hij
    cases hj : m.bitmap[i]? <;> simp [getElem?_set_self', hj] at h
  · rwa [getElem?_set_ne hij] at h

lemma received_set (f : FetcherBitmap) (i : ℕ) :
    Received f { f with bitmap := f.bitmap.set i false } := by
  refine ⟨rfl, fun j h => ?_⟩
  by_cases hij : i = j
  · subst hij
    rw [getElem?_set_self', h]
    rfl
  · rwa [getElem?_set_ne hij]

lemma clearBit_eq {i : ℕ} (h : clearBit m i = some m') :
    m' = { m with bitmap := m.bitmap.set i false } := by
  obtain ⟨b, -, heq⟩ := map_eq_some_iff.mp h
  exact heq.symm

lemma next_setState (s : State) (p : ℕ) (f : FetcherState) :
    (s.setState p f).next = update s.next p f.next := by
  funext q
  by_cases hq : q = p
  · subst hq
    simp [State.next, State.setState]
  · simp [State.next, State.setState, update_of_ne hq]

/-- Only the state at the head is written; the map being served is the old one or in one of the
blocks `served`. -/
structure Quiet (served : List ℕ) (s s' : State) : Prop where
  fst : s'.fst = s.fst
  next : s'.next = s.next
  cams : s'.cams = s.cams
  maps : ∀ q, Received (s.states q).map (s'.states q).map
  off : ∀ q, s.fst ≠ some q → s'.states q = s.states q
  done : s'.done = s.done
  noRetry : s'.noMemRetry = s.noMemRetry
  heap : ∀ b ∈ s.heap, b ∈ s'.heap ∨ b.addr ∈ served ∧ b.addr ∈ addrs s'.heap ∨
    s'.sendMap = none ∧ ∃ m, s.sendMap = some m ∧ m.addr = b.addr
  sendMap : ∀ m', s'.sendMap = some m' → m'.addr ∈ served ∨
    ∃ m, s.sendMap = some m ∧ m.addr = m'.addr
  narrows : served = [] → ∀ m', s'.sendMap = some m' →
    ∃ m, s.sendMap = some m ∧ Narrows m.map m'.map

lemma Quiet.refl (served : List ℕ) (s : State) : Quiet served s s :=
  ⟨rfl, rfl, rfl, fun _ => .refl _, fun _ _ => rfl, rfl, rfl, fun _ hb => .inl hb,
    fun m hm => .inr ⟨m, hm, rfl⟩, fun _ m hm => ⟨m, hm, .refl _⟩⟩

lemma Quiet.addrs (h : Quiet served s s') {q : ℕ} (hq : q ∈ addrs s.heap) :
    q ∈ addrs s'.heap ∨ s'.sendMap = none ∧ ∃ m, s.sendMap = some m ∧ m.addr = q := by
  obtain ⟨b, hb, rfl⟩ := mem_map.mp hq
  rcases h.heap b hb with hb | ⟨-, hb⟩ | hm
  · exact .inl (mem_map_of_mem hb)
  · exact .inl hb
  · exact .inr hm

lemma Quiet.trans {s'' : State} (h : Quiet [] s s') (h' : Quiet [] s' s'') :
    Quiet [] s s'' := by
  have hsend : ∀ m'', s''.sendMap = some m'' → ∃ m' m, s'.sendMap = some m' ∧
      s.sendMap = some m ∧ m.addr = m''.addr ∧ m'.addr = m''.addr := by
    intro m'' hm''
    obtain ⟨m', hm', ha'⟩ := (h'.sendMap m'' hm'').resolve_left not_mem_nil
    obtain ⟨m, hm, ha⟩ := (h.sendMap m' hm').resolve_left not_mem_nil
    exact ⟨m', m, hm', hm, ha.trans ha', ha'⟩
  refine ⟨h'.fst.trans h.fst, h'.next.trans h.next, h'.cams.trans h.cams, fun q => ⟨?_, ?_⟩,
    fun q hq => ?_, h'.done.trans h.done, h'.noRetry.trans h.noRetry, fun b hb => ?_,
    fun m'' hm'' => ?_, fun _ m'' hm'' => ?_⟩
  · exact (h'.maps q).key.trans (h.maps q).key
  · exact fun i hi => (h'.maps q).present i ((h.maps q).present i hi)
  · rw [h'.off q (by rw [h.fst]; exact hq), h.off q hq]
  · rcases h.heap b hb with hb | ⟨hno, -⟩ | ⟨hnone, hm⟩
    · rcases h'.heap b hb with hb | ⟨hno, -⟩ | ⟨hnone, m', hm', ha⟩
      · exact .inl hb
      · cases hno
      · obtain ⟨m, hm, ha'⟩ := (h.sendMap m' hm').resolve_left not_mem_nil
        exact .inr (.inr ⟨hnone, m, hm, ha'.trans ha⟩)
    · cases hno
    · -- once given up, no map comes back
      refine .inr (.inr ⟨eq_none_iff_forall_ne_some.mpr fun m'' hm'' => ?_, hm⟩)
      obtain ⟨m', -, hm', -⟩ := hsend m'' hm''
      cases hnone.symm.trans hm'
  · obtain ⟨m', m, -, hm, ha, -⟩ := hsend m'' hm''
    exact .inr ⟨m, hm, ha⟩
  · obtain ⟨m', hm', hn'⟩ := h'.narrows rfl m'' hm''
    obtain ⟨m, hm, hn⟩ := h.narrows rfl m' hm'
    exact ⟨m, hm, hn'.key.trans hn.key, fun i hi => hn.wanted i (hn'.wanted i hi)⟩

lemma quiet_setState {g : FetcherState} (hp : s.fst = some p) (hnext : g.next = s.next p)
    (hmap : Received (s.states p).map g.map) : Quiet [] s (s.setState p g) := by
  refine ⟨rfl, ?_, rfl, fun q => ?_, fun q hq => ?_, rfl, rfl, fun _ hb => .inl hb,
    fun m hm => .inr ⟨m, hm, rfl⟩, fun _ m hm => ⟨m, hm, .refl _⟩⟩
  · rw [next_setState, hnext, update_eq_self]
  · by_cases hqp : q = p
    · subst hqp
      rwa [states_setState_self]
    · rw [states_setState_of_ne s g hqp]
      exact .refl _
  · exact states_setState_of_ne _ _ fun hqp => hq (hqp ▸ hp)

lemma quiet_clearSend (hb : s.sendMap = some b) (i : ℕ) :
    Quiet [] s { s with sendMap := some { b with
      map := { b.map with bitmap := b.map.bitmap.set i false } } } := by
  refine { Quiet.refl [] s with heap := fun _ hb => .inl hb, sendMap := ?_, narrows := ?_ }
  · rintro m' ⟨⟩
    exact .inr ⟨b, hb, rfl⟩
  · rintro - m' ⟨⟩
    exact ⟨b, hb, narrows_set _ _⟩

lemma quiet_freeSendStateMap (s : State) : Quiet [] s (freeSendStateMap s) := by
  refine { Quiet.refl [] s with heap := fun b hb => ?_, sendMap := nofun, narrows := nofun }
  cases hm : s.sendMap with
  | none =>
    simp only [freeSendStateMap, hm]
    exact .inl hb
  | some m =>
    by_cases haddr : b.addr = m.addr
    · exact .inr (.inr ⟨rfl, m, rfl, haddr.symm⟩)
    · simp only [freeSendStateMap, hm]
      exact .inl (mem_kerFree_of_ne hb haddr)

lemma quiet_members (s : State) (codemem : CodeMemory.State) (n : ℕ) (sent : List (ℕ × ℕ)) :
    Quiet [] s { s with codemem := codemem, numMsgInQueue := n, sent := sent } :=
  { Quiet.refl [] s with }

lemma handleOverheardFragment_quiet
    (hrun : handleOverheardFragment s d = some s') : Quiet [] s s' := by
  cases hm : s.sendMap with
  | none =>
    simp only [handleOverheardFragment, hm] at hrun
    cases hrun
    exact .refl _ _
  | some m =>
    simp only [handleOverheardFragment, hm] at hrun
    split at hrun
    · cases hrun
      exact .refl _ _
    · obtain ⟨b, hb, rfl⟩ := map_eq_some_iff.mp hrun
      rw [clearBit_eq hb]
      exact quiet_clearSend hm _

lemma handleOverheardRequest_quiet (s : State) : Quiet [] s (handleOverheardRequest s) := by
  unfold handleOverheardRequest
  cases hp : s.fst with
  | none => exact .refl _ _
  | some p => exact quiet_setState hp rfl (.refl _)

lemma finishSend_quiet (hb : s.sendMap = some b) (i : ℕ) :
    Quiet [] s (finishSend s { b with
      map := { b.map with bitmap := b.map.bitmap.set i false } }) := by
  unfold finishSend
  split
  · exact (quiet_clearSend hb i).trans (quiet_freeSendStateMap _)
  · exact quiet_clearSend hb i

lemma handleTransmitTimer_quiet {pktMem postOk : Bool}
    (hrun : handleTransmitTimer c s pktMem postOk = some s') : Quiet [] s s' := by
  simp only [handleTransmitTimer, sendFragment] at hrun
  split at hrun
  · split at hrun
    · cases hrun
      exact .refl _ _
    next m hm =>
      split at hrun
      · cases hrun
        exact quiet_freeSendStateMap s
      split at hrun
      · cases hrun
        exact quiet_freeSendStateMap s
      split at hrun
      · cases hrun
        exact finishSend_quiet hm _
      · obtain ⟨r, -, rfl⟩ := map_eq_some_iff.mp hrun
        split
        · exact finishSend_quiet hm _
        · refine (quiet_members s s.codemem _ _).trans (finishSend_quiet ?_ _)
          exact hm
  · cases hrun
    exact .refl _ _

def Masked (s : State) (b : FetcherBitmap) : Prop :=
  ∀ p, s.fst = some p → (s.states p).map.key = b.key →
    ∀ i : ℕ, b.bitmap[i]? = some true → (s.states p).map.bitmap[i]? = some false

lemma maskMissing_cases (hrun : maskMissing s b = some s') :
    ∃ m, s' = { s with sendMap := some ⟨b.addr, m⟩ } ∧ Masked s m := by
  simp only [maskMissing] at hrun
  split at hrun
  next hnone =>
    cases hrun
    exact ⟨b.map, rfl, fun p hp => by cases hnone.symm.trans hp⟩
  next q hq =>
    split at hrun
    next hkey =>
      cases hrun
      refine ⟨b.map, rfl, fun p hp hsame => ?_⟩
      cases hq.symm.trans hp
      exact absurd hsame hkey
    · split at hrun
      · cases hrun
      · cases hrun
        refine ⟨_, rfl, fun p hp _ i hi => ?_⟩
        rw [getElem?_zipWith] at hi
        cases hb : b.map.bitmap[i]? <;> cases hf : (s.states q).map.bitmap[i]? <;> simp_all

lemma handleRequest_cases
    (hrun : handleRequest c s msg saddr sizeofModHeader timerOk = some s') :
    s' = s ∨ ∃ m, Masked s m ∧ (s' = { s with
          heap := kerChangeOwn s.heap msg.addr kerFetcherPid, sendDest := saddr
          sendMap := some ⟨msg.addr, m⟩ } ∨
        ∃ b, s.sendMap = some b ∧ s' = { s with sendMap := some ⟨b.addr, m⟩ }) := by
  cases hb : s.sendMap with
  | none =>
    simp only [handleRequest, hb] at hrun
    obtain ⟨ok, -, hrun⟩ := bind_eq_some_iff.mp hrun
    split at hrun
    · obtain ⟨m, rfl, hm⟩ := maskMissing_cases hrun
      exact .inr ⟨m, hm, .inl rfl⟩
    · cases hrun
      exact .inl rfl
  | some b =>
    simp only [handleRequest, hb] at hrun
    split at hrun
    all_goals
      obtain ⟨m, rfl, hm⟩ := maskMissing_cases hrun
      exact .inr ⟨m, hm, .inr ⟨b, rfl, rfl⟩⟩

lemma handleRequest_quiet
    (hrun : handleRequest c s msg saddr sizeofModHeader timerOk = some s') :
    Quiet [msg.addr] s s' := by
  rcases handleRequest_cases hrun with rfl | ⟨m, -, rfl | ⟨b, hb, rfl⟩⟩
  · exact .refl _ _
  · refine { Quiet.refl [msg.addr] s with
      heap := fun b hb => ?_, sendMap := ?_, narrows := fun h => by cases h }
    · by_cases ha : b.addr = msg.addr
      · refine .inr (.inl ⟨mem_singleton.mpr ha, ?_⟩)
        rw [addrs_kerChangeOwn]
        exact mem_map_of_mem hb
      · exact .inl (mem_kerChangeOwn_of_ne hb ha)
    · rintro m' ⟨⟩
      exact .inl (mem_singleton_self _)
  · refine { Quiet.refl [msg.addr] s with
      heap := fun _ hb => .inl hb, sendMap := ?_, narrows := fun h => by cases h }
    rintro m' ⟨⟩
    exact .inr ⟨b, hb, rfl⟩

/-- A step that may post the fetch at the head, if `P`: what is posted is complete, or says by its
counter that it is not. -/
inductive Ends (env : Env) (P : Prop) (s s' : State) : Prop where
  | quiet (h : Quiet [] s s')
  | posts (s1 : State) (p : ℕ) (hP : P) (hquiet : Quiet [] s s1) (hp : s1.fst = some p)
      (hmap : isFetcherSucceed (s1.states p) = true → checkMap (s1.states p).map = true)
      (hrun : sendFetcherDone s1 env = some s')

lemma handleRequestTimeout_ends (hrun : handleRequestTimeout s env = some s') :
    Ends env (∃ p ∈ s.fst, fetcherRequestMaxRetx < ((s.states p).retx + 1) % 256) s s' := by
  cases hp : s.fst with
  | none =>
    simp only [handleRequestTimeout, hp] at hrun
    cases hrun
    exact .quiet (.refl _ _)
  | some p =>
    simp only [handleRequestTimeout, hp] at hrun
    split at hrun
    · cases hrun
      exact .quiet (quiet_setState hp rfl (.refl _))
    next hover =>
      refine .posts _ p ⟨p, rfl, Nat.lt_of_not_le hover⟩
        (quiet_setState hp (by rfl) (by exact .refl _)) hp ?_ hrun
      rw [states_setState_self, isFetcherSucceed, decide_eq_true_eq]
      exact fun hsucc => absurd hsucc hover

def Fills (s : State) (d : FetcherFragment) : Prop :=
  ∃ p ∈ s.fst, (s.states p).map.key = d.key ∧
    checkMap { (s.states p).map with
      bitmap := (s.states p).map.bitmap.set d.fragId false } = true

lemma handleData_ends (hp : s.fst = some p)
    (hrun : handleData c s p d env = some s') : Ends env (Fills s d) s s' := by
  simp only [handleData, storeFragment, checkMapAndPost] at hrun
  split at hrun
  · cases hrun
    exact .quiet (.refl _ _)
  next hkey =>
    split at hrun
    · cases hrun
      exact .quiet (.refl _ _)
    obtain ⟨missing, -, hrun⟩ := bind_eq_some_iff.mp hrun
    split at hrun
    · cases hrun
      exact .quiet (.refl _ _)
    split at hrun
    · cases hrun
      exact .quiet (.refl _ _)
    obtain ⟨r, -, hrun⟩ := bind_eq_some_iff.mp hrun
    have hcode := quiet_members s r.1 s.numMsgInQueue s.sent
    split at hrun
    · cases hrun
      exact .quiet hcode
    obtain ⟨b, hb, hrun⟩ := bind_eq_some_iff.mp hrun
    rw [clearBit_eq hb] at hrun
    set g : FetcherState := { s.states p with
      map := { (s.states p).map with bitmap := (s.states p).map.bitmap.set d.fragId false } }
    set s1 : State := ({ s with codemem := r.1 } : State).setState p g
    have hs1 : Quiet [] s s1 :=
      hcode.trans (quiet_setState hp rfl (received_set (s.states p).map d.fragId))
    have hself : s1.states p = g := states_setState_self _ p g
    simp only [show s1.fst = some p from hp, hself] at hrun
    split at hrun
    next hmap =>
      refine .posts _ p ⟨p, hp, (not_not.mp hkey).symm, hmap⟩
        (hs1.trans (quiet_setState hp ?_ ?_)) hp ?_ hrun
      · rw [State.next, hself]
      · rw [hself]
        exact .refl _
      · rw [states_setState_self]
        exact fun _ => hmap
    · exact .quiet (some.inj hrun ▸ hs1)

lemma handleFragment_ends (hrun : handleFragment c s d env = some s') :
    Ends env (Fills s d) s s' := by
  obtain ⟨s1, hs1, hrun⟩ := bind_eq_some_iff.mp hrun
  have hq := handleOverheardFragment_quiet hs1
  have hsame : s1.states = s.states := by
    unfold handleOverheardFragment at hs1
    split at hs1
    · cases hs1
      rfl
    split at hs1
    · cases hs1
      rfl
    · obtain ⟨b, -, rfl⟩ := map_eq_some_iff.mp hs1
      rfl
  split at hrun
  · cases hrun
    exact .quiet hq
  next p hp =>
    have hq' : Quiet [] s (s1.setState p { s1.states p with retx := 0 }) :=
      hq.trans (quiet_setState hp rfl (.refl _))
    cases handleData_ends (by exact hp) hrun with
    | quiet h => exact .quiet (hq'.trans h)
    | posts s2 q hf h2 hq2 hmap hrun =>
      refine .posts s2 q ?_ (hq'.trans h2) hq2 hmap hrun
      obtain ⟨p', hp', hf⟩ := hf
      cases hp.symm.trans hp'
      rw [states_setState_self, hsame] at hf
      exact ⟨p, hq.fst ▸ hp, hf⟩

lemma handleRequestTimer_cases (hrun : handleRequestTimer s env = some s') :
    s.noMemRetry = true ∧ sendFetcherDone s env = some s' ∨
      s.noMemRetry = false ∧ handleRequestTimeout s env = some s' := by
  unfold handleRequestTimer at hrun
  split at hrun
  next h => exact .inl ⟨h, hrun⟩
  next h => exact .inr ⟨Bool.not_eq_true _ ▸ h, hrun⟩

lemma startNewFetch_cases (hrun : startNewFetch s p = some s') :
    ∃ cams, s' = { s with fst := s.next p, cams := cams } := by
  unfold startNewFetch at hrun
  split at hrun
  next hnext =>
    cases hrun
    exact ⟨s.cams, by rw [hnext]⟩
  next q hnext =>
    obtain ⟨cam, -, rfl⟩ := map_eq_some_iff.mp hrun
    exact ⟨_, by rw [hnext]⟩

lemma sendFetcherDone_cases (henv : env.msgHeader = true) (hrun : sendFetcherDone s env = some s') :
    ∃ p cams, s.fst = some p ∧ s' = { s with
      heap := kerChangeOwn s.heap p kerSchedPid, done := s.done ++ [s.states p],
      noMemRetry := false, fst := s.next p, cams := cams } := by
  obtain ⟨p, hp, hrun⟩ := bind_eq_some_iff.mp hrun
  rw [if_pos henv] at hrun
  obtain ⟨s2, hs2, hrun⟩ := bind_eq_some_iff.mp hrun
  obtain ⟨cam, -, rfl⟩ := map_eq_some_iff.mp hs2
  obtain ⟨cams, rfl⟩ := startNewFetch_cases hrun
  exact ⟨p, cams, hp, rfl⟩

lemma enqueue_cases (hrun : enqueue s p key = some s') :
    ∃ cams, s.fst = none ∧ s' = { s with cams := cams, fst := some p } ∨
      ∃ t, s.fst ≠ none ∧ s' = ({ s with cams := cams } : State).setState t
        { s.states t with next := some p } := by
  unfold enqueue at hrun
  split at hrun
  next hfst =>
    obtain ⟨s1, hs1, rfl⟩ := map_eq_some_iff.mp hrun
    obtain ⟨cam, -, rfl⟩ := map_eq_some_iff.mp hs1
    exact ⟨_, .inl ⟨hfst, rfl⟩⟩
  next q hfst =>
    obtain ⟨s1, hs1, hrun⟩ := bind_eq_some_iff.mp hrun
    obtain ⟨cam, -, rfl⟩ := map_eq_some_iff.mp hs1
    obtain ⟨l, -, hrun⟩ := bind_eq_some_iff.mp hrun
    obtain ⟨t, -, rfl⟩ := map_eq_some_iff.mp hrun
    exact ⟨_, .inr ⟨t, by rw [hfst]; exact some_ne_none q, rfl⟩⟩

def fresh (c : Config) (s : State) (reqId key size src p : ℕ) : State :=
  ({ s with heap := kerMalloc s.heap p kerFetcherPid } : State).setState p
    ⟨src, reqId, 0, none, ⟨key, initialBitmap (numFragments c size)⟩⟩

lemma fetcherRequest_cases {reqId size src : ℕ}
    (hrun : fetcherRequest c s reqId key size src p = some (s', r)) :
    r ≠ 0 ∧ s' = s ∨ r = 0 ∧ p ≠ 0 ∧ enqueue (fresh c s reqId key size src p) p key = some s' := by
  unfold fetcherRequest at hrun
  split at hrun
  · cases hrun
    exact .inl ⟨by decide, rfl⟩
  split at hrun
  · cases hrun
    exact .inl ⟨by decide, rfl⟩
  next hp =>
    obtain ⟨s1, hs1, heq⟩ := map_eq_some_iff.mp hrun
    cases heq
    exact .inr ⟨rfl, hp, hs1⟩

lemma fetcherCancel_cases (hrun : fetcherCancel s key = some (s', r)) :
    s' = s ∨ (∃ p cams, s.fst = some p ∧ (s.states p).map.key = key ∧
        s' = let s2 := { s with fst := s.next p, cams := cams, heap := kerFree s.heap p }
          if s.sendMap.any (fun m => m.map.key = key) then freeSendStateMap s2 else s2) ∨
      ∃ q t, s' = { s.setState q { s.states q with next := s.next t } with
        heap := kerFree s.heap t } := by
  unfold fetcherCancel at hrun
  split at hrun
  · cases hrun
    exact .inl rfl
  next p hp =>
    split at hrun
    next hkey =>
      obtain ⟨s1, hs1, heq⟩ := map_eq_some_iff.mp hrun
      obtain ⟨cams, rfl⟩ := startNewFetch_cases hs1
      exact .inr (.inl ⟨p, cams, hp, hkey, (congrArg Prod.fst heq).symm⟩)
    · obtain ⟨⟨q, t⟩, -, heq⟩ := map_eq_some_iff.mp hrun
      split at heq
      · cases heq
        exact .inr (.inr ⟨_, _, rfl⟩)
      · cases heq
        exact .inl rfl

end FetcherMoves
