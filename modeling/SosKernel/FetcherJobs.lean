import SosKernel.FetcherOwnership

/-! # Fetches and the entries they fill

A fetch is linked from `fst` or rests in a queued completion. -/
namespace FetcherJobs

open HeapBlocks PointerChain Fetcher FetcherMoves List Option Function
open CodeMemory hiding State

variable {c : Config} {s s' : State} {p key : ℕ} {l kept : List ℕ} {cm : ℕ → ℕ}
  {cams cams' : ℕ → Option FetcherCam}

def keyOf (s : State) (p : ℕ) : ℕ := (s.states p).map.key

def Active (cams : ℕ → Option FetcherCam) (key : ℕ) : Prop :=
  ∃ cam, cams key = some cam ∧ cam.status ≠ .done

def SameCode (cams cams' : ℕ → Option FetcherCam) : Prop :=
  ∀ key, (cams' key).map FetcherCam.cm = (cams key).map FetcherCam.cm

structure Fetches (s : State) (cm : ℕ → ℕ) (l kept : List ℕ) : Prop where
  chain : Chain s.next s.fst l
  keys : ((l ++ kept).map (keyOf s)).Nodup
  live : ∀ p ∈ l ++ kept, p ∈ addrs s.heap
  serving : ∀ m, s.sendMap = some m → m.addr ∈ addrs s.heap ∧ m.addr ∉ l ++ kept
  entry : ∀ p ∈ l ++ kept, (s.cams (keyOf s p)).map FetcherCam.cm = some (cm p)
  active : ∀ p ∈ l, Active s.cams (keyOf s p)
  noRetry : s.noMemRetry = false

/-- The fetches kept are those in queued completions, which are complete or say by their counter
that they are not. -/
structure Jobs (s : State) (cm : ℕ → ℕ) (l kept : List ℕ) : Prop
    extends Fetches s cm l kept where
  truthful : ∀ p ∈ kept, isFetcherSucceed (s.states p) = true → checkMap (s.states p).map = true

section

variable (h : Fetches s cm l kept)
include h

lemma Fetches.nodup : (l ++ kept).Nodup := h.keys.of_map _

variable {q src t : ℕ} {status : FetchStatus}

lemma Fetches.eq_of_key (hp : p ∈ l ++ kept)
    (hq : q ∈ l ++ kept) (heq : keyOf s p = keyOf s q) : p = q :=
  inj_on_of_nodup_map h.keys hp hq heq

lemma Fetches.length_le : l.length ≤ s.heap.length := by
  have hl : l.Nodup := h.nodup.sublist (sublist_append_left l kept)
  have hsub : l ⊆ addrs s.heap := fun p hp => h.live p (mem_append_left _ hp)
  have hlen := (hl.subperm hsub).length_le
  rwa [addrs, length_map] at hlen

lemma Fetches.fst_mem (hp : s.fst = some p) : ∃ l', l = p :: l' := Chain.eq_cons (hp ▸ h.chain)

end

lemma SameCode.trans {cams'' : ℕ → Option FetcherCam} (h : SameCode cams cams')
    (h' : SameCode cams' cams'') : SameCode cams cams'' :=
  fun key => (h' key).trans (h key)

lemma setStatus_eq (h : setStatus s key status = some s') :
    ∃ cams', s' = { s with cams := cams' } ∧ SameCode s.cams cams' ∧
      (∀ k, k ≠ key → cams' k = s.cams k) ∧ ∃ cam, cams' key = some cam ∧ cam.status = status := by
  obtain ⟨cam, hcam, rfl⟩ := map_eq_some_iff.mp h
  refine ⟨_, rfl, ?_, ?_, _, update_self .., rfl⟩
  · intro k
    by_cases hk : k = key
    · subst hk
      rw [update_self, hcam]
      rfl
    · rw [update_of_ne hk]
  · intro k hk
    exact update_of_ne hk ..

lemma active_congr {k : ℕ} (h : Active cams k) (hk : cams' k = cams k) : Active cams' k := by
  obtain ⟨cam, hcam, hstatus⟩ := h
  exact ⟨cam, hk.trans hcam, hstatus⟩

lemma setStatus_active (hne : status ≠ .done) (h : setStatus s key status = some s') :
    Active s'.cams key ∧ ∀ k, Active s.cams k → Active s'.cams k := by
  obtain ⟨cams', rfl, -, hother, cam, hcam, hstatus⟩ := setStatus_eq h
  have hkey : Active cams' key := ⟨cam, hcam, hstatus ▸ hne⟩
  refine ⟨hkey, fun k hk => ?_⟩
  by_cases heq : k = key
  · rw [heq]
    exact hkey
  · exact active_congr hk (hother k heq)

lemma startNewFetch_eq (h : startNewFetch s p = some s') :
    ∃ cams', s' = { s with fst := s.next p, cams := cams' } ∧ SameCode s.cams cams' ∧
      ∀ k, Active s.cams k → Active cams' k := by
  cases hnext : s.next p with
  | none =>
    simp only [startNewFetch, hnext] at h
    cases h
    exact ⟨s.cams, rfl, fun _ => rfl, fun _ hk => hk⟩
  | some q =>
    simp only [startNewFetch, hnext] at h
    obtain ⟨-, hactive⟩ := setStatus_active (by decide) h
    obtain ⟨cams', rfl, hsame, -⟩ := setStatus_eq h
    exact ⟨cams', rfl, hsame, hactive⟩

lemma Jobs.quiet {served : List ℕ} (h : Jobs s cm l kept) (hq : Quiet served s s')
    (hserved : ∀ a ∈ served, a ∈ addrs s.heap ∧ a ∉ l ++ kept) : Jobs s' cm l kept := by
  have hkeep : ∀ q ∈ addrs s.heap, q ∈ addrs s'.heap ∨ q ∉ l ++ kept := by
    intro q hmem
    rcases hq.addrs hmem with hmem | ⟨-, m, hm, rfl⟩
    · exact .inl hmem
    · exact .inr (h.serving m hm).2
  have hkeys : keyOf s' = keyOf s := funext fun q => (hq.maps q).key
  refine ⟨⟨?_, ?_, ?_, ?_, ?_, ?_, ?_⟩, ?_⟩
  · rw [hq.next, hq.fst]
    exact h.chain
  · rw [hkeys]
    exact h.keys
  · intro q hmem
    exact (hkeep q (h.live q hmem)).resolve_right (not_not.mpr hmem)
  · intro m' hm'
    have hold : m'.addr ∈ addrs s.heap ∧ m'.addr ∉ l ++ kept := by
      rcases hq.sendMap m' hm' with hmem | ⟨m, hm, haddr⟩
      · exact hserved _ hmem
      · rw [← haddr]
        exact h.serving m hm
    refine ⟨?_, hold.2⟩
    rcases hq.addrs hold.1 with hmem | ⟨hnone, -⟩
    · exact hmem
    · cases hnone.symm.trans hm'
  · intro q hmem
    rw [hq.cams, hkeys]
    exact h.entry q hmem
  · intro q hmem
    rw [hq.cams, hkeys]
    exact h.active q hmem
  · rw [hq.noRetry]
    exact h.noRetry
  · intro q hmem
    have hne : s.fst ≠ some q := by
      intro hfst
      obtain ⟨l', rfl⟩ := h.fst_mem hfst
      exact (disjoint_of_nodup_append h.nodup) mem_cons_self hmem
    rw [hq.off q hne]
    exact h.truthful q hmem

lemma Jobs.post {env : Env} (h : Jobs s cm (p :: l) kept)
    (hmap : isFetcherSucceed (s.states p) = true → checkMap (s.states p).map = true)
    (henv : env.msgHeader = true) (hrun : sendFetcherDone s env = some s') :
    Jobs s' cm l (kept ++ [p]) ∧ s'.done = s.done ++ [s.states p] := by
  obtain ⟨q, hq, hrun⟩ := bind_eq_some_iff.mp hrun
  have hqp : q = p := Option.some.inj (hq.symm.trans h.chain.1)
  subst hqp
  rw [if_pos henv] at hrun
  obtain ⟨s2, hs2, hrun⟩ := bind_eq_some_iff.mp hrun
  obtain ⟨cams1, rfl, hcode, hother, -⟩ := setStatus_eq hs2
  obtain ⟨cams2, rfl, hcode2, hactive⟩ := startNewFetch_eq hrun
  have hperm : (l ++ (kept ++ [q])).Perm (q :: l ++ kept) := by
    rw [← append_assoc]
    exact perm_append_singleton q (l ++ kept)
  have hmem : ∀ a, a ∈ l ++ (kept ++ [q]) ↔ a ∈ q :: l ++ kept := fun a => hperm.mem_iff
  refine ⟨⟨⟨?_, ?_, ?_, ?_, ?_, ?_, rfl⟩, ?_⟩, rfl⟩
  · exact h.chain.2
  · exact (hperm.map (keyOf s)).nodup_iff.mpr h.keys
  · intro a ha
    rw [addrs_kerChangeOwn]
    exact h.live a ((hmem a).mp ha)
  · intro m hm
    obtain ⟨hlive, hno⟩ := h.serving m hm
    rw [addrs_kerChangeOwn]
    exact ⟨hlive, fun ha => hno ((hmem _).mp ha)⟩
  · intro a ha
    rw [← h.entry a ((hmem a).mp ha)]
    exact (hcode.trans hcode2) (keyOf s a)
  · intro a ha
    apply hactive
    -- the entry that is set to done is that of the posted fetch only
    have hne : keyOf s a ≠ keyOf s q := by
      intro heq
      have haq : a = q := h.eq_of_key ((hmem a).mp (mem_append_left _ ha)) (by simp) heq
      subst haq
      exact (nodup_cons.mp h.nodup).1 (mem_append_left _ ha)
    exact active_congr (h.active a (mem_cons_of_mem _ ha)) (hother _ hne)
  · intro a ha
    rcases mem_append.mp ha with ha | ha
    · exact h.truthful a ha
    · rw [mem_singleton.mp ha]
      exact hmap

variable {g : FetcherState}

lemma chain_setState (h : Chain s.next s.fst l) (hp : p ∉ l) :
    Chain (s.setState p g).next (s.setState p g).fst l := by
  refine h.congr (fun q hq => ?_)
  rw [next_setState, update_of_ne]
  rintro rfl
  exact hp hq

lemma Fetches.setState (h : Fetches s cm l kept) (hp : p ∉ l)
    (hkey : g.map.key = keyOf s p) : Fetches (s.setState p g) cm l kept := by
  have hkeys : keyOf (s.setState p g) = keyOf s := by
    funext q
    by_cases hq : q = p
    · subst hq
      rw [keyOf, states_setState_self]
      exact hkey
    · rw [keyOf, states_setState_of_ne s g hq]
      rfl
  refine ⟨chain_setState h.chain hp, ?_, h.live, h.serving, ?_, ?_, h.noRetry⟩
  · rw [hkeys]
    exact h.keys
  · rw [hkeys]
    exact h.entry
  · rw [hkeys]
    exact h.active

lemma Fetches.insert {x : ℕ} (h : Fetches s cm l kept)
    (hfresh : p ∉ addrs s.heap) (hp : p ≠ 0) (hkey : ∀ q ∈ l ++ kept, keyOf s q ≠ g.map.key)
    (hentry : (s.cams g.map.key).map FetcherCam.cm = some x) :
    Fetches (({ s with heap := kerMalloc s.heap p kerFetcherPid } : State).setState p g)
      (update cm p x) l (p :: kept) := by
  have hnot : p ∉ l ++ kept := fun hmem => hfresh (h.live p hmem)
  have hmem : ∀ q, q ∈ l ++ p :: kept ↔ q = p ∨ q ∈ l ++ kept := by
    intro q
    rw [perm_middle.mem_iff, mem_cons]
  have hheap : addrs (kerMalloc s.heap p kerFetcherPid) = p :: addrs s.heap := by
    rw [kerMalloc, if_neg hp]
    rfl
  set s1 := ({ s with heap := kerMalloc s.heap p kerFetcherPid } : State).setState p g
  have hself : keyOf s1 p = g.map.key := congrArg (fun f => f.map.key) (states_setState_self _ p g)
  have hother : ∀ q ∈ l ++ kept, keyOf s1 q = keyOf s q := by
    intro q hq
    refine congrArg (fun f => f.map.key) (states_setState_of_ne _ g ?_)
    rintro rfl
    exact hnot hq
  refine ⟨chain_setState h.chain (fun hl => hnot (mem_append_left _ hl)), ?_, ?_, ?_, ?_, ?_,
    h.noRetry⟩
  · have hperm : (l ++ p :: kept).Perm (p :: (l ++ kept)) := perm_middle
    apply (hperm.map (keyOf s1)).nodup_iff.mpr
    rw [map_cons, map_congr_left hother, hself, nodup_cons]
    refine ⟨?_, h.keys⟩
    intro hin
    obtain ⟨q, hq, heq⟩ := mem_map.mp hin
    exact hkey q hq heq
  · intro q hq
    rw [show addrs s1.heap = p :: addrs s.heap from hheap]
    rcases (hmem q).mp hq with rfl | hq
    · exact mem_cons_self
    · exact mem_cons_of_mem _ (h.live q hq)
  · intro m hm
    obtain ⟨hlive, hno⟩ := h.serving m hm
    rw [show addrs s1.heap = p :: addrs s.heap from hheap]
    refine ⟨mem_cons_of_mem _ hlive, fun hin => ?_⟩
    rcases (hmem _).mp hin with heq | hin
    · exact hfresh (heq ▸ hlive)
    · exact hno hin
  · intro q hq
    rcases (hmem q).mp hq with rfl | hold
    · rw [hself, update_self]
      exact hentry
    · have hne : q ≠ p := by
        rintro rfl
        exact hnot hold
      rw [hother q hold, update_of_ne hne]
      exact h.entry q hold
  · intro q hq
    rw [hother q (mem_append_left _ hq)]
    exact h.active q hq

structure Appended (s s' : State) (p : ℕ) (l : List ℕ) : Prop where
  chain : Chain s'.next s'.fst (l ++ [p])
  keys : keyOf s' = keyOf s
  heap : s'.heap = s.heap
  sendMap : s'.sendMap = s.sendMap
  noMemRetry : s'.noMemRetry = s.noMemRetry
  code : SameCode s.cams s'.cams
  active : Active s'.cams (keyOf s p) ∧ ∀ k, Active s.cams k → Active s'.cams k
  states : ∀ q ∉ l, s'.states q = s.states q

lemma enqueue_appended (hchain : Chain s.next s.fst l) (hl : l.Nodup) (hp : p ∉ l)
    (hnext : s.next p = none) (hrun : enqueue s p (keyOf s p) = some s') : Appended s s' p l := by
  cases hfst : s.fst with
  | none =>
    have hnil : l = [] := hchain.unique (by rw [hfst]; exact rfl)
    subst hnil
    simp only [Fetcher.enqueue, hfst] at hrun
    obtain ⟨s1, hs1, rfl⟩ := map_eq_some_iff.mp hrun
    have hactive := setStatus_active (by decide) hs1
    obtain ⟨cams', rfl, hcode, -⟩ := setStatus_eq hs1
    exact ⟨⟨rfl, hnext⟩, rfl, rfl, rfl, rfl, hcode, hactive, fun _ _ => rfl⟩
  | some t =>
    simp only [Fetcher.enqueue, hfst] at hrun
    obtain ⟨s1, hs1, hrun⟩ := bind_eq_some_iff.mp hrun
    have hactive := setStatus_active (by decide) hs1
    obtain ⟨cams', rfl, hcode, -⟩ := setStatus_eq hs1
    obtain ⟨l', hcollect, hrun⟩ := bind_eq_some_iff.mp hrun
    have hl' : l' = l := (chain_of_collect hcollect).unique hchain
    subst hl'
    obtain ⟨q, hlast, rfl⟩ := map_eq_some_iff.mp hrun
    -- the loop stops at the last state, whose link is set
    obtain ⟨l0, rfl⟩ := List.getLast?_eq_some_iff.mp hlast
    refine ⟨?_, ?_, rfl, rfl, rfl, hcode, hactive, ?_⟩
    · rw [next_setState]
      exact Chain.append_last hchain hl hp hnext
    · funext a
      by_cases ha : a = q
      · subst ha
        rw [keyOf, states_setState_self]
        rfl
      · rw [keyOf, states_setState_of_ne _ _ ha]
        rfl
    · intro a ha
      apply states_setState_of_ne
      rintro rfl
      exact ha (by simp)

lemma Fetches.enqueue (h : Fetches s cm l (p :: kept)) (hnext : s.next p = none)
    (hrun : enqueue s p (keyOf s p) = some s') :
    Fetches s' cm (l ++ [p]) kept ∧ ∀ q ∉ l, s'.states q = s.states q := by
  have hassoc : l ++ [p] ++ kept = l ++ p :: kept := by simp
  have hp : p ∉ l := fun hl => (disjoint_of_nodup_append h.nodup) hl mem_cons_self
  have hl : l.Nodup := h.nodup.sublist (sublist_append_left _ _)
  have ha := enqueue_appended h.chain hl hp hnext hrun
  refine ⟨⟨ha.chain, ?_, ?_, ?_, ?_, ?_, ha.noMemRetry.trans h.noRetry⟩, ha.states⟩
  · rw [hassoc, ha.keys]
    exact h.keys
  · rw [hassoc, ha.heap]
    exact h.live
  · rw [hassoc, ha.heap, ha.sendMap]
    exact h.serving
  · rw [hassoc, ha.keys]
    intro q hq
    rw [ha.code]
    exact h.entry q hq
  · rw [ha.keys]
    intro q hq
    rcases mem_append.mp hq with hq | hq
    · exact ha.active.2 _ (h.active q hq)
    · rw [mem_singleton.mp hq]
      exact ha.active.1

lemma Jobs.restart (h : Jobs s cm l (p :: kept)) (hrun : fetcherRestart s p src = some s') :
    Jobs s' cm (l ++ [p]) kept ∧ ∀ q ∈ kept, s'.states q = s.states q := by
  have hdisj := disjoint_of_nodup_append h.nodup
  have hp : p ∉ l := fun hl => hdisj hl mem_cons_self
  have hkept : ∀ q ∈ kept, q ∉ l ∧ q ≠ p := by
    intro q hq
    refine ⟨fun hl => hdisj hl (mem_cons_of_mem _ hq), ?_⟩
    rintro rfl
    exact (nodup_cons.mp h.nodup.of_append_right).1 hq
  simp only [fetcherRestart] at hrun
  set g : FetcherState := { s.states p with srcAddr := src, retx := 0, next := none }
  have hkey : g.map.key = keyOf (s.setState p g) p := by rw [keyOf, states_setState_self]
  rw [hkey] at hrun
  have hnext : (s.setState p g).next p = none := by rw [next_setState, update_self]
  obtain ⟨hfetches, hoff⟩ := (h.toFetches.setState (g := g) hp rfl).enqueue hnext hrun
  have hsame : ∀ q ∈ kept, s'.states q = s.states q := by
    intro q hq
    rw [hoff q (hkept q hq).1, states_setState_of_ne s g (hkept q hq).2]
  refine ⟨⟨hfetches, fun q hq => ?_⟩, hsame⟩
  rw [hsame q hq]
  exact h.truthful q (mem_cons_of_mem _ hq)

lemma Jobs.request {reqId size : ℕ} {cam : FetcherCam} (h : Jobs s cm l kept)
    (hfresh : p ∉ addrs s.heap) (hkey : ∀ q ∈ l ++ kept, keyOf s q ≠ key)
    (hcam : s.cams key = some cam) (hrun : fetcherRequest c s reqId key size src p = some (s', 0)) :
    Jobs s' (update cm p cam.cm) (l ++ [p]) kept ∧ ∀ q ∈ kept, s'.states q = s.states q := by
  have hdisj := disjoint_of_nodup_append h.nodup
  have hnot : p ∉ l ++ kept := fun hmem => hfresh (h.live p hmem)
  obtain ⟨hr, -⟩ | ⟨-, hp, hs1⟩ := fetcherRequest_cases hrun
  · exact absurd rfl hr
  set g : FetcherState := ⟨src, reqId, 0, none, ⟨key, initialBitmap (numFragments c size)⟩⟩
  have hentry : (s.cams g.map.key).map FetcherCam.cm = some cam.cm := by
    rw [show s.cams g.map.key = some cam from hcam]
    rfl
  have hinsert := h.toFetches.insert hfresh hp hkey hentry
  set s0 := ({ s with heap := kerMalloc s.heap p kerFetcherPid } : State).setState p g
  have hkey0 : keyOf s0 p = key := congrArg (fun f => f.map.key) (states_setState_self _ p g)
  have hnext : s0.next p = none := congrArg FetcherState.next (states_setState_self _ p g)
  have hs1' : enqueue s0 p (keyOf s0 p) = some s' := hkey0 ▸ hs1
  obtain ⟨hfetches, hoff⟩ := hinsert.enqueue hnext hs1'
  have hsame : ∀ q ∈ kept, s'.states q = s.states q := by
    intro q hq
    rw [hoff q (fun hl => hdisj hl hq)]
    apply states_setState_of_ne
    rintro rfl
    exact hnot (mem_append_right _ hq)
  refine ⟨⟨hfetches, fun q hq => ?_⟩, hsame⟩
  rw [hsame q hq]
  exact h.truthful q hq

lemma Jobs.remove {l1 l2 : List ℕ} (h : Jobs s cm (l1 ++ t :: l2) kept)
    (hchain : Chain s'.next s'.fst (l1 ++ l2))
    (hmaps : ∀ q, (s'.states q).map = (s.states q).map ∧ (s'.states q).retx = (s.states q).retx)
    (hheap : s'.heap = kerFree s.heap t) (hsend : s'.sendMap = s.sendMap)
    (hcode : SameCode s.cams s'.cams) (hactive : ∀ k, Active s.cams k → Active s'.cams k)
    (hretry : s'.noMemRetry = s.noMemRetry) :
    Jobs s' cm (l1 ++ l2) kept ∧ ∀ q ∈ l1 ++ l2 ++ kept, keyOf s' q ≠ keyOf s t := by
  have hkeys : keyOf s' = keyOf s := funext (fun q => by rw [keyOf, keyOf, (hmaps q).1])
  have hsub : (l1 ++ l2 ++ kept).Sublist (l1 ++ t :: l2 ++ kept) :=
    ((sublist_cons_self t l2).append_left l1).append_right kept
  have ht : t ∉ l1 ++ l2 ++ kept := by
    have hnodup := h.nodup
    rw [append_assoc] at hnodup
    rw [append_assoc]
    exact (nodup_cons.mp (nodup_middle.mp hnodup)).1
  refine ⟨⟨⟨hchain, ?_, ?_, ?_, ?_, ?_, hretry.trans h.noRetry⟩, ?_⟩, ?_⟩
  · rw [hkeys]
    exact h.keys.sublist (hsub.map _)
  · intro q hq
    rw [hheap]
    apply mem_addrs_kerFree (h.live q (hsub.subset hq))
    rintro rfl
    exact ht hq
  · intro m hm
    obtain ⟨hlive, hno⟩ := h.serving m (hsend ▸ hm)
    rw [hheap]
    refine ⟨mem_addrs_kerFree hlive ?_, fun hin => hno (hsub.subset hin)⟩
    rintro rfl
    exact hno (by simp)
  · intro q hq
    rw [hkeys, hcode]
    exact h.entry q (hsub.subset hq)
  · intro q hq
    rw [hkeys]
    apply hactive
    apply h.active
    exact ((sublist_cons_self t l2).append_left l1).subset hq
  · intro q hq
    rw [isFetcherSucceed, (hmaps q).1, (hmaps q).2]
    exact h.truthful q hq
  · intro q hq heq
    rw [hkeys] at heq
    have hqt : q = t := h.eq_of_key (hsub.subset hq) (by simp) heq
    subst hqt
    exact ht hq

lemma setNext_maps (s : State) (q : ℕ) (o : Option ℕ) (a : ℕ) :
    ((s.setState q { s.states q with next := o }).states a).map = (s.states a).map ∧
      ((s.setState q { s.states q with next := o }).states a).retx = (s.states a).retx := by
  by_cases ha : a = q
  · subst ha
    rw [states_setState_self]
    exact ⟨rfl, rfl⟩
  · rw [states_setState_of_ne _ _ ha]
    exact ⟨rfl, rfl⟩

lemma Jobs.unlink {l0 l2 : List ℕ} (h : Jobs s cm (l0 ++ q :: t :: l2) kept) :
    Jobs { s.setState q { s.states q with next := s.next t } with heap := kerFree s.heap t } cm
        (l0 ++ q :: l2) kept ∧ ∀ a ∈ l0 ++ q :: l2 ++ kept, keyOf s a ≠ keyOf s t := by
  have hmaps := setNext_maps s q (s.next t)
  have hnodup := h.nodup.sublist (sublist_append_left _ _)
  have hchain := h.chain.unlink_after hnodup
  rw [← next_setState s q { s.states q with next := s.next t }] at hchain
  have hassoc : ∀ l', l0 ++ q :: l' = l0 ++ [q] ++ l' := fun l' => by simp
  rw [hassoc] at h hchain ⊢
  set s1 : State :=
    { s.setState q { s.states q with next := s.next t } with heap := kerFree s.heap t }
  obtain ⟨hjobs, hne⟩ : Jobs s1 cm (l0 ++ [q] ++ l2) kept ∧
      ∀ a ∈ l0 ++ [q] ++ l2 ++ kept, keyOf s1 a ≠ keyOf s t :=
    h.remove hchain hmaps rfl rfl (fun _ => rfl) (fun _ hk => hk) rfl
  refine ⟨hjobs, fun a ha heq => hne a ha ?_⟩
  rw [← heq]
  exact congrArg FetcherBitmap.key (hmaps a).1

lemma Jobs.cancel {r : ℤ} (h : Jobs s cm l kept) (hkept : ∀ q ∈ kept, keyOf s q ≠ key)
    (hrun : fetcherCancel s key = some (s', r)) :
    ∃ l', Jobs s' cm l' kept ∧ (∀ q ∈ l' ++ kept, keyOf s q ≠ key) ∧
      ∀ q, keyOf s' q = keyOf s q := by
  cases hfst : s.fst with
  | none =>
    have hnil : l = [] := h.chain.unique (by rw [hfst]; exact rfl)
    simp only [fetcherCancel, hfst] at hrun
    cases hrun
    subst hnil
    exact ⟨[], h, hkept, fun _ => rfl⟩
  | some p =>
    obtain ⟨l, rfl⟩ := h.fst_mem hfst
    simp only [fetcherCancel, hfst] at hrun
    split at hrun
    next hkey =>
      obtain ⟨s1, hs1, heq⟩ := map_eq_some_iff.mp hrun
      obtain ⟨cams', rfl, hcode, hactive⟩ := startNewFetch_eq hs1
      have h' : Jobs s cm ([] ++ p :: l) kept := h
      obtain ⟨hjobs, hne⟩ :
          Jobs { s with fst := s.next p, cams := cams', heap := kerFree s.heap p } cm l kept ∧
            ∀ q ∈ l ++ kept, keyOf s q ≠ keyOf s p :=
        h'.remove h.chain.2 (fun _ => ⟨rfl, rfl⟩) rfl rfl hcode hactive rfl
      rw [show keyOf s p = key from hkey] at hne
      cases heq
      split
      · exact ⟨l, hjobs.quiet (quiet_freeSendStateMap _) (fun a ha => by cases ha), hne,
          fun _ => rfl⟩
      · exact ⟨l, hjobs, hne, fun _ => rfl⟩
    next hkey =>
      have hlen : l.length ≤ s.heap.length + 1 := by
        have hle := h.length_le
        rw [length_cons] at hle
        omega
      rcases findPrev_behind h.chain.2 hlen with
        ⟨q, hnone, hno⟩ | ⟨l0, q, t, l2, hsplit, ht, hfound⟩
      · rw [hnone] at hrun
        have hs' : s' = s := by cases q <;> cases hrun <;> rfl
        subst hs'
        refine ⟨p :: l, h, fun a ha => ?_, fun _ => rfl⟩
        rcases mem_append.mp ha with ha | ha
        · rcases mem_cons.mp ha with rfl | ha
          · exact hkey
          · exact of_decide_eq_false (hno a ha)
        · exact hkept a ha
      · rw [hfound] at hrun
        rw [hsplit] at h
        cases hrun
        obtain ⟨hjobs, hne⟩ := h.unlink
        rw [show keyOf s t = key from of_decide_eq_true ht] at hne
        exact ⟨_, hjobs, hne, fun a => congrArg FetcherBitmap.key (setNext_maps s q _ a).1⟩

lemma Jobs.setCam (h : Jobs s cm l kept) (hkey : ∀ q ∈ l ++ kept, keyOf s q ≠ key)
    (cam : Option FetcherCam) : Jobs { s with cams := update s.cams key cam } cm l kept := by
  refine { h with entry := ?_, active := ?_ }
  · intro q hq
    rw [← h.entry q hq]
    exact congrArg (Option.map FetcherCam.cm) (update_of_ne (hkey q hq) ..)
  · intro q hq
    exact active_congr (h.active q hq)
      (update_of_ne (hkey q (mem_append_left _ hq)) ..)

lemma Jobs.outside {heap : Heap} (h : Jobs s cm l kept) (codemem : CodeMemory.State)
    (hlive : ∀ p ∈ l ++ kept, p ∈ addrs heap)
    (hserving : ∀ m, s.sendMap = some m → m.addr ∈ addrs heap) :
    Jobs { s with heap := heap, codemem := codemem } cm l kept :=
  { h with live := hlive, serving := fun m hm => ⟨hserving m hm, (h.serving m hm).2⟩ }

lemma Jobs.tail (h : Jobs s cm l (p :: kept)) :
    Jobs s cm l kept ∧ p ∉ l ++ kept ∧ ∀ m, s.sendMap = some m → m.addr ≠ p := by
  have hsub : (l ++ kept).Sublist (l ++ p :: kept) := (sublist_cons_self p kept).append_left l
  refine ⟨⟨⟨h.chain, ?_, ?_, ?_, ?_, h.active, h.noRetry⟩, ?_⟩, ?_, ?_⟩
  · exact h.keys.sublist (hsub.map _)
  · exact fun q hq => h.live q (hsub.subset hq)
  · intro m hm
    obtain ⟨hlive, hno⟩ := h.serving m hm
    exact ⟨hlive, fun hin => hno (hsub.subset hin)⟩
  · exact fun q hq => h.entry q (hsub.subset hq)
  · exact fun q hq => h.truthful q (mem_cons_of_mem _ hq)
  · exact (nodup_cons.mp (nodup_middle.mp h.nodup)).1
  · rintro m hm rfl
    exact (h.serving m hm).2 (by simp)

end FetcherJobs
