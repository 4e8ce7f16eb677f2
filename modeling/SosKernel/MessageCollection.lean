import SosKernel.MessageLifecycle

/-! # Collecting message headers, `mq_gc`

The headers that are linked in `schedpq` are marked, the slab gives up what is not, and
`malloc_gc` frees what the message queue owns and the slab did not mark. The collector runs from
a timer of the kernel, so between two messages. The radio and UART queues are empty. -/
namespace MessageCollection

open HeapBlocks SlabPools MessagePosting MessageLifecycle GuardedRuns PointerChain HeapLayout
open Option Multiset
open MessageQueue hiding State Event step Legal

variable {ps : List Pool} {marked l : List Item} {it : Item} {p : Pool} {slab slab' : Slab}
  {h h' rest : Heap} {a pid fuel pool did sid type flag : ℕ} {b : Bool} {s s' : State}
  {f : MsgClass → List Item} {plat : Platform} {st st' : Store} {q q' : Mq Item} {r : ℤ}
  {ps' : List Pool}

def isAllocated (ps : List Pool) (it : Item) : Bool :=
  ps.any (fun p => p.addr = it.pool ∧ p.alloc[it.slot]? = some true)

/-- The `gc_mark` vectors of all pools are one list of marked items. Items that are free are not
marked. -/
def slabGcMark (ps : List Pool) (marked : List Item) (it : Item) : List Item :=
  if isAllocated ps it then it :: marked else marked

def gcMark (marked : List Item) (p : Pool) : List Bool :=
  p.alloc.mapIdx (fun i _ => decide (⟨p.addr, i⟩ ∈ marked))

/-- The loop of `slab_gc`: the pools that stay, and the blocks of the others. -/
def sweep (marked : List Item) : Bool → List Pool → List Pool × List ℕ
  | _, [] => ([], [])
  | isHead, p :: ps =>
    let r := sweep marked false ps
    if p.alloc ≠ gcMark marked p then
      if true ∉ gcMark marked p ∧ isHead = false then (r.1, p.addr :: r.2)
      else ({ p with alloc := gcMark marked p } :: r.1, r.2)
    else (p :: r.1, r.2)

def slabGc (s : Slab) (h : Heap) (marked : List Item) : Slab × Heap :=
  let r := sweep marked true s.pools
  ({ s with pools := r.1 }, r.2.foldl kerFree h)

/-- `malloc_gc`, where `ker_gc_mark` was called for the blocks `marks`. -/
def mallocGc (h : Heap) (pid : ℕ) (marks : List ℕ) : Heap :=
  h.filter (fun b => ¬ (b.owner = pid ∧ b.addr ∉ marks ∧ b.Intact))

def queueHeaders (fuel : ℕ) (q : Mq Item) : Option (List Item) :=
  (collect q.next fuel (q.ends .high).head).bind (fun hq =>
    (collect q.next fuel (q.ends .system).head).bind (fun sq =>
      (collect q.next fuel (q.ends .low).head).map (fun lq => hq ++ sq ++ lq)))

def mqGcMarkHdr (fuel : ℕ) (ps : List Pool) (q : Mq Item) (marked : List Item) :
    Option (List Item) :=
  (queueHeaders fuel q).map (fun hs => hs.foldl (slabGcMark ps) marked)

def mqGc (fuel : ℕ) (st : Store) (q : Mq Item) : Option Store :=
  (mqGcMarkHdr fuel st.slab.pools q []).map (fun marked =>
    let r := slabGc st.slab st.heap marked
    { st with slab := r.1, heap := mallocGc r.2 msgQueuePid (poolAddrs r.1.pools) })

lemma isAllocated_iff : isAllocated ps it = true ↔ Allocated ps it := by
  simp [isAllocated, Allocated]

lemma mem_foldl_slabGcMark :
    it ∈ l.foldl (slabGcMark ps) marked ↔ it ∈ marked ∨ (it ∈ l ∧ Allocated ps it) := by
  induction l generalizing marked with
  | nil => simp
  | cons x l ih =>
    rw [List.foldl_cons, ih, slabGcMark]
    by_cases hx : it = x
    · subst hx
      by_cases hal : Allocated ps it
      · simp [isAllocated_iff.mpr hal, hal]
      · simp [mt isAllocated_iff.mp hal, hal]
    · split <;> simp [hx]

lemma getElem?_gcMark {i : ℕ} :
    (gcMark marked p)[i]? = some true ↔ i < p.alloc.length ∧ ⟨p.addr, i⟩ ∈ marked := by
  rw [gcMark, List.getElem?_mapIdx, map_eq_some_iff]
  constructor
  · rintro ⟨b, hb, hm⟩
    exact ⟨(List.getElem?_eq_some_iff.mp hb).1, of_decide_eq_true hm⟩
  · rintro ⟨hi, hm⟩
    exact ⟨_, List.getElem?_eq_getElem hi, decide_eq_true hm⟩

lemma allocated_sweep : Allocated (sweep marked b ps).1 it ↔
    it ∈ marked ∧ ∃ p ∈ ps, p.addr = it.pool ∧ it.slot < p.alloc.length := by
  induction ps generalizing b with
  | nil => simp [sweep, Allocated]
  | cons p ps ih =>
    have hhead : (p.addr = it.pool ∧ (gcMark marked p)[it.slot]? = some true) ↔
        it ∈ marked ∧ p.addr = it.pool ∧ it.slot < p.alloc.length := by
      rw [getElem?_gcMark]
      constructor
      · rintro ⟨ha, hi, hm⟩
        exact ⟨by rw [ha] at hm; exact hm, ha, hi⟩
      · rintro ⟨hm, ha, hi⟩
        exact ⟨ha, hi, by rw [ha]; exact hm⟩
    have hboth : (p.addr = it.pool ∧ (gcMark marked p)[it.slot]? = some true) ∨
        Allocated (sweep marked false ps).1 it ↔
        it ∈ marked ∧ ∃ q ∈ p :: ps, q.addr = it.pool ∧ it.slot < q.alloc.length := by
      rw [hhead, ih, ← and_or_left]
      simp only [List.mem_cons, exists_eq_or_imp]
    rw [← hboth]
    simp only [sweep]
    split
    · split
      next hempty =>
        have hnone : (gcMark marked p)[it.slot]? ≠ some true :=
          fun hh => hempty.1 (List.mem_of_getElem? hh)
        simp only [hnone, and_false, false_or]
      · rw [allocated_cons]
    next hsame => rw [allocated_cons, ← not_not.mp hsame]

lemma sweep_perm (marked : List Item) (ps : List Pool) (b : Bool) :
    (poolAddrs (sweep marked b ps).1 ++ (sweep marked b ps).2).Perm (poolAddrs ps) := by
  induction ps generalizing b with
  | nil => exact List.Perm.refl _
  | cons p ps ih =>
    simp only [sweep]
    split
    · split
      · exact List.perm_middle.trans ((ih false).cons _)
      · exact (ih false).cons _
    · exact (ih false).cons _

lemma sweep_eq_self (hsame : ∀ p ∈ ps, p.alloc = gcMark marked p) :
    sweep marked b ps = (ps, []) := by
  induction ps generalizing b with
  | nil => rfl
  | cons p ps ih =>
    have hp := hsame p List.mem_cons_self
    have hps := ih (b := false) (fun e he => hsame e (List.mem_cons_of_mem _ he))
    simp only [sweep, hps, ne_eq, ← hp, not_true_eq_false, if_false]

lemma gcMark_eq_self (hd : (poolAddrs ps).Nodup) (hp : p ∈ ps)
    (hall : ∀ it, Allocated ps it ↔ it ∈ marked) : p.alloc = gcMark marked p := by
  apply List.ext_getElem?
  intro i
  rw [gcMark, List.getElem?_mapIdx]
  cases hi : p.alloc[i]? with
  | none => rfl
  | some b =>
    have hbit : Allocated ps ⟨p.addr, i⟩ ↔ b = true := by
      constructor
      · rintro ⟨q, hq, haddr, hset⟩
        have hqp : q = p := List.inj_on_of_nodup_map hd hq hp haddr
        rw [hqp, hi] at hset
        exact some.inj hset
      · intro hb
        exact ⟨p, hp, rfl, by rw [hi, hb]⟩
    rw [map_some, some.injEq, eq_comm, ← Bool.coe_iff_coe, decide_eq_true_eq, ← hall, hbit]

lemma mem_mallocGc {marks : List ℕ} {b : Block} : b ∈ mallocGc h pid marks ↔
    b ∈ h ∧ ¬ (b.owner = pid ∧ b.addr ∉ marks ∧ b.Intact) := by
  rw [mallocGc, List.mem_filter, decide_eq_true_eq]

lemma mem_foldl_kerFree {l : List ℕ} {b : Block} (hb : b ∈ h) (hl : b.addr ∉ l) :
    b ∈ l.foldl kerFree h := by
  induction l generalizing h with
  | nil => exact hb
  | cons a l ih =>
    rw [List.mem_cons, not_or] at hl
    exact ih (mem_kerFree_of_ne hb hl.1) hl.2

/-- A header is still needed if it is linked in `schedpq` or if a `MSG_PKT_SENDDONE` that is
linked there carries it. -/
def Needed (msgs : Item → Message Data) (f : MsgClass → List Item) (it : Item) : Prop :=
  it ∈ queued f ∨ ∃ j ∈ queued f, it ∈ innerOf (msgs j)

def Kept (st : Store) (it : Item) : Prop := Allocated st.slab.pools it ∧ it.pool ∈ addrs st.heap

lemma queueHeaders_eq {q : Mq Item} (hq : Represents q f) (hfuel : ∀ c, (f c).length ≤ fuel) :
    queueHeaders fuel q = some (f .high ++ f .system ++ f .low) := by
  have hcollect : ∀ c, collect q.next fuel (q.ends c).head = some (f c) :=
    fun c => collect_spec (hq.lists c).1 (hfuel c)
  simp only [queueHeaders, hcollect, bind_some, map_some]

lemma queueHeaders_some {q : Mq Item} {hs : List Item} (hq : Represents q f)
    (hrun : queueHeaders fuel q = some hs) : hs = f .high ++ f .system ++ f .low := by
  have hlist : ∀ c l, collect q.next fuel (q.ends c).head = some l → l = f c :=
    fun c l hl => (chain_of_collect hl).unique (hq.lists c).1
  obtain ⟨hl, hhigh, hrest⟩ := bind_eq_some_iff.mp hrun
  obtain ⟨sl, hsystem, hrest⟩ := bind_eq_some_iff.mp hrest
  obtain ⟨ll, hlow, rfl⟩ := map_eq_some_iff.mp hrest
  rw [hlist _ _ hhigh, hlist _ _ hsystem, hlist _ _ hlow]

lemma coe_queueHeaders (f : MsgClass → List Item) :
    ((f .high ++ f .system ++ f .low : List Item) : Multiset Item) = queued f := by
  rw [queued, coe_add, coe_add]

lemma mem_outer_of_queued (hit : it ∈ queued f) (phase : Phase) : it ∈ outer f phase :=
  mem_add.mpr (.inl hit)

lemma mqGc_spec (hi : Inv s f rest) (hfuel : ∀ c, (f c).length ≤ fuel) :
    ∃ st', mqGc fuel s.store s.q = some st' ∧ (∀ it, Allocated st'.slab.pools it ↔ it ∈ queued f) ∧
      ∀ a ∈ poolAddrs st'.slab.pools, a ∈ addrs st'.heap := by
  have ho := hi.owned
  obtain ⟨marked, hmarked⟩ : ∃ marked, marked =
      (f .high ++ f .system ++ f .low).foldl (slabGcMark s.store.slab.pools) [] := ⟨_, rfl⟩
  have hqueued : ∀ it ∈ queued f, Allocated s.store.slab.pools it := fun it hit =>
    (ho.headers it).mpr (mem_live_of_mem (mem_outer_of_queued hit s.phase))
  have hmem : ∀ it, it ∈ marked ↔ it ∈ queued f := by
    intro it
    rw [hmarked, mem_foldl_slabGcMark, ← coe_queueHeaders, mem_coe]
    simp only [List.not_mem_nil, false_or, and_iff_left_iff_imp]
    intro hit
    exact hqueued it (by rw [← coe_queueHeaders]; exact hit)
  refine ⟨_, by rw [mqGc, mqGcMarkHdr, queueHeaders_eq hi.queue hfuel]; rfl, fun it => ?_, ?_⟩
  · simp only [← hmarked, slabGc]
    rw [allocated_sweep, hmem, and_iff_left_iff_imp]
    intro hit
    obtain ⟨p, hp, haddr, hbit⟩ := hqueued it hit
    exact ⟨p, hp, haddr, (List.getElem?_eq_some_iff.mp hbit).1⟩
  · simp only [← hmarked, slabGc]
    intro a ha
    have hperm := sweep_perm marked s.store.slab.pools true
    have hfreed : a ∉ (sweep marked true s.store.slab.pools).2 :=
      fun hf => (List.nodup_append.mp (hperm.nodup_iff.mpr ho.slab.distinct)).2.2 a ha a hf rfl
    obtain ⟨p, hp, rfl⟩ := List.mem_map.mp (hperm.subset (List.mem_append_left _ ha))
    have hblock : (⟨p.addr, msgQueuePid, msgQueuePid⟩ : Block) ∈ s.store.heap :=
      (ho.backed.blocks _).mpr (.inr ⟨p, hp, rfl⟩)
    exact List.mem_map.mpr ⟨_, mem_mallocGc.mpr ⟨mem_foldl_kerFree hblock hfreed,
      fun hh => hh.2.1 ha⟩, rfl⟩

lemma inner_not_queued (hi : Inv s f rest) {j : Item} (hj : j ∈ queued f)
    (hit : it ∈ innerOf (s.store.msgs j)) : it ∉ queued f := by
  intro hq
  obtain ⟨M, hM⟩ := exists_cons_of_mem (mem_outer_of_queued hj s.phase)
  have honce := hi.owned.once
  rw [hM, live_cons, nodup_cons, nodup_add] at honce
  obtain ⟨hj', -, -, hdisj⟩ := honce
  have hne : it ≠ j := by
    rintro rfl
    exact hj' (mem_add.mpr (.inl hit))
  have hrest : it ∈ M := by
    have hmem := mem_outer_of_queued hq s.phase
    rw [hM, mem_cons] at hmem
    exact hmem.resolve_left hne
  exact disjoint_left.mp hdisj hit (mem_live_of_mem hrest)

lemma collection_safe_iff (hi : Inv s f rest) (hfuel : ∀ c, (f c).length ≤ fuel) :
    ∃ st', mqGc fuel s.store s.q = some st' ∧ ((∀ it, Needed s.store.msgs f it → Kept st' it) ↔
        ∀ it ∈ queued f, (s.store.msgs it).type ≠ msgPktSenddone) := by
  obtain ⟨st', hrun, hall, hpools⟩ := mqGc_spec hi hfuel
  refine ⟨st', hrun, fun hsafe j hj ht => ?_, fun hnone it hit => ?_⟩
  · obtain ⟨k, hdata, -⟩ := hi.shaped j (mem_outer_of_queued hj s.phase) ht
    have hk : k ∈ innerOf (s.store.msgs j) := by
      rw [innerOf, if_pos ht, hdata]
      exact mem_singleton_self k
    exact inner_not_queued hi hj hk ((hall k).mp (hsafe k (.inr ⟨j, hj, hk⟩)).1)
  · have hq : it ∈ queued f := by
      rcases hit with hq | ⟨j, hj, hin⟩
      · exact hq
      · rw [innerOf_of_ne (hnone j hj)] at hin
        exact absurd hin (notMem_zero it)
    have hal := (hall it).mpr hq
    exact ⟨hal, hpools _ hal.pool_mem⟩

structure Clean (slab : Slab) (h : Heap) : Prop where
  intact : ∀ b ∈ h, b.Intact
  notNull : 0 ∉ addrs h
  pools : ∀ b ∈ h, b.owner = msgQueuePid → b.addr ∈ poolAddrs slab.pools

lemma poolAddrs_takeItem (ht : takeItem ps = some (it, ps')) :
    poolAddrs ps' = poolAddrs ps := by
  induction ps generalizing it ps' with
  | nil => cases ht
  | cons p ps ih =>
    simp only [takeItem] at ht
    split at ht
    · cases ht
      rfl
    · obtain ⟨⟨jt, qs⟩, hj, heq⟩ := map_eq_some_iff.mp ht
      cases heq
      exact congrArg (p.addr :: ·) (ih hj)

lemma poolAddrs_dropItem {q : ℕ} (hd : dropItem it b ps = some (ps', q))
    (ha : a ∈ poolAddrs ps) : a ∈ poolAddrs ps' ∨ a = q := by
  induction ps generalizing b ps' with
  | nil => cases hd
  | cons p ps ih =>
    simp only [dropItem] at hd
    split at hd
    · split at hd
      · cases hd
        exact (List.mem_cons.mp ha).symm
      · cases hd
        exact .inl ha
    · obtain ⟨⟨qs, q'⟩, hj, heq⟩ := map_eq_some_iff.mp hd
      cases heq
      rcases List.mem_cons.mp ha with rfl | ha
      · exact .inl List.mem_cons_self
      · exact (ih hj ha).imp_left (List.mem_cons_of_mem _)

section

variable (hc : Clean slab h)
include hc

lemma Clean.free (p : ℕ) : Clean slab (kerFree h p) := by
  refine ⟨fun b hb => hc.intact b (mem_of_kerFree hb), fun hz => ?_,
    fun b hb => hc.pools b (mem_of_kerFree hb)⟩
  obtain ⟨b, hb, haddr⟩ := List.mem_map.mp hz
  exact hc.notNull (List.mem_map.mpr ⟨b, mem_of_kerFree hb, haddr⟩)

lemma Clean.malloc (p : ℕ)
    (hpid : pid = msgQueuePid → p ∈ poolAddrs slab.pools) : Clean slab (kerMalloc h p pid) := by
  refine ⟨intact_kerMalloc hc.intact, fun hz => ?_, ?_⟩
  · rcases addrs_kerMalloc hz with hz | ⟨hz, hne⟩
    · exact hc.notNull hz
    · exact hne hz.symm
  · unfold kerMalloc
    split
    · exact hc.pools
    · intro b hb howner
      rcases List.mem_cons.mp hb with rfl | hb
      · exact hpid howner
      · exact hc.pools b hb howner

lemma Clean.changeOwn (p : ℕ) (hpid : pid ≠ msgQueuePid) : Clean slab (kerChangeOwn h p pid) := by
  refine ⟨intact_kerChangeOwn hc.intact, by rw [addrs_kerChangeOwn]; exact hc.notNull, ?_⟩
  unfold kerChangeOwn
  split
  · exact hc.pools
  · intro b hb howner
    obtain ⟨b0, hb0, rfl⟩ := List.mem_map.mp hb
    split at howner
    · exact absurd howner hpid
    next hno =>
      rw [if_neg hno]
      exact hc.pools b0 hb0 howner

lemma Clean.freeData (d : Data) : Clean slab (freeData h d) := by
  cases d with
  | mem a => exact hc.free a
  | payload | header it => exact hc

lemma Clean.changeOwnData (hpid : pid ≠ msgQueuePid) (d : Data) :
    Clean slab (changeOwnData h pid d) := by
  cases d with
  | mem a => exact hc.changeOwn a hpid
  | payload | header it => exact hc

lemma Clean.slabAlloc {q : ℕ} {r : Option Item}
    (hrun : kerSlabAlloc slab h q msgQueuePid = (slab', h', r)) : Clean slab' h' := by
  unfold kerSlabAlloc at hrun
  split at hrun
  next jt qs htake =>
    cases hrun
    exact ⟨hc.intact, hc.notNull, by rw [poolAddrs_takeItem htake]; exact hc.pools⟩
  · split at hrun
    · cases hrun
      exact hc
    · cases hrun
      refine Clean.malloc ⟨hc.intact, hc.notNull, fun b hb howner => ?_⟩ _ (fun _ => ?_)
      · simpa [poolAddrs] using Or.inl (hc.pools b hb howner)
      · simp [poolAddrs]

lemma Clean.slabFree {x : Ptr}
    (hrun : kerSlabFree slab h x = some (slab', h')) : Clean slab' h' := by
  cases x with
  | other a => cases hrun
  | slab it =>
    obtain ⟨⟨ps', q⟩, hdrop, heq⟩ := map_eq_some_iff.mp hrun
    cases heq
    obtain ⟨hintact, hnull, -⟩ := hc.free q
    refine ⟨hintact, hnull, fun b hb howner => ?_⟩
    have hmem := mem_of_kerFree hb
    refine (poolAddrs_dropItem hdrop (hc.pools b hmem howner)).resolve_right (fun hq => ?_)
    -- the block of the pool that was given up is gone
    have hz : q ≠ 0 := fun hz => hc.notNull (List.mem_map.mpr ⟨b, hmem, hq.trans hz⟩)
    exact ((mem_kerFree hz).mp hb).2 ⟨hq, hc.intact b hmem⟩

end

lemma msgCreate_clean {r : Option Item} (hrun : msgCreate st pool = (st', r))
    (hc : Clean st.slab st.heap) : Clean st'.slab st'.heap := by
  unfold msgCreate at hrun
  split at hrun
  all_goals
    cases hrun
    exact hc.slabAlloc ‹_›

lemma msgDispose_clean (hc : Clean st.slab st.heap) (hrun : msgDispose st it = some st') :
    Clean st'.slab st'.heap := by
  obtain ⟨⟨slab, h⟩, hfree, rfl⟩ := map_eq_some_iff.mp hrun
  refine Clean.slabFree ?_ hfree
  split
  · exact hc.freeData _
  · exact hc

lemma disposeInner_clean {d : Data} (hc : Clean st.slab st.heap)
    (hrun : disposeInner st d = some st') : Clean st'.slab st'.heap := by
  cases d with
  | header it => exact msgDispose_clean hc hrun
  | mem a | payload => cases hrun

lemma schedMsgAlloc_clean (hrun : schedMsgAlloc st q it = some (st', q'))
    (hc : Clean st.slab st.heap) : Clean st'.slab st'.heap := by
  obtain ⟨q1, -, heq⟩ := map_eq_some_iff.mp hrun
  cases heq
  split
  · exact hc.changeOwnData (by decide) _
  · exact hc

section

variable (hc : Clean st.slab st.heap)
include hc

lemma postLonger_clean {len saddr : ℕ} {data : Data}
    (hrun : postLonger plat st q did sid type len data flag saddr pool = some (st', q', r)) :
    Clean st'.slab st'.heap := by
  simp only [postLonger] at hrun
  split at hrun
  next st1 hcreate =>
    cases hrun
    have hc1 := msgCreate_clean hcreate hc
    split
    · exact hc1.freeData _
    · exact hc1
  next st1 it hcreate =>
    obtain ⟨⟨st2, q2⟩, halloc, heq⟩ := map_eq_some_iff.mp hrun
    cases heq
    have hc1 := msgCreate_clean hcreate hc
    exact schedMsgAlloc_clean halloc hc1

lemma postShort_clean (hrun : postShort plat st q did sid type flag pool = some (st', q', r)) :
    Clean st'.slab st'.heap := by
  unfold postShort at hrun
  split at hrun
  next st1 hcreate =>
    cases hrun
    exact msgCreate_clean hcreate hc
  next st1 it hcreate =>
    obtain ⟨⟨st2, q2⟩, halloc, heq⟩ := map_eq_some_iff.mp hrun
    cases heq
    have hc1 := msgCreate_clean hcreate hc
    exact schedMsgAlloc_clean halloc hc1

lemma kerSysPostValue_clean
    (hrun : kerSysPostValue plat st q did sid type flag pool = some (st', q', r)) :
    Clean st'.slab st'.heap := by
  unfold kerSysPostValue at hrun
  split at hrun
  · cases hrun
  next st1 it hcreate =>
    obtain ⟨⟨st2, q2⟩, halloc, heq⟩ := map_eq_some_iff.mp hrun
    cases heq
    have hc1 := msgCreate_clean hcreate hc
    exact schedMsgAlloc_clean halloc hc1

lemma finishDispatch_clean {d : Dispatch}
    (hrun : finishDispatch plat st q d flag pool = some (st', q')) : Clean st'.slab st'.heap := by
  unfold finishDispatch at hrun
  split at hrun
  next inner hinner =>
    obtain ⟨st2, hboth, heq⟩ := map_eq_some_iff.mp hrun
    obtain ⟨st1, hfirst, hsecond⟩ := bind_eq_some_iff.mp hboth
    cases heq
    exact msgDispose_clean (disposeInner_clean hc hfirst) hsecond
  · split at hrun
    · obtain ⟨⟨st1, q1, r⟩, hpost, hrest⟩ := bind_eq_some_iff.mp hrun
      have hc1 := postLonger_clean hc hpost
      split at hrest
      · obtain ⟨st2, hdispose, heq⟩ := map_eq_some_iff.mp hrest
        cases heq
        exact msgDispose_clean hc1 hdispose
      · cases hrest
        exact hc1
    · obtain ⟨st1, hdispose, heq⟩ := map_eq_some_iff.mp hrun
      cases heq
      exact msgDispose_clean hc hdispose

lemma kerMsgTakeData_clean {msgIn : Item} {new : ℕ} (hpid : pid ≠ msgQueuePid)
    (hrun : kerMsgTakeData st pid msgIn new = some st') : Clean st'.slab st'.heap := by
  obtain ⟨it, -, heq⟩ := map_eq_some_iff.mp hrun
  simp only at heq
  split at heq
  · cases heq
    exact hc.changeOwnData hpid _
  · cases heq
    exact hc.malloc _ (fun h => absurd h hpid)

end

inductive Event where
  | message (ev : MessagePosting.Event)
  | mqGc (fuel : ℕ)
  deriving DecidableEq, Repr

def step (plat : Platform) (s : State) : Event → Option State
  | .message ev => MessagePosting.step plat s ev
  | .mqGc fuel =>
    if s.phase = .idle then (mqGc fuel s.store s.q).map (fun st => { s with store := st })
    else none

def KeepsPid (s : State) : MessagePosting.Event → Prop
  | .malloc _ pid | .take pid _ => pid ≠ msgQueuePid
  | .deliver _ => ∀ d, s.phase = .monitor d → d.handle ≠ none →
    (s.store.msgs d.e).did ≠ msgQueuePid
  | .postShort _ _ _ _ _ | .postLong _ _ _ _ _ _ _ _ | .postValue _ _ _ _ _ | .free _
  | .dispatch _ | .ret _ _ => True

def NoSenddone (fuel : ℕ) (s : State) : Prop :=
  ∀ hs ∈ queueHeaders fuel s.q, ∀ it ∈ hs, (s.store.msgs it).type ≠ msgPktSenddone
  deriving Decidable

def Legal (s : State) : Event → Prop
  | .message ev => MessagePosting.Legal s ev ∧ KeepsPid s ev
  | .mqGc fuel => NoSenddone fuel s

lemma message_clean {ev : MessagePosting.Event} (hc : Clean s.store.slab s.store.heap)
    (hpid : KeepsPid s ev) (hrun : MessagePosting.step plat s ev = some s') :
    Clean s'.store.slab s'.store.heap := by
  cases ev with
  | postShort did sid type flag pool =>
    obtain ⟨⟨st, q, r⟩, hpost, rfl⟩ := map_eq_some_iff.mp hrun
    exact postShort_clean hc hpost
  | postLong did sid type len data flag saddr pool =>
    obtain ⟨⟨st, q, r⟩, hpost, rfl⟩ := map_eq_some_iff.mp hrun
    exact postLonger_clean hc hpost
  | postValue did sid type flag pool =>
    obtain ⟨⟨st, q, r⟩, hpost, rfl⟩ := map_eq_some_iff.mp hrun
    exact kerSysPostValue_clean hc hpost
  | malloc p pid =>
    cases hrun
    exact hc.malloc p (fun h => absurd h hpid)
  | free p =>
    cases hrun
    exact hc.free p
  | dispatch handle =>
    simp only [MessagePosting.step] at hrun
    split at hrun
    · cases hrun
      exact hc
    · cases hrun
  | take pid new =>
    obtain ⟨e, -, htake⟩ := bind_eq_some_iff.mp hrun
    obtain ⟨st, hst, rfl⟩ := map_eq_some_iff.mp htake
    exact kerMsgTakeData_clean hc hpid hst
  | deliver pool =>
    simp only [MessagePosting.step] at hrun
    split at hrun
    next d hphase =>
      split at hrun
      next hhandle =>
        cases hrun
        have hsome : d.handle ≠ none := by
          intro hn
          rw [hn] at hhandle
          cases hhandle
        split
        · exact hc.changeOwnData (hpid d hphase hsome) _
        · exact hc
      · obtain ⟨⟨st, q⟩, hfinish, rfl⟩ := map_eq_some_iff.mp hrun
        exact finishDispatch_clean hc hfinish
    all_goals cases hrun
  | ret ok pool =>
    simp only [MessagePosting.step] at hrun
    split at hrun
    · obtain ⟨⟨st, q⟩, hfinish, rfl⟩ := map_eq_some_iff.mp hrun
      exact finishDispatch_clean hc hfinish
    all_goals cases hrun

lemma mqGc_eq_self (hi : Inv s f rest) (hc : Clean s.store.slab s.store.heap)
    (hidle : s.phase = .idle) (hq : queueHeaders fuel s.q = some (f .high ++ f .system ++ f .low))
    (hnone : ∀ it ∈ queued f, (s.store.msgs it).type ≠ msgPktSenddone) :
    mqGc fuel s.store s.q = some s.store := by
  have ho := hi.owned
  have hlive : live s.store.msgs (outer f s.phase) = queued f := by
    have houter : outer f s.phase = queued f := by
      rw [hidle]
      exact add_zero _
    rw [houter]
    calc (queued f).bind (headersOf s.store.msgs)
        = (queued f).bind (fun it => {it}) := bind_congr (fun it hit => by
          rw [headersOf, innerOf_of_ne (hnone it hit), cons_zero])
      _ = queued f := (bind_singleton _ _).trans (map_id _)
  have hall : ∀ it, Allocated s.store.slab.pools it ↔
      it ∈ (f .high ++ f .system ++ f .low).foldl (slabGcMark s.store.slab.pools) [] := by
    intro it
    rw [mem_foldl_slabGcMark, ho.headers, hlive, ← coe_queueHeaders, mem_coe]
    simp only [List.not_mem_nil, false_or, and_self]
  have hheap : mallocGc s.store.heap msgQueuePid (poolAddrs s.store.slab.pools) = s.store.heap := by
    refine List.filter_eq_self.mpr (fun b hb => decide_eq_true ?_)
    exact fun hh => hh.2.1 (hc.pools b hb hh.1)
  rw [mqGc, mqGcMarkHdr, hq]
  simp only [map_some, slabGc]
  rw [sweep_eq_self (fun p hp => gcMark_eq_self ho.slab.distinct hp hall)]
  simp only [List.foldl_nil, hheap]

def Good (s : State) : Prop := (∃ f rest, Inv s f rest) ∧ Clean s.store.slab s.store.heap

lemma step_preserves_good (s : State) (ev : Event) (s' : State) (hg : Good s)
    (hlegal : Legal s ev) (hrun : step plat s ev = some s') : Good s' := by
  obtain ⟨⟨f, rest, hi⟩, hc⟩ := hg
  cases ev with
  | message ev =>
    exact ⟨step_preserves_invariant s ev s' ⟨f, rest, hi⟩ hlegal.1 hrun,
      message_clean hc hlegal.2 hrun⟩
  | mqGc fuel =>
    simp only [step] at hrun
    split at hrun
    next hidle =>
      obtain ⟨st, hst, rfl⟩ := map_eq_some_iff.mp hrun
      obtain ⟨marked, hmark, -⟩ := map_eq_some_iff.mp hst
      obtain ⟨hs, hheaders, -⟩ := map_eq_some_iff.mp hmark
      have hf := queueHeaders_some hi.queue hheaders
      have hnone : ∀ it ∈ queued f, (s.store.msgs it).type ≠ msgPktSenddone := by
        intro it hit
        rw [← coe_queueHeaders, ← hf] at hit
        exact hlegal hs hheaders it hit
      rw [mqGc_eq_self hi hc hidle (hf ▸ hheaders) hnone] at hst
      cases hst
      exact ⟨⟨f, rest, hi⟩, hc⟩
    · cases hrun

lemma good_of_initial (hs : Initial s rest) (hrest : ∀ b ∈ rest, b.owner ≠ msgQueuePid) :
    Good s := by
  refine ⟨⟨_, rest, inv_of_initial hs⟩, fun b hb => ?_, fun hz => ?_, fun b hb howner => ?_⟩
  · rcases (hs.backed.blocks b).mp hb with hb | ⟨p, -, rfl⟩
    · exact hs.intact b hb
    · rfl
  · obtain ⟨b, hb, hz⟩ := List.mem_map.mp hz
    rcases (hs.backed.blocks b).mp hb with hb | ⟨p, hp, rfl⟩
    · exact hs.notNull ((hs.held 0).mp (List.mem_map.mpr ⟨b, hb, hz⟩))
    · exact hs.slab.not_null (List.mem_map.mpr ⟨p, hp, hz⟩)
  · rcases (hs.backed.blocks b).mp hb with hb | ⟨p, hp, rfl⟩
    · exact absurd howner (hrest b hb)
    · exact List.mem_map_of_mem hp

/-- Wherever a run gets whose collections find no `MSG_PKT_SENDDONE` queued, the next collection
keeps every header that is still needed if and only if it finds none either. -/
theorem collection_keeps_needed_iff {s0 : State} (hs : Initial s0 rest)
    (hrest : ∀ b ∈ rest, b.owner ≠ msgQueuePid) {es : List Event}
    (hvalid : ValidTrace (step plat) Legal s0 es) (hrun : runTrace (step plat) s0 es = some s) :
    ∃ f, Represents s.q f ∧ ∃ n, ∀ fuel ≥ n, ∃ st', mqGc fuel s.store s.q = some st' ∧
      ((∀ it, Needed s.store.msgs f it → Kept st' it) ↔
        ∀ it ∈ queued f, (s.store.msgs it).type ≠ msgPktSenddone) := by
  obtain ⟨⟨f, rest', hi⟩, -⟩ :=
    run_invariant_of_some step_preserves_good (good_of_initial hs hrest) hvalid hrun
  refine ⟨f, hi.queue, total f, fun fuel hfuel => collection_safe_iff hi (fun c => ?_)⟩
  exact Nat.le_trans (length_le_total f c) hfuel

instance (s : State) (ev) : Decidable (KeepsPid s ev) := by
  induction ev using MessagePosting.Event.casesOn with
  | deliver _ =>
    dsimp only [KeepsPid]
    match s.phase with
    | .monitor d =>
      exact decidable_of_iff (d.handle ≠ none → (s.store.msgs d.e).did ≠ msgQueuePid)
        ⟨fun hk d' hd => by cases hd; exact hk, fun hk => hk d rfl⟩
    | .idle | .handler _ => exact isTrue (fun _ hd => nomatch hd)
  | _ => dsimp only [KeepsPid]; infer_instance

instance (s : State) (ev : Event) : Decidable (Legal s ev) := by
  cases ev <;> (dsimp only [Legal]; infer_instance)

def collectedEvents : List Event :=
  [.message (.malloc 300 128), .message (.postLong 129 128 32 8 300 sosMsgRelease 1 0),
    .message (.postShort 130 128 33 sosMsgReliable 0), .mqGc 2, .message (.dispatch (some 0)),
    .message (.deliver 0), .message (.ret true 0), .mqGc 1, .message (.dispatch (some 0)),
    .message (.deliver 0)]

theorem collection_keeps_needed_sample :
    ValidTrace (step samplePlatform) Legal sampleState collectedEvents ∧
    ∃ s f, runTrace (step samplePlatform) sampleState collectedEvents = some s ∧
      Represents s.q f ∧ ∃ n, ∀ fuel ≥ n, ∃ st', mqGc fuel s.store s.q = some st' ∧
        ((∀ it, Needed s.store.msgs f it → Kept st' it) ↔
          ∀ it ∈ queued f, (s.store.msgs it).type ≠ msgPktSenddone) := by
  have hvalid : ValidTrace (step samplePlatform) Legal sampleState collectedEvents := by
    decide +kernel
  obtain ⟨s, hrun⟩ : ∃ s, runTrace (step samplePlatform) sampleState collectedEvents = some s :=
    isSome_iff_exists.mp (by decide +kernel)
  obtain ⟨f, hf⟩ := collection_keeps_needed_iff sampleState_initial (by simp) hvalid hrun
  exact ⟨hvalid, s, f, hrun, hf⟩

/-- A reliable message was handled and its `MSG_PKT_SENDDONE` is queued. The collection frees the
header that it carries, and the next message that is posted gets that header. -/
theorem collection_frees_inner_message :
    ∃ s st', runTrace (step samplePlatform) sampleState
        [.message (.postShort 129 128 32 sosMsgReliable 0), .message (.dispatch (some 0)),
          .message (.deliver 0), .message (.ret true 0)] = some s ∧
      (s.q.ends .low).head = some ⟨200, 1⟩ ∧
      innerOf (s.store.msgs ⟨200, 1⟩) = {⟨200, 0⟩} ∧
      Allocated s.store.slab.pools ⟨200, 0⟩ ∧
      mqGc 1 s.store s.q = some st' ∧ ¬ Allocated st'.slab.pools ⟨200, 0⟩ ∧
      (msgCreate st' 0).2 = some ⟨200, 0⟩ := by
  refine ⟨_, _, rfl, rfl, rfl, isAllocated_iff.mp ?_, rfl, mt isAllocated_iff.mpr ?_, rfl⟩
  · rfl
  · decide +kernel

end MessageCollection
