import SosKernel.MessagePosting
import Mathlib.Data.Multiset.Bind
import Mathlib.Tactic.Abel

/-! # The life cycle of headers and released payloads

A header is live while it is queued, while it is dispatched, and while a `MSG_PKT_SENDDONE` that
is queued or dispatched carries it. -/
namespace MessageLifecycle

open HeapBlocks SlabPools MessagePosting GuardedRuns HeapLayout Option Multiset Function
open MessageQueue hiding State Event step Legal

variable {st st' : Store} {L L' M : Multiset Item} {rest : Heap} {it n e : Item} {q q' : Mq Item}
  {s s' : State} {plat : Platform} {pool a : ℕ} {m : Message Data} {held : List ℕ}
  {f : MsgClass → List Item} {msgs msgs' : Item → Message Data} {d : Dispatch} {slab : Slab}
  {heap : Heap} {ev : Event} {new : ℕ}

lemma carried_cases (m : Message Data) : carried m = [] ∨
    ∃ a, a ≠ 0 ∧ carried m = [a] ∧ m.data = .mem a ∧ flagMsgRelease m.flag = true := by
  unfold carried
  split
  next hrel =>
    cases hd : m.data with
    | mem a =>
      by_cases ha : a = 0
      · exact .inl (by simp [Data.block, ha])
      · exact .inr ⟨a, ha, by simp [Data.block, ha], rfl, hrel⟩
    | payload => exact .inl rfl
    | header it => exact .inl rfl
  · exact .inl rfl

def owners (msgs : Item → Message Data) (L : Multiset Item) (held : List ℕ) : Multiset ℕ :=
  L.bind (fun it => (carried (msgs it) : Multiset ℕ)) + held

lemma owners_cons (msgs : Item → Message Data) (it : Item) (L : Multiset Item) (held : List ℕ) :
    owners msgs (it ::ₘ L) held = (carried (msgs it) : Multiset ℕ) + owners msgs L held := by
  rw [owners, cons_bind, add_assoc, owners]

/-- The live headers are the allocated ones, and every block belongs to one of them or to the
modules. The log has one return for every header that is not live, and one free or one taker for
every released payload that no live header carries. -/
structure Owned (st : Store) (L : Multiset Item) (rest : Heap) : Prop where
  slab : WellFormed st.slab
  backed : Backed st.slab msgQueuePid rest st.heap
  intact : ∀ b ∈ rest, b.Intact
  headers : ∀ it, Allocated st.slab.pools it ↔ it ∈ L
  once : L.Nodup
  payloads : ∀ a, a ∈ addrs rest ↔ a ∈ owners st.msgs L st.held
  ownedOnce : (owners st.msgs L st.held).Nodup
  notNull : 0 ∉ st.held
  created : ∀ it, st.log.count (.created it) = st.log.count (.disposed it) + L.count it
  posted : ∀ a, st.log.count (.posted a) = st.log.count (.freed a) + st.log.count (.taken a) +
    (L.bind (fun it => (carried (st.msgs it) : Multiset ℕ))).count a

lemma bind_congr_msgs {msgs msgs' : Item → Message Data}
    (h : ∀ j ∈ L, carried (msgs' j) = carried (msgs j)) :
    L.bind (fun it => (carried (msgs' it) : Multiset ℕ)) =
      L.bind (fun it => (carried (msgs it) : Multiset ℕ)) :=
  bind_congr (fun j hj => by rw [h j hj])

lemma bind_update {msgs : Item → Message Data} (hit : it ∉ L) :
    L.bind (fun j => (carried (update msgs it m j) : Multiset ℕ)) =
      L.bind (fun j => (carried (msgs j) : Multiset ℕ)) :=
  bind_congr_msgs (fun _ hj => by rw [update_of_ne (ne_of_mem_of_not_mem hj hit)])

lemma carried_of_block (h : m.data.block = []) : carried m = [] := by rw [carried, h, ite_self]

lemma not_null_of_split {c : Multiset ℕ} {l l' : List ℕ} (h : (l : Multiset ℕ) = c + l')
    (h0 : 0 ∉ l) : 0 ∉ l' :=
  fun hmem => h0 (mem_coe.mp (h ▸ mem_add.mpr (.inr hmem)))

@[simp]
lemma count_map_ne (l : List ℕ) (f : ℕ → Entry) (e : Entry) (hf : ∀ a, f a ≠ e) :
    (l.map f).count e = 0 :=
  List.count_eq_zero.mpr (fun hmem => by
    obtain ⟨a, -, ha⟩ := List.mem_map.mp hmem
    exact hf a ha)

@[simp]
lemma count_posted (l : List ℕ) (a : ℕ) : (l.map Entry.posted).count (.posted a) = l.count a :=
  List.count_map_of_injective l _ (fun _ _ h => Entry.posted.inj h) a

@[simp]
lemma count_freed (l : List ℕ) (a : ℕ) : (l.map Entry.freed).count (.freed a) = l.count a :=
  List.count_map_of_injective l _ (fun _ _ h => Entry.freed.inj h) a

@[simp]
lemma count_taken (l : List ℕ) (a : ℕ) : (l.map Entry.taken).count (.taken a) = l.count a :=
  List.count_map_of_injective l _ (fun _ _ h => Entry.taken.inj h) a

def heapAfterPayload (h : Heap) (m : Message Data) : Heap :=
  if flagMsgRelease m.flag then freeData h m.data else h

lemma heapAfterPayload_of_nil {h : Heap} (hnone : carried m = []) : heapAfterPayload h m = h := by
  unfold heapAfterPayload
  split
  next hrel =>
    rw [carried, if_pos hrel] at hnone
    cases hd : m.data with
    | mem a =>
      have ha : a = 0 := by
        rw [hd, Data.block] at hnone
        by_contra hne
        simp [hne] at hnone
      rw [freeData, kerFree, if_pos ha]
    | payload => rfl
    | header j => rfl
  · rfl

lemma Owned.load (ho : Owned st (it ::ₘ L) rest) (hnone : carried (st.msgs it) = [])
    (hheld : (st.held : Multiset ℕ) = (carried m : Multiset ℕ) + held) :
    Owned { st.setMsg it m with held := held, log := st.log ++ (carried m).map .posted }
      (it ::ₘ L) rest := by
  obtain ⟨hit, -⟩ := nodup_cons.mp ho.once
  have howners : owners (update st.msgs it m) (it ::ₘ L) held =
      owners st.msgs (it ::ₘ L) st.held := by
    rw [owners_cons, owners_cons, update_self, hnone, owners, owners,
      bind_update hit, hheld, coe_nil, zero_add, add_left_comm]
  refine ⟨ho.slab, ho.backed, ho.intact, ho.headers, ho.once, ?_, ?_,
    not_null_of_split hheld ho.notNull, fun x => ?_, fun a => ?_⟩
  · simp only [Store.setMsg, howners]
    exact ho.payloads
  · simp only [Store.setMsg, howners]
    exact ho.ownedOnce
  · simpa using ho.created x
  · have hbefore := ho.posted a
    rw [cons_bind, hnone] at hbefore
    simp only [Store.setMsg, cons_bind, count_add, update_self, bind_update hit]
    simp at hbefore ⊢
    omega

section

variable (ho : Owned st L rest)
include ho

lemma Owned.not_pool (ha : a ∈ owners st.msgs L st.held) :
    a ∉ poolAddrs st.slab.pools :=
  fun hpool => ho.backed.apart a hpool ((ho.payloads a).mpr ha)

lemma Owned.fresh (hpool : pool ∉ addrs st.heap) :
    pool ∉ poolAddrs st.slab.pools ∧ pool ∉ addrs rest :=
  ⟨fun h => hpool (ho.backed.pool_mem h), fun h => hpool (ho.backed.rest_mem h)⟩

lemma Owned.create (hpool : pool ∉ addrs st.heap)
    (halloc : kerSlabAlloc st.slab st.heap pool msgQueuePid = (st'.slab, st'.heap, some it))
    (hmsgs : ∀ j, j ≠ it → st'.msgs j = st.msgs j)
    (hheld : (st.held : Multiset ℕ) = (carried (st'.msgs it) : Multiset ℕ) + st'.held)
    (hlog : st'.log = st.log ++ (carried (st'.msgs it)).map .posted ++ [.created it]) :
    it ∉ L ∧ Owned st' (it ::ₘ L) rest := by
  obtain ⟨hnopool, hnorest⟩ := ho.fresh hpool
  obtain ⟨hwf, hnot, hall, -, hback⟩ := kerSlabAlloc_some ho.slab hnopool halloc
  have hit : it ∉ L := fun h => hnot ((ho.headers it).mpr h)
  have hbind := bind_congr_msgs (fun j hj => congrArg carried (hmsgs j (fun h => hit (h ▸ hj))))
  have howners : owners st'.msgs (it ::ₘ L) st'.held = owners st.msgs L st.held := by
    rw [owners_cons, owners, owners, hbind, hheld, add_left_comm]
  refine ⟨hit, ⟨hwf, hback rest ho.backed hnorest, ho.intact, fun x => ?_,
    nodup_cons.mpr ⟨hit, ho.once⟩, fun a => ?_, ?_, not_null_of_split hheld ho.notNull,
    fun x => ?_, fun a => ?_⟩⟩
  · rw [hall, ho.headers, mem_cons, or_comm]
  · rw [howners]
    exact ho.payloads a
  · rw [howners]
    exact ho.ownedOnce
  · have hbefore := ho.created x
    rw [hlog]
    by_cases hx : x = it
    · simp [hx] at hbefore ⊢
      omega
    · simpa [hx, Ne.symm hx] using hbefore
  · have hbefore := ho.posted a
    rw [hlog, cons_bind, hbind]
    simp
    omega

lemma Owned.unowned {L' : Multiset Item} (ha : a ≠ 0)
    (hsplit : owners st.msgs L st.held = a ::ₘ owners st.msgs L' held) :
    Backed st.slab msgQueuePid (kerFree rest a) (kerFree st.heap a) ∧
      (∀ b ∈ kerFree rest a, b.Intact) ∧
      (∀ b, b ∈ addrs (kerFree rest a) ↔ b ∈ owners st.msgs L' held) ∧
      (owners st.msgs L' held).Nodup := by
  have hnodup := ho.ownedOnce
  rw [hsplit, nodup_cons] at hnodup
  refine ⟨ho.backed.free (ho.not_pool ?_), fun b hb => ho.intact b (mem_of_kerFree hb),
    fun b => ?_, hnodup.2⟩
  · rw [hsplit]
    exact mem_cons_self _ _
  · rw [mem_addrs_kerFree_iff ho.intact ha, ho.payloads, hsplit, mem_cons]
    constructor
    · rintro ⟨rfl | hb, hne⟩
      · exact absurd rfl hne
      · exact hb
    · exact fun hb => ⟨.inr hb, fun heq => hnodup.1 (heq ▸ hb)⟩

lemma Owned.not_null : 0 ∉ addrs st.heap := by
  intro h0
  obtain ⟨b, hb, hb0⟩ := List.mem_map.mp h0
  rcases (ho.backed.blocks b).mp hb with hrest | ⟨p, hp, rfl⟩
  · have howner := (ho.payloads 0).mp (hb0 ▸ List.mem_map_of_mem hrest)
    rcases mem_add.mp howner with hbind | hheld
    · obtain ⟨j, -, hj⟩ := mem_bind.mp hbind
      rcases carried_cases (st.msgs j) with hnone | ⟨a, ha, hone, -, -⟩
      · rw [hnone] at hj
        cases hj
      · rw [hone, mem_coe, List.mem_singleton] at hj
        exact ha hj.symm
    · exact ho.notNull hheld
  · exact ho.slab.not_null (hb0 ▸ List.mem_map_of_mem hp)

lemma Owned.rewrite {msgs : Item → Message Data}
    (h : ∀ j ∈ L, carried (msgs j) = carried (st.msgs j)) :
    Owned { st with msgs := msgs } L rest := by
  have hbind := bind_congr_msgs h
  have howners : owners msgs L st.held = owners st.msgs L st.held := by rw [owners, owners, hbind]
  refine ⟨ho.slab, ho.backed, ho.intact, ho.headers, ho.once, ?_, ?_, ho.notNull, ho.created, ?_⟩
  · simp only [howners]
    exact ho.payloads
  · simp only [howners]
    exact ho.ownedOnce
  · simp only [hbind]
    exact ho.posted

lemma Owned.changeOwn {d : Data} (hd : ∀ a ∈ d.block, a ∈ owners st.msgs L st.held) (pid : ℕ) :
    ∃ rest', Owned { st with heap := changeOwnData st.heap pid d } L rest' := by
  cases d with
  | mem a =>
    by_cases ha : a = 0
    · have hsame : changeOwnData st.heap pid (.mem a) = st.heap := by
        simp [changeOwnData, kerChangeOwn, ha]
      rw [hsame]
      exact ⟨rest, ho⟩
    · have hnot := ho.not_pool (hd a (by simp [Data.block, ha]))
      refine ⟨kerChangeOwn rest a pid, ⟨ho.slab, ho.backed.changeOwn hnot,
        intact_kerChangeOwn ho.intact, ho.headers, ho.once, ?_, ho.ownedOnce, ho.notNull,
        ho.created, ho.posted⟩⟩
      rw [addrs_kerChangeOwn]
      exact ho.payloads
  | payload => exact ⟨rest, ho⟩
  | header j => exact ⟨rest, ho⟩

lemma Owned.malloc {p : ℕ} (hp : p ∉ addrs st.heap) (pid : ℕ) :
    Owned { st with heap := kerMalloc st.heap p pid, held := st.held ++ (Data.mem p).block } L
      (kerMalloc rest p pid) := by
  obtain ⟨hnopool, hnorest⟩ := ho.fresh hp
  by_cases hz : p = 0
  · simpa only [kerMalloc, if_pos hz, Data.block, List.append_nil] using ho
  · have hnew : owners st.msgs L (st.held ++ (Data.mem p).block) =
        p ::ₘ owners st.msgs L st.held := by
      rw [owners, owners, Data.block, if_neg hz, ← coe_add, ← add_assoc,
        coe_singleton, add_comm, singleton_add]
    refine ⟨ho.slab, ho.backed.malloc hnopool, intact_kerMalloc ho.intact, ho.headers, ho.once,
      fun a => ?_, ?_, ?_, ho.created, ho.posted⟩
    · rw [hnew, mem_cons, ← ho.payloads, kerMalloc, if_neg hz]
      exact List.mem_cons
    · rw [hnew, nodup_cons, ← ho.payloads]
      exact ⟨hnorest, ho.ownedOnce⟩
    · have := ho.notNull
      simp [Data.block, hz, this]
      omega

lemma Owned.free {p : ℕ} (hp : p ∈ st.held) :
    Owned { st with heap := kerFree st.heap p, held := st.held.erase p } L (kerFree rest p) := by
  have hsplit : owners st.msgs L st.held = p ::ₘ owners st.msgs L (st.held.erase p) := by
    rw [owners, owners, ← add_cons, ← coe_erase, cons_erase hp]
  have hp0 : p ≠ 0 := fun h => ho.notNull (h ▸ hp)
  obtain ⟨hback, hintact, hpay, hnodup⟩ := ho.unowned hp0 hsplit
  exact ⟨ho.slab, hback, hintact, ho.headers, ho.once, hpay, hnodup,
    fun h => ho.notNull (List.mem_of_mem_erase h), ho.created, ho.posted⟩

lemma Owned.drop (hm : ∀ a ∈ carried m, a ∈ st.held) :
    ∃ rest', Owned { st with
      heap := heapAfterPayload st.heap m
      held := st.held.diff (carried m)
      log := st.log ++ (carried m).map .posted ++ (carried m).map .freed } L rest' := by
  rcases carried_cases m with hnone | ⟨a, ha, hone, hdata, hrel⟩
  · refine ⟨rest, ?_⟩
    simpa [hnone, heapAfterPayload_of_nil hnone] using ho
  · have hheap : heapAfterPayload st.heap m = kerFree st.heap a := by
      rw [heapAfterPayload, if_pos hrel, hdata, freeData]
    obtain ⟨h1, h2, h3, h4, h5, h6, h7, h8, hcreated, hposted⟩ := ho.free (hm a (by simp [hone]))
    rw [hheap, hone, List.diff_cons]
    refine ⟨_, h1, h2, h3, h4, h5, h6, h7, h8, fun x => ?_, fun b => ?_⟩
    · simpa using hcreated x
    · have hbefore := hposted b
      simp only [List.count_append, count_posted, count_freed, count_map_ne, ne_eq, reduceCtorEq,
        not_false_eq_true, implies_true] at hbefore ⊢
      omega

end

lemma Owned.afterPayload (ho : Owned st (it ::ₘ L) rest) :
    ∃ rest', Backed st.slab msgQueuePid rest'
        (heapAfterPayload st.heap (st.msgs it)) ∧
      (∀ b ∈ rest', b.Intact) ∧ (∀ b, b ∈ addrs rest' ↔ b ∈ owners st.msgs L st.held) ∧
      (owners st.msgs L st.held).Nodup := by
  have hsplit := owners_cons st.msgs it L st.held
  rcases carried_cases (st.msgs it) with hnone | ⟨a, ha, hone, hdata, hrel⟩
  · rw [hnone, coe_nil, zero_add] at hsplit
    rw [heapAfterPayload_of_nil hnone]
    exact ⟨rest, ho.backed, ho.intact, hsplit ▸ ho.payloads, hsplit ▸ ho.ownedOnce⟩
  · rw [hone] at hsplit
    rw [heapAfterPayload, if_pos hrel, hdata]
    exact ⟨_, ho.unowned ha hsplit⟩

lemma Owned.dispose (ho : Owned st (it ::ₘ L) rest) :
    ∃ st' rest', msgDispose st it = some st' ∧ Owned st' L rest' ∧ st'.msgs = st.msgs ∧
      st'.held = st.held := by
  have hlive : Allocated st.slab.pools it := (ho.headers it).mpr (mem_cons_self it L)
  obtain ⟨hit, honce⟩ := nodup_cons.mp ho.once
  obtain ⟨rest', hback, hintact, hpay, hnodup⟩ := ho.afterPayload
  obtain ⟨slab', heap', hfree, hwf, hall, -, -, hkeep⟩ :=
    kerSlabFree_spec (h := heapAfterPayload st.heap (st.msgs it)) ho.slab hlive
  have hrun : msgDispose st it = some { st with
      slab := slab'
      heap := heap'
      log := st.log ++ (carried (st.msgs it)).map .freed ++ [.disposed it] } := by
    rw [heapAfterPayload] at hfree
    rw [msgDispose, hfree]
    rfl
  refine ⟨_, rest', hrun, ⟨hwf, hkeep _ _ hback, hintact, fun x => ?_, honce, hpay, hnodup,
    ho.notNull, fun x => ?_, fun a => ?_⟩, rfl, rfl⟩
  · rw [hall, ho.headers, mem_cons]
    constructor
    · rintro ⟨rfl | hx, hne⟩
      · exact absurd rfl hne
      · exact hx
    · exact fun hx => ⟨.inr hx, fun heq => hit (heq ▸ hx)⟩
  · have hbefore := ho.created x
    by_cases hx : x = it
    · simp [hx] at hbefore ⊢
      omega
    · simpa [hx, Ne.symm hx] using hbefore
  · have hbefore := ho.posted a
    simp at hbefore ⊢
    omega

lemma Owned.take {msgIn : Item} (pid : ℕ) (ho : Owned st L rest)
    (hfrom : takenFrom st msgIn = some it) (hit : it ∈ L) (hnew : new ∉ addrs st.heap) :
    ∃ st' rest', kerMsgTakeData st pid msgIn new = some st' ∧ Owned st' L rest' ∧
      (∀ j, (st'.msgs j).type = (st.msgs j).type) ∧
      ∀ j, (st'.msgs j).data = (st.msgs j).data ∨ j = it := by
  obtain ⟨L', rfl⟩ := exists_cons_of_mem hit
  by_cases hrel : flagMsgRelease (st.msgs it).flag = true
  · have hcarried : carried (st.msgs it) = (st.msgs it).data.block := if_pos hrel
    have hown : ∀ a ∈ (st.msgs it).data.block, a ∈ owners st.msgs (it ::ₘ L') st.held := by
      intro a ha
      rw [owners_cons, hcarried]
      exact mem_add.mpr (.inl ha)
    obtain ⟨rest', h⟩ := ho.changeOwn hown pid
    obtain ⟨hno, -⟩ := nodup_cons.mp ho.once
    have hnone : carried (withoutData (st.msgs it)) = [] := carried_of_block rfl
    have howners : owners (update st.msgs it (withoutData (st.msgs it))) (it ::ₘ L')
        (st.held ++ (st.msgs it).data.block) = owners st.msgs (it ::ₘ L') st.held := by
      rw [owners_cons, owners_cons, update_self, hnone, hcarried, owners, owners,
        bind_update hno, ← coe_add, coe_nil, zero_add,
        ← add_assoc, add_comm]
    have hrun : kerMsgTakeData st pid msgIn new = some { st with
        heap := changeOwnData st.heap pid (st.msgs it).data
        msgs := update st.msgs it (withoutData (st.msgs it))
        held := st.held ++ (st.msgs it).data.block
        log := st.log ++ (st.msgs it).data.block.map .taken } := by
      rw [kerMsgTakeData, hfrom, map_some, if_pos hrel]
    refine ⟨_, rest', hrun, ⟨h.slab, h.backed, h.intact, h.headers, h.once, ?_, ?_, ?_, fun x => ?_,
      fun a => ?_⟩, fun j => ?_, fun j => ?_⟩
    · simp only [howners]
      exact h.payloads
    · simp only [howners]
      exact h.ownedOnce
    · have hnull : 0 ∉ (st.msgs it).data.block := by
        cases (st.msgs it).data with
        | mem a =>
          rw [Data.block]
          split
          · exact List.not_mem_nil
          next ha => exact fun h => ha (List.mem_singleton.mp h).symm
        | payload => exact List.not_mem_nil
        | header j => exact List.not_mem_nil
      simp only [List.mem_append, not_or]
      exact ⟨ho.notNull, hnull⟩
    · simpa using ho.created x
    · have hbefore := ho.posted a
      rw [cons_bind, hcarried] at hbefore
      simp only [cons_bind, count_add, update_self, hnone, bind_update hno]
      simp at hbefore ⊢
      omega
    · by_cases hj : j = it
      · subst hj
        simp [withoutData]
      · simp [update_of_ne hj]
    · by_cases hj : j = it
      · exact .inr hj
      · exact .inl (by simp [update_of_ne hj])
  · exact ⟨_, _, by rw [kerMsgTakeData, hfrom, map_some, if_neg hrel], ho.malloc hnew pid,
      fun _ => rfl, fun _ => .inl rfl⟩

/-- A post has put the message `m` into the queue under a new header, or it has failed and changed
nothing but blocks of the payload. -/
def Posts (st st' : Store) (q q' : Mq Item) (f : MsgClass → List Item) (L : Multiset Item)
    (m : Message Data) (r : ℤ) : Prop :=
  (r = 0 ∧ ∃ n rest', n ∉ L ∧ st'.msgs = update st.msgs n m ∧
    Represents q' (update f (classOf m.flag) (f (classOf m.flag) ++ [n])) ∧
    Owned st' (n ::ₘ L) rest') ∨
  (r < 0 ∧ q' = q ∧ st'.msgs = st.msgs ∧ ∃ rest', Owned st' L rest')

lemma held_eq_carried_add (hm : ∀ a ∈ carried m, a ∈ st.held) :
    (st.held : Multiset ℕ) = (carried m : Multiset ℕ) + (st.held.diff (carried m) : List ℕ) := by
  rcases carried_cases m with hnone | ⟨a, -, hone, -, -⟩
  · simp [hnone]
  · have ha : a ∈ st.held := hm a (by simp [hone])
    rw [hone, List.diff_cons, List.diff_nil, coe_singleton, singleton_add,
      ← coe_erase, cons_erase ha]

lemma schedMsgAlloc_owned {n : Item} (ho : Owned st (n ::ₘ L) rest) (hq : Represents q f)
    (hn : ∀ c, n ∉ f c) :
    ∃ st' q' rest', schedMsgAlloc st q n = some (st', q') ∧ st'.msgs = st.msgs ∧
      Represents q' (update f (classOf (st.msgs n).flag)
        (f (classOf (st.msgs n).flag) ++ [n])) ∧ Owned st' (n ::ₘ L) rest' := by
  obtain ⟨q', hrun, hq', -⟩ := mqEnqueue_represents hq hn (st.msgs n).flag
  by_cases hrel : flagMsgRelease (st.msgs n).flag = true
  · have hown : ∀ a ∈ (st.msgs n).data.block, a ∈ owners st.msgs (n ::ₘ L) st.held := by
      intro a ha
      rw [owners_cons, carried, if_pos hrel]
      exact mem_add.mpr (.inl ha)
    obtain ⟨rest', ho'⟩ := ho.changeOwn hown kerSchedPid
    refine ⟨{ st with heap := changeOwnData st.heap kerSchedPid (st.msgs n).data }, q', rest', ?_,
      rfl, hq', ho'⟩
    simp only [schedMsgAlloc, hrun, map_some, if_pos hrel]
  · refine ⟨st, q', rest, ?_, rfl, hq', ho⟩
    simp only [schedMsgAlloc, hrun, map_some, if_neg hrel]

lemma create_posts {n : Item} (ho : Owned st L rest)
    (hq : Represents q f) (hlists : ∀ c, ∀ j ∈ f c, j ∈ L) (hpool : pool ∉ addrs st.heap)
    (hm : ∀ a ∈ carried m, a ∈ st.held)
    (halloc : kerSlabAlloc st.slab st.heap pool msgQueuePid = (slab, heap, some n)) :
    ∃ st' q', schedMsgAlloc
        ⟨slab, heap, update st.msgs n m, st.held.diff (carried m),
          st.log ++ (carried m).map .posted ++ [.created n]⟩ q n = some (st', q') ∧
      Posts st st' q q' f L m 0 := by
  obtain ⟨hn, ho'⟩ : n ∉ L ∧ Owned ⟨slab, heap, update st.msgs n m,
      st.held.diff (carried m), st.log ++ (carried m).map .posted ++ [.created n]⟩ (n ::ₘ L) rest :=
    ho.create hpool halloc (fun j hj => update_of_ne hj _ _)
      (by simpa using held_eq_carried_add hm) (by simp)
  obtain ⟨st', q', rest', hrun, hmsgs, hq', ho''⟩ :=
    schedMsgAlloc_owned ho' hq (fun c hc => hn (hlists c n hc))
  simp only [update_self] at hq'
  exact ⟨st', q', hrun, .inl ⟨rfl, n, rest', hn, hmsgs, hq', ho''⟩⟩

lemma postLonger_posts (plat : Platform) (did sid type len flag saddr : ℕ) (data : Data)
    (ho : Owned st L rest) (hq : Represents q f) (hlists : ∀ c, ∀ j ∈ f c, j ∈ L)
    (hpool : pool ∉ addrs st.heap)
    (hm : ∀ a ∈ carried ⟨did, sid, plat.nodeAddress, saddr, type, len, data, flag⟩, a ∈ st.held) :
    ∃ st' q' r, postLonger plat st q did sid type len data flag saddr pool = some (st', q', r) ∧
      Posts st st' q q' f L ⟨did, sid, plat.nodeAddress, saddr, type, len, data, flag⟩ r := by
  rcases halloc : kerSlabAlloc st.slab st.heap pool msgQueuePid with ⟨slab, heap, _ | n⟩
  · obtain ⟨rfl, rfl, -⟩ := kerSlabAlloc_none halloc
    obtain ⟨rest', ho'⟩ := ho.drop hm
    refine ⟨_, q, -enomem, ?_, .inr ⟨by decide, rfl, ?_, rest', ho'⟩⟩
    · simp only [postLonger, msgCreate, halloc]
      rfl
    · rfl
  · obtain ⟨st', q', hrun, hposts⟩ := create_posts ho hq hlists hpool hm halloc
    refine ⟨st', q', 0, ?_, hposts⟩
    simp only [postLonger, msgCreate, halloc, Store.setMsg, update_idem, hrun, map_some]

lemma msgCreate_owned (ho : Owned st L rest) (hpool : pool ∉ addrs st.heap) :
    msgCreate st pool = (st, none) ∨
    ∃ st' n, msgCreate st pool = (st', some n) ∧ n ∉ L ∧ Owned st' (n ::ₘ L) rest ∧
      carried (st'.msgs n) = [] ∧ (∀ j, j ≠ n → st'.msgs j = st.msgs j) ∧
      ∀ a ∈ addrs st.heap, a ∈ addrs st'.heap := by
  rcases halloc : kerSlabAlloc st.slab st.heap pool msgQueuePid with ⟨slab, heap, _ | n⟩
  · obtain ⟨rfl, rfl, -⟩ := kerSlabAlloc_none halloc
    left
    simp only [msgCreate, halloc]
  · have hnone : carried { st.msgs n with data := .payload, flag := 0 } = [] := carried_of_block rfl
    obtain ⟨hn, ho'⟩ : n ∉ L ∧ Owned ⟨slab, heap,
        update st.msgs n { st.msgs n with data := .payload, flag := 0 }, st.held,
        st.log ++ [.created n]⟩ (n ::ₘ L) rest :=
      ho.create hpool halloc (fun j hj => update_of_ne hj _ _)
        (by simp [hnone]) (by simp [hnone])
    refine .inr ⟨_, n, by simp only [msgCreate, halloc], hn, ho', ?_,
      fun j hj => update_of_ne hj _ _, fun a ha => kerSlabAlloc_addrs halloc ha⟩
    simp only [update_self, hnone]

lemma postPayload_posts {n : Item} (plat : Platform)
    (did sid type len flag : ℕ) (ho : Owned st L rest) (hq : Represents q f)
    (hlists : ∀ c, ∀ j ∈ f c, j ∈ L) (hpool : pool ∉ addrs st.heap)
    (halloc : kerSlabAlloc st.slab st.heap pool msgQueuePid = (slab, heap, some n)) :
    ∃ st' q', postPayload plat (msgCreate st pool).1 q n did sid type len flag = some (st', q') ∧
      Posts st st' q q' f L ⟨did, sid, plat.nodeAddress, plat.nodeAddress, type, len, .payload,
        flag &&& 0xFB⟩ 0 := by
  obtain ⟨st', q', hrun, hposts⟩ := create_posts
    (m := ⟨did, sid, plat.nodeAddress, plat.nodeAddress, type, len, .payload, flag &&& 0xFB⟩)
    ho hq hlists hpool (by rw [carried_of_block rfl]; simp) halloc
  refine ⟨st', q', ?_, hposts⟩
  rw [carried_of_block rfl, List.diff_nil, List.map_nil, List.append_nil] at hrun
  simp only [postPayload, msgCreate, halloc, Store.setMsg, update_idem, hrun]

def innerOf (m : Message Data) : Multiset Item :=
  if m.type = msgPktSenddone then
    match m.data with
    | .header j => {j}
    | .mem _ | .payload => 0
  else 0

def headersOf (msgs : Item → Message Data) (it : Item) : Multiset Item := it ::ₘ innerOf (msgs it)

def live (msgs : Item → Message Data) (M : Multiset Item) : Multiset Item := M.bind (headersOf msgs)

def queued (f : MsgClass → List Item) : Multiset Item :=
  (f .high : Multiset Item) + (f .system : Multiset Item) + (f .low : Multiset Item)

def outer (f : MsgClass → List Item) (p : Phase) : Multiset Item :=
  queued f + (p.current.toList : Multiset Item)

def Shaped (msgs : Item → Message Data) (it : Item) : Prop :=
  (msgs it).type = msgPktSenddone →
    ∃ j, (msgs it).data = .header j ∧ (msgs j).type ≠ msgPktSenddone

structure Inv (s : State) (f : MsgClass → List Item) (rest : Heap) : Prop where
  queue : Represents s.q f
  owned : Owned s.store (live s.store.msgs (outer f s.phase)) rest
  shaped : ∀ it ∈ outer f s.phase, Shaped s.store.msgs it
  inner : ∀ d, s.phase = .monitor d ∨ s.phase = .handler d → d.innerMsg =
    if (s.store.msgs d.e).type = msgPktSenddone then some (s.store.msgs d.e).data else none

lemma live_cons (msgs : Item → Message Data) (it : Item) (M : Multiset Item) :
    live msgs (it ::ₘ M) = it ::ₘ (innerOf (msgs it) + live msgs M) := by
  rw [live, cons_bind, headersOf, cons_add, live]

lemma mem_live_of_mem (h : it ∈ M) : it ∈ live msgs M := mem_bind.mpr ⟨it, h, mem_cons_self _ _⟩

lemma live_congr (h : ∀ j ∈ M, innerOf (msgs' j) = innerOf (msgs j)) : live msgs' M = live msgs M :=
  bind_congr (fun j hj => by rw [headersOf, headersOf, h j hj])

lemma innerOf_of_ne (h : m.type ≠ msgPktSenddone) : innerOf m = 0 := if_neg h

lemma queued_update (f : MsgClass → List Item) (c : MsgClass) (l : List Item) :
    queued (update f c l) + (f c : Multiset Item) = queued f + (l : Multiset Item) := by
  cases c <;> simp only [queued, update_self, update_of_ne, ne_eq, reduceCtorEq,
    not_false_eq_true] <;> abel

lemma queued_append (f : MsgClass → List Item) (c : MsgClass) (n : Item) :
    queued (update f c (f c ++ [n])) = n ::ₘ queued f := by
  have h := queued_update f c (f c ++ [n])
  rw [← coe_add, coe_singleton, ← add_assoc, add_right_comm, add_right_cancel_iff] at h
  rw [h, add_comm, singleton_add]

lemma queued_pop {c : MsgClass} {l : List Item} (hc : f c = e :: l) :
    queued f = e ::ₘ queued (update f c l) := by
  have h := queued_update f c l
  rw [hc, ← cons_coe, add_cons, ← cons_add, add_right_cancel_iff] at h
  exact h.symm

lemma mem_queued {c : MsgClass} (h : it ∈ f c) : it ∈ queued f := by cases c <;> simp [queued, h]

lemma Shaped.of_ne (h : (msgs it).type ≠ msgPktSenddone) : Shaped msgs it := fun ht => absurd ht h

lemma mem_live_of_inner {j : Item} (h : it ∈ M) (ht : (msgs it).type = msgPktSenddone)
    (hd : (msgs it).data = .header j) : j ∈ live msgs M := by
  refine mem_bind.mpr ⟨it, h, mem_cons_of_mem ?_⟩
  rw [innerOf, if_pos ht, hd]
  exact mem_singleton_self j

lemma Shaped.keep (hs : Shaped msgs it) (hit : it ∈ M)
    (h : ∀ j ∈ live msgs M, msgs' j = msgs j) : Shaped msgs' it := by
  intro ht
  rw [h it (mem_live_of_mem hit)] at ht ⊢
  obtain ⟨j, hd, hj⟩ := hs ht
  refine ⟨j, hd, ?_⟩
  rw [h j (mem_live_of_inner hit ht hd)]
  exact hj

lemma mem_owners (hit : it ∈ L) (ha : a ∈ carried (msgs it)) : a ∈ owners msgs L held :=
  mem_add.mpr (.inl (mem_bind.mpr ⟨it, hit, ha⟩))

lemma Owned.carried_mem (ho : Owned st L rest) (hit : it ∈ L) (ha : a ∈ carried (st.msgs it)) :
    a ∈ addrs st.heap :=
  ho.backed.rest_mem ((ho.payloads a).mpr (mem_owners hit ha))

lemma mem_live_of_list {p : Phase} (c : MsgClass) (j : Item) (hj : j ∈ f c) :
    j ∈ live msgs (outer f p) :=
  mem_live_of_mem (mem_add.mpr (.inl (mem_queued hj)))

lemma mem_outer_of_phase (hd : s.phase = .monitor d ∨ s.phase = .handler d) :
    d.e ∈ outer f s.phase := by
  refine mem_add.mpr (.inr ?_)
  rcases hd with h | h <;> simp [h, Phase.current]

lemma live_new (hn : n ∉ live msgs M) :
    (∀ j ∈ live msgs M, update msgs n m j = msgs j) ∧
      live (update msgs n m) (n ::ₘ M) = n ::ₘ (innerOf m + live msgs M) := by
  have hkeep : ∀ j ∈ live msgs M, update msgs n m j = msgs j := by
    intro j hj
    refine update_of_ne ?_ _ _
    rintro rfl
    exact hn hj
  refine ⟨hkeep, ?_⟩
  rw [live_cons, update_self, live_congr (fun j hj => by rw [hkeep j (mem_live_of_mem hj)])]

lemma outer_append (f : MsgClass → List Item) (c : MsgClass) (n : Item) (p : Phase) :
    outer (update f c (f c ++ [n])) p = n ::ₘ outer f p := by
  rw [outer, queued_append, cons_add, outer]

lemma Inv.posts {r : ℤ} (hi : Inv s f rest) (hplain : m.type ≠ msgPktSenddone)
    (hp : Posts s.store st' s.q q' f (live s.store.msgs (outer f s.phase)) m r) :
    ∃ f' rest', Inv { s with store := st', q := q' } f' rest' := by
  rcases hp with ⟨-, n, rest', hn, hmsgs, hq, ho⟩ | ⟨-, rfl, hmsgs, rest', ho⟩
  · obtain ⟨hkeep, hlive⟩ := live_new hn
    rw [← hmsgs] at hkeep hlive
    rw [innerOf_of_ne hplain, zero_add] at hlive
    refine ⟨_, rest', hq, ?_, fun it hit => ?_, fun d hd => ?_⟩
    · simp only [outer_append, hlive]
      exact ho
    · simp only [outer_append, mem_cons] at hit
      rcases hit with rfl | hit
      · exact Shaped.of_ne (by rw [hmsgs, update_self]; exact hplain)
      · exact (hi.shaped it hit).keep hit hkeep
    · simp only [hkeep d.e (mem_live_of_mem (mem_outer_of_phase hd))]
      exact hi.inner d hd
  · refine ⟨f, rest', hi.queue, ?_, ?_, ?_⟩
    · simp only [hmsgs]
      exact ho
    · simp only [hmsgs]
      exact hi.shaped
    · simp only [hmsgs]
      exact hi.inner

/-- `do_dispatch` ends: the message's header, and the one it carries, go back to the slab, or a
`MSG_PKT_SENDDONE` carries it on. -/
lemma finishDispatch_inv (plat : Platform) (flag : ℕ) (hi : Inv s f rest)
    (hd : s.phase = .monitor d ∨ s.phase = .handler d) (hpool : pool ∉ addrs s.store.heap) :
    ∃ st' q' f' rest', finishDispatch plat s.store s.q d flag pool = some (st', q') ∧
      Inv ⟨st', q', .idle⟩ f' rest' := by
  have houter : outer f s.phase = d.e ::ₘ outer f .idle := by
    rcases hd with h | h <;>
      simp [h, outer, Phase.current, ← singleton_add, add_comm]
  have hinner := hi.inner d hd
  have ho := hi.owned
  have hshaped : ∀ it ∈ outer f .idle, Shaped s.store.msgs it :=
    fun it hit => hi.shaped it (houter ▸ mem_cons_of_mem hit)
  have hidle : ∀ {st' : Store} {q' : Mq Item} {f' : MsgClass → List Item} {rest' : Heap},
      Represents q' f' → Owned st' (live st'.msgs (outer f' .idle)) rest' →
      (∀ it ∈ outer f' .idle, Shaped st'.msgs it) → Inv ⟨st', q', .idle⟩ f' rest' := by
    intro st' q' f' rest' hq ho hs
    refine ⟨hq, ho, hs, fun d hd => ?_⟩
    rcases hd with h | h <;> cases h
  rw [houter, live_cons] at ho
  by_cases ht : (s.store.msgs d.e).type = msgPktSenddone
  · obtain ⟨j, hdata, -⟩ := hi.shaped d.e (mem_outer_of_phase hd) ht
    rw [if_pos ht, hdata] at hinner
    rw [innerOf, if_pos ht, hdata, singleton_add, cons_swap] at ho
    obtain ⟨st1, rest1, hrun1, ho1, hmsgs1, -⟩ := ho.dispose
    obtain ⟨st2, rest2, hrun2, ho2, hmsgs2, -⟩ := ho1.dispose
    rw [hmsgs1] at hmsgs2
    refine ⟨st2, s.q, f, rest2, ?_, hidle hi.queue (hmsgs2 ▸ ho2) (hmsgs2 ▸ hshaped)⟩
    simp only [finishDispatch, hinner, disposeInner, hrun1, bind_some, hrun2, map_some]
  · rw [if_neg ht] at hinner
    rw [innerOf_of_ne ht, zero_add] at ho
    obtain ⟨st1, rest1, hrun1, ho1, hmsgs1, -⟩ := ho.dispose
    by_cases hdst : d.senddoneDstPid = nullPid
    · refine ⟨st1, s.q, f, rest1, ?_, hidle hi.queue (hmsgs1 ▸ ho1) (hmsgs1 ▸ hshaped)⟩
      simp only [finishDispatch, hinner, hdst, ne_eq, not_true_eq_false, if_false, hrun1, map_some]
    · have hlists : ∀ c, ∀ j ∈ f c, j ∈ d.e ::ₘ live s.store.msgs (outer f .idle) :=
        fun c j hj => mem_cons_of_mem (mem_live_of_list c j hj)
      obtain ⟨st', q', r, hrun, hposts⟩ := postLonger_posts plat d.senddoneDstPid kerSchedPid
        msgPktSenddone plat.sizeofMessage flag plat.nodeAddress (.header d.e) ho hi.queue hlists
        hpool (by rw [carried_of_block rfl]; simp)
      rcases hposts with ⟨rfl, n, rest', hn, hmsgs, hq, ho'⟩ | ⟨hr, rfl, hmsgs, rest', ho'⟩
      · obtain ⟨hne, hn'⟩ := not_or.mp (fun h => hn (mem_cons.mpr h))
        obtain ⟨hkeep, hlive⟩ := live_new hn'
        rw [← hmsgs] at hkeep hlive
        refine ⟨st', q', _, rest', ?_, hidle hq ?_ ?_⟩
        · simp only [finishDispatch, hinner, ne_eq, hdst, not_false_eq_true, if_true, hrun,
            bind_some, lt_self_iff_false, if_false]
        · rw [outer_append, hlive]
          exact ho'
        · intro it hit
          rw [outer_append, mem_cons] at hit
          rcases hit with rfl | hit
          · intro _
            refine ⟨d.e, by rw [hmsgs, update_self], ?_⟩
            rw [hmsgs, update_of_ne (Ne.symm hne)]
            exact ht
          · exact (hshaped it hit).keep hit hkeep
      · obtain ⟨st2, rest2, hrun2, ho2, hmsgs2, -⟩ := ho'.dispose
        rw [hmsgs] at hmsgs2
        refine ⟨st2, s.q, f, rest2, ?_, hidle hi.queue (hmsgs2 ▸ ho2) (hmsgs2 ▸ hshaped)⟩
        simp only [finishDispatch, hinner, ne_eq, hdst, not_false_eq_true, if_true, hrun,
          bind_some, hr, hrun2, map_some]

lemma takenFrom_live (hi : Inv s f rest) (hd : s.phase = .monitor d ∨ s.phase = .handler d) :
    ∃ it, takenFrom s.store d.e = some it ∧ it ∈ live s.store.msgs (outer f s.phase) ∧
      (s.store.msgs it).type ≠ msgPktSenddone := by
  have hmem : d.e ∈ outer f s.phase := mem_outer_of_phase hd
  unfold takenFrom
  split
  next ht =>
    obtain ⟨j, hdata, hj⟩ := hi.shaped d.e hmem ht
    rw [hdata]
    exact ⟨j, rfl, mem_live_of_inner hmem ht hdata, hj⟩
  next ht => exact ⟨d.e, rfl, mem_live_of_mem hmem, ht⟩

lemma take_inv (pid : ℕ) (hi : Inv s f rest)
    (hd : s.phase = .monitor d ∨ s.phase = .handler d) (hnew : new ∉ addrs s.store.heap) :
    ∃ st' rest', kerMsgTakeData s.store pid d.e new = some st' ∧
      Inv { s with store := st' } f rest' := by
  obtain ⟨it, hfrom, hlive, hplain⟩ := takenFrom_live hi hd
  obtain ⟨st', rest', hrun, ho, htype, hdata⟩ := hi.owned.take pid hfrom hlive hnew
  -- the pointer in a `MSG_PKT_SENDDONE` does not change
  have hsenddone : ∀ j, (s.store.msgs j).type = msgPktSenddone →
      (st'.msgs j).data = (s.store.msgs j).data := by
    intro j hj
    rcases hdata j with h | rfl
    · exact h
    · exact absurd hj hplain
  have hinner : ∀ j, innerOf (st'.msgs j) = innerOf (s.store.msgs j) := by
    intro j
    rw [innerOf, innerOf, htype]
    split
    next hj => rw [hsenddone j hj]
    · rfl
  refine ⟨st', rest', hrun, hi.queue, ?_, fun x hx => ?_, fun d' hd' => ?_⟩
  · simp only [live_congr (fun j _ => hinner j)]
    exact ho
  · intro hx'
    simp only [htype] at hx' ⊢
    rw [hsenddone x hx']
    exact hi.shaped x hx hx'
  · have hbefore := hi.inner d' hd'
    simp only [htype]
    rw [hbefore]
    split
    next ht => rw [hsenddone _ ht]
    · rfl

lemma dispatch_inv (plat : Platform) (hi : Inv s f rest) (hidle : s.phase = .idle)
    (handle : Option ℕ) : ∃ s' f', step plat s (.dispatch handle) = some s' ∧ Inv s' f' rest := by
  rcases mqDequeue_cases hi.queue with ⟨hrun, -⟩ | ⟨c, e, l, hc, hrun, -⟩
  · refine ⟨s, f, ?_, hi⟩
    simp only [step, hidle, if_true, hrun, elim_none]
    rw [← hidle]
  · have houter : outer (update f c l) (.monitor (beginDispatch s.store e handle)) =
        outer f s.phase := by
      rw [hidle, outer, outer, queued_pop hc]
      simp [Phase.current, beginDispatch, ← singleton_add, add_comm]
    have hmem : e ∈ outer f s.phase := mem_add.mpr (.inl (mem_queued (c := c) (by simp [hc])))
    refine ⟨⟨s.store, popHead s.q c e, .monitor (beginDispatch s.store e handle)⟩,
      update f c l, ?_, popHead_represents hi.queue hc, ?_, ?_, ?_⟩
    · simp only [step, hidle, if_true, hrun, elim_some]
    · simp only [houter]
      exact hi.owned
    · simp only [houter]
      exact hi.shaped
    · intro d hd
      have hd' : beginDispatch s.store e handle = d := by
        rcases hd with h | h <;> cases h
        rfl
      subst hd'
      simp only [beginDispatch]
      by_cases ht : (s.store.msgs e).type = msgPktSenddone
      · obtain ⟨j, hdata, -⟩ := hi.shaped e hmem ht
        simp [ht, hdata]
      · simp [ht]

lemma handler_inv (hi : Inv s f rest) (hd : s.phase = .monitor d) :
    ∃ rest', Inv { s with
      store := { s.store with
        heap := if flagMsgRelease (s.store.msgs d.e).flag then
          changeOwnData s.store.heap (s.store.msgs d.e).did (s.store.msgs d.e).data
        else s.store.heap }
      phase := .handler d } f rest' := by
  have houter : outer f (.handler d) = outer f s.phase := by rw [hd]; rfl
  have hinner : ∀ d', Phase.handler d = .monitor d' ∨ Phase.handler d = .handler d' →
      d'.innerMsg = if (s.store.msgs d'.e).type = msgPktSenddone then
        some (s.store.msgs d'.e).data else none := by
    intro d' hd'
    have heq : d = d' := by
      rcases hd' with h | h <;> cases h
      rfl
    exact heq ▸ hi.inner d (.inl hd)
  by_cases hrel : flagMsgRelease (s.store.msgs d.e).flag = true
  · have hown : ∀ a ∈ (s.store.msgs d.e).data.block,
        a ∈ owners s.store.msgs (live s.store.msgs (outer f s.phase)) s.store.held := by
      intro a ha
      refine mem_owners (mem_live_of_mem (mem_outer_of_phase (.inl hd))) ?_
      rw [carried, if_pos hrel]
      exact ha
    obtain ⟨rest', ho⟩ := hi.owned.changeOwn hown (s.store.msgs d.e).did
    refine ⟨rest', hi.queue, ?_, ?_, hinner⟩
    · simp only [houter, if_pos hrel]
      exact ho
    · simp only [houter]
      exact hi.shaped
  · refine ⟨rest, hi.queue, ?_, ?_, hinner⟩
    · simp only [houter, if_neg hrel]
      exact hi.owned
    · simp only [houter]
      exact hi.shaped

lemma post_carries {did sid daddr saddr type len data flag : ℕ}
    (hrel : flagMsgRelease flag → data = 0 ∨ data ∈ st.held) :
    ∀ a ∈ carried ⟨did, sid, daddr, saddr, type, len, .mem data, flag⟩, a ∈ st.held := by
  intro a ha
  rcases carried_cases ⟨did, sid, daddr, saddr, type, len, .mem data, flag⟩ with
    hnone | ⟨b, hb, hone, hdata, hflag⟩
  · rw [hnone] at ha
    cases ha
  · cases hdata
    rw [hone, List.mem_singleton] at ha
    rw [ha]
    exact (hrel hflag).resolve_left hb

lemma step_returns (hi : Inv s f rest) (hlegal : Legal s ev) (hen : Enabled s ev) :
    ∃ s' f' rest', step plat s ev = some s' ∧ Inv s' f' rest' := by
  have hlists : ∀ c, ∀ j ∈ f c, j ∈ live s.store.msgs (outer f s.phase) := mem_live_of_list
  cases ev with
  | postShort did sid type flag pool =>
    obtain ⟨hplain, hpool⟩ := hlegal
    rcases halloc : kerSlabAlloc s.store.slab s.store.heap pool msgQueuePid with ⟨slab, heap, _ | n⟩
    · obtain ⟨rfl, rfl, -⟩ := kerSlabAlloc_none halloc
      refine ⟨s, f, rest, ?_, hi⟩
      simp only [step, postShort, msgCreate, halloc, map_some]
    · obtain ⟨st', q', hrun, hposts⟩ := postPayload_posts plat did sid type 3 flag hi.owned
        hi.queue hlists hpool halloc
      obtain ⟨f', rest', hi'⟩ := hi.posts hplain hposts
      refine ⟨_, f', rest', ?_, hi'⟩
      simp only [msgCreate, halloc] at hrun
      simp only [step, postShort, msgCreate, halloc, hrun, map_some]
  | postValue did sid type flag pool =>
    obtain ⟨hplain, hpool⟩ := hlegal
    rcases halloc : kerSlabAlloc s.store.slab s.store.heap pool msgQueuePid with ⟨slab, heap, _ | n⟩
    · rcases hen with htake | hpool0
      · obtain ⟨r, hr⟩ := isSome_iff_exists.mp htake
        simp [kerSlabAlloc, hr] at halloc
      · exact absurd (kerSlabAlloc_none halloc).2.2 hpool0
    · obtain ⟨st', q', hrun, hposts⟩ := postPayload_posts plat did sid type 4 flag hi.owned
        hi.queue hlists hpool halloc
      obtain ⟨f', rest', hi'⟩ := hi.posts hplain hposts
      refine ⟨_, f', rest', ?_, hi'⟩
      simp only [msgCreate, halloc] at hrun
      simp only [step, kerSysPostValue, msgCreate, halloc, hrun, map_some]
  | postLong did sid type len data flag saddr pool =>
    obtain ⟨hplain, hpool, hrel⟩ := hlegal
    obtain ⟨st', q', r, hrun, hposts⟩ := postLonger_posts plat did sid type len flag saddr
      (.mem data) hi.owned hi.queue hlists hpool (post_carries hrel)
    obtain ⟨f', rest', hi'⟩ := hi.posts hplain hposts
    exact ⟨_, f', rest', by simp only [step, hrun, map_some], hi'⟩
  | malloc p pid => exact ⟨_, f, _, rfl, hi.queue, hi.owned.malloc hlegal pid, hi.shaped, hi.inner⟩
  | free p => exact ⟨_, f, _, rfl, hi.queue, hi.owned.free hlegal, hi.shaped, hi.inner⟩
  | dispatch handle =>
    obtain ⟨s', f', hrun, hi'⟩ := dispatch_inv plat hi hen handle
    exact ⟨s', f', rest, hrun, hi'⟩
  | take pid new =>
    obtain ⟨d, hd⟩ : ∃ d, s.phase = .monitor d ∨ s.phase = .handler d := by
      cases hphase : s.phase with
      | idle => exact absurd hphase hen
      | monitor d => exact ⟨d, .inl rfl⟩
      | handler d => exact ⟨d, .inr rfl⟩
    obtain ⟨st', rest', hrun, hi'⟩ := take_inv pid hi hd hlegal
    refine ⟨_, f, rest', ?_, hi'⟩
    have hcurrent : s.phase.current = some d.e := by rcases hd with h | h <;> rw [h] <;> rfl
    simp only [step, hcurrent, bind_some, hrun, map_some]
  | deliver pool =>
    obtain ⟨d, hd⟩ := hen
    have hfinish : ∃ st' q' f' rest', finishDispatch plat s.store s.q d sosMsgSendFail pool =
        some (st', q') ∧ Inv ⟨st', q', .idle⟩ f' rest' :=
      finishDispatch_inv plat _ hi (.inl hd) hlegal
    simp only [step, hd]
    split
    · obtain ⟨rest', hi'⟩ := handler_inv hi hd
      exact ⟨_, f, rest', rfl, hi'⟩
    · obtain ⟨st', q', f', rest', hrun, hi'⟩ := hfinish
      exact ⟨_, f', rest', by rw [hrun]; rfl, hi'⟩
  | ret ok pool =>
    obtain ⟨d, hd⟩ := hen
    obtain ⟨st', q', f', rest', hrun, hi'⟩ :=
      finishDispatch_inv plat (if ok then 0 else sosMsgSendFail) hi (.inr hd) hlegal
    exact ⟨_, f', rest', by simp only [step, hd, hrun, map_some], hi'⟩

lemma enabled_of_step (hrun : step plat s ev = some s') : Enabled s ev := by
  cases ev with
  | postShort | postLong | malloc | free => trivial
  | postValue did sid type flag pool =>
    by_contra hno
    obtain ⟨htake, hpool⟩ := not_or.mp hno
    rw [Bool.not_eq_true, isSome_eq_false_iff, isNone_iff_eq_none] at htake
    rw [not_not] at hpool
    simp [step, kerSysPostValue, msgCreate, kerSlabAlloc, htake, hpool] at hrun
  | dispatch handle =>
    by_contra hno
    have hbusy : s.phase ≠ .idle := hno
    rw [step, if_neg hbusy] at hrun
    cases hrun
  | take pid new =>
    intro hidle
    simp [step, hidle, Phase.current] at hrun
  | deliver pool =>
    cases hphase : s.phase with
    | monitor d => exact ⟨d, hphase⟩
    | idle | handler d =>
      simp only [step, hphase] at hrun
      cases hrun
  | ret ok pool =>
    cases hphase : s.phase with
    | handler d => exact ⟨d, hphase⟩
    | idle | monitor d =>
      simp only [step, hphase] at hrun
      cases hrun

lemma step_preserves_invariant (s : State) (ev : Event) (s' : State) (hi : ∃ f rest, Inv s f rest)
    (hlegal : Legal s ev) (hrun : step plat s ev = some s') : ∃ f rest, Inv s' f rest := by
  obtain ⟨f, rest, hi⟩ := hi
  obtain ⟨s1, f', rest', hstep, hi'⟩ := step_returns hi hlegal (enabled_of_step hrun)
  rw [hstep] at hrun
  cases hrun
  exact ⟨f', rest', hi'⟩

lemma inv_of_initial (hs : Initial s rest) : Inv s (fun _ => []) rest := by
  have hnone : outer (fun _ => []) s.phase = 0 := by simp [outer, queued, hs.phase, Phase.current]
  refine ⟨⟨fun c => ?_, fun _ => List.nodup_nil, fun c c' p hp => by cases hp⟩, ?_, ?_, ?_⟩
  · rw [hs.queue c]
    exact ⟨rfl, fun hne => absurd rfl hne⟩
  · rw [hnone]
    have howners : owners s.store.msgs (live s.store.msgs 0) s.store.held = s.store.held := by
      simp [owners, live]
    refine ⟨hs.slab, hs.backed, hs.intact, fun it => ?_, nodup_zero, fun a => ?_, ?_,
      hs.notNull, fun it => ?_, fun a => ?_⟩
    · simp [live, hs.unused it]
    · exact hs.held a
    · exact hs.nodup
    · simp [hs.log, live]
    · simp [hs.log, live]
  · rw [hnone]
    simp
  · intro d hd
    rw [hs.phase] at hd
    rcases hd with h | h <;> cases h

/-- Every header that was created has been returned once, or it is queued, dispatched or carried by
a `MSG_PKT_SENDDONE` that is, and still allocated. Every released payload has been freed once or
handed to one taker, or one such header still carries it, and it is still allocated. -/
structure LifeCycle (s : State) (f : MsgClass → List Item) : Prop where
  queue : Represents s.q f
  headers : ∀ it, Allocated s.store.slab.pools it ↔ it ∈ live s.store.msgs (outer f s.phase)
  once : (live s.store.msgs (outer f s.phase)).Nodup
  returned : ∀ it, s.store.log.count (.created it) = s.store.log.count (.disposed it) +
    (live s.store.msgs (outer f s.phase)).count it
  payloads : ∀ it ∈ live s.store.msgs (outer f s.phase), ∀ a ∈ carried (s.store.msgs it),
    a ∈ addrs s.store.heap
  owner : (owners s.store.msgs (live s.store.msgs (outer f s.phase)) s.store.held).Nodup
  settled : ∀ a, s.store.log.count (.posted a) = s.store.log.count (.freed a) +
    s.store.log.count (.taken a) + ((live s.store.msgs (outer f s.phase)).bind
      (fun it => (carried (s.store.msgs it) : Multiset ℕ))).count a

lemma Inv.lifeCycle (hi : Inv s f rest) : LifeCycle s f := by
  have ho := hi.owned
  refine ⟨hi.queue, ho.headers, ho.once, ho.created, fun it hit a ha => ?_, ho.ownedOnce, ho.posted⟩
  exact ho.backed.rest_mem ((ho.payloads a).mpr (mem_owners hit ha))

/-- Headers and released payloads are accounted for wherever a run gets, and every event that can
happen next returns. -/
theorem message_life_cycle_over_runs {s0 : State} (hs : Initial s0 rest) {es : List Event}
    (hvalid : ValidTrace (step plat) Legal s0 es) (hrun : runTrace (step plat) s0 es = some s) :
    (∃ f, LifeCycle s f) ∧
      ∀ ev, Legal s ev → Enabled s ev → ∃ s', step plat s ev = some s' := by
  obtain ⟨f, rest', hi⟩ : ∃ f rest', Inv s f rest' :=
    run_invariant_of_some step_preserves_invariant ⟨_, rest, inv_of_initial hs⟩ hvalid hrun
  refine ⟨⟨f, hi.lifeCycle⟩, fun ev hlegal hen => ?_⟩
  obtain ⟨s', -, -, hstep, -⟩ := step_returns hi hlegal hen
  exact ⟨s', hstep⟩

instance (s : State) (ev : Event) : Decidable (Legal s ev) := by
  cases ev <;> (dsimp only [Legal]; infer_instance)

def samplePlatform : Platform := ⟨1, 20⟩

def sampleState : State where
  store := ⟨⟨[⟨200, List.replicate 4 false⟩], 4⟩, [⟨200, msgQueuePid, msgQueuePid⟩],
    fun _ => ⟨0, 0, 0, 0, 0, 0, .payload, 0⟩, [], []⟩
  q := mqInit (fun _ => none)
  phase := .idle

lemma sampleState_initial : Initial sampleState [] := by
  refine ⟨?_, ?_, ?_, by simp, by simp [sampleState, addrs], by simp [sampleState],
    by simp [sampleState], rfl, fun _ => rfl, rfl⟩
  · constructor <;> simp [sampleState, poolAddrs, Busy]
  · exact fun it => not_allocated_of_clear (by simp [sampleState])
  · constructor
    · simp [sampleState]
    · simp [sampleState, addrs]

def sampleEvents : List Event :=
  [.malloc 300 128, .postLong 129 128 32 8 300 (sosMsgRelease ||| sosMsgReliable) 1 0,
    .dispatch (some 0), .deliver 0, .take 129 0, .take 129 400,
    .postLong 130 129 33 8 300 sosMsgRelease 1 0, .ret true 0,
    .dispatch none, .deliver 0, .dispatch (some 0), .deliver 0, .take 128 500, .ret true 0]

theorem message_life_cycle_sample :
    ValidTrace (step samplePlatform) Legal sampleState sampleEvents ∧
    ∃ s f, runTrace (step samplePlatform) sampleState sampleEvents = some s ∧ LifeCycle s f := by
  have hvalid : ValidTrace (step samplePlatform) Legal sampleState sampleEvents := by decide +kernel
  obtain ⟨s, hrun⟩ : ∃ s, runTrace (step samplePlatform) sampleState sampleEvents = some s :=
    isSome_iff_exists.mp (by decide +kernel)
  obtain ⟨⟨f, hf⟩, -⟩ := message_life_cycle_over_runs sampleState_initial hvalid hrun
  exact ⟨hvalid, s, f, hrun, hf⟩

/-- A module posts a `MSG_PKT_SENDDONE` with memory of its own: `do_dispatch` takes it for a header
and `ker_slab_free` panics. Two messages release one payload: the second one is queued with a
payload that was freed. -/
theorem message_life_cycle_misused :
    (∃ s, runTrace (step samplePlatform) sampleState
        [.postLong 129 128 msgPktSenddone 4 600 0 1 0, .dispatch (some 0), .deliver 0] = some s ∧
      Enabled s (.ret true 0) ∧ step samplePlatform s (.ret true 0) = none ∧
      s.store.log = [.created ⟨200, 0⟩]) ∧
    ∃ s, runTrace (step samplePlatform) sampleState
        [.malloc 300 128, .postLong 129 128 32 8 300 sosMsgRelease 1 0,
          .postLong 129 128 32 8 300 sosMsgRelease 1 0, .dispatch none, .deliver 0] = some s ∧
      (s.q.ends .low).head = some ⟨200, 1⟩ ∧ carried (s.store.msgs ⟨200, 1⟩) = [300] ∧
      300 ∉ addrs s.store.heap := by
  refine ⟨⟨_, rfl, ⟨_, rfl⟩, rfl, rfl⟩, _, rfl, rfl, ?_, ?_⟩
  · rfl
  · decide +kernel

end MessageLifecycle
