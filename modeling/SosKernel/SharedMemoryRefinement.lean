import SosKernel.SharedMemoryTable
import Mathlib.Data.Set.Finite.List

/-! # The shared-memory table as a map from names

What the table is for: a name is bound to an owner, a memory and its waiter slots, and whoever
waits on a name is told of what happens to it. Every run of the table is a run of this map. -/
namespace SharedMemoryRefinement

open HeapBlocks SlabPools PointerChain ChainedBins GuardedRuns SharedMemoryTable List Function
open SharedMemory (kerShmPid nullPid shmNumBins shmNumWaiter eexist ebadf enomem)

structure Binding where
  owner : ℕ
  mem : ℕ
  waiter : Fin shmNumWaiter → Option ℕ

structure Cell where
  binding : Option Binding
  told : List (ℕ × ShmEvent)

abbrev Names := ℕ → Cell

def slot (pid : ℕ) : Option ℕ := if pid = nullPid then none else some pid

def Binding.tell (b : Binding) (type : ShmEvent) : List (ℕ × ShmEvent) :=
  (finRange shmNumWaiter).filterMap (fun i => (b.waiter i).map (·, type))

def Binding.first (b : Binding) (w : Option ℕ) : Option (Fin shmNumWaiter) :=
  (finRange shmNumWaiter).find? (fun i => b.waiter i = w)

def Binding.without (b : Binding) (pid : ℕ) : Binding :=
  { b with waiter := fun i => if b.waiter i = slot pid then none else b.waiter i }

def Binding.setSlot (b : Binding) (i : Fin shmNumWaiter) (w : Option ℕ) : Binding :=
  { b with waiter := update b.waiter i w }

def Cell.close (c : Cell) (b : Binding) : Cell := ⟨none, c.told ++ b.tell .closed⟩

def Cell.bind (c : Cell) (b : Binding) : Cell := { c with binding := some b }

def Cell.purge (pid : ℕ) (c : Cell) : Cell :=
  match c.binding with
  | none => c
  | some b => if b.owner = pid then c.close b else c.bind (b.without pid)

def changeFirst (f : Names) (name : ℕ) (old new : Option ℕ) (err : ℤ) : Names × ℤ :=
  match (f name).binding with
  | none => (f, -ebadf)
  | some b =>
    match b.first old with
    | none => (f, -err)
    | some i => (update f name ((f name).bind (b.setSlot i new)), 0)

/-- The calls on the map; `full` if there is no memory for a new name. -/
def spec (full : Bool) (f : Names) : Call → Names × Answer
  | .openShm pid name shm _ =>
    match (f name).binding with
    | some _ => (f, .code (-eexist))
    | none =>
      if full then (f, .code (-enomem))
      else (update f name ((f name).bind ⟨pid, shm, fun _ => none⟩), .code 0)
  | .update _ name shm =>
    match (f name).binding with
    | none => (f, .code (-ebadf))
    | some b =>
      (update f name ⟨some { b with mem := shm }, (f name).told ++ b.tell .updated⟩,
        .code 0)
  | .close pid name =>
    match (f name).binding with
    | none => (f, .code (-ebadf))
    | some b =>
      if b.owner = pid then (update f name ((f name).close b), .code 0)
      else (f, .code (-eperm))
  | .get _ name => (f, .ptr ((f name).binding.elim 0 Binding.mem))
  | .wait pid name => Prod.map id .code (changeFirst f name none (slot pid) enomem)
  | .stopwait pid name => Prod.map id .code (changeFirst f name (slot pid) none einval)
  | .removeAll pid => (fun name => (f name).purge pid, .code 0)

/-- The slab and the heap have no room for the control block that the call asks for. -/
def full (s : Table) : Call → Bool
  | .openShm _ _ _ q => (kerSlabAlloc s.slab s.heap q kerShmPid).2.2 = none
  | _ => false

/-- The answers of the map beside a run of the table, which tells when there is no memory. -/
inductive SpecRun : Table → Names → List Call → List Answer → Names → Prop where
  | nil (s : Table) (f : Names) : SpecRun s f [] [] f
  | cons {s s' : Table} {f f' : Names} {c : Call} {r : Answer} {cs : List Call} {rs : List Answer}
      (hcall : call s c = some (s', r)) (hr : (spec (full s c) f c).2 = r)
      (hrest : SpecRun s' (spec (full s c) f c).1 cs rs f') : SpecRun s f (c :: cs) (r :: rs) f'

abbrev Lists := Fin shmNumBins → List Item

structure Layout (s : Table) (lists : Lists) : Prop where
  bins : Bins hashBin (fun p => (s.cbs p).name) s.next s.shmBin lists
  slab : WellFormed s.slab
  allocated : ∀ p, Allocated s.slab.pools p ↔ ∃ i, p ∈ lists i
  backed : ∃ rest, Backed s.slab kerShmPid rest s.heap

def bindingOf (cb : ShmCb) : Binding := ⟨cb.owner, cb.mem, fun i => slot (cb.waiter i)⟩

def cbOf (s : Table) (lists : Lists) (name : ℕ) : Option Item :=
  lookup hashBin (fun p => (s.cbs p).name) lists name

def postsOf (posts : List Post) (name : ℕ) : List (ℕ × ShmEvent) :=
  (posts.filter (fun p => p.name = name)).map (fun p => (p.did, p.type))

def cellOf (s : Table) (lists : Lists) (name : ℕ) : Cell :=
  ⟨(cbOf s lists name).map (fun p => bindingOf (s.cbs p)), postsOf s.posts name⟩

def Refines (s : Table) (f : Names) : Prop := ∃ lists, Layout s lists ∧ f = cellOf s lists

variable {s s' : Table} {lists : Lists} {p prev : Item} {name pid q : ℕ} {i : Fin shmNumBins}
  {cb : ShmCb} {l1 l2 : List Item} {c : Cell}

lemma slot_inj {a b : ℕ} : slot a = slot b ↔ a = b := by
  by_cases ha : a = nullPid <;> by_cases hb : b = nullPid
  · simp [ha, hb]
  · simp [slot, ha, hb, Ne.symm hb]
  · simp [slot, ha, hb]
  · simp [slot, ha, hb]

lemma slot_nullPid : slot nullPid = none := if_pos rfl

lemma first_bindingOf (cb : ShmCb) (pid : ℕ) :
    (bindingOf cb).first (slot pid) = firstSlot cb.waiter pid := by
  simp only [Binding.first, firstSlot, bindingOf, slot_inj]

lemma bindingOf_setSlot (cb : ShmCb) (j : Fin shmNumWaiter) (pid : ℕ) :
    bindingOf { cb with waiter := update cb.waiter j pid } =
      (bindingOf cb).setSlot j (slot pid) := by
  have hwaiter : (fun i => slot (update cb.waiter j pid i)) =
      update (fun i => slot (cb.waiter i)) j (slot pid) := by
    funext i
    exact apply_update (fun _ => slot) cb.waiter j pid i
  simp only [bindingOf, Binding.setSlot, hwaiter]

lemma bindingOf_clearWaiter (pid : ℕ) (cb : ShmCb) :
    bindingOf (clearWaiter pid cb) = (bindingOf cb).without pid := by
  simp only [bindingOf, clearWaiter, Binding.without, Binding.mk.injEq, true_and, slot_inj]
  funext i
  by_cases h : cb.waiter i = pid
  · simp only [if_pos h, slot_nullPid]
  · simp only [if_neg h]

lemma postsOf_events (cb : ShmCb) (type : ShmEvent) (name : ℕ) :
    postsOf (events cb type) name = if name = cb.name then (bindingOf cb).tell type else [] := by
  have hname : ∀ q ∈ events cb type, q.name = cb.name := by
    intro q hq
    obtain ⟨j, -, hj⟩ := mem_filterMap.mp hq
    split at hj
    · cases hj
      rfl
    · cases hj
  by_cases heq : name = cb.name
  · have hall : (events cb type).filter (fun q => q.name = name) = events cb type := by
      apply filter_eq_self.mpr
      intro q hq
      simp [hname q hq, heq]
    rw [if_pos heq, postsOf, hall, events, map_filterMap]
    congr 1
    funext j
    by_cases hj : cb.waiter j = nullPid <;> simp [bindingOf, slot, hj]
  · have hnone : (events cb type).filter (fun q => q.name = name) = [] := by
      apply filter_eq_nil_iff.mpr
      intro q hq
      simp [hname q hq, Ne.symm heq]
    rw [if_neg heq, postsOf, hnone]
    rfl

lemma postsOf_append (ps qs : List Post) (name : ℕ) :
    postsOf (ps ++ qs) name = postsOf ps name ++ postsOf qs name := by
  simp [postsOf]

lemma cellOf_of_none (h : cbOf s lists name = none) : (cellOf s lists name).binding = none := by
  simp [cellOf, h]

lemma cellOf_of_some (h : cbOf s lists name = some p) :
    (cellOf s lists name).binding = some (bindingOf (s.cbs p)) := by
  simp [cellOf, h]

lemma setCb_name (hname : cb.name = (s.cbs p).name) (q : Item) :
    ((s.setCb p cb).cbs q).name = (s.cbs q).name := by
  by_cases hq : q = p
  · rw [hq, Table.setCb_self, hname]
  · rw [Table.setCb_ne s cb hq]

lemma cellOf_sendEvent (s : Table) (lists : Lists) (p : Item) (type : ShmEvent) (n : ℕ) :
    cellOf (shmSendEvent s p type) lists n = if n = (s.cbs p).name then
        { cellOf s lists n with told := (cellOf s lists n).told ++ (bindingOf (s.cbs p)).tell type }
      else cellOf s lists n := by
  have hposts : postsOf (shmSendEvent s p type).posts n =
      postsOf s.posts n ++ postsOf (events (s.cbs p) type) n := postsOf_append ..
  rw [postsOf_events] at hposts
  by_cases hn : n = (s.cbs p).name
  · rw [if_pos hn] at hposts ⊢
    simp only [cellOf, hposts]
    rfl
  · rw [if_neg hn, append_nil] at hposts
    rw [if_neg hn]
    simp only [cellOf, hposts]
    rfl

section

variable (h : Layout s lists)
include h

lemma Layout.length_le (i : Fin shmNumBins) : (lists i).length ≤ s.fuel := by
  have hsub : lists i ⊆ s.slab.pools.flatMap (fun q =>
      (List.range s.slab.numItemsPerPool).map (fun n => (⟨q.addr, n⟩ : Item))) := by
    intro p hp
    obtain ⟨q, hq, haddr, hbit⟩ := (h.allocated p).mpr ⟨i, hp⟩
    have hslot : p.slot < s.slab.numItemsPerPool := by
      rw [← h.slab.width q hq]
      exact (List.getElem?_eq_some_iff.mp hbit).1
    apply mem_flatMap.mpr
    refine ⟨q, hq, mem_map.mpr ⟨p.slot, mem_range.mpr hslot, ?_⟩⟩
    rw [haddr]
  have hlen := ((h.bins.nodup i).subperm hsub).length_le
  simpa [Table.fuel, length_flatMap] using hlen

lemma Layout.shmLookup_eq (name : ℕ) : shmLookup s name = some (cbOf s lists name) :=
  find_spec (h.bins.chain _) (h.length_le _)

lemma Layout.cbOf_eq_some :
    cbOf s lists name = some p ↔ p ∈ lists (hashBin name) ∧ (s.cbs p).name = name :=
  h.bins.lookup_eq_some

lemma Layout.setCb (hname : cb.name = (s.cbs p).name) : Layout (s.setCb p cb) lists :=
  ⟨h.bins.congr (fun _ q _ => setCb_name hname q), h.slab, h.allocated, h.backed⟩

lemma cellOf_setCb (hp : cbOf s lists name = some p) (hname : cb.name = (s.cbs p).name) :
    cellOf (s.setCb p cb) lists =
      update (cellOf s lists) name ((cellOf s lists name).bind (bindingOf cb)) := by
  have hlookup : ∀ n, cbOf (s.setCb p cb) lists n = cbOf s lists n :=
    lookup_congr (fun _ q _ => setCb_name hname q)
  funext n
  by_cases hn : n = name
  · subst hn
    simp [cellOf, hlookup, hp, Cell.bind]
  · rw [update_of_ne hn]
    cases hq : cbOf s lists n with
    | none => simp [cellOf, hlookup, hq]
    | some q =>
      have hne : q ≠ p := by
        rintro rfl
        exact hn ((h.cbOf_eq_some.mp hq).2.symm.trans (h.cbOf_eq_some.mp hp).2)
      simp [cellOf, hlookup, hq, Table.setCb_ne s cb hne]

lemma Layout.sendEvent (p : Item) (type : ShmEvent) :
    Layout (shmSendEvent s p type) lists := ⟨h.bins, h.slab, h.allocated, h.backed⟩

lemma closeCb_spec (hi : lists i = l1 ++ p :: l2) (hprev : l1 = [] ∨ l1.getLast? = some prev) :
    ∃ s', closeCb s i prev p = some s' ∧ s'.cbs = s.cbs ∧ Layout s' (update lists i (l1 ++ l2)) ∧
      cellOf s' (update lists i (l1 ++ l2)) = update (cellOf s lists) (s.cbs p).name
          ((cellOf s lists (s.cbs p).name).close (bindingOf (s.cbs p))) := by
  have hmem : p ∈ lists i := by simp [hi]
  have hbins := h.bins.unlink hi hprev
  have hlookup := lookup_unlink h.bins hi hprev
  obtain ⟨slab', heap', hfree, hslab, hall, -, -, hback⟩ :=
    kerSlabFree_spec h.slab ((h.allocated p).mpr ⟨i, hmem⟩)
  obtain ⟨rest, hrest⟩ := h.backed
  have hrun : closeCb s i prev p = some { shmSendEvent (s.unlink i prev p) p .closed with
      slab := slab', heap := heap' } := by
    have hslabs : (shmSendEvent (s.unlink i prev p) p .closed).slab = s.slab := rfl
    have hheaps : (shmSendEvent (s.unlink i prev p) p .closed).heap = s.heap := rfl
    rw [closeCb, Table.free, hslabs, hfree, Option.map_some]
  refine ⟨_, hrun, rfl, ⟨hbins, hslab, fun q => ?_, rest, hback _ _ hrest⟩, funext fun n => ?_⟩
  · rw [h.bins.mem_unlink hi, ← h.allocated]
    exact hall q
  · have hcbs : ∀ n, cbOf (s.unlink i prev p) (update lists i (l1 ++ l2)) n =
        if n = (s.cbs p).name then none else cbOf s lists n := hlookup
    refine (cellOf_sendEvent (s.unlink i prev p) _ p .closed n).trans ?_
    by_cases hn : n = (s.cbs p).name
    · subst hn
      rw [update_self]
      simp [cellOf, Cell.close, Table.unlink]
      exact (hcbs _).trans (if_pos rfl)
    · rw [update_of_ne hn, if_neg (by exact hn)]
      simp only [cellOf, hcbs, if_neg hn]
      rfl

end

lemma chain_head? {nxt : Item → Option Item} {q : Option Item} {l : List Item}
    (h : Chain nxt q l) : q = l.head? := by
  cases l with
  | nil => exact h
  | cons a l => exact h.1

lemma Cell.purge_own {b : Binding} (hb : c.binding = some b) (ho : b.owner = pid) :
    c.purge pid = c.close b := by
  simp [Cell.purge, hb, ho]

lemma Cell.purge_other {b : Binding} (hb : c.binding = some b) (ho : b.owner ≠ pid) :
    c.purge pid = c.bind (b.without pid) := by
  simp [Cell.purge, hb, ho]

section

variable (pid i)

/-- The inner loop of `shm_remove_all`. The blocks before `curr` stay and are done, those from
`curr` on are purged; the induction is on these. -/
lemma removeFrom_spec (todo : List Item) :
    ∀ {fuel s lists done prev}, Layout s lists → lists i = done ++ todo →
      (done = [] ∨ done.getLast? = some prev) → todo.length ≤ fuel →
      ∃ s' lists', removeFrom pid i fuel s prev todo.head? = some s' ∧ Layout s' lists' ∧
        ∀ n, cellOf s' lists' n =
          if n ∈ todo.map (fun p => (s.cbs p).name) then (cellOf s lists n).purge pid
          else cellOf s lists n := by
  induction todo with
  | nil =>
    intro fuel s lists done prev h _ _ _
    refine ⟨s, lists, ?_, h, fun n => ?_⟩
    · cases fuel <;> rfl
    · simp
  | cons p todo ih =>
    intro fuel s lists done prev h hi hprev hfuel
    obtain ⟨fuel, rfl⟩ := Nat.exists_eq_succ_of_ne_zero
      (Nat.ne_of_gt (Nat.lt_of_lt_of_le (Nat.succ_pos _) hfuel))
    have hmem : p ∈ lists i := by simp [hi]
    have hcb : cbOf s lists (s.cbs p).name = some p :=
      h.cbOf_eq_some.mpr ⟨(h.bins.hashed i p hmem).symm ▸ hmem, rfl⟩
    have hchain := h.bins.chain i
    rw [hi] at hchain
    have hnext : s.next p = todo.head? := chain_head? hchain.tail
    -- no later block has the same name, so a name is purged once
    have hlater : (s.cbs p).name ∉ todo.map (fun q => (s.cbs q).name) := by
      have hunique := h.bins.unique i
      rw [hi, map_append] at hunique
      exact (nodup_cons.mp (nodup_append.mp hunique).2.1).1
    have hcell := cellOf_of_some hcb
    have hlen : todo.length ≤ fuel := Nat.le_of_succ_le_succ hfuel
    -- what is left to show once the first block is purged
    have hfinish : ∀ {s1 s' : Table} {lists1 lists' : Lists},
        (∀ q, (s1.cbs q).name = (s.cbs q).name) →
        cellOf s1 lists1 = update (cellOf s lists) (s.cbs p).name
          ((cellOf s lists (s.cbs p).name).purge pid) →
        (∀ n, cellOf s' lists' n = if n ∈ todo.map (fun q => (s1.cbs q).name) then
          (cellOf s1 lists1 n).purge pid else cellOf s1 lists1 n) →
        ∀ n, cellOf s' lists' n = if n ∈ (p :: todo).map (fun q => (s.cbs q).name) then
          (cellOf s lists n).purge pid else cellOf s lists n := by
      intro s1 s' lists1 lists' hnames hfirst hrest n
      simp only [hrest n, hnames, hfirst, map_cons, mem_cons]
      by_cases hn : n = (s.cbs p).name
      · subst hn
        simp [hlater]
      · simp [hn]
    by_cases howner : (s.cbs p).owner = pid
    · obtain ⟨s1, hclose, hcbs, h1, hcells⟩ := closeCb_spec h hi hprev
      obtain ⟨s', lists', hrun, h', hrest⟩ := ih h1 (update_self ..) hprev hlen
      refine ⟨s', lists', ?_, h', hfinish (fun q => by rw [hcbs]) ?_ hrest⟩
      · rw [head?_cons, removeFrom, if_pos howner, hclose, hnext]
        exact hrun
      · rw [hcells, Cell.purge_own hcell howner]
    · have hname : (clearWaiter pid (s.cbs p)).name = (s.cbs p).name := rfl
      have hlist : lists i = (done ++ [p]) ++ todo := by simp [hi]
      obtain ⟨s', lists', hrun, h', hrest⟩ :=
        ih (h.setCb hname) hlist (.inr getLast?_concat) hlen
      refine ⟨s', lists', ?_, h', hfinish (setCb_name hname) ?_ hrest⟩
      · rw [head?_cons, removeFrom, if_neg howner, hnext]
        exact hrun
      · rw [cellOf_setCb h hcb hname, bindingOf_clearWaiter, Cell.purge_other hcell howner]

lemma removeBin_spec (h : Layout s lists) :
    ∃ s' lists', removeBin pid s i = some s' ∧ Layout s' lists' ∧ ∀ n, cellOf s' lists' n =
        if hashBin n = i then (cellOf s lists n).purge pid else cellOf s lists n := by
  have hunbound : ∀ n, n ∉ (lists i).map (fun p => (s.cbs p).name) → hashBin n = i →
      (cellOf s lists n).purge pid = cellOf s lists n := by
    rintro n hn rfl
    have hnone : cbOf s lists n = none := by
      apply lookup_eq_none.mpr
      rintro p hp rfl
      exact hn (mem_map_of_mem hp)
    rw [Cell.purge, cellOf_of_none hnone]
  have hcells : ∀ {s' : Table} {lists' : Lists},
      (∀ n, cellOf s' lists' n = if n ∈ (lists i).map (fun p => (s.cbs p).name) then
        (cellOf s lists n).purge pid else cellOf s lists n) → ∀ n, cellOf s' lists' n =
        if hashBin n = i then (cellOf s lists n).purge pid else cellOf s lists n := by
    intro s' lists' hrest n
    rw [hrest n]
    by_cases hn : n ∈ (lists i).map (fun p => (s.cbs p).name)
    · obtain ⟨p, hp, hname⟩ := mem_map.mp hn
      have hbin : hashBin n = i := by
        rw [← hname]
        exact h.bins.hashed i p hp
      rw [if_pos hn, if_pos hbin]
    · rw [if_neg hn]
      by_cases hbin : hashBin n = i
      · rw [if_pos hbin, hunbound n hn hbin]
      · rw [if_neg hbin]
  have hhead : s.shmBin i = (lists i).head? := chain_head? (h.bins.chain i)
  cases hl : (lists i).head? with
  | none =>
    rw [hl] at hhead
    refine ⟨s, lists, by rw [removeBin, hhead], h, hcells (fun n => ?_)⟩
    rw [head?_eq_none_iff.mp hl]
    simp
  | some p =>
    rw [hl] at hhead
    obtain ⟨s', lists', hrun, h', hrest⟩ :=
      @removeFrom_spec pid i (lists i) s.fuel s lists [] p h rfl (.inl rfl) (h.length_le i)
    rw [hl] at hrun
    exact ⟨s', lists', by rw [removeBin, hhead]; exact hrun, h', hcells hrest⟩

end

lemma removeBins_spec (pid : ℕ) {is : List (Fin shmNumBins)} (hnodup : is.Nodup) :
    ∀ {s lists}, Layout s lists →
      ∃ s' lists', is.foldlM (removeBin pid) s = some s' ∧ Layout s' lists' ∧
        ∀ n, cellOf s' lists' n =
          if hashBin n ∈ is then (cellOf s lists n).purge pid else cellOf s lists n := by
  induction is with
  | nil =>
    intro s lists h
    exact ⟨s, lists, rfl, h, fun n => by simp⟩
  | cons i is ih =>
    intro s lists h
    obtain ⟨hi, his⟩ := nodup_cons.mp hnodup
    obtain ⟨s1, lists1, hrun1, h1, hcells1⟩ := removeBin_spec pid i h
    obtain ⟨s', lists', hrun, h', hcells⟩ := ih his h1
    refine ⟨s', lists', ?_, h', fun n => ?_⟩
    · rw [foldlM_cons, hrun1]
      exact hrun
    · rw [hcells, hcells1]
      by_cases hn : hashBin n = i
      · simp [hn, hi]
      · simp [hn]

def Simulates (s : Table) (lists : Lists) (c : Call) : Prop :=
  ∃ s' lists', call s c = some (s', (spec (full s c) (cellOf s lists) c).2) ∧ Layout s' lists' ∧
    cellOf s' lists' = (spec (full s c) (cellOf s lists) c).1

section

variable (h : Layout s lists)
include h

lemma open_simulates (hq : q ∉ addrs s.heap) (pid name shm : ℕ) :
    Simulates s lists (.openShm pid name shm q) := by
  have hlook := h.shmLookup_eq name
  cases hcb : cbOf s lists name with
  | some p =>
    refine ⟨s, lists, ?_, h, ?_⟩
    · simp [call, kerShmOpen, hlook, hcb, spec, cellOf_of_some hcb]
    · simp [spec, cellOf_of_some hcb]
  | none =>
    obtain ⟨rest, hrest⟩ := h.backed
    rcases halloc : kerSlabAlloc s.slab s.heap q kerShmPid with ⟨slab, heap, _ | p⟩
    · obtain ⟨rfl, rfl, -⟩ := kerSlabAlloc_none halloc
      refine ⟨s, lists, ?_, h, ?_⟩
      · simp [call, kerShmOpen, hlook, hcb, halloc, spec, full, cellOf_of_none hcb]
      · simp [spec, full, halloc, cellOf_of_none hcb]
    · have hpool : q ∉ poolAddrs s.slab.pools := fun hmem => hq (hrest.pool_mem hmem)
      obtain ⟨hslab, hfree, hall, -, hback⟩ := kerSlabAlloc_some h.slab hpool halloc
      have hroom : full s (.openShm pid name shm q) = false := by simp [full, halloc]
      have hnew : ∀ i, p ∉ lists i := fun i hp => hfree ((h.allocated p).mpr ⟨i, hp⟩)
      have hself : update s.cbs p ⟨name, shm, pid, fun _ => nullPid⟩ p =
        ⟨name, shm, pid, fun _ => nullPid⟩ := update_self ..
      have hothers : ∀ b, b ≠ p → update s.cbs p ⟨name, shm, pid, fun _ => nullPid⟩ b = s.cbs b :=
        fun b hb => update_of_ne hb _ _
      have hnames : ∀ b, b ≠ p →
          (update s.cbs p ⟨name, shm, pid, fun _ => nullPid⟩ b).name = (s.cbs b).name :=
        fun b hb => congrArg ShmCb.name (hothers b hb)
      refine ⟨{ s with
          shmBin := update s.shmBin (hashBin name) (some p)
          cbs := update s.cbs p ⟨name, shm, pid, fun _ => nullPid⟩
          next := update s.next p (s.shmBin (hashBin name))
          slab := slab
          heap := heap }, update lists (hashBin name) (p :: lists (hashBin name)), ?_,
        ⟨h.bins.push hnew hcb (congrArg ShmCb.name hself) hnames, hslab, fun b => ?_, rest,
          hback rest hrest (fun hmem => hq (hrest.rest_mem hmem))⟩, ?_⟩
      · simp [call, kerShmOpen, hlook, hcb, halloc, spec, hroom, cellOf_of_none hcb]
      · rw [mem_push, ← h.allocated]
        exact hall b
      · have hlookup := @lookup_push _ _ _ hashBin _ _ _ _ _ _ _ _ hnew (congrArg ShmCb.name hself)
          hnames
        simp only [spec, hroom, cellOf_of_none hcb, Bool.false_eq_true, if_false]
        funext n
        by_cases hn : n = name
        · subst hn
          simp [cellOf, cbOf, hlookup, Cell.bind, bindingOf, slot_nullPid]
        · cases hb : lookup hashBin (fun p => (s.cbs p).name) lists n with
          | none => simp [cellOf, cbOf, hlookup, hn, hb]
          | some b =>
            have hne : b ≠ p := ne_of_mem_of_not_mem (h.cbOf_eq_some.mp hb).1 (hnew _)
            simp [cellOf, cbOf, hlookup, hn, hb, hothers b hne]

lemma update_simulates (pid name shm : ℕ) : Simulates s lists (.update pid name shm) := by
  have hlook := h.shmLookup_eq name
  cases hcb : cbOf s lists name with
  | none =>
    refine ⟨s, lists, ?_, h, ?_⟩
    · simp [call, kerShmUpdate, hlook, hcb, spec, cellOf_of_none hcb]
    · simp [spec, cellOf_of_none hcb]
  | some p =>
    have hname : ({ s.cbs p with mem := shm } : ShmCb).name = (s.cbs p).name := rfl
    refine ⟨_, lists, ?_, (h.setCb hname).sendEvent p .updated, ?_⟩
    · simp [call, kerShmUpdate, hlook, hcb, spec, cellOf_of_some hcb]
    · have hp : (s.cbs p).name = name := (h.cbOf_eq_some.mp hcb).2
      simp only [spec, cellOf_of_some hcb]
      funext n
      rw [cellOf_sendEvent, cellOf_setCb h hcb hname, hp]
      by_cases hn : n = name
      · subst hn
        simp [Cell.bind, bindingOf, Binding.tell]
      · simp [hn]

lemma changeSlot_simulates (name old new : ℕ) (err : ℤ) :
    ∃ s', changeSlot s name old new err =
        some (s', (changeFirst (cellOf s lists) name (slot old) (slot new) err).2) ∧
      Layout s' lists ∧
      cellOf s' lists = (changeFirst (cellOf s lists) name (slot old) (slot new) err).1 := by
  have hlook := h.shmLookup_eq name
  cases hcb : cbOf s lists name with
  | none =>
    refine ⟨s, ?_, h, ?_⟩
    · simp [changeSlot, hlook, hcb, changeFirst, cellOf_of_none hcb]
    · simp [changeFirst, cellOf_of_none hcb]
  | some p =>
    have hfirst := first_bindingOf (s.cbs p) old
    cases hslot : firstSlot (s.cbs p).waiter old with
    | none =>
      rw [hslot] at hfirst
      refine ⟨s, ?_, h, ?_⟩
      · simp [changeSlot, hlook, hcb, hslot, changeFirst, cellOf_of_some hcb, hfirst]
      · simp [changeFirst, cellOf_of_some hcb, hfirst]
    | some i =>
      rw [hslot] at hfirst
      have hname : ({ s.cbs p with
        waiter := update (s.cbs p).waiter i new } : ShmCb).name = (s.cbs p).name := rfl
      refine ⟨_, ?_, h.setCb hname, ?_⟩
      · simp [changeSlot, hlook, hcb, hslot, changeFirst, cellOf_of_some hcb, hfirst]
      · rw [cellOf_setCb h hcb hname, bindingOf_setSlot]
        simp only [changeFirst, cellOf_of_some hcb, hfirst]

lemma close_search {head : Item} (hhead : s.shmBin (hashBin name) = some head)
    (hcb : cbOf s lists name = some p) :
    ∃ l1 l2 prev, lists (hashBin name) = l1 ++ p :: l2 ∧ (l1 = [] ∨ l1.getLast? = some prev) ∧
      findPrev s.next (fun q => (s.cbs q).name = name) s.fuel (some head) (some head) =
        some (some prev, some p) := by
  obtain ⟨htest, l1, l2, hsplit, hbefore⟩ := find?_eq_some_iff_append.mp hcb
  have hchain := h.bins.chain (hashBin name)
  have hlen := h.length_le (hashBin name)
  rw [hsplit, hhead] at hchain
  rw [hsplit, length_append, length_cons] at hlen
  have hrun : findPrev s.next (fun q => (s.cbs q).name = name) s.fuel (some head) (some head) =
      some (l1.getLast?.or (some head), some p) :=
    findPrev_spec hchain (by simpa using hbefore) htest (by omega)
  cases hlast : l1.getLast? with
  | none =>
    rw [hlast] at hrun
    exact ⟨l1, l2, head, hsplit, .inl (getLast?_eq_none_iff.mp hlast), hrun⟩
  | some prev =>
    rw [hlast] at hrun
    exact ⟨l1, l2, prev, hsplit, .inr hlast, hrun⟩

lemma close_simulates (pid name : ℕ) : Simulates s lists (.close pid name) := by
  have hhead := chain_head? (h.bins.chain (hashBin name))
  cases hcb : cbOf s lists name with
  | none =>
    refine ⟨s, lists, ?_, h, ?_⟩
    · simp only [call, spec, cellOf_of_none hcb, kerShmClose]
      cases hfirst : s.shmBin (hashBin name) with
      | none => rfl
      | some head =>
        have hno : ∀ q ∈ lists (hashBin name), decide ((s.cbs q).name = name) = false :=
          fun q hq => decide_eq_false (lookup_eq_none.mp hcb q hq)
        obtain ⟨prev, hrun⟩ : ∃ prev, findPrev s.next (fun q => (s.cbs q).name = name) s.fuel
            (some head) (some head) = some (prev, none) :=
          findPrev_none (hfirst ▸ h.bins.chain (hashBin name)) hno (h.length_le _)
        simp only [hrun, Option.bind_some]
        cases prev <;> rfl
    · simp [spec, cellOf_of_none hcb]
  | some p =>
    obtain ⟨hmem, hp⟩ := h.cbOf_eq_some.mp hcb
    obtain ⟨head, hfirst⟩ : ∃ head, s.shmBin (hashBin name) = some head := by
      obtain ⟨head, l, hl⟩ := exists_cons_of_ne_nil (ne_nil_of_mem hmem)
      exact ⟨head, by rw [hhead, hl, head?_cons]⟩
    obtain ⟨l1, l2, prev, hsplit, hprev, hrun⟩ := close_search h hfirst hcb
    by_cases howner : pid = (s.cbs p).owner
    · obtain ⟨s', hclose, -, h', hcells⟩ := closeCb_spec h hsplit hprev
      refine ⟨s', _, ?_, h', ?_⟩
      · simp [call, kerShmClose, hfirst, hrun, howner, hclose, spec, cellOf_of_some hcb, bindingOf]
      · rw [hcells, hp]
        simp [spec, cellOf_of_some hcb, bindingOf, howner]
    · refine ⟨s, lists, ?_, h, ?_⟩
      · simp [call, kerShmClose, hfirst, hrun, howner, spec, cellOf_of_some hcb, bindingOf,
          Ne.symm howner]
      · simp [spec, cellOf_of_some hcb, bindingOf, Ne.symm howner]

lemma call_simulates (c : Call)
    (hlegal : ∀ pid name shm q, c = .openShm pid name shm q → q ∉ addrs s.heap) :
    Simulates s lists c := by
  cases c with
  | openShm pid name shm q => exact open_simulates h (hlegal pid name shm q rfl) pid name shm
  | update pid name shm => exact update_simulates h pid name shm
  | close pid name => exact close_simulates h pid name
  | get pid name =>
    refine ⟨s, lists, ?_, h, rfl⟩
    have hlook := h.shmLookup_eq name
    cases hcb : cbOf s lists name with
    | none => simp [call, kerShmGet, hlook, hcb, spec, cellOf_of_none hcb]
    | some p => simp [call, kerShmGet, hlook, hcb, spec, cellOf_of_some hcb, bindingOf]
  | wait pid name =>
    obtain ⟨s', hrun, h', hcells⟩ := changeSlot_simulates h name nullPid pid enomem
    rw [slot_nullPid] at hrun hcells
    refine ⟨s', lists, ?_, h', hcells⟩
    simp [call, kerShmWait, hrun, spec]
  | stopwait pid name =>
    obtain ⟨s', hrun, h', hcells⟩ := changeSlot_simulates h name pid nullPid einval
    rw [slot_nullPid] at hrun hcells
    refine ⟨s', lists, ?_, h', hcells⟩
    simp [call, kerShmStopwait, hrun, spec]
  | removeAll pid =>
    obtain ⟨s', lists', hrun, h', hcells⟩ := removeBins_spec pid (nodup_finRange shmNumBins) h
    refine ⟨s', lists', ?_, h', ?_⟩
    · simp [call, shmRemoveAll, hrun, spec]
    · funext n
      simp [hcells n, spec]

end

def step (s : Table × List Answer) (c : Call) : Option (Table × List Answer) :=
  (call s.1 c).map (fun r => (r.1, s.2 ++ [r.2]))

def Legal (s : Table × List Answer) : Call → Prop
  | .openShm _ _ _ q => q ∉ addrs s.1.heap
  | _ => True

instance (s : Table × List Answer) (c) : Decidable (Legal s c) := by
  cases c <;> (dsimp only [Legal]; infer_instance)

structure Initial (s : Table) : Prop where
  empty : ∀ i, s.shmBin i = none
  slab : WellFormed s.slab
  unused : ∀ p, ¬ Allocated s.slab.pools p
  backed : ∃ rest, Backed s.slab kerShmPid rest s.heap
  quiet : s.posts = []

def noNames : Names := fun _ => ⟨none, []⟩

lemma Initial.refines (h : Initial s) : Refines s noNames := by
  refine ⟨fun _ => [], ⟨⟨h.empty, by simp, by simp⟩, h.slab, ?_, h.backed⟩, ?_⟩
  · exact fun p => iff_of_false (h.unused p) (by simp)
  · funext n
    simp [noNames, cellOf, cbOf, ChainedBins.lookup, h.quiet, postsOf]

lemma Refines.finite {f : Names} (h : Refines s f) : {n | (f n).binding ≠ none}.Finite := by
  obtain ⟨lists, hl, rfl⟩ := h
  apply ((finRange shmNumBins).flatMap
    (fun i => (lists i).map (fun p => (s.cbs p).name))).finite_toSet.subset
  intro n hn
  cases hcb : cbOf s lists n with
  | none => exact absurd (cellOf_of_none hcb) hn
  | some p =>
    obtain ⟨hmem, hname⟩ := hl.cbOf_eq_some.mp hcb
    apply mem_flatMap.mpr
    exact ⟨hashBin n, mem_finRange _, mem_map.mpr ⟨p, hmem, hname⟩⟩

lemma run_simulates {cs : List Call} : ∀ {s f log}, Refines s f →
    ValidTrace step Legal (s, log) cs →
    ∃ s' rs f', runTrace step (s, log) cs = some (s', log ++ rs) ∧ SpecRun s f cs rs f' ∧
      Refines s' f' := by
  induction cs with
  | nil =>
    intro s f log h _
    exact ⟨s, [], f, by simp [runTrace], .nil s f, h⟩
  | cons c cs ih =>
    rintro s f log ⟨lists, hl, rfl⟩ ⟨hlegal, hrest⟩
    have hq : ∀ pid name shm q, c = .openShm pid name shm q → q ∉ addrs s.heap := by
      rintro pid name shm q rfl
      exact hlegal
    obtain ⟨s1, lists1, hcall, hl1, hcells⟩ := call_simulates hl c hq
    have hstep : step (s, log) c = some (s1, log ++
        [(spec (full s c) (cellOf s lists) c).2]) := by
      simp [step, hcall]
    rw [hstep] at hrest
    obtain ⟨s', rs, f', hrun, hspec, href⟩ := ih ⟨lists1, hl1, rfl⟩ hrest
    refine ⟨s', (spec (full s c) (cellOf s lists) c).2 :: rs, f', ?_, ?_, href⟩
    · simp [runTrace, hstep, hrun]
    · rw [hcells] at hspec
      exact .cons hcall rfl hspec

/-- In every run the chains stand for a finite map from names, and every answer is the map's. -/
theorem shm_refines_map_over_runs {s0 : Table} (h : Initial s0) {cs : List Call}
    (hv : ValidTrace step Legal (s0, []) cs) :
    ∃ s rs f, runTrace step (s0, []) cs = some (s, rs) ∧ SpecRun s0 noNames cs rs f ∧
      Refines s f ∧ {n | (f n).binding ≠ none}.Finite := by
  obtain ⟨s, rs, f, hrun, hspec, href⟩ := run_simulates h.refines hv
  exact ⟨s, rs, f, hrun, hspec, href, href.finite⟩

def sampleTable : Table :=
  ⟨fun _ => none, fun _ => ⟨0, 0, 0, fun _ => nullPid⟩, fun _ => none,
    ⟨[⟨200, replicate 4 false⟩], 4⟩, [⟨200, kerShmPid, kerShmPid⟩], []⟩

lemma sampleTable_initial : Initial sampleTable := by
  refine ⟨fun _ => rfl, ?_, ?_, ⟨[], ?_⟩, rfl⟩
  · constructor <;> simp [sampleTable, poolAddrs, Busy]
  · exact fun p => not_allocated_of_clear (by simp [sampleTable])
  · constructor
    · simp [sampleTable]
    · simp [addrs]

def sampleCalls : List Call :=
  [.openShm 128 4 1000 0, .openShm 129 8 2000 0, .openShm 130 4 3000 0, .wait 129 4, .wait 128 8,
    .update 129 4 4000, .close 129 4, .removeAll 128, .get 128 8, .stopwait 128 8]

theorem shm_refines_map_sample :
    ∃ s rs f, runTrace step (sampleTable, []) sampleCalls = some (s, rs) ∧
      SpecRun sampleTable noNames sampleCalls rs f ∧ Refines s f ∧
      {n | (f n).binding ≠ none}.Finite :=
  shm_refines_map_over_runs sampleTable_initial
    (show ValidTrace step Legal (sampleTable, []) sampleCalls by decide +kernel)

end SharedMemoryRefinement
