import SosKernel.SlabPools

/-! # Timer blocks and the delta queue, `sos_timer.c`

The four lists are lists of timer blocks, front first. A block is an item of the
timer slab, or memory of its user's for a permanent timer. Pre-allocation at load
time and removal of everything that one module holds are modelled here. -/
namespace DeltaTimers

open HeapBlocks SlabPools List

def timerPid : ℕ := 4
def timerPreAllocated : ℕ := 2
def enomem : ℤ := 12
def einval : ℤ := 22

structure Timer where
  mem : Ptr
  type : ℕ
  pid : ℕ
  tid : ℕ
  ticks : ℤ
  delta : ℤ
  flag : ℕ
  deriving DecidableEq, Repr

structure TimerState where
  deltaq : List Timer
  timerPool : List Timer
  preallocTimerPool : List Timer
  periodicPool : List Timer
  slab : Slab

/-- `timer_pre_alloc_block_init`; members it does not set are shown as zero. -/
def preAllocBlock (pid : ℕ) (it : Item) : Timer := ⟨.slab it, 0, pid, 0, 0, 0, timerPreAllocated⟩

/-- The allocation loop of `timer_preallocate`: the items so far, and whether all were found. -/
def preallocLoop (pools : ℕ → ℕ) : ℕ → ℕ → Slab → Heap → List Item →
    Slab × Heap × List Item × Bool
  | 0, _, s, h, tt => (s, h, tt, true)
  | n + 1, i, s, h, tt =>
    match kerSlabAlloc s h (pools i) timerPid with
    | (s', h', some it) => preallocLoop pools n (i + 1) s' h' (tt ++ [it])
    | (s', h', none) => (s', h', tt, false)

def freeBlocks : List Ptr → Slab → Heap → Option (Slab × Heap)
  | [], s, h => some (s, h)
  | p :: ps, s, h => (kerSlabFree s h p).bind (fun r => freeBlocks ps r.1 r.2)

/-- `timer_preallocate`; `pools i` is what the heap returns if the `i`-th block needs a pool. -/
def timerPreallocate (maxTimers : ℕ) (pools : ℕ → ℕ) (t : TimerState) (h : Heap)
    (pid numTimers : ℕ) : Option (TimerState × Heap × ℤ) :=
  if maxTimers < numTimers then some (t, h, -einval)
  else
    match preallocLoop pools numTimers 0 t.slab h [] with
    | (s, h', tt, false) =>
      (freeBlocks (tt.map Ptr.slab) s h').map (fun r => ({ t with slab := r.1 }, r.2, -enomem))
    | (s, h', tt, true) =>
      some ({ t with
        slab := s
        preallocTimerPool := t.preallocTimerPool ++ tt.map (preAllocBlock pid) }, h', 0)

/-- `timer_remove_timer` gives the ticks of the removed block to the next one. -/
def addDelta (d : ℤ) : List Timer → List Timer
  | [] => []
  | n :: l => if 0 < d then { n with delta := n.delta + d } :: l else n :: l

/-- The delta queue without the blocks of `pid`; structural on the number of blocks. -/
def dropDelta (pid : ℕ) : ℕ → List Timer → List Timer
  | 0, l => l
  | _ + 1, [] => []
  | n + 1, t :: l =>
    if t.pid = pid then dropDelta pid n (addDelta t.delta l) else t :: dropDelta pid n l

def ownedBlocks (pid : ℕ) (l : List Timer) : List Ptr :=
  (l.filter (fun t => t.pid = pid)).map Timer.mem

def dropOwned (pid : ℕ) (l : List Timer) : List Timer := l.filter (fun t => t.pid ≠ pid)

def timerRemoveAll (t : TimerState) (h : Heap) (pid : ℕ) : Option (TimerState × Heap) :=
  (freeBlocks (ownedBlocks pid t.deltaq ++ ownedBlocks pid t.timerPool ++
      ownedBlocks pid t.preallocTimerPool ++ ownedBlocks pid t.periodicPool) t.slab h).map
    (fun r =>
      ({ deltaq := dropDelta pid t.deltaq.length t.deltaq
         timerPool := dropOwned pid t.timerPool
         preallocTimerPool := dropOwned pid t.preallocTimerPool
         periodicPool := dropOwned pid t.periodicPool
         slab := r.1 }, r.2))

/-- The slab can hand out `n` items with `free` of them free now; `pools i` is what the heap
returns if the `i`-th item needs a new pool. -/
def itemsAvailable (perPool : ℕ) (pools : ℕ → ℕ) : ℕ → ℕ → ℕ → Bool
  | 0, _, _ => true
  | n + 1, i, free + 1 => itemsAvailable perPool pools n (i + 1) free
  | n + 1, i, 0 => pools i ≠ 0 && itemsAvailable perPool pools n (i + 1) (perPool - 1)

/-- From the `i`-th on, the pools that the heap may return are new, and no two are the same. -/
structure FreshPools (pools : ℕ → ℕ) (i : ℕ) (s : Slab) (rest : Heap) : Prop where
  slab : ∀ j, i ≤ j → pools j ∉ poolAddrs s.pools
  rest : ∀ j, pools j ∉ addrs rest
  inj : ∀ j l, pools j ≠ 0 → pools l = pools j → l = j

structure HandedOut (s s' : Slab) (new : List Item) : Prop where
  wellFormed : WellFormed s'
  head : (poolAddrs s'.pools).head? = (poolAddrs s.pools).head?
  fresh : ∀ x ∈ new, ¬ Allocated s.pools x
  nodup : new.Nodup
  allocated : ∀ x, Allocated s'.pools x ↔ Allocated s.pools x ∨ x ∈ new

variable {s s' : Slab} {h h' rest : Heap} {pools : ℕ → ℕ} {n i pid : ℕ} {tt tt' : List Item}
  {ok : Bool} {l : List Timer} {items : List Item} {maxTimers : ℕ} {u : Timer}

lemma preallocLoop_spec (hwf : WellFormed s) (hf : FreshPools pools i s rest)
    (hrun : preallocLoop pools n i s h tt = (s', h', tt', ok)) :
    ok = itemsAvailable s.numItemsPerPool pools n i (freeSlots s.pools) ∧
    ∃ new, tt' = tt ++ new ∧ HandedOut s s' new ∧
      (Backed s timerPid rest h → Backed s' timerPid rest h') := by
  induction n generalizing i s h tt with
  | zero =>
    cases hrun
    refine ⟨rfl, [], by simp, ⟨hwf, rfl, by simp, nodup_nil, by simp⟩, id⟩
  | succ n ih =>
    have hno : pools i ∉ poolAddrs s.pools := hf.slab i le_rfl
    simp only [preallocLoop] at hrun
    split at hrun
    next s1 h1 it halloc =>
      obtain ⟨hwf1, hnew, hall1, hhead1, hback1⟩ := kerSlabAlloc_some hwf hno halloc
      obtain ⟨hitems, -, hsub⟩ := kerSlabAlloc_frame hwf.distinct halloc
      have hf1 : FreshPools pools (i + 1) s1 rest := by
        refine ⟨fun j hj hmem => ?_, hf.rest, hf.inj⟩
        rcases hsub _ hmem with hmem | ⟨heq, hz⟩
        · exact hf.slab j (by omega) hmem
        · have hji := hf.inj i j hz heq
          omega
      obtain ⟨hok, new, htt, hout, hback⟩ := ih hwf1 hf1 hrun
      refine ⟨?_, it :: new, by simpa using htt, ⟨hout.wellFormed, hout.head.trans hhead1,
        ?_, ?_, ?_⟩, fun hb => hback (hback1 rest hb (hf.rest i))⟩
      · have hfree := kerSlabAlloc_free halloc
        rw [hok, hitems]
        cases hslots : freeSlots s.pools with
        | zero =>
          rw [hslots] at hfree
          have hz : pools i ≠ 0 := hfree.1.mp rfl
          simp [itemsAvailable, hz, hfree.2 hz]
        | succ m =>
          rw [hslots] at hfree
          rw [itemsAvailable, hfree.2]
      · intro x hx
        rcases mem_cons.mp hx with rfl | hx
        · exact hnew
        · exact fun hh => hout.fresh x hx ((hall1 x).mpr (.inl hh))
      · apply nodup_cons.mpr
        exact ⟨fun hmem => hout.fresh it hmem ((hall1 it).mpr (.inr rfl)), hout.nodup⟩
      · intro x
        rw [hout.allocated, hall1, mem_cons, or_assoc]
    next s1 h1 halloc =>
      obtain ⟨rfl, rfl, hz⟩ := kerSlabAlloc_none halloc
      cases hrun
      have hfree := kerSlabAlloc_free halloc
      refine ⟨?_, [], by simp, ⟨hwf, rfl, by simp, nodup_nil, by simp⟩, id⟩
      cases hslots : freeSlots s'.pools with
      | zero => simp [itemsAvailable, hz]
      | succ m =>
        rw [hslots] at hfree
        cases hfree.1

lemma freeBlocks_spec (hwf : WellFormed s) (hd : items.Nodup)
    (hall : ∀ x ∈ items, Allocated s.pools x) :
    ∃ s' h', freeBlocks (items.map Ptr.slab) s h = some (s', h') ∧ WellFormed s' ∧
      (∀ x, Allocated s'.pools x ↔ Allocated s.pools x ∧ x ∉ items) ∧
      (poolAddrs s'.pools).head? = (poolAddrs s.pools).head? ∧
      (poolAddrs s'.pools).Sublist (poolAddrs s.pools) ∧
      (∀ pid rest, Backed s pid rest h → Backed s' pid rest h') := by
  induction items generalizing s h with
  | nil => exact ⟨s, h, rfl, hwf, by simp, rfl, List.Sublist.refl _, fun _ _ hb => hb⟩
  | cons it items ih =>
    obtain ⟨hnot, hd'⟩ := nodup_cons.mp hd
    obtain ⟨s1, h1, hrun1, hwf1, hall1, hhead1, hsub1, hback1⟩ :=
      kerSlabFree_spec hwf (hall it mem_cons_self)
    have hrest : ∀ x ∈ items, Allocated s1.pools x := by
      intro x hx
      apply (hall1 x).mpr
      exact ⟨hall x (mem_cons_of_mem _ hx), fun heq => hnot (heq ▸ hx)⟩
    obtain ⟨s2, h2, hrun2, hwf2, hall2, hhead2, hsub2, hback2⟩ := ih hwf1 hd' hrest
    refine ⟨s2, h2, ?_, hwf2, fun x => ?_, hhead2.trans hhead1, hsub2.trans hsub1,
      fun pid rest hb => hback2 pid rest (hback1 pid rest hb)⟩
    · rw [map_cons, freeBlocks, hrun1, Option.bind_some, hrun2]
    · rw [hall2, hall1, mem_cons, not_or, and_assoc]

def canPreallocate (maxTimers : ℕ) (pools : ℕ → ℕ) (s : Slab) (numTimers : ℕ) : Bool :=
  numTimers ≤ maxTimers && itemsAvailable s.numItemsPerPool pools numTimers 0 (freeSlots s.pools)

structure SameTimers (t t' : TimerState) : Prop where
  lists : t' = { t with slab := t'.slab }
  items : ∀ x, Allocated t'.slab.pools x ↔ Allocated t.slab.pools x

lemma SameTimers.refl (t : TimerState) : SameTimers t t := ⟨rfl, fun _ => Iff.rfl⟩

lemma timerPreallocate_ok (pid : ℕ) (h : Heap) {t : TimerState}
    (hwf : WellFormed t.slab) (hf : FreshPools pools 0 t.slab rest)
    (hcan : canPreallocate maxTimers pools t.slab n = true) :
    ∃ t' h', timerPreallocate maxTimers pools t h pid n = some (t', h', 0) := by
  simp only [canPreallocate, Bool.and_eq_true, decide_eq_true_eq] at hcan
  unfold timerPreallocate
  rw [if_neg (by omega)]
  split
  next s' h' tt hloop =>
    obtain ⟨hok, -⟩ := preallocLoop_spec hwf hf hloop
    rw [hcan.2] at hok
    cases hok
  · exact ⟨_, _, rfl⟩

lemma timerPreallocate_failed (pid : ℕ) {t : TimerState} (hwf : WellFormed t.slab)
    (hf : FreshPools pools 0 t.slab rest) (hback : Backed t.slab timerPid rest h)
    (hcan : canPreallocate maxTimers pools t.slab n = false) :
    ∃ t' h' c, timerPreallocate maxTimers pools t h pid n = some (t', h', c) ∧ c < 0 ∧
      SameTimers t t' ∧ ∀ b, b ∈ h' ↔ b ∈ h := by
  unfold timerPreallocate
  split
  · exact ⟨t, h, -einval, rfl, by decide, ⟨rfl, fun _ => Iff.rfl⟩, fun _ => Iff.rfl⟩
  next hmax =>
    split
    next s' h' tt hloop =>
      obtain ⟨-, new, htt, hout, hback'⟩ := preallocLoop_spec hwf hf hloop
      subst htt
      obtain ⟨s2, h2, hfree, hwf2, hall2, hhead2, -, hback2⟩ :=
        freeBlocks_spec hout.wellFormed hout.nodup
          (fun x hx => (hout.allocated x).mpr (.inr hx))
      have hsame : ∀ x, Allocated s2.pools x ↔ Allocated t.slab.pools x := by
        intro x
        have hx := hout.fresh x
        rw [hall2, hout.allocated]
        tauto
      rw [hfree]
      refine ⟨_, h2, -enomem, rfl, by decide, ⟨rfl, hsame⟩, ?_⟩
      apply hback.same_blocks (hback2 _ _ (hback' hback))
      exact hwf.pools_determined hwf2 (hhead2.trans hout.head) hsame
    next s' h' tt hloop =>
      obtain ⟨hok, -⟩ := preallocLoop_spec hwf hf hloop
      have hle : n ≤ maxTimers := Nat.le_of_not_lt hmax
      rw [canPreallocate, ← hok] at hcan
      simp [hle] at hcan

structure Pending where
  mem : Ptr
  type : ℕ
  pid : ℕ
  tid : ℕ
  ticks : ℤ
  flag : ℕ
  due : ℤ

/-- Expired blocks (`delta ≤ 0`) are due at once; the others add to those before them. -/
def pending : ℤ → List Timer → List Pending
  | _, [] => []
  | now, t :: l =>
    let due := now + max t.delta 0
    ⟨t.mem, t.type, t.pid, t.tid, t.ticks, t.flag, due⟩ :: pending due l

def DeltaOrdered (l : List Timer) : Prop := l.Pairwise (fun a b => 0 < a.delta → 0 ≤ b.delta)

@[simp] lemma length_addDelta (d : ℤ) (l : List Timer) : (addDelta d l).length = l.length := by
  cases l with
  | nil => rfl
  | cons n l => simp only [addDelta]; split <;> rfl

lemma dropDelta_clean {n : ℕ} (hn : l.length ≤ n) (hu : u ∈ dropDelta pid n l) :
    u.pid ≠ pid := by
  induction n generalizing l with
  | zero =>
    have : l = [] := length_eq_zero_iff.mp (by omega)
    simp [dropDelta, this] at hu
  | succ n ih =>
    cases l with
    | nil => simp [dropDelta] at hu
    | cons t l =>
      simp only [length_cons] at hn
      simp only [dropDelta] at hu
      split at hu
      · exact ih (by simp only [length_addDelta]; omega) hu
      next hne =>
        rcases mem_cons.mp hu with hu | hu
        · subst hu
          exact hne
        · exact ih (by omega) hu

lemma dropOwned_clean (hu : u ∈ dropOwned pid l) : u.pid ≠ pid := by
  simpa using (mem_filter.mp hu).2

lemma DeltaOrdered.addDelta {t : Timer} (h : DeltaOrdered (t :: l)) :
    DeltaOrdered (DeltaTimers.addDelta t.delta l) := by
  obtain ⟨hhead, htail⟩ := pairwise_cons.mp h
  cases l with
  | nil => exact List.Pairwise.nil
  | cons n l =>
    simp only [DeltaTimers.addDelta]
    split
    next hpos =>
      obtain ⟨-, hl⟩ := pairwise_cons.mp htail
      apply pairwise_cons.mpr
      exact ⟨fun b hb _ => hhead b (mem_cons_of_mem _ hb) hpos, hl⟩
    · exact htail

lemma pending_addDelta {t : Timer} (h : DeltaOrdered (t :: l)) (now : ℤ) :
    pending now (addDelta t.delta l) = pending (now + max t.delta 0) l := by
  obtain ⟨hhead, -⟩ := pairwise_cons.mp h
  cases l with
  | nil => rfl
  | cons n l =>
    simp only [addDelta]
    split
    next hpos =>
      have hn := hhead n (by simp) hpos
      have hdue : now + max (n.delta + t.delta) 0 = now + max t.delta 0 + max n.delta 0 := by omega
      simp only [pending, hdue]
    next hneg => rw [max_eq_right (by omega), add_zero]

lemma pending_dropDelta {n : ℕ} (hn : l.length ≤ n) (ho : DeltaOrdered l) (now : ℤ) :
    pending now (dropDelta pid n l) = (pending now l).filter (fun u => u.pid ≠ pid) := by
  induction n generalizing l now with
  | zero =>
    have : l = [] := length_eq_zero_iff.mp (by omega)
    simp [dropDelta, this, pending]
  | succ n ih =>
    cases l with
    | nil => simp [dropDelta, pending]
    | cons t l =>
      simp only [length_cons] at hn
      simp only [dropDelta, pending]
      split
      next heq =>
        rw [ih (by simp only [length_addDelta]; omega) ho.addDelta, pending_addDelta ho,
          filter_cons_of_neg (by simp [heq])]
      next hne =>
        rw [pending, filter_cons_of_pos (by simp [hne]), ih (by omega) (pairwise_cons.mp ho).2]

def TimerState.all (t : TimerState) : List Timer :=
  t.deltaq ++ t.timerPool ++ t.preallocTimerPool ++ t.periodicPool

/-- Blocks from the slab are allocated items of it, and no block is in two places. -/
structure Placed (t : TimerState) : Prop where
  slab : WellFormed t.slab
  nodup : (t.all.map Timer.mem).Nodup
  allocated : ∀ it, .slab it ∈ t.all.map Timer.mem → Allocated t.slab.pools it

lemma ownedBlocks_append (pid : ℕ) (l l' : List Timer) :
    ownedBlocks pid (l ++ l') = ownedBlocks pid l ++ ownedBlocks pid l' := by
  simp [ownedBlocks]

lemma ownedBlocks_all (pid : ℕ) (t : TimerState) :
    ownedBlocks pid t.deltaq ++ ownedBlocks pid t.timerPool ++
      ownedBlocks pid t.preallocTimerPool ++ ownedBlocks pid t.periodicPool =
      ownedBlocks pid t.all := by
  simp only [TimerState.all, ownedBlocks_append]

lemma ownedBlocks_sublist (pid : ℕ) (l : List Timer) :
    (ownedBlocks pid l).Sublist (l.map Timer.mem) :=
  filter_sublist.map _

lemma freeBlocks_items {ps : List Ptr} {r : Slab × Heap} (hrun : freeBlocks ps s h = some r) :
    ∃ items : List Item, ps = items.map Ptr.slab := by
  induction ps generalizing s h with
  | nil => exact ⟨[], rfl⟩
  | cons p ps ih =>
    obtain ⟨r1, hr1, hrest⟩ := Option.bind_eq_some_iff.mp hrun
    obtain ⟨items, rfl⟩ := ih hrest
    cases p with
    | slab it => exact ⟨it :: items, rfl⟩
    | other a => cases hr1

lemma Placed.freeBlocks_owned {t : TimerState} (ht : Placed t) (h : Heap)
    (hitems : ownedBlocks pid t.all = items.map Ptr.slab) :
    ∃ s' h', freeBlocks (ownedBlocks pid t.all) t.slab h = some (s', h') ∧ WellFormed s' ∧
      (∀ x, Allocated s'.pools x ↔ Allocated t.slab.pools x ∧ .slab x ∉ ownedBlocks pid t.all) ∧
      (poolAddrs s'.pools).Sublist (poolAddrs t.slab.pools) ∧
      ∀ owner rest, Backed t.slab owner rest h → Backed s' owner rest h' := by
  have hsub := ownedBlocks_sublist pid t.all
  rw [hitems] at hsub ⊢
  have hd : items.Nodup := (ht.nodup.sublist hsub).of_map _
  have hall : ∀ x ∈ items, Allocated t.slab.pools x :=
    fun x hx => ht.allocated x (hsub.subset (mem_map_of_mem hx))
  obtain ⟨s', h', hrun, hwf, hcount, -, hpools, hback⟩ := freeBlocks_spec ht.slab hd hall
  refine ⟨s', h', hrun, hwf, fun x => ?_, hpools, hback⟩
  rw [hcount]
  simp

end DeltaTimers
