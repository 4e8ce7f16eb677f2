import Mathlib.Data.Multiset.UnionInter
import SosKernel.TimerOperations

/-! # Timer blocks are neither lost nor doubled

A block is tagged with its memory and the timer it stands for. -/
namespace TimerConservation

open HeapBlocks SlabPools DeltaTimers TimerOperations GuardedRuns Multiset Function Option

variable {t t' : TimerState} {h h' : Heap} {c : Clock} {l : List Timer} {tt : Timer}
  {minInterval pid tid : ℕ} {x : Tag} {pools : List ℕ} {t1 : TimerState}

abbrev Key := ℕ × ℕ

abbrev Tag := Ptr × Key

def key (t : Timer) : Key := (t.pid, t.tid)

def tag (t : Timer) : Tag := (t.mem, key t)

def tags (l : List Timer) : Multiset Tag := (l.map tag : List Tag)

def inUse (t : TimerState) : Multiset Tag := tags t.deltaq + tags t.timerPool + tags t.periodicPool

def spare (t : TimerState) : Multiset Tag := tags t.preallocTimerPool

@[simp] lemma tags_nil : tags [] = 0 := rfl

@[simp] lemma tags_cons (u : Timer) (l : List Timer) : tags (u :: l) = tag u ::ₘ tags l := rfl

@[simp] lemma tags_append (l l' : List Timer) : tags (l ++ l') = tags l + tags l' := by simp [tags]

lemma tags_snoc (l : List Timer) (u : Timer) : tags (l ++ [u]) = tag u ::ₘ tags l := by
  simp [Multiset.add_comm]

lemma mem_tags : x ∈ tags l ↔ ∃ u ∈ l, tag u = x := by simp [tags]

lemma tags_map {f : Timer → Timer} (hf : ∀ u, tag (f u) = tag u) (l : List Timer) :
    tags (l.map f) = tags l := by
  simp only [tags, List.map_map]
  congr 2
  funext u
  exact hf u

lemma tags_setType (mem : Ptr) (type : ℕ) (l : List Timer) :
    tags (setType mem type l) = tags l := by
  apply tags_map
  intro u
  split <;> rfl

@[simp] lemma tags_addDelta (d : ℤ) (l : List Timer) : tags (addDelta d l) = tags l := by
  cases l with
  | nil => rfl
  | cons u l =>
    rw [addDelta]
    split <;> rfl

lemma tags_updateDelta (d : ℤ) (l : List Timer) : tags (updateDelta d l) = tags l := by
  induction l generalizing d with
  | nil => rfl
  | cons u l ih =>
    rw [updateDelta]
    split
    · rfl
    · rw [tags_cons, ih]
      rfl

lemma tags_insertLoop (u : Timer) (l : List Timer) : tags (insertLoop u l) = tag u ::ₘ tags l := by
  induction l generalizing u with
  | nil => rfl
  | cons curr l ih =>
    rw [insertLoop]
    split
    · rfl
    · rw [tags_cons, ih, cons_swap]
      rfl

lemma tags_timerDeltaQInsert (q : List Timer) (c : Clock) (u : Timer) (new : Bool) :
    tags (timerDeltaQInsert minInterval q c u new).1 = tag u ::ₘ tags q := by
  rw [timerDeltaQInsert_fst, tags_insertLoop]
  split <;> rfl

lemma tags_drainPeriodicPool (q : List Timer) (c : Clock) (pool : List Timer) :
    tags (drainPeriodicPool minInterval q c pool).1 = tags q + tags pool := by
  rw [drainPeriodicPool_eq]
  induction pool generalizing q with
  | nil => exact (Multiset.add_zero _).symm
  | cons u pool ih => rw [List.foldl_cons, ih, tags_insertLoop, tags_cons, add_cons, cons_add]

lemma tags_eraseP {p : Timer → Bool} (hfind : l.find? p = some tt) :
    tags l = tag tt ::ₘ tags (l.eraseP p) := by
  obtain ⟨hp, l1, l2, rfl, hno⟩ := List.find?_eq_some_iff_append.mp hfind
  rw [List.eraseP_append_right _ (by simpa using hno), List.eraseP_cons_of_pos hp]
  simp

lemma tags_removeTimer (hfind : l.find? (isTimer pid tid) = some tt) :
    tags l = tag tt ::ₘ tags (removeTimer pid tid l) := by
  have hsame : ∀ l, tags (removeTimer pid tid l) = tags (l.eraseP (isTimer pid tid)) := by
    intro l
    induction l with
    | nil => rfl
    | cons u l ih => cases hp : isTimer pid tid u <;> simp [removeTimer, hp, tags_addDelta, ih]
  rw [hsame]
  exact tags_eraseP hfind

lemma isTimer_iff {u : Timer} : isTimer pid tid u = true ↔ key u = (pid, tid) := by
  simp [isTimer, key]

lemma key_of_find (hfind : l.find? (isTimer pid tid) = some tt) : key tt = (pid, tid) :=
  isTimer_iff.mp (List.find?_some hfind)

lemma keys_tags (l : List Timer) :
    (tags l).map Prod.snd = ((l.map key : List Key) : Multiset Key) := by
  simp [tags, tag, comp_def]

lemma not_mem_tags_of_find (hfind : l.find? (isTimer pid tid) = none) :
    (pid, tid) ∉ (tags l).map Prod.snd := by
  rw [keys_tags, mem_coe, List.mem_map]
  rintro ⟨u, hu, hkey⟩
  exact List.find?_eq_none.mp hfind u hu (isTimer_iff.mpr hkey)

structure Kept (t t' : TimerState) : Prop where
  slab : t'.slab = t.slab
  inUse : inUse t' = inUse t
  spare : spare t' = spare t

lemma Kept.refl (t : TimerState) : Kept t t := ⟨rfl, rfl, rfl⟩

lemma Kept.trans {t'' : TimerState} (h1 : Kept t t') (h2 : Kept t' t'') : Kept t t'' :=
  ⟨h2.slab.trans h1.slab, h2.inUse.trans h1.inUse, h2.spare.trans h1.spare⟩

lemma kerTimerStop_kept (t : TimerState) (pid tid : ℕ) : Kept t (kerTimerStop t pid tid).1 := by
  unfold kerTimerStop
  split
  next hfind =>
    refine ⟨rfl, ?_, rfl⟩
    simp only [TimerConservation.inUse, tags_snoc, tags_eraseP hfind]
    simp
  · split
    next hfind =>
      refine ⟨rfl, ?_, rfl⟩
      simp only [TimerConservation.inUse, tags_snoc, tags_removeTimer hfind]
      simp
    · exact Kept.refl t

lemma enqueue_kept (hslab : t1.slab = t.slab)
    (hin : TimerConservation.inUse t = tag tt ::ₘ TimerConservation.inUse t1)
    (hspare : TimerConservation.spare t1 = TimerConservation.spare t) (c : Clock) (interval : ℤ) :
    Kept t (enqueue minInterval t1 c tt interval).1 := by
  refine ⟨hslab, ?_, hspare⟩
  rw [hin]
  simp only [enqueue, TimerConservation.inUse, tags_timerDeltaQInsert, cons_add]
  rfl

lemma kerTimerStart_kept (t : TimerState) (c : Clock) (pid tid : ℕ) (interval : ℤ) :
    Kept t (kerTimerStart minInterval t c pid tid interval).1 := by
  rcases kerTimerStart_cases minInterval t c pid tid interval with hrun | ⟨tt, hfind, hrun⟩
  · rw [hrun]
    exact Kept.refl t
  · rw [hrun]
    refine enqueue_kept ?_ ?_ ?_ c interval
    · rfl
    · simp only [inUse, tags_eraseP hfind, add_cons, cons_add]
    · rfl

lemma takeTimer_tags (htake : takeTimer t pid tid = some (tt, t1)) :
    t1.slab = t.slab ∧ inUse t = tag tt ::ₘ inUse t1 ∧ spare t1 = spare t := by
  unfold takeTimer at htake
  split at htake
  next hfind =>
    cases htake
    refine ⟨rfl, ?_, rfl⟩
    simp only [inUse, tags_eraseP hfind, add_cons]
  · split at htake
    next hfind =>
      cases htake
      refine ⟨rfl, ?_, rfl⟩
      simp only [inUse, tags_removeTimer hfind, cons_add]
    · obtain ⟨u, hfind, heq⟩ := map_eq_some_iff.mp htake
      cases heq
      refine ⟨rfl, ?_, rfl⟩
      simp only [inUse, tags_eraseP hfind, add_cons, cons_add]

section

variable (t c)

lemma kerTimerRestart_kept (pid tid : ℕ) (interval : ℤ) :
    Kept t (kerTimerRestart minInterval t c pid tid interval).1 := by
  rcases kerTimerRestart_cases minInterval t c pid tid interval with
    hrun | ⟨tt, t1, i, htake, -, ⟨-, hrun⟩ | ⟨-, hrun⟩⟩
  · rw [hrun]
    exact Kept.refl t
  · obtain ⟨hslab, hin, hspare⟩ := takeTimer_tags htake
    rw [hrun]
    refine ⟨hslab, ?_, hspare⟩
    rw [hin]
    simp only [inUse, tags_snoc, add_cons, cons_add]
  · obtain ⟨hslab, hin, hspare⟩ := takeTimer_tags htake
    rw [hrun]
    exact enqueue_kept hslab hin hspare c i

lemma timerUpdateDelta_kept : Kept t (timerUpdateDelta t c).1 := by
  refine ⟨rfl, ?_, rfl⟩
  simp only [timerUpdateDelta, inUse, tags_updateDelta]

end

lemma expireHead_kept (hrun : expireHead t = some t') : Kept t t' := by
  unfold expireHead at hrun
  split at hrun
  · cases hrun
  next u l hq =>
    split at hrun
    · cases hrun
    · split at hrun
      · obtain ⟨d, -, rfl⟩ := map_eq_some_iff.mp hrun
        refine ⟨rfl, ?_, rfl⟩
        have htag : tag { u with delta := d } = tag u := rfl
        simp only [inUse, hq, tags_snoc, tags_cons, add_cons, cons_add, htag]
      · cases hrun
        refine ⟨rfl, ?_, rfl⟩
        simp only [inUse, hq, tags_snoc, tags_cons, add_cons, cons_add]

lemma finishExpiry_kept {r : TimerState × Clock} (hrun : finishExpiry minInterval t c = some r) :
    Kept t r.1 := by
  unfold finishExpiry at hrun
  split at hrun
  · cases hrun
    refine ⟨rfl, ?_, rfl⟩
    simp only [inUse, tags_drainPeriodicPool, tags_nil, Multiset.add_zero]
    rw [Multiset.add_assoc, Multiset.add_comm (tags t.periodicPool), Multiset.add_assoc]
  · cases hrun

/-- The memory of the blocks in the lists is what the slab has handed out, each block is in one
place, and no two blocks stand for one timer. -/
structure Conserved (t : TimerState) : Prop where
  slab : WellFormed t.slab
  linked : ∀ p, p ∈ (inUse t + spare t).map Prod.fst ↔
    ∃ it, p = .slab it ∧ Allocated t.slab.pools it
  nodup : ((inUse t + spare t).map Prod.fst).Nodup
  unique : ((inUse t).map Prod.snd).Nodup

lemma tags_all (t : TimerState) : tags t.all = inUse t + spare t := by
  simp only [TimerState.all, inUse, spare, tags_append, Multiset.add_assoc]
  rw [Multiset.add_comm (tags t.preallocTimerPool)]

lemma coe_all (t : TimerState) :
    ((t.all.map Timer.mem : List Ptr) : Multiset Ptr) = (inUse t + spare t).map Prod.fst := by
  rw [← tags_all]
  simp [tags, tag, comp_def]

lemma Conserved.fill {p : Ptr} (hslab : WellFormed t'.slab) (hc : Conserved t)
    (hin : inUse t' = (p, pid, tid) ::ₘ inUse t) (hfresh : (pid, tid) ∉ (inUse t).map Prod.snd)
    (hfrom : (spare t = x ::ₘ spare t' ∧ x.1 = p ∧ t'.slab = t.slab) ∨
      (spare t' = spare t ∧ ∃ it, p = .slab it ∧ ¬ Allocated t.slab.pools it ∧
        ∀ y, Allocated t'.slab.pools y ↔ Allocated t.slab.pools y ∨ y = it)) : Conserved t' := by
  have hunique : ((inUse t').map Prod.snd).Nodup := by
    rw [hin, map_cons, nodup_cons]
    exact ⟨hfresh, hc.unique⟩
  rcases hfrom with ⟨hspare, rfl, hs⟩ | ⟨hspare, it, rfl, hnew, hall⟩
  · have hmem : (inUse t' + spare t').map Prod.fst = (inUse t + spare t).map Prod.fst := by
      rw [hin, hspare]
      simp only [cons_add, add_cons, map_cons]
    refine ⟨hslab, ?_, ?_, hunique⟩
    · rw [hmem, hs]
      exact hc.linked
    · rw [hmem]
      exact hc.nodup
  · have hmem : (inUse t' + spare t').map Prod.fst =
        .slab it ::ₘ (inUse t + spare t).map Prod.fst := by
      rw [hin, hspare]
      simp only [cons_add, map_cons]
    refine ⟨hslab, fun p => ?_, ?_, hunique⟩
    · rw [hmem, mem_cons, hc.linked]
      constructor
      · rintro (rfl | ⟨y, rfl, hy⟩)
        · exact ⟨it, rfl, (hall it).mpr (.inr rfl)⟩
        · exact ⟨y, rfl, (hall y).mpr (.inl hy)⟩
      · rintro ⟨y, rfl, hy⟩
        rcases (hall y).mp hy with hy | rfl
        · exact .inr ⟨y, rfl, hy⟩
        · exact .inl rfl
    · rw [hmem, nodup_cons]
      refine ⟨fun hin => ?_, hc.nodup⟩
      obtain ⟨y, heq, hy⟩ := (hc.linked _).mp hin
      cases heq
      exact hnew hy

section

variable (hc : Conserved t)
include hc

lemma Conserved.kept (hk : Kept t t') : Conserved t' := by
  obtain ⟨hslab, hin, hspare⟩ := hk
  refine ⟨hslab ▸ hc.slab, ?_, ?_, ?_⟩
  · rw [hin, hspare, hslab]
    exact hc.linked
  · rw [hin, hspare]
    exact hc.nodup
  · rw [hin]
    exact hc.unique

lemma Conserved.placed : Placed t := by
  refine ⟨hc.slab, ?_, fun it hit => ?_⟩
  · rw [← coe_nodup, coe_all]
    exact hc.nodup
  · rw [← mem_coe, coe_all, hc.linked] at hit
    obtain ⟨it', heq, hall⟩ := hit
    cases heq
    exact hall

lemma Conserved.release (hin : inUse t = x ::ₘ inUse t')
    (hspare : spare t' = spare t) (hfree : kerSlabFree t.slab h x.1 = some (t'.slab, h')) :
    Conserved t' := by
  have hsplit : inUse t + spare t = x ::ₘ (inUse t' + spare t') := by rw [hin, hspare, cons_add]
  have hnodup := hc.nodup
  rw [hsplit, map_cons, nodup_cons] at hnodup
  have hx : x.1 ∈ (inUse t + spare t).map Prod.fst := by
    rw [hsplit]
    exact mem_map_of_mem _ (mem_cons_self ..)
  obtain ⟨it, hit, hall⟩ := (hc.linked _).mp hx
  obtain ⟨s', h'', hrun, hwf, hcount, -⟩ := kerSlabFree_spec hc.slab hall
  rw [hit, hrun] at hfree
  cases hfree
  refine ⟨hwf, fun p => ?_, hnodup.2, ?_⟩
  · constructor
    · intro hp
      have hold : p ∈ (inUse t + spare t).map Prod.fst := by
        rw [hsplit]
        exact mem_cons_of_mem hp
      obtain ⟨it', rfl, hall'⟩ := (hc.linked p).mp hold
      refine ⟨it', rfl, (hcount it').mpr ⟨hall', ?_⟩⟩
      rintro rfl
      exact hnodup.1 (hit ▸ hp)
    · rintro ⟨it', rfl, hall'⟩
      obtain ⟨hold, hne⟩ := (hcount it').mp hall'
      have hmem := (hc.linked (.slab it')).mpr ⟨it', rfl, hold⟩
      rw [hsplit, map_cons, mem_cons, hit] at hmem
      exact hmem.resolve_left (fun heq => hne (by cases heq; rfl))
  · have hunique := hc.unique
    rw [hin, map_cons, nodup_cons] at hunique
    exact hunique.2

lemma kerTimerStopAndRelease_conserved {r : ℤ}
    (hrun : kerTimerStopAndRelease t h pid tid = some (t', h', r)) : Conserved t' := by
  have hc1 := hc.kept (kerTimerStop_kept t pid tid)
  unfold kerTimerStopAndRelease at hrun
  simp only at hrun
  split at hrun
  · cases hrun
    exact hc1
  next tt hfind =>
    obtain ⟨⟨s', h''⟩, hfree, heq⟩ := map_eq_some_iff.mp hrun
    cases heq
    refine hc1.release (x := tag tt) ?_ ?_ hfree
    · simp only [inUse, tags_eraseP hfind, add_cons, cons_add]
    · rfl

lemma kerTimerInit_conserved {pool type : ℕ} {r : ℤ} (hpool : pool ∉ poolAddrs t.slab.pools)
    (hrun : kerTimerInit t h pool pid tid type = (t', h', r)) : Conserved t' := by
  unfold kerTimerInit at hrun
  split at hrun
  next tt hfind =>
    cases hrun
    refine hc.kept ⟨rfl, ?_, rfl⟩
    have htag : tag { tt with type := type } = tag tt := rfl
    simp only [inUse, tags_snoc, tags_eraseP hfind, add_cons, cons_add, htag]
  next hperiodic =>
    split at hrun
    next tt hfind =>
      cases hrun
      refine hc.kept ((kerTimerStop_kept t pid tid).trans ⟨rfl, ?_, rfl⟩)
      simp only [inUse, tags_setType]
    next hdelta =>
      split at hrun
      next tt hfind =>
        cases hrun
        refine hc.kept ⟨rfl, ?_, rfl⟩
        have htag : tag { tt with pid := pid, tid := tid, type := type } = tag tt := by
          rw [tag, tag, key_of_find hfind, key]
        simp only [inUse, tags_snoc, tags_eraseP hfind, add_cons, cons_add, htag]
      next hpools =>
        -- no list has the timer, so its pid and id are new
        have hfresh : (pid, tid) ∉ (inUse t).map Prod.snd := by
          simp only [inUse, map_add, mem_add, not_or]
          exact ⟨⟨not_mem_tags_of_find hdelta, not_mem_tags_of_find hpools⟩,
            not_mem_tags_of_find hperiodic⟩
        split at hrun
        next tt hfind =>
          cases hrun
          refine hc.fill (p := tt.mem) (x := tag tt) ?_ ?_ hfresh ?_
          · exact hc.slab
          · have htag : tag { tt with pid := pid, tid := tid, type := type } =
              (tt.mem, pid, tid) := rfl
            simp only [inUse, tags_snoc, add_cons, cons_add, htag]
          · exact .inl ⟨tags_eraseP hfind, rfl, rfl⟩
        · split at hrun
          next s it halloc =>
            cases hrun
            obtain ⟨hwf, hnew, hall, -⟩ := kerSlabAlloc_some hc.slab hpool halloc
            refine hc.fill (p := .slab it) (x := (.slab it, 0, 0)) ?_ ?_ hfresh ?_
            · exact hwf
            · have htag : tag ⟨.slab it, type, pid, tid, 0, 0, 0⟩ = (.slab it, pid, tid) := rfl
              simp only [inUse, tags_snoc, add_cons, cons_add, htag]
            · exact .inr ⟨rfl, it, rfl, hnew, hall⟩
          next s halloc =>
            cases hrun
            obtain ⟨rfl, -, -⟩ := kerSlabAlloc_none halloc
            exact hc

end

lemma freshPools_getD {s : Slab} (hwf : WellFormed s) (hnodup : pools.Nodup)
    (hnew : ∀ q ∈ pools, q ∉ poolAddrs s.pools) : FreshPools (fun i => pools.getD i 0) 0 s [] := by
  have hlt : ∀ j, pools.getD j 0 ≠ 0 → j < pools.length := by
    intro j hj
    by_contra hge
    exact hj (List.getD_eq_default _ _ (Nat.le_of_not_lt hge))
  refine ⟨fun j _ => ?_, fun j => List.not_mem_nil, fun j i hj heq => ?_⟩
  · by_cases hj : j < pools.length
    · simp only [List.getD_eq_getElem _ _ hj]
      exact hnew _ (List.getElem_mem hj)
    · simp only [List.getD_eq_default _ _ (Nat.le_of_not_lt hj)]
      exact hwf.not_null
  · have hi : pools.getD i 0 ≠ 0 := by
      rw [heq]
      exact hj
    simp only [List.getD_eq_getElem _ _ (hlt i hi), List.getD_eq_getElem _ _ (hlt j hj)] at heq
    exact (hnodup.getElem_inj_iff).mp heq

lemma Conserved.extend (new : List Item) (pid : ℕ) (hc : Conserved t)
    (hout : HandedOut t.slab t'.slab new) (hin : inUse t' = inUse t)
    (hspare : spare t' = spare t + tags (new.map (preAllocBlock pid))) : Conserved t' := by
  have hfst : (inUse t' + spare t').map Prod.fst =
      (inUse t + spare t).map Prod.fst + ((new.map Ptr.slab : List Ptr) : Multiset Ptr) := by
    rw [hin, hspare, ← Multiset.add_assoc]
    simp [tags, tag, preAllocBlock, comp_def]
  refine ⟨hout.wellFormed, fun p => ?_, ?_, ?_⟩
  · rw [hfst, mem_add, hc.linked, mem_coe, List.mem_map]
    constructor
    · rintro (⟨it, rfl, hit⟩ | ⟨it, hit, rfl⟩)
      · exact ⟨it, rfl, (hout.allocated it).mpr (.inl hit)⟩
      · exact ⟨it, rfl, (hout.allocated it).mpr (.inr hit)⟩
    · rintro ⟨it, rfl, hit⟩
      rcases (hout.allocated it).mp hit with hit | hit
      · exact .inl ⟨it, rfl, hit⟩
      · exact .inr ⟨it, hit, rfl⟩
  · rw [hfst, nodup_add]
    refine ⟨hc.nodup, ?_, ?_⟩
    · exact hout.nodup.map (fun a b hab => by cases hab; rfl)
    · rw [disjoint_left]
      intro p hp hnew
      obtain ⟨it, rfl, hit⟩ := (hc.linked p).mp hp
      obtain ⟨it', hit', heq⟩ := List.mem_map.mp (mem_coe.mp hnew)
      cases heq
      exact hout.fresh it hit' hit
  · rw [hin]
    exact hc.unique

lemma timerPreallocate_conserved {maxTimers numTimers : ℕ} {r : ℤ}
    (hc : Conserved t) (hnodup : pools.Nodup) (hnew : ∀ q ∈ pools, q ∉ poolAddrs t.slab.pools)
    (hrun : timerPreallocate maxTimers (fun i => pools.getD i 0) t h pid numTimers =
      some (t', h', r)) : Conserved t' := by
  have hfresh := freshPools_getD hc.slab hnodup hnew
  unfold timerPreallocate at hrun
  split at hrun
  · cases hrun
    exact hc
  · split at hrun
    next s' h1 tt hloop =>
      obtain ⟨-, new, htt, hout, -⟩ := preallocLoop_spec hc.slab hfresh hloop
      subst htt
      obtain ⟨s2, h2, hfree, hwf2, hall2, hhead2, -⟩ :=
        freeBlocks_spec hout.wellFormed hout.nodup
          (fun x hx => (hout.allocated x).mpr (.inr hx))
      rw [hfree] at hrun
      cases hrun
      refine hc.extend [] pid ⟨hwf2, hhead2.trans hout.head, by simp,
        List.nodup_nil, fun x => ?_⟩ rfl (Multiset.add_zero _).symm
      -- what was taken before the heap gave up is free again
      have hx := hout.fresh x
      rw [hall2, hout.allocated]
      tauto
    next s' h1 tt hloop =>
      obtain ⟨-, new, htt, hout, -⟩ := preallocLoop_spec hc.slab hfresh hloop
      subst htt
      cases hrun
      exact hc.extend _ pid hout rfl (tags_append ..)

lemma tags_dropOwned (pid : ℕ) (l : List Timer) :
    tags (dropOwned pid l) = (tags l).filter (fun x => x.2.1 ≠ pid) := by
  simp only [dropOwned, tags, filter_coe, List.filter_map]
  rfl

lemma tags_dropDelta {n : ℕ} (hn : l.length ≤ n) :
    tags (dropDelta pid n l) = (tags l).filter (fun x => x.2.1 ≠ pid) := by
  induction n generalizing l with
  | zero =>
    have hnil : l = [] := List.length_eq_zero_iff.mp (by omega)
    subst hnil
    rfl
  | succ n ih =>
    cases l with
    | nil => rfl
    | cons u l =>
      simp only [List.length_cons] at hn
      simp only [dropDelta]
      split
      next heq =>
        rw [ih (by simp only [length_addDelta]; omega), tags_addDelta, tags_cons,
          filter_cons_of_neg (tags l) (not_not_intro heq)]
      next hne => rw [tags_cons, tags_cons, ih (by omega), filter_cons_of_pos (tags l) hne]

lemma Conserved.restrict (keep : Tag → Prop) [DecidablePred keep] (hc : Conserved t)
    (hwf : WellFormed t'.slab) (hin : inUse t' = (inUse t).filter keep)
    (hspare : spare t' = (spare t).filter keep)
    (hall : ∀ it, Allocated t'.slab.pools it ↔ Allocated t.slab.pools it ∧
      ∀ x ∈ inUse t + spare t, x.1 = .slab it → keep x) : Conserved t' := by
  have hsplit : inUse t' + spare t' = (inUse t + spare t).filter keep := by
    rw [hin, hspare, filter_add]
  refine ⟨hwf, fun p => ?_, ?_, ?_⟩
  · rw [hsplit]
    constructor
    · intro hp
      obtain ⟨x, hx, rfl⟩ := mem_map.mp hp
      obtain ⟨hx, hkeep⟩ := mem_filter.mp hx
      obtain ⟨it, hit, hold⟩ := (hc.linked x.1).mp (mem_map_of_mem _ hx)
      refine ⟨it, hit, (hall it).mpr ⟨hold, fun y hy hyit => ?_⟩⟩
      have hxy : y = x := inj_on_of_nodup_map hc.nodup y hy x hx (hyit.trans hit.symm)
      exact hxy ▸ hkeep
    · rintro ⟨it, rfl, hit⟩
      obtain ⟨hold, hkeep⟩ := (hall it).mp hit
      obtain ⟨x, hx, hxit⟩ := mem_map.mp ((hc.linked _).mpr ⟨it, rfl, hold⟩)
      exact mem_map.mpr ⟨x, mem_filter.mpr ⟨hx, hkeep x hx hxit⟩, hxit⟩
  · rw [hsplit]
    exact nodup_of_le (map_le_map (filter_le _ _)) hc.nodup
  · rw [hin]
    exact nodup_of_le (map_le_map (filter_le _ _)) hc.unique

lemma mem_ownedBlocks {p : Ptr} : p ∈ ownedBlocks pid l ↔ ∃ x ∈ tags l, x.1 = p ∧ x.2.1 = pid := by
  simp only [ownedBlocks, List.mem_map, List.mem_filter, decide_eq_true_eq, mem_tags]
  constructor
  · rintro ⟨u, ⟨hu, hpid⟩, rfl⟩
    exact ⟨tag u, ⟨u, hu, rfl⟩, rfl, hpid⟩
  · rintro ⟨x, ⟨u, hu, rfl⟩, rfl, hpid⟩
    exact ⟨u, ⟨hu, hpid⟩, rfl⟩

lemma timerRemoveAll_conserved {r : Heap} (hc : Conserved t)
    (hrun : timerRemoveAll t h pid = some (t', r)) : Conserved t' := by
  obtain ⟨⟨s', h'⟩, hfree, heq⟩ := map_eq_some_iff.mp hrun
  rw [ownedBlocks_all] at hfree
  obtain ⟨items, hitems⟩ := freeBlocks_items hfree
  obtain ⟨s1, h1, hfree1, hwf, hall, -⟩ := hc.placed.freeBlocks_owned h hitems
  rw [hfree] at hfree1
  cases hfree1
  cases heq
  refine hc.restrict (fun x => x.2.1 ≠ pid) hwf ?_ (tags_dropOwned ..) (fun it => ?_)
  · simp only [inUse, filter_add, tags_dropOwned, tags_dropDelta le_rfl]
  · rw [hall, mem_ownedBlocks, tags_all]
    refine and_congr_right (fun _ => ?_)
    constructor
    · intro hnot x hx hxit hpid
      exact hnot ⟨x, hx, hxit, hpid⟩
    · rintro hkeep ⟨x, hx, hxit, hpid⟩
      exact hkeep x hx hxit hpid

lemma step_preserves_conserved (s : State) (e : Event) (s' : State) (hc : Conserved s.timers)
    (hfresh : FreshFor s e) (hrun : step minInterval s e = some s') : Conserved s'.timers := by
  cases e with
  | preallocate maxTimers pools pid numTimers =>
    obtain ⟨r, hcall, rfl⟩ := map_eq_some_iff.mp hrun
    exact timerPreallocate_conserved hc hfresh.1 hfresh.2 hcall
  | init pool pid tid type =>
    cases hrun
    exact kerTimerInit_conserved hc hfresh rfl
  | start pid tid interval =>
    cases hrun
    exact hc.kept (kerTimerStart_kept ..)
  | restart pid tid interval =>
    cases hrun
    exact hc.kept (kerTimerRestart_kept ..)
  | stop pid tid =>
    cases hrun
    exact hc.kept (kerTimerStop_kept ..)
  | stopAndRelease pid tid =>
    obtain ⟨r, hcall, rfl⟩ := map_eq_some_iff.mp hrun
    exact kerTimerStopAndRelease_conserved hc hcall
  | removeAll pid =>
    obtain ⟨r, hcall, rfl⟩ := map_eq_some_iff.mp hrun
    exact timerRemoveAll_conserved hc hcall
  | tick =>
    cases hrun
    exact hc
  | beginExpiry =>
    simp only [step] at hrun
    split at hrun
    · cases hrun
      exact hc.kept (timerUpdateDelta_kept ..)
    · cases hrun
  | expire =>
    simp only [step] at hrun
    split at hrun
    · obtain ⟨t, hcall, rfl⟩ := map_eq_some_iff.mp hrun
      exact hc.kept (expireHead_kept hcall)
    · cases hrun
  | finish =>
    simp only [step] at hrun
    split at hrun
    · obtain ⟨r, hcall, rfl⟩ := map_eq_some_iff.mp hrun
      exact hc.kept (finishExpiry_kept hcall)
    · cases hrun

lemma conserved_of_initial {s : State} (hs : Initial s) : Conserved s.timers := by
  have hnone : inUse s.timers = 0 ∧ spare s.timers = 0 := by
    simp [inUse, spare, hs.deltaq, hs.timerPool, hs.periodicPool, hs.preallocTimerPool]
  refine ⟨hs.slab, fun p => ?_, ?_, ?_⟩
  · rw [hnone.1, hnone.2]
    constructor
    · intro hp
      simp at hp
    · rintro ⟨it, -, hit⟩
      exact absurd hit (hs.unused it)
  · rw [hnone.1, hnone.2]
    exact nodup_zero
  · rw [hnone.1]
    exact nodup_zero

lemma Conserved.keys (hc : Conserved t) :
    ((t.deltaq ++ t.timerPool ++ t.periodicPool).map key).Nodup := by
  have hunique := hc.unique
  rwa [inUse, ← tags_append, ← tags_append, keys_tags] at hunique

lemma Conserved.deltaq_keys (hc : Conserved t) : (t.deltaq.map key).Nodup := by
  have hkeys := hc.keys
  rw [List.append_assoc, List.map_append] at hkeys
  exact (List.nodup_append.mp hkeys).1

/-- Every allocated block is linked in one list, once; released blocks are in none; and at most one
block that is not spare stands for a given timer. -/
structure TimersConserved (t : TimerState) : Prop where
  linkedOnce : ∀ it, Allocated t.slab.pools it → (t.all.map Timer.mem).count (.slab it) = 1
  released : ∀ it, ¬ Allocated t.slab.pools it → .slab it ∉ t.all.map Timer.mem
  unique : ∀ pid tid,
    (t.deltaq ++ t.timerPool ++ t.periodicPool).countP (isTimer pid tid) ≤ 1

lemma Conserved.timersConserved (hc : Conserved t) : TimersConserved t := by
  have hmem : ∀ it, .slab it ∈ t.all.map Timer.mem ↔ Allocated t.slab.pools it := by
    intro it
    rw [← mem_coe, coe_all, hc.linked]
    constructor
    · rintro ⟨it', heq, hit⟩
      cases heq
      exact hit
    · intro hit
      exact ⟨it, rfl, hit⟩
  refine ⟨fun it hit => ?_, fun it hit hin => hit ((hmem it).mp hin), fun pid tid => ?_⟩
  · exact List.count_eq_one_of_mem hc.placed.nodup ((hmem it).mpr hit)
  · have hcount := List.nodup_iff_count_le_one.mp hc.keys (pid, tid)
    rw [List.count, List.countP_map] at hcount
    refine le_trans (le_of_eq ?_) hcount
    congr 1
    funext u
    rw [Bool.eq_iff_iff]
    simp [isTimer, key]

/-- Whatever the modules and their timeout handlers call, timer blocks are conserved. -/
theorem timers_conserved_over_runs {s s' : State} (hs : Initial s) {es : List Event}
    (hvalid : ValidTrace (step minInterval) FreshFor s es)
    (hrun : runTrace (step minInterval) s es = some s') : TimersConserved s'.timers := by
  have hinv : Conserved s'.timers :=
    run_invariant_of_some step_preserves_conserved (conserved_of_initial hs) hvalid hrun
  exact hinv.timersConserved

def sampleState : State where
  timers := ⟨[], [], [], [], ⟨[⟨200, List.replicate 4 false⟩], 4⟩⟩
  heap := []
  clock := ⟨0, 0, 0, 5⟩
  phase := .idle

lemma sampleState_initial : Initial sampleState := by
  refine ⟨rfl, rfl, rfl, rfl, ?_, ?_, rfl, rfl⟩
  · constructor <;> simp [sampleState, poolAddrs, Busy]
  · exact fun it => not_allocated_of_clear (by simp [sampleState])

def sampleEvents : List Event :=
  [.preallocate 10 [300] 128 2, .init 301 128 0 0, .start 128 0 5, .init 301 129 7 1,
    .start 129 7 6] ++ List.replicate 10 .tick ++
  [.beginExpiry, .expire, .restart 129 7 20, .stopAndRelease 128 0, .init 302 130 1 0,
    .removeAll 129, .finish, .start 130 1 5]

theorem timers_conserved_sample :
    ValidTrace (step 5) FreshFor sampleState sampleEvents ∧
    ∃ s', runTrace (step 5) sampleState sampleEvents = some s' ∧ TimersConserved s'.timers := by
  have hvalid : ValidTrace (step 5) FreshFor sampleState sampleEvents := by decide +kernel
  obtain ⟨s', hrun⟩ : ∃ s', runTrace (step 5) sampleState sampleEvents = some s' :=
    isSome_iff_exists.mp (by decide +kernel)
  exact ⟨hvalid, s', hrun, timers_conserved_over_runs sampleState_initial hvalid hrun⟩

end TimerConservation
