import SosKernel.TimerDeadlines

/-! # Periodic timers do not drift

An expired periodic timer waits in the periodic pool, with a delta from the same time base as the
queue. -/
namespace PeriodicTimers

open HeapBlocks SlabPools DeltaTimers TimerOperations TimerConservation TimerDeadlines GuardedRuns
open List Option

variable {t t' t1 : TimerState} {c c' : Clock} {l : List Timer} {tt x u : Timer} {s s' : State}
  {minInterval pid tid : ℕ} {base acc d interval : ℤ} {h h' : Heap} {e : Timer × ℤ}
  {gone : Key → Prop} {b : Timer} {n : ℕ}

lemma mem_insertLoop (hu : 0 ≤ u.delta) (hb : b ∈ insertLoop u l) :
    0 ≤ b.delta ∨ b ∈ l := by
  induction l generalizing u with
  | nil =>
    rw [insertLoop, mem_singleton] at hb
    exact .inl (hb ▸ hu)
  | cons curr l ih =>
    rw [insertLoop] at hb
    split at hb
    next hlt =>
      rcases mem_cons.mp hb with rfl | hb
      · exact .inl hu
      · rcases mem_cons.mp hb with rfl | hb
        · exact .inl (by simp only; omega)
        · exact .inr (mem_cons_of_mem _ hb)
    next hge =>
      rcases mem_cons.mp hb with rfl | hb
      · exact .inr mem_cons_self
      · exact (ih (by simp only; omega) hb).imp_right (mem_cons_of_mem _)

lemma DeltaOrdered.insertLoop (ho : DeltaOrdered l) (hu : 0 ≤ u.delta) :
    DeltaOrdered (TimerOperations.insertLoop u l) := by
  induction l generalizing u with
  | nil => exact pairwise_singleton _ _
  | cons curr l ih =>
    obtain ⟨hhead, htail⟩ := pairwise_cons.mp ho
    rw [TimerOperations.insertLoop]
    split
    next hlt =>
      have hrest : ∀ b ∈ l, 0 ≤ b.delta := fun b hb => hhead b hb (by omega)
      refine pairwise_cons.mpr ⟨fun b hb _ => ?_, pairwise_cons.mpr ⟨?_, htail⟩⟩
      · rcases mem_cons.mp hb with rfl | hb
        · simp only
          omega
        · exact hrest b hb
      · exact fun b hb _ => hrest b hb
    next hge =>
      have hu' : 0 ≤ u.delta - curr.delta := by omega
      refine pairwise_cons.mpr ⟨fun b hb hpos => ?_, ih htail (by exact hu')⟩
      rcases mem_insertLoop (by exact hu') hb with hb | hb
      · exact hb
      · exact hhead b hb hpos

lemma mem_dropDelta (hb : b ∈ dropDelta pid n l) :
    ∃ u ∈ l, u.delta ≤ b.delta := by
  induction n generalizing l with
  | zero => exact ⟨b, hb, le_rfl⟩
  | succ n ih =>
    cases l with
    | nil => cases hb
    | cons u l =>
      simp only [dropDelta] at hb
      split at hb
      · obtain ⟨v, hv, hle⟩ := ih hb
        cases l with
        | nil => cases hv
        | cons w l =>
          simp only [addDelta] at hv
          split at hv
          next hpos =>
            rcases mem_cons.mp hv with rfl | hv
            · exact ⟨w, by simp, by simp only at hle; omega⟩
            · exact ⟨v, by simp [hv], hle⟩
          · exact ⟨v, mem_cons_of_mem _ hv, hle⟩
      · rcases mem_cons.mp hb with rfl | hb
        · exact ⟨b, mem_cons_self, le_rfl⟩
        · obtain ⟨v, hv, hle⟩ := ih hb
          exact ⟨v, mem_cons_of_mem _ hv, hle⟩

lemma DeltaOrdered.dropDelta (n : ℕ) (ho : DeltaOrdered l) :
    DeltaOrdered (DeltaTimers.dropDelta pid n l) := by
  induction n generalizing l with
  | zero => exact ho
  | succ n ih =>
    cases l with
    | nil => exact ho
    | cons u l =>
      simp only [DeltaTimers.dropDelta]
      split
      · exact ih (DeltaTimers.DeltaOrdered.addDelta ho)
      · obtain ⟨hhead, htail⟩ := pairwise_cons.mp ho
        refine pairwise_cons.mpr ⟨fun b hb hpos => ?_, ih htail⟩
        obtain ⟨v, hv, hle⟩ := mem_dropDelta hb
        exact (hhead v hv hpos).trans hle

section

variable (hl : ∀ u ∈ l, 0 ≤ u.delta)
include hl

lemma DeltaOrdered.of_nonneg : DeltaOrdered l :=
  pairwise_of_forall_mem_list (fun _ _ b hb _ => hl b hb)

lemma DeltaOrdered.updateDelta (hd : 0 ≤ d) : DeltaOrdered (TimerOperations.updateDelta d l) := by
  induction l generalizing d with
  | nil => exact List.Pairwise.nil
  | cons u l ih =>
    have hrest : ∀ b ∈ l, 0 ≤ b.delta := fun b hb => hl b (mem_cons_of_mem _ hb)
    rw [TimerOperations.updateDelta]
    split
    · exact pairwise_cons.mpr ⟨fun b hb _ => hrest b hb, DeltaOrdered.of_nonneg hrest⟩
    next hlt =>
      refine pairwise_cons.mpr ⟨fun b _ hpos => ?_, ih hrest (by omega)⟩
      simp only at hpos
      omega

lemma deadlines_of_nonneg (base base' acc : ℤ) : deadlines base acc l = deadlines base' acc l := by
  induction l generalizing acc with
  | nil => rfl
  | cons u l ih =>
    have hu := hl u mem_cons_self
    rw [deadlines_cons hu, deadlines_cons hu, ih (fun b hb => hl b (mem_cons_of_mem _ hb))]

lemma deadlines_updateDelta (hd : 0 ≤ d) (base acc : ℤ) :
    deadlines (acc + d) (acc + d) (updateDelta d l) = deadlines base acc l := by
  induction l generalizing d acc with
  | nil => rfl
  | cons u l ih =>
    have hu := hl u mem_cons_self
    have hrest : ∀ b ∈ l, 0 ≤ b.delta := fun b hb => hl b (mem_cons_of_mem _ hb)
    rw [updateDelta, deadlines_cons hu]
    split
    next hle =>
      have hsum : acc + d + (u.delta - d) = acc + u.delta := by omega
      rw [deadlines_cons (by simp only; omega)]
      simp only [hsum]
      rw [deadlines_of_nonneg hrest _ base]
      rfl
    next hlt =>
      have hsum : acc + d + (u.delta - d) = acc + u.delta := by omega
      have hbase : acc + u.delta + (d - u.delta) = acc + d := by omega
      have hih := ih hrest (d := d - u.delta) (by omega) (acc + u.delta)
      rw [hbase] at hih
      rw [deadlines_cons_neg (by simp only; omega), hih]
      simp only [hsum]
      rfl

end

lemma deadlines_dropDelta (hn : l.length ≤ n) (ho : DeltaOrdered l) (base acc : ℤ) :
    deadlines base acc (dropDelta pid n l) =
      (deadlines base acc l).filter (fun e => e.1.pid ≠ pid) := by
  induction n generalizing l acc with
  | zero =>
    have hnil : l = [] := length_eq_zero_iff.mp (by omega)
    subst hnil
    rfl
  | succ n ih =>
    cases l with
    | nil => rfl
    | cons u l =>
      obtain ⟨hhead, htail⟩ := pairwise_cons.mp ho
      have hlabel : (label u).pid = u.pid := rfl
      simp only [length_cons] at hn
      simp only [dropDelta]
      split
      next heq =>
        have hlen : (addDelta u.delta l).length ≤ n := by
          rw [length_addDelta]
          omega
        rw [ih hlen (DeltaTimers.DeltaOrdered.addDelta ho),
          deadlines_addDelta (fun hpos b hb => hhead b hb hpos), deadlines]
        split
        · rw [filter_cons_of_neg (by simp [hlabel, heq])]
        · rw [filter_cons_of_neg (by simp [hlabel, heq])]
      next hne =>
        rw [deadlines, deadlines]
        split
        · rw [filter_cons_of_pos (by simp [hlabel, hne]), ih (by omega) htail]
        · rw [filter_cons_of_pos (by simp [hlabel, hne]), ih (by omega) htail]

def schedule (t : TimerState) (c : Clock) : List (Timer × ℤ) :=
  expiries t c ++ t.periodicPool.map (fun u => (label u, c.base + u.delta))

lemma mem_schedule : e ∈ schedule t c ↔
    e ∈ expiries t c ∨ ∃ u ∈ t.periodicPool, (label u, c.base + u.delta) = e := by
  simp [schedule]

structure Leaves (t t' : TimerState) (gone : Key → Prop) : Prop where
  ordered : DeltaOrdered t.deltaq → DeltaOrdered t'.deltaq
  above : ∀ b ∈ t'.deltaq, ∃ u ∈ t.deltaq, u.delta ≤ b.delta
  pool : ∀ u ∈ t'.periodicPool, u ∈ t.periodicPool
  due : DeltaOrdered t.deltaq → ∀ c, ∀ e ∈ schedule t c, ¬ gone (key e.1) → e ∈ schedule t' c

lemma leaves_of_same (hq : t'.deltaq = t.deltaq) (hp : t'.periodicPool = t.periodicPool) :
    Leaves t t' gone := by
  constructor
  · rw [hq]
    exact id
  · rw [hq]
    exact fun b hb => ⟨b, hb, le_rfl⟩
  · rw [hp]
    exact fun u hu => hu
  · intro _ c e he _
    rw [mem_schedule, expiries, hq, hp]
    exact mem_schedule.mp he

lemma Leaves.trans {t'' : TimerState} (h1 : Leaves t t' gone) (h2 : Leaves t' t'' gone) :
    Leaves t t'' gone := by
  constructor
  · exact fun ho => h2.ordered (h1.ordered ho)
  · intro b hb
    obtain ⟨u, hu, hle⟩ := h2.above b hb
    obtain ⟨v, hv, hle'⟩ := h1.above u hu
    exact ⟨v, hv, hle'.trans hle⟩
  · exact fun u hu => h1.pool u (h2.pool u hu)
  · exact fun ho c e he hgone => h2.due (h1.ordered ho) c e (h1.due ho c e he hgone) hgone

lemma Leaves.pool_nil (hl : Leaves t t' gone) (hnil : t.periodicPool = []) :
    t'.periodicPool = [] := by
  apply eq_nil_iff_forall_not_mem.mpr
  intro u hu
  have hmem := hl.pool u hu
  rw [hnil] at hmem
  cases hmem

lemma leaves_of_erase (hq : t'.deltaq = t.deltaq)
    (hp : t'.periodicPool = t.periodicPool.eraseP (isTimer pid tid)) :
    Leaves t t' (· = (pid, tid)) := by
  constructor
  · rw [hq]
    exact id
  · rw [hq]
    exact fun b hb => ⟨b, hb, le_rfl⟩
  · rw [hp]
    exact fun u hu => mem_of_mem_eraseP hu
  · intro _ c e he hne
    rw [mem_schedule, expiries, hq, hp]
    rcases mem_schedule.mp he with he | ⟨u, hu, rfl⟩
    · exact .inl he
    · refine .inr ⟨u, (mem_eraseP_of_neg ?_).mpr hu, rfl⟩
      exact fun hkey => hne (isTimer_iff.mp hkey)

section

variable (hc : Conserved t)
include hc

lemma leaves_of_remove (hq : t'.deltaq = removeTimer pid tid t.deltaq)
    (hp : t'.periodicPool = t.periodicPool) : Leaves t t' (· = (pid, tid)) := by
  constructor
  · rw [hq]
    exact TimerDeadlines.DeltaOrdered.removeTimer
  · rw [hq]
    exact fun b hb => mem_removeTimer hb
  · rw [hp]
    exact fun u hu => hu
  · intro ho c e he hne
    rw [mem_schedule, expiries, hq, hp,
      deadlines_removeTimer hc.deltaq_keys (removesCleanly_of_ordered ho)]
    rcases mem_schedule.mp he with he | he
    · exact .inl (mem_filter.mpr ⟨he, decide_eq_true hne⟩)
    · exact .inr he

lemma kerTimerStop_leaves (pid tid : ℕ) : Leaves t (kerTimerStop t pid tid).1 (· = (pid, tid)) := by
  unfold kerTimerStop
  split
  · exact leaves_of_erase rfl rfl
  · split
    · exact leaves_of_remove hc rfl rfl
    · exact leaves_of_same rfl rfl

lemma kerTimerInit_leaves {pool type : ℕ} (h : Heap) :
    Leaves t (kerTimerInit t h pool pid tid type).1 (· = (pid, tid)) := by
  unfold kerTimerInit
  split
  · exact leaves_of_erase rfl rfl
  · split
    · exact (kerTimerStop_leaves hc pid tid).trans (leaves_of_same rfl rfl)
    · split
      · exact leaves_of_same rfl rfl
      · split
        · exact leaves_of_same rfl rfl
        · split <;> exact leaves_of_same rfl rfl

lemma kerTimerStopAndRelease_leaves {r : ℤ}
    (hrun : kerTimerStopAndRelease t h pid tid = some (t', h', r)) :
    Leaves t t' (· = (pid, tid)) := by
  unfold kerTimerStopAndRelease at hrun
  simp only at hrun
  refine (kerTimerStop_leaves hc pid tid).trans ?_
  split at hrun
  · cases hrun
    exact leaves_of_same rfl rfl
  · obtain ⟨u, -, heq⟩ := map_eq_some_iff.mp hrun
    cases heq
    exact leaves_of_same rfl rfl

lemma takeTimer_leaves (htake : takeTimer t pid tid = some (tt, t1)) :
    Leaves t t1 (· = (pid, tid)) := by
  unfold takeTimer at htake
  split at htake
  · cases htake
    exact leaves_of_erase rfl rfl
  · split at htake
    · cases htake
      exact leaves_of_remove hc rfl rfl
    · obtain ⟨u, -, heq⟩ := map_eq_some_iff.mp htake
      cases heq
      exact leaves_of_same rfl rfl

end

lemma timerPreallocate_leaves {maxTimers numTimers : ℕ} {pools : ℕ → ℕ} {r : TimerState × Heap × ℤ}
    (hrun : timerPreallocate maxTimers pools t h pid numTimers = some r) :
    Leaves t r.1 (fun _ => False) := by
  unfold timerPreallocate at hrun
  split at hrun
  · cases hrun
    exact leaves_of_same rfl rfl
  · split at hrun
    · obtain ⟨u, -, rfl⟩ := map_eq_some_iff.mp hrun
      exact leaves_of_same rfl rfl
    · cases hrun
      exact leaves_of_same rfl rfl

lemma timerRemoveAll_leaves {r : TimerState × Heap}
    (hrun : timerRemoveAll t h pid = some r) : Leaves t r.1 (·.1 = pid) := by
  obtain ⟨u, -, rfl⟩ := map_eq_some_iff.mp hrun
  constructor
  · exact DeltaOrdered.dropDelta _
  · exact fun b hb => mem_dropDelta hb
  · exact fun u hu => (mem_filter.mp hu).1
  · intro ho c e he hne
    rw [mem_schedule, expiries, deadlines_dropDelta le_rfl ho]
    rcases mem_schedule.mp he with he | ⟨u, hu, rfl⟩
    · exact .inl (mem_filter.mpr ⟨he, decide_eq_true hne⟩)
    · exact .inr ⟨u, mem_filter.mpr ⟨hu, decide_eq_true hne⟩, rfl⟩

lemma schedule_enqueue (tt : Timer) (hi : 0 ≤ interval) (hout : 0 ≤ c.outstanding)
    (hbase : t1.deltaq = [] → t1.periodicPool = [] ∨ c.outstanding + c.counter = 0)
    (he : e ∈ schedule t1 c) :
    e ∈ schedule (enqueue minInterval t1 c tt interval).1
      (enqueue minInterval t1 c tt interval).2 := by
  obtain ⟨ds, ds', hds, hnew⟩ := expiries_enqueue minInterval t1 c tt (by omega) hi
  rw [mem_schedule] at he ⊢
  rcases he with he | ⟨u, hu, rfl⟩
  · rw [hds, mem_append] at he
    rw [hnew, mem_append, mem_cons]
    exact .inl (he.imp_right .inr)
  · have hkeep : (enqueue minInterval t1 c tt interval).2.base = c.base := by
      simp only [enqueue, timerDeltaQInsert_base]
      split
      next hq =>
        rcases hbase hq with hnil | hzero
        · rw [hnil] at hu
          cases hu
        · rw [Clock.now]
          omega
      · rfl
    exact .inr ⟨u, hu, by rw [hkeep]⟩

lemma rewindLoop_spec {ticks : ℤ} (hticks : 0 < ticks) (n : ℕ) (d : ℤ) (hn : -d < n) :
    0 < rewindLoop ticks n d ∧ ∃ j : ℕ, rewindLoop ticks n d = d + j * ticks := by
  induction n generalizing d with
  | zero => exact ⟨by simp only [rewindLoop]; omega, 0, by simp [rewindLoop]⟩
  | succ n ih =>
    rw [rewindLoop]
    split
    · obtain ⟨hpos, j, hj⟩ := ih (d + ticks) (by push_cast at hn; omega)
      refine ⟨hpos, j + 1, ?_⟩
      rw [hj]
      push_cast
      ring
    next hd => exact ⟨not_le.mp hd, 0, by simp⟩

lemma rewind_spec {ticks delta : ℤ} (hrun : rewind ticks delta = some d) :
    0 < d ∧ ∃ j : ℕ, d = delta + j * ticks := by
  unfold rewind at hrun
  split at hrun
  next hpos =>
    cases hrun
    exact ⟨hpos, 0, by simp⟩
  · split at hrun
    next hticks =>
      cases hrun
      exact rewindLoop_spec hticks _ _ (by push_cast; omega)
    · cases hrun

lemma deadlines_cons_expired (hu : u.delta ≤ 0) :
    deadlines base base (u :: l) = (label u, base + u.delta) :: deadlines base base l := by
  rcases hu.lt_or_eq with hlt | hzero
  · exact deadlines_cons_neg hlt
  · rw [deadlines_cons hzero.ge, hzero, add_zero]

lemma expireHead_waiting (hpool : ∀ u ∈ t.periodicPool, 0 < u.delta)
    (hrun : expireHead t = some t') : ∀ u ∈ t'.periodicPool, 0 < u.delta := by
  unfold expireHead at hrun
  split at hrun
  · cases hrun
  · split at hrun
    · cases hrun
    · split at hrun
      · obtain ⟨d, hd, rfl⟩ := map_eq_some_iff.mp hrun
        intro v hv
        rcases mem_append.mp hv with hv | hv
        · exact hpool v hv
        · rw [mem_singleton.mp hv]
          exact (rewind_spec hd).1
      · cases hrun
        exact hpool

lemma expireHead_due (hrun : expireHead t = some t') (hx : (x, d) ∈ schedule t c)
    (hperiodic : x.type &&& oneShotTimerMask = 0) :
    ∃ j : ℕ, (x, d + j * x.ticks) ∈ schedule t' c := by
  have hstay : ∀ {t' : TimerState}, (x, d) ∈ schedule t' c →
      ∃ j : ℕ, (x, d + j * x.ticks) ∈ schedule t' c := fun hmem => ⟨0, by simpa using hmem⟩
  unfold expireHead at hrun
  rw [mem_schedule, expiries] at hx
  split at hrun
  · cases hrun
  next u l hq =>
    rw [hq] at hx
    split at hrun
    · cases hrun
    next hu =>
      rw [deadlines_cons_expired (not_lt.mp hu)] at hx
      split at hrun
      · obtain ⟨d', hd', rfl⟩ := map_eq_some_iff.mp hrun
        rcases hx with hx | ⟨v, hv, hvx⟩
        · rcases mem_cons.mp hx with hx | hx
          · cases hx
            obtain ⟨-, j, hj⟩ := rewind_spec hd'
            refine ⟨j, mem_schedule.mpr (.inr ⟨_, mem_append_right _
              (mem_singleton.mpr rfl), ?_⟩)⟩
            rw [hj, add_assoc]
            rfl
          · exact hstay (mem_schedule.mpr (.inl hx))
        · exact hstay (mem_schedule.mpr (.inr ⟨v, mem_append_left _ hv, hvx⟩))
      next htype =>
        cases hrun
        rcases hx with hx | hx
        · rcases mem_cons.mp hx with hx | hx
          · cases hx
            exact absurd hperiodic htype
          · exact hstay (mem_schedule.mpr (.inl hx))
        · exact hstay (mem_schedule.mpr (.inr hx))

lemma expireHead_ordered (ho : DeltaOrdered t.deltaq) (hrun : expireHead t = some t') :
    DeltaOrdered t'.deltaq := by
  unfold expireHead at hrun
  split at hrun
  · cases hrun
  next u l hq =>
    rw [hq] at ho
    have htail : DeltaOrdered l := (pairwise_cons.mp ho).2
    split at hrun
    · cases hrun
    · split at hrun
      · obtain ⟨d, -, rfl⟩ := map_eq_some_iff.mp hrun
        exact htail
      · cases hrun
        exact htail

lemma deadlines_foldl_insertLoop {q pool : List Timer} (hq : ∀ u ∈ q, 0 ≤ u.delta)
    (hpool : ∀ u ∈ pool, 0 < u.delta) (base : ℤ) :
    (∀ u ∈ pool.foldl (fun q u => insertLoop u q) q, 0 ≤ u.delta) ∧
    ∀ e, (e ∈ deadlines base base q ∨ ∃ u ∈ pool, (label u, base + u.delta) = e) →
      e ∈ deadlines base base (pool.foldl (fun q u => insertLoop u q) q) := by
  induction pool generalizing q with
  | nil => exact ⟨hq, fun e he => he.elim id (fun ⟨u, hu, _⟩ => by cases hu)⟩
  | cons u pool ih =>
    have hu := hpool u mem_cons_self
    have hq' : ∀ b ∈ insertLoop u q, 0 ≤ b.delta :=
      fun b hb => (mem_insertLoop hu.le hb).elim id (hq b)
    obtain ⟨hall, hdue⟩ := ih hq' (fun v hv => hpool v (mem_cons_of_mem _ hv))
    refine ⟨hall, fun e he => hdue e ?_⟩
    obtain ⟨ds, ds', hold, hnew⟩ := deadlines_insertLoop base base u q hu.le
    rw [lag_eq_zero hq, add_zero] at hnew
    rw [hnew, mem_append, mem_cons]
    rcases he with he | ⟨v, hv, rfl⟩
    · rw [hold, mem_append] at he
      exact .inl (he.imp_right .inr)
    · rcases mem_cons.mp hv with rfl | hv
      · exact .inl (.inr (.inl rfl))
      · exact .inr ⟨v, hv, rfl⟩

lemma setForHead_base {q : List Timer} (hq : q ≠ []) (c : Clock) :
    (setForHead minInterval q c).base = c.base := by
  cases q with
  | nil => exact absurd rfl hq
  | cons u l =>
    simp only [setForHead]
    split <;> rfl

lemma finishExpiry_due {r : TimerState × Clock} (ho : DeltaOrdered t.deltaq)
    (hpool : ∀ u ∈ t.periodicPool, 0 < u.delta) (hrun : finishExpiry minInterval t c = some r) :
    (∀ u ∈ r.1.deltaq, 0 ≤ u.delta) ∧ r.1.periodicPool = [] ∧
      ∀ e ∈ schedule t c, e ∈ schedule r.1 r.2 := by
  unfold finishExpiry at hrun
  split at hrun
  next hhead =>
    cases hrun
    have hq : ∀ u ∈ t.deltaq, 0 ≤ u.delta := by
      cases hlist : t.deltaq with
      | nil =>
        intro u hu
        cases hu
      | cons v l =>
        rw [hlist] at hhead ho
        have hv : 0 < v.delta := hhead
        intro u hu
        rcases mem_cons.mp hu with rfl | hu
        · exact hv.le
        · exact (pairwise_cons.mp ho).1 u hu hv
    obtain ⟨hall, hdue⟩ := deadlines_foldl_insertLoop hq hpool c.base
    simp only [drainPeriodicPool_eq]
    refine ⟨hall, trivial, fun e he => mem_schedule.mpr (.inl ?_)⟩
    have hmem := hdue e (mem_schedule.mp he)
    have hne : t.periodicPool.foldl (fun q u => insertLoop u q) t.deltaq ≠ [] := by
      intro hnil
      rw [hnil] at hmem
      cases hmem
    rw [expiries, setForHead_base hne]
    exact hmem
  · cases hrun

/-- No timer is started with a negative interval, and none into an empty queue that would move the
base under the timers in the periodic pool. -/
def KeepsBase (s : State) : Event → Prop
  | .start _ _ interval => 0 ≤ interval ∧ (s.timers.deltaq = [] →
      s.timers.periodicPool = [] ∨ s.clock.outstanding + s.clock.counter = 0)
  | .restart pid tid _ => (∀ u ∈ s.timers.deltaq, isTimer pid tid u) →
      (∀ u ∈ s.timers.periodicPool, isTimer pid tid u) ∨ s.clock.outstanding + s.clock.counter = 0
  | _ => True

def Operates : Event → Key → Prop
  | .init _ pid tid _, k | .start pid tid _, k | .restart pid tid _, k | .stop pid tid, k
  | .stopAndRelease pid tid, k => k = (pid, tid)
  | .removeAll pid, k => k.1 = pid
  | _, _ => False

structure Orderly (s : State) : Prop where
  counted : Counted s
  ordered : DeltaOrdered s.timers.deltaq
  waiting : ∀ u ∈ s.timers.periodicPool, 0 < u.delta
  idle : s.phase = .idle → (∀ u ∈ s.timers.deltaq, 0 ≤ u.delta) ∧ s.timers.periodicPool = []

/-- What an event does to the timers: the order stays, and those it does not operate on are due a
number of periods later. -/
def Punctual (s s' : State) (gone : Key → Prop) : Prop :=
  Orderly s' ∧ ∀ x d, (x, d) ∈ schedule s.timers s.clock → ¬ gone (key x) →
    x.type &&& oneShotTimerMask = 0 → ∃ j : ℕ, (x, d + j * x.ticks) ∈ schedule s'.timers s'.clock

lemma punctual_of_kept (ho : Orderly s')
    (hdue : ∀ e ∈ schedule s.timers s.clock, ¬ gone (key e.1) → e ∈ schedule s'.timers s'.clock) :
    Punctual s s' gone :=
  ⟨ho, fun x d hx hgone _ => ⟨0, by simpa using hdue (x, d) hx hgone⟩⟩

lemma Leaves.punctual (hl : Leaves s.timers s'.timers gone) (ho : Orderly s) (hc : Counted s')
    (hclock : s'.clock = s.clock) (hphase : s'.phase = s.phase) : Punctual s s' gone := by
  refine punctual_of_kept ⟨hc, hl.ordered ho.ordered, ?_, ?_⟩ ?_
  · exact fun u hu => ho.waiting u (hl.pool u hu)
  · intro hidle
    obtain ⟨hnonneg, hnil⟩ := ho.idle (hphase ▸ hidle)
    constructor
    · intro b hb
      obtain ⟨u, hu, hle⟩ := hl.above b hb
      exact (hnonneg u hu).trans hle
    · exact hl.pool_nil hnil
  · intro e he hgone
    rw [hclock]
    exact hl.due ho.ordered _ e he hgone

lemma enqueue_inserts (hi : 0 ≤ interval) (hc : 0 ≤ c.outstanding) (tt : Timer) :
    ∃ u : Timer, 0 ≤ u.delta ∧
      (enqueue minInterval t c tt interval).1.deltaq = insertLoop u t.deltaq := by
  refine ⟨_, ?_, timerDeltaQInsert_fst minInterval t.deltaq c _ true⟩
  split
  · have hsum : 0 ≤ interval + (c.outstanding + c.counter) := by omega
    exact hsum
  · exact hi

lemma punctual_enqueue {t1 : TimerState} (hl : Leaves s.timers t1 gone) (ho : Orderly s)
    (tt : Timer) (hi : 0 ≤ interval)
    (hbase : t1.deltaq = [] → t1.periodicPool = [] ∨ s.clock.outstanding + s.clock.counter = 0)
    (hs' : s' = { s with
      timers := (enqueue minInterval t1 s.clock tt interval).1
      clock := (enqueue minInterval t1 s.clock tt interval).2 }) (hc : Counted s') :
    Punctual s s' gone := by
  subst hs'
  obtain ⟨u, hu, hq⟩ : ∃ u : Timer, 0 ≤ u.delta ∧
      (enqueue minInterval t1 s.clock tt interval).1.deltaq = insertLoop u t1.deltaq :=
    enqueue_inserts hi ho.counted.2 tt
  refine punctual_of_kept ⟨hc, ?_, fun u hu => ho.waiting u (hl.pool u hu), fun hphase => ?_⟩ ?_
  · exact hq ▸ DeltaOrdered.insertLoop (hl.ordered ho.ordered) hu
  · obtain ⟨hnonneg, hnil⟩ := ho.idle hphase
    constructor
    · intro b hb
      rcases mem_insertLoop hu (hq ▸ hb) with hb | hb
      · exact hb
      · obtain ⟨v, hv, hle⟩ := hl.above b hb
        exact (hnonneg v hv).trans hle
    · exact hl.pool_nil hnil
  · intro e he hgone
    exact schedule_enqueue tt hi ho.counted.2 hbase (hl.due ho.ordered _ e he hgone)

lemma takeTimer_deltaq_nil (htake : takeTimer t pid tid = some (tt, t1)) (hnil : t1.deltaq = []) :
    ∀ u ∈ t.deltaq, isTimer pid tid u := by
  have hempty : t.deltaq = [] → ∀ u ∈ t.deltaq, isTimer pid tid u := by
    intro h u hu
    rw [h] at hu
    cases hu
  unfold takeTimer at htake
  split at htake
  · cases htake
    exact hempty hnil
  · split at htake
    · cases htake
      simp only at hnil
      cases hq : t.deltaq with
      | nil => simp
      | cons u l =>
        rw [hq, removeTimer] at hnil
        split at hnil
        next hu =>
          have hlen := length_addDelta u.delta l
          rw [hnil] at hlen
          have hl : l = [] := length_eq_zero_iff.mp hlen.symm
          simpa [hl] using hu
        · cases hnil
    · obtain ⟨u, -, heq⟩ := map_eq_some_iff.mp htake
      cases heq
      exact hempty hnil

lemma takeTimer_pool_nil (hc : Conserved t) (htake : takeTimer t pid tid = some (tt, t1))
    (hpool : ∀ u ∈ t.periodicPool, isTimer pid tid u) : t1.periodicPool = [] := by
  have hkeys : (t.periodicPool.map key).Nodup := by
    have hall := hc.keys
    rw [map_append] at hall
    exact (nodup_append.mp hall).2.1
  unfold takeTimer at htake
  split at htake
  · cases htake
    -- all timers of the pool have the same key, so there is one
    generalize t.periodicPool = l at hpool hkeys
    cases l with
    | nil => rfl
    | cons u l =>
      rw [eraseP_cons_of_pos (hpool u mem_cons_self)]
      apply eq_nil_iff_forall_not_mem.mpr
      intro v hv
      rw [map_cons, nodup_cons] at hkeys
      apply hkeys.1
      rw [isTimer_iff.mp (hpool u mem_cons_self), ← isTimer_iff.mp (hpool v (mem_cons_of_mem _ hv))]
      exact mem_map_of_mem hv
  next hnone =>
    have hnil : t.periodicPool = [] := by
      apply eq_nil_iff_forall_not_mem.mpr
      intro u hu
      exact find?_eq_none.mp hnone u hu (hpool u hu)
    split at htake
    · cases htake
      exact hnil
    · obtain ⟨u, -, heq⟩ := map_eq_some_iff.mp htake
      cases heq
      exact hnil

/-- The ticks counted since the base, with what the expired timers of the queue are late. -/
def reach (s : State) : ℤ :=
  s.clock.outstanding + s.clock.counter - (s.timers.deltaq.map (fun u => min u.delta 0)).sum

def added : Event → ℤ
  | .start _ _ interval | .restart _ _ interval => interval
  | .tick => 1
  | _ => 0

/-- The source has `int32_t` for the deltas and the ticks. -/
def FitsInt32 (s : State) (e : Event) : Prop :=
  (reach s < 2 ^ 31 ∧ added e + reach s < 2 ^ 31) ∧
    (∀ u ∈ s.timers.all, u.ticks + reach s < 2 ^ 31) ∧
    ∀ x ∈ schedule s.timers s.clock, x.2 - s.clock.base + reach s < 2 ^ 31
  deriving Decidable

def Steady (s : State) (e : Event) : Prop := FreshFor s e ∧ KeepsBase s e ∧ FitsInt32 s e

lemma step_punctual (ho : Orderly s) {e : Event} (hsteady : Steady s e)
    (hrun : step minInterval s e = some s') : Punctual s s' (Operates e) := by
  have hc : Counted s' := step_preserves_counted s e s' ho.counted hsteady.1 hrun
  have hconserved : Conserved s.timers := ho.counted.1
  have hbase := hsteady.2.1
  cases e with
  | preallocate maxTimers pools pid numTimers =>
    obtain ⟨r, hcall, rfl⟩ := map_eq_some_iff.mp hrun
    exact (timerPreallocate_leaves hcall).punctual ho hc rfl rfl
  | init pool pid tid type =>
    cases hrun
    exact (kerTimerInit_leaves hconserved s.heap).punctual ho hc rfl rfl
  | start pid tid interval =>
    cases hrun
    rcases kerTimerStart_cases minInterval s.timers s.clock pid tid interval with
      heq | ⟨tt, -, heq⟩
    · simp only [heq] at hc ⊢
      exact (leaves_of_same rfl rfl).punctual ho hc rfl rfl
    · simp only [heq] at hc ⊢
      refine punctual_enqueue ?_ ho tt hbase.1 ?_ rfl hc
      · exact leaves_of_same rfl rfl
      · exact hbase.2
  | restart pid tid interval =>
    cases hrun
    rcases kerTimerRestart_cases minInterval s.timers s.clock pid tid interval with
      heq | ⟨tt, t1, i, htake, -, ⟨-, heq⟩ | ⟨hi, heq⟩⟩
    · simp only [heq] at hc ⊢
      exact (leaves_of_same rfl rfl).punctual ho hc rfl rfl
    · simp only [heq] at hc ⊢
      refine Leaves.punctual ?_ ho hc rfl rfl
      exact (takeTimer_leaves hconserved htake).trans (leaves_of_same rfl rfl)
    · simp only [heq] at hc ⊢
      refine punctual_enqueue (takeTimer_leaves hconserved htake) ho tt (by omega) ?_ rfl hc
      intro hnil
      exact (hbase (takeTimer_deltaq_nil htake hnil)).imp_left
        (takeTimer_pool_nil hconserved htake)
  | stop pid tid =>
    cases hrun
    exact (kerTimerStop_leaves hconserved pid tid).punctual ho hc rfl rfl
  | stopAndRelease pid tid =>
    obtain ⟨r, hcall, rfl⟩ := map_eq_some_iff.mp hrun
    exact (kerTimerStopAndRelease_leaves hconserved hcall).punctual ho hc rfl rfl
  | removeAll pid =>
    obtain ⟨r, hcall, rfl⟩ := map_eq_some_iff.mp hrun
    exact (timerRemoveAll_leaves hcall).punctual ho hc rfl rfl
  | tick =>
    cases hrun
    have hkeep : s.clock.tick.base = s.clock.base := by
      rw [Clock.tick]
      split <;> rfl
    refine punctual_of_kept ⟨hc, ho.ordered, ho.waiting, ho.idle⟩ (fun e he _ => ?_)
    rw [mem_schedule, expiries] at he ⊢
    rw [hkeep]
    exact he
  | beginExpiry =>
    simp only [step] at hrun
    split at hrun
    next hidle =>
      cases hrun
      obtain ⟨hnonneg, hnil⟩ := ho.idle hidle
      refine punctual_of_kept ⟨hc, DeltaOrdered.updateDelta hnonneg ho.counted.2, ho.waiting, ?_⟩ ?_
      · intro h
        cases h
      · intro e he _
        rw [mem_schedule, hnil] at he
        rcases he with he | ⟨u, hu, -⟩
        · refine mem_schedule.mpr (.inl ?_)
          rw [expiries] at he ⊢
          exact (deadlines_updateDelta hnonneg ho.counted.2 s.clock.base s.clock.base).symm ▸ he
        · cases hu
    · cases hrun
  | expire =>
    simp only [step] at hrun
    split at hrun
    next hphase =>
      obtain ⟨t, hcall, rfl⟩ := map_eq_some_iff.mp hrun
      refine ⟨⟨hc, expireHead_ordered ho.ordered hcall, expireHead_waiting ho.waiting hcall,
        ?_⟩, ?_⟩
      · intro hidle
        rw [hphase] at hidle
        cases hidle
      · exact fun x d hx _ hperiodic => expireHead_due hcall hx hperiodic
    · cases hrun
  | finish =>
    simp only [step] at hrun
    split at hrun
    · obtain ⟨r, hcall, rfl⟩ := map_eq_some_iff.mp hrun
      obtain ⟨hnonneg, hnil, hdue⟩ := finishExpiry_due ho.ordered ho.waiting hcall
      refine punctual_of_kept ⟨hc, DeltaOrdered.of_nonneg hnonneg, ?_, fun _ => ⟨hnonneg, hnil⟩⟩
        (fun e he _ => hdue e he)
      intro u hu
      rw [hnil] at hu
      cases hu
    · cases hrun

lemma orderly_of_initial (hs : Initial s) : Orderly s := by
  have hnil : ∀ u : Timer, u ∉ s.timers.deltaq ∧ u ∉ s.timers.periodicPool := by
    rw [hs.deltaq, hs.periodicPool]
    simp
  refine ⟨counted_of_initial hs, ?_, fun u hu => absurd hu (hnil u).2, fun _ => ⟨?_, ?_⟩⟩
  · exact DeltaOrdered.of_nonneg (fun u hu => absurd hu (hnil u).1)
  · exact fun u hu => absurd hu (hnil u).1
  · exact hs.periodicPool

lemma keys_schedule (t : TimerState) (c : Clock) :
    (schedule t c).map (fun e => key e.1) = (t.deltaq ++ t.periodicPool).map key := by
  rw [schedule, map_append, map_append, expiries, keys_deadlines, List.map_map]
  rfl

def OnPeriod (x : Timer) (d : ℤ) (s : State) : Prop :=
  Orderly s ∧ ∃ k : ℕ, (x, d + k * x.ticks) ∈ schedule s.timers s.clock

lemma step_preserves_onPeriod (hperiodic : x.type &&& oneShotTimerMask = 0) (s : State)
    (e : Event) (s' : State) (hs : OnPeriod x d s) (hlegal : Steady s e ∧ ¬ Operates e (key x))
    (hrun : step minInterval s e = some s') : OnPeriod x d s' := by
  obtain ⟨ho, k, hk⟩ := hs
  obtain ⟨ho', hdue⟩ := step_punctual ho hlegal.1 hrun
  obtain ⟨j, hj⟩ := hdue x _ hk hlegal.2 hperiodic
  refine ⟨ho', k + j, ?_⟩
  have hsum : d + ((k + j : ℕ) : ℤ) * x.ticks = d + k * x.ticks + j * x.ticks := by
    push_cast
    ring
  exact hsum ▸ hj

lemma schedule_unique (hc : Conserved t) {e' : Timer × ℤ} (he : e ∈ schedule t c)
    (he' : e' ∈ schedule t c) (hkey : key e.1 = key e'.1) : e = e' := by
  have hnodup : ((schedule t c).map (fun e => key e.1)).Nodup := by
    rw [keys_schedule]
    refine hc.keys.sublist (Sublist.map _ ?_)
    exact Sublist.append_right (sublist_append_left ..) _
  exact inj_on_of_nodup_map hnodup he he' hkey

/-- In runs that neither move the base under the periodic pool nor overflow, a periodic timer in
the queue stays due at a whole number of periods from where it was, until an event operates on
it. -/
theorem periodic_due_over_runs {s0 s1 s2 : State} (hs : Initial s0) {es1 es2 : List Event}
    (hvalid1 : ValidTrace (step minInterval) Steady s0 es1)
    (hrun1 : runTrace (step minInterval) s0 es1 = some s1)
    (hx : (x, d) ∈ expiries s1.timers s1.clock) (hperiodic : x.type &&& oneShotTimerMask = 0)
    (hvalid2 : ValidTrace (step minInterval) (fun s e => Steady s e ∧ ¬ Operates e (key x)) s1 es2)
    (hrun2 : runTrace (step minInterval) s1 es2 = some s2) :
    ∃ k : ℕ, (x, d + k * x.ticks) ∈ schedule s2.timers s2.clock ∧
      ∀ e ∈ schedule s2.timers s2.clock, key e.1 = key x → e = (x, d + k * x.ticks) := by
  have ho1 : Orderly s1 := run_invariant_of_some
    (fun s e s' ho hsteady hrun => (step_punctual ho hsteady hrun).1) (orderly_of_initial hs)
    hvalid1 hrun1
  have hdue1 : ∃ k : ℕ, (x, d + k * x.ticks) ∈ schedule s1.timers s1.clock :=
    ⟨0, by simpa using mem_schedule.mpr (.inl hx)⟩
  obtain ⟨ho2, k, hk⟩ : OnPeriod x d s2 :=
    run_invariant_of_some (step_preserves_onPeriod hperiodic) ⟨ho1, hdue1⟩ hvalid2 hrun2
  exact ⟨k, hk, fun e he hkey => schedule_unique ho2.counted.1 he hk hkey⟩

instance (s : State) (e : Event) : Decidable (KeepsBase s e) := by
  induction e using Event.casesOn <;> (dsimp only [KeepsBase]; infer_instance)

instance (e : Event) (k : Key) : Decidable (Operates e k) := by
  induction e using Event.casesOn <;> (dsimp only [Operates]; infer_instance)

instance (s : State) (e : Event) : Decidable (Steady s e) := inferInstanceAs (Decidable (_ ∧ _))

def threeTimers : List Event :=
  [.init 300 128 0 0, .start 128 0 5, .init 300 129 7 1, .start 129 7 20, .init 300 130 2 1]

def startThird : List Event :=
  replicate 7 .tick ++ [.beginExpiry, .expire, .start 130 2 9, .finish]

def periodicTimer : Timer := ⟨.slab ⟨200, 0⟩, 0, 128, 0, 5, 0, 0⟩

theorem periodic_due_sample :
    ∃ s1 s2, runTrace (step 5) sampleState threeTimers = some s1 ∧
      (periodicTimer, 5) ∈ expiries s1.timers s1.clock ∧
      runTrace (step 5) s1 startThird = some s2 ∧
      ∃ k : ℕ, (periodicTimer, 5 + k * periodicTimer.ticks) ∈ schedule s2.timers s2.clock := by
  have hvalid1 : ValidTrace (step 5) Steady sampleState threeTimers := by decide +kernel
  obtain ⟨s1, hrun1, hx, hvalid2, hsome⟩ :
      ∃ s1, runTrace (step 5) sampleState threeTimers = some s1 ∧
        (periodicTimer, 5) ∈ expiries s1.timers s1.clock ∧
        ValidTrace (step 5) (fun s e => Steady s e ∧ ¬ Operates e (key periodicTimer)) s1
          startThird ∧ (runTrace (step 5) s1 startThird).isSome := by decide +kernel
  obtain ⟨s2, hrun2⟩ := isSome_iff_exists.mp hsome
  obtain ⟨k, hk, -⟩ := periodic_due_over_runs sampleState_initial hvalid1 hrun1 hx (by decide)
    hvalid2 hrun2
  exact ⟨s1, s2, hrun1, hx, hrun2, k, hk⟩

def startSecond : List Event :=
  [.init 300 129 7 1] ++ replicate 7 .tick ++ [.beginExpiry, .expire, .start 129 7 10, .finish]

/-- The start into the empty queue moves the base by two ticks while the periodic timer waits in
the pool: first due at 5 with a period of 5, it is due next at 12. -/
theorem periodic_due_drifts :
    ValidTrace (step 5) FreshFor sampleState [.init 300 128 0 0, .start 128 0 5] ∧
    ∃ s1 s2, runTrace (step 5) sampleState [.init 300 128 0 0, .start 128 0 5] = some s1 ∧
      (periodicTimer, 5) ∈ expiries s1.timers s1.clock ∧
      ValidTrace (step 5) (fun s e => FreshFor s e ∧ ¬ Operates e (key periodicTimer)) s1
        startSecond ∧
      runTrace (step 5) s1 startSecond = some s2 ∧
      (periodicTimer, 12) ∈ schedule s2.timers s2.clock ∧
      ∀ k : ℕ, (periodicTimer, 5 + k * periodicTimer.ticks) ∉ schedule s2.timers s2.clock := by
  refine ⟨by decide +kernel, ?_⟩
  obtain ⟨s1, hrun1, hx, hvalid2, s2, hrun2, hdue, hlate⟩ :
      ∃ s1, runTrace (step 5) sampleState [.init 300 128 0 0, .start 128 0 5] = some s1 ∧
        (periodicTimer, 5) ∈ expiries s1.timers s1.clock ∧
        ValidTrace (step 5) (fun s e => FreshFor s e ∧ ¬ Operates e (key periodicTimer)) s1
          startSecond ∧
        ∃ s2, runTrace (step 5) s1 startSecond = some s2 ∧
          (periodicTimer, 12) ∈ schedule s2.timers s2.clock ∧
          ∀ e ∈ schedule s2.timers s2.clock, e.1 = periodicTimer → e.2 = 12 := by
    decide +kernel
  refine ⟨s1, s2, hrun1, hx, hvalid2, hrun2, hdue, fun k hk => ?_⟩
  have heq := hlate _ hk rfl
  simp only [periodicTimer] at heq
  omega

end PeriodicTimers
