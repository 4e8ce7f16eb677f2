import SosKernel.TimerConservation

/-! # Deadlines in the delta queue

A delta that is not negative counts from the timer before; a negative one counts from the time
base and nothing counts from it. -/
namespace TimerDeadlines

open HeapBlocks SlabPools DeltaTimers TimerOperations TimerConservation GuardedRuns List Option

variable {t t' t1 : TimerState} {c c' : Clock} {l : List Timer} {tt u : Timer}
  {minInterval pid tid : ℕ} {base acc x interval : ℤ}

def label (t : Timer) : Timer := { t with delta := 0 }

/-- The absolute expiry of every queued timer; `acc` is that of the last one that has not gone
past its time. -/
def deadlines (base : ℤ) : ℤ → List Timer → List (Timer × ℤ)
  | _, [] => []
  | acc, t :: l =>
    if t.delta < 0 then (label t, base + t.delta) :: deadlines base acc l
    else (label t, acc + t.delta) :: deadlines base (acc + t.delta) l

def expiries (t : TimerState) (c : Clock) : List (Timer × ℤ) := deadlines c.base c.base t.deltaq

lemma deadlines_cons_neg (h : u.delta < 0) :
    deadlines base acc (u :: l) = (label u, base + u.delta) :: deadlines base acc l := if_pos h

lemma deadlines_cons (h : 0 ≤ u.delta) :
    deadlines base acc (u :: l) = (label u, acc + u.delta) :: deadlines base (acc + u.delta) l :=
  if_neg (not_lt.mpr h)

lemma keys_deadlines (base acc : ℤ) (l : List Timer) :
    (deadlines base acc l).map (fun e => key e.1) = l.map key := by
  induction l generalizing acc with
  | nil => rfl
  | cons u l ih =>
    rw [deadlines]
    split
    · rw [map_cons, ih]
      rfl
    · rw [map_cons, ih]
      rfl

def others (pid tid : ℕ) (ds : List (Timer × ℤ)) : List (Timer × ℤ) :=
  ds.filter (fun e => key e.1 ≠ (pid, tid))

lemma others_append (ds ds' : List (Timer × ℤ)) :
    others pid tid (ds ++ ds') = others pid tid ds ++ others pid tid ds' := filter_append ..

lemma others_deadlines (hno : (pid, tid) ∉ l.map key) :
    others pid tid (deadlines base acc l) = deadlines base acc l := by
  apply filter_eq_self.mpr
  intro e he
  rw [← keys_deadlines base acc] at hno
  rw [decide_eq_true_eq]
  intro heq
  exact hno (mem_map.mpr ⟨e, he, heq⟩)

def lag : ℤ → List Timer → ℤ
  | _, [] => 0
  | x, curr :: l => if x < curr.delta then 0 else max (-curr.delta) 0 + lag (x - curr.delta) l

lemma deadlines_insertLoop (base acc : ℤ) (h : Timer) (l : List Timer) (hx : 0 ≤ h.delta) :
    ∃ ds ds', deadlines base acc l = ds ++ ds' ∧ deadlines base acc (insertLoop h l) =
        ds ++ (label h, acc + h.delta + lag h.delta l) :: ds' := by
  induction l generalizing h acc with
  | nil =>
    refine ⟨[], [], rfl, ?_⟩
    rw [insertLoop, deadlines_cons hx, lag, add_zero]
    rfl
  | cons curr l ih =>
    rw [insertLoop, lag]
    split
    next hlt =>
      refine ⟨[], deadlines base acc (curr :: l), rfl, ?_⟩
      have hcurr : 0 ≤ curr.delta := by omega
      have hrest : 0 ≤ curr.delta - h.delta := by omega
      rw [deadlines_cons hx, deadlines_cons hcurr, deadlines_cons (by exact hrest), add_zero]
      have hsum : acc + h.delta + (curr.delta - h.delta) = acc + curr.delta := by omega
      simp only [hsum]
      rfl
    next hge =>
      have hx' : 0 ≤ h.delta - curr.delta := by omega
      by_cases hcurr : curr.delta < 0
      · obtain ⟨ds, ds', hold, hnew⟩ := ih acc { h with delta := h.delta - curr.delta } hx'
        refine ⟨(label curr, base + curr.delta) :: ds, ds', ?_, ?_⟩
        · rw [deadlines_cons_neg hcurr, hold, cons_append]
        · have hsum : acc + (h.delta - curr.delta) + lag (h.delta - curr.delta) l =
              acc + h.delta + (max (-curr.delta) 0 + lag (h.delta - curr.delta) l) := by
            omega
          rw [deadlines_cons_neg hcurr, hnew, ← hsum]
          rfl
      · obtain ⟨ds, ds', hold, hnew⟩ :=
          ih (acc + curr.delta) { h with delta := h.delta - curr.delta } hx'
        have hcurr := not_lt.mp hcurr
        refine ⟨(label curr, acc + curr.delta) :: ds, ds', ?_, ?_⟩
        · rw [deadlines_cons hcurr, hold, cons_append]
        · have hsum : acc + curr.delta + (h.delta - curr.delta) + lag (h.delta - curr.delta) l =
              acc + h.delta + (max (-curr.delta) 0 + lag (h.delta - curr.delta) l) := by
            omega
          rw [deadlines_cons hcurr, hnew, ← hsum]
          rfl

lemma lag_eq_zero (hl : ∀ u ∈ l, 0 ≤ u.delta) : lag x l = 0 := by
  induction l generalizing x with
  | nil => rfl
  | cons curr l ih =>
    rw [lag]
    split
    · rfl
    · have hcurr := hl curr mem_cons_self
      rw [ih (fun u hu => hl u (mem_cons_of_mem _ hu)), max_eq_right (by omega), add_zero]

lemma lag_nonneg (x : ℤ) (l : List Timer) : 0 ≤ lag x l := by
  induction l generalizing x with
  | nil => exact le_rfl
  | cons curr l ih =>
    rw [lag]
    split
    · exact le_rfl
    · exact add_nonneg (le_max_right _ _) (ih _)

lemma lag_pos (ho : DeltaOrdered l) (hx : 0 < x) (hneg : ∃ u ∈ l, u.delta < 0) : 0 < lag x l := by
  induction l generalizing x with
  | nil =>
    obtain ⟨u, hu, -⟩ := hneg
    cases hu
  | cons curr l ih =>
    obtain ⟨hhead, htail⟩ := pairwise_cons.mp ho
    have hrest := lag_nonneg (x - curr.delta) l
    obtain ⟨u, hu, hlt⟩ := hneg
    rcases mem_cons.mp hu with rfl | hu
    · rw [lag]
      omega
    · have hcurr : curr.delta ≤ 0 := by
        by_contra hpos
        have := hhead u hu (by omega)
        omega
      have hlag := ih htail (x := x - curr.delta) (by omega) ⟨u, hu, hlt⟩
      rw [lag, if_neg (by omega)]
      exact add_pos_of_nonneg_of_pos (le_max_right _ _) hlag

def RemovesCleanly (pid tid : ℕ) (l : List Timer) : Prop :=
  l.Pairwise (fun a b => isTimer pid tid a = true → 0 < a.delta → 0 ≤ b.delta)

lemma deadlines_addDelta (hl : 0 < u.delta → ∀ b ∈ l, 0 ≤ b.delta) (base acc : ℤ) :
    deadlines base acc (addDelta u.delta l) =
      deadlines base (if u.delta < 0 then acc else acc + u.delta) l := by
  cases l with
  | nil => rfl
  | cons n l =>
    simp only [addDelta]
    split
    next hpos =>
      have hn := hl hpos n mem_cons_self
      have hsum : acc + (n.delta + u.delta) = acc + u.delta + n.delta := by omega
      rw [if_neg (by omega), deadlines_cons hn, deadlines_cons (by exact add_nonneg hn hpos.le)]
      simp only [hsum]
      rfl
    next hneg =>
      split
      · rfl
      · have hzero : u.delta = 0 := by omega
        rw [hzero, add_zero]

lemma mem_removeTimer {b : Timer} (hb : b ∈ removeTimer pid tid l) :
    ∃ n ∈ l, n.delta ≤ b.delta := by
  induction l with
  | nil => cases hb
  | cons u l ih =>
    rw [removeTimer] at hb
    split at hb
    · cases l with
      | nil => cases hb
      | cons n l =>
        simp only [addDelta] at hb
        split at hb
        next hpos =>
          rcases mem_cons.mp hb with rfl | hb
          · exact ⟨n, by simp, by simp only; omega⟩
          · exact ⟨b, by simp [hb], le_rfl⟩
        · exact ⟨b, mem_cons_of_mem _ hb, le_rfl⟩
    · rcases mem_cons.mp hb with rfl | hb
      · exact ⟨b, mem_cons_self, le_rfl⟩
      · obtain ⟨n, hn, hle⟩ := ih hb
        exact ⟨n, mem_cons_of_mem _ hn, hle⟩

lemma DeltaOrdered.removeTimer (ho : DeltaOrdered l) :
    DeltaOrdered (TimerOperations.removeTimer pid tid l) := by
  induction l with
  | nil => exact ho
  | cons u l ih =>
    rw [TimerOperations.removeTimer]
    split
    · exact DeltaTimers.DeltaOrdered.addDelta ho
    · obtain ⟨hhead, htail⟩ := pairwise_cons.mp ho
      refine pairwise_cons.mpr ⟨fun b hb hpos => ?_, ih htail⟩
      obtain ⟨n, hn, hle⟩ := mem_removeTimer hb
      exact (hhead n hn hpos).trans hle

lemma deadlines_removeTimer (hnodup : (l.map key).Nodup) (hclean : RemovesCleanly pid tid l)
    (base acc : ℤ) :
    deadlines base acc (removeTimer pid tid l) = others pid tid (deadlines base acc l) := by
  induction l generalizing acc with
  | nil => rfl
  | cons u l ih =>
    obtain ⟨hhead, htail⟩ := pairwise_cons.mp hclean
    obtain ⟨hfresh, hnodup'⟩ := nodup_cons.mp hnodup
    have hlabel : key (label u) = key u := rfl
    by_cases hu : isTimer pid tid u = true
    · have hkey := isTimer_iff.mp hu
      rw [hkey] at hfresh
      have hadd := deadlines_addDelta (fun hpos b hb => hhead b hb hu hpos) base acc
      rw [removeTimer, if_pos hu, hadd, deadlines]
      split
      · rw [others, filter_cons_of_neg (by simp [hlabel, hkey]), ← others, others_deadlines hfresh]
      · rw [others, filter_cons_of_neg (by simp [hlabel, hkey]), ← others, others_deadlines hfresh]
    · have hkey : key u ≠ (pid, tid) := fun heq => hu (isTimer_iff.mpr heq)
      rw [removeTimer, if_neg hu, deadlines, deadlines]
      split
      · rw [others, filter_cons_of_pos (by simp [hlabel, hkey]), ← others, ih hnodup' htail]
      · rw [others, filter_cons_of_pos (by simp [hlabel, hkey]), ← others, ih hnodup' htail]

def NoneExpired (pid tid : ℕ) (q : List Timer) : Prop :=
  ∀ u ∈ q, isTimer pid tid u = false → 0 ≤ u.delta
  deriving Decidable

structure StartedAt (t t' : TimerState) (c c' : Clock) (pid tid : ℕ) (interval : ℤ) : Prop where
  started : ∃ u, key u = (pid, tid) ∧ (u, c.now + interval) ∈ expiries t' c'
  others : others pid tid (expiries t' c') = others pid tid (expiries t c)

lemma timerDeltaQInsert_base (q : List Timer) (c : Clock) (h : Timer) :
    (timerDeltaQInsert minInterval q c h true).2.base = if q = [] then c.now else c.base := by
  cases q with
  | nil => rfl
  | cons link l =>
    simp only [timerDeltaQInsert, if_true, reduceCtorEq, if_false]
    split <;> rfl

lemma expiries_enqueue (minInterval : ℕ) (t : TimerState) (c : Clock) (tt : Timer)
    (hx : 0 ≤ interval + (c.outstanding + c.counter)) (hi : 0 ≤ interval) :
    ∃ ds ds', expiries t c = ds ++ ds' ∧
      expiries (enqueue minInterval t c tt interval).1 (enqueue minInterval t c tt interval).2 =
        ds ++ (label { tt with ticks := interval }, c.now + interval +
          lag (interval + (c.outstanding + c.counter)) t.deltaq) :: ds' := by
  simp only [expiries, enqueue, timerDeltaQInsert_fst, timerDeltaQInsert_base]
  by_cases hq : t.deltaq = []
  · refine ⟨[], [], by rw [hq]; rfl, ?_⟩
    simp only [hq, ne_eq, not_true_eq_false, and_false, if_false, if_true, insertLoop, lag,
      deadlines_cons (u := { tt with ticks := interval, delta := interval }) hi]
    rw [add_zero]
    rfl
  · obtain ⟨ds, ds', hold, hnew⟩ := deadlines_insertLoop c.base c.base
      { tt with ticks := interval, delta := interval + (c.outstanding + c.counter) } t.deltaq hx
    refine ⟨ds, ds', hold, ?_⟩
    have hsum : c.base + (interval + (c.outstanding + c.counter)) = c.now + interval := by
      rw [Clock.now]
      omega
    simp only [hsum] at hnew
    simp only [ne_eq, hq, not_false_eq_true, and_self, if_true, if_false]
    exact hnew

lemma startedAt_enqueue_iff (minInterval : ℕ) (hkey : key tt = (pid, tid))
    (hno : (pid, tid) ∉ t1.deltaq.map key) (hold : expiries t1 c = others pid tid (expiries t c))
    (hx : 0 ≤ interval + (c.outstanding + c.counter)) (hi : 0 ≤ interval) :
    StartedAt t (enqueue minInterval t1 c tt interval).1 c (enqueue minInterval t1 c tt interval).2
      pid tid interval ↔ lag (interval + (c.outstanding + c.counter)) t1.deltaq = 0 := by
  obtain ⟨ds, ds', hds, hnew⟩ := expiries_enqueue minInterval t1 c tt hx hi
  have hlabel : key (label { tt with ticks := interval }) = (pid, tid) := hkey
  have hself : others pid tid (ds ++ ds') = ds ++ ds' := by
    rw [← hds]
    exact others_deadlines hno
  have habsent : ∀ e ∈ ds ++ ds', key e.1 ≠ (pid, tid) := by
    intro e he
    rw [← hself] at he
    exact of_decide_eq_true (mem_filter.mp he).2
  rw [others_append] at hself
  constructor
  · intro hs
    obtain ⟨u, hu, hmem⟩ := hs.started
    rw [hnew, mem_append, mem_cons] at hmem
    rcases hmem with hmem | hmem | hmem
    · exact absurd hu (habsent _ (mem_append_left _ hmem))
    · have heq := congrArg Prod.snd hmem
      omega
    · exact absurd hu (habsent _ (mem_append_right _ hmem))
  · intro hlag
    rw [hlag, add_zero] at hnew
    constructor
    · refine ⟨_, hlabel, ?_⟩
      rw [hnew]
      exact mem_append_right _ mem_cons_self
    · rw [hnew, others_append, others, others, filter_cons_of_neg (by simp [hlabel]), ← others,
        ← others, hself, ← hds, hold]

lemma delta_lt_of_deadlines {b : ℤ} (hacc : base ≤ acc)
    (hdue : ∀ e ∈ deadlines base acc l, e.2 - base < b) : ∀ u ∈ l, u.delta < b := by
  induction l generalizing acc with
  | nil =>
    intro u hu
    cases hu
  | cons n l ih =>
    intro u hu
    by_cases hn : n.delta < 0
    · rw [deadlines_cons_neg hn] at hdue
      rcases mem_cons.mp hu with rfl | hu
      · have := hdue _ mem_cons_self
        omega
      · exact ih hacc (fun e he => hdue e (mem_cons_of_mem _ he)) u hu
    · have hn := not_lt.mp hn
      rw [deadlines_cons hn] at hdue
      have hhead := hdue _ mem_cons_self
      rcases mem_cons.mp hu with rfl | hu
      · omega
      · exact ih (by omega) (fun e he => hdue e (mem_cons_of_mem _ he)) u hu

lemma nonneg_iff_deadlines {P : Key → Prop} (hacc : base ≤ acc) :
    (∀ u ∈ l, P (key u) → 0 ≤ u.delta) ↔ ∀ e ∈ deadlines base acc l, P (key e.1) → base ≤ e.2 := by
  induction l generalizing acc with
  | nil => simp [deadlines]
  | cons u l ih =>
    rw [forall_mem_cons]
    by_cases hu : u.delta < 0
    · rw [deadlines_cons_neg hu, forall_mem_cons, ih hacc]
      refine and_congr_left (fun _ => imp_congr Iff.rfl ?_)
      omega
    · have hu := not_lt.mp hu
      rw [deadlines_cons hu, forall_mem_cons, ih (show base ≤ acc + u.delta by omega)]
      refine and_congr_left (fun _ => imp_congr Iff.rfl ?_)
      omega

structure Taken (t t1 : TimerState) (pid tid : ℕ) : Prop where
  absent : (pid, tid) ∉ t1.deltaq.map key
  deltaq : t1.deltaq = t.deltaq ∨ t1.deltaq = removeTimer pid tid t.deltaq

lemma Taken.expiries (ht : Taken t t1 pid tid) (hc : Conserved t)
    (hclean : RemovesCleanly pid tid t.deltaq) (c : Clock) :
    expiries t1 c = others pid tid (expiries t c) := by
  rcases ht.deltaq with hq | hq
  · have hno := ht.absent
    rw [hq] at hno
    rw [TimerDeadlines.expiries, TimerDeadlines.expiries, hq, others_deadlines hno]
  · rw [TimerDeadlines.expiries, TimerDeadlines.expiries, hq,
      deadlines_removeTimer hc.deltaq_keys hclean]

lemma key_not_mem_deltaq (hc : Conserved t) (hin : tt ∈ t.timerPool ∨ tt ∈ t.periodicPool) :
    key tt ∉ t.deltaq.map key := by
  have hkeys := hc.keys
  rw [append_assoc, map_append] at hkeys
  intro hmem
  have hpool : key tt ∈ (t.timerPool ++ t.periodicPool).map key :=
    mem_map_of_mem (mem_append.mpr hin)
  exact (nodup_append.mp hkeys).2.2 _ hmem _ hpool rfl

lemma taken_of_pool (hc : Conserved t) (hkey : key tt = (pid, tid))
    (hin : tt ∈ t.timerPool ∨ tt ∈ t.periodicPool) (hq : t1.deltaq = t.deltaq) :
    Taken t t1 pid tid := by
  refine ⟨?_, .inl hq⟩
  rw [hq, ← hkey]
  exact key_not_mem_deltaq hc hin

lemma takeTimer_taken (hc : Conserved t) (htake : takeTimer t pid tid = some (tt, t1)) :
    key tt = (pid, tid) ∧ Taken t t1 pid tid := by
  unfold takeTimer at htake
  split at htake
  next hfind =>
    cases htake
    have hkey := key_of_find hfind
    exact ⟨hkey, taken_of_pool hc hkey (.inr (mem_of_find?_eq_some hfind)) rfl⟩
  · split at htake
    next hfind =>
      cases htake
      have hkey := key_of_find hfind
      refine ⟨hkey, ?_, .inr rfl⟩
      -- the key was in the queue once
      have hunique := hc.unique
      rw [inUse, tags_removeTimer hfind] at hunique
      simp only [Multiset.cons_add, Multiset.map_cons, Multiset.nodup_cons, Multiset.map_add,
        Multiset.mem_add, not_or] at hunique
      have hno := hunique.1.1.1
      rw [keys_tags] at hno
      exact hkey ▸ hno
    · obtain ⟨u, hfind, heq⟩ := map_eq_some_iff.mp htake
      cases heq
      have hkey := key_of_find hfind
      exact ⟨hkey, taken_of_pool hc hkey (.inl (mem_of_find?_eq_some hfind)) rfl⟩

lemma start_or_restart (hc : Conserved t) (hpos : 0 < interval)
    (hcall : kerTimerStart minInterval t c pid tid interval = (t', c', 0) ∨
      kerTimerRestart minInterval t c pid tid interval = (t', c', 0)) :
    ∃ tt t1, key tt = (pid, tid) ∧ Taken t t1 pid tid ∧
      t' = (enqueue minInterval t1 c tt interval).1 ∧
      c' = (enqueue minInterval t1 c tt interval).2 := by
  have hfail : ∀ {u : TimerState} {d : Clock} {e : ℤ}, e ≠ 0 → (u, d, e) ≠ (t', c', 0) :=
    fun he heq => he (congrArg (fun r => r.2.2) heq)
  rcases hcall with hcall | hcall
  · rcases kerTimerStart_cases minInterval t c pid tid interval with hrun | ⟨tt, hfind, hrun⟩
    · exact absurd (hrun.symm.trans hcall) (hfail (by decide))
    · have hkey := key_of_find hfind
      have heq := hrun.symm.trans hcall
      refine ⟨tt, { t with timerPool := t.timerPool.eraseP (isTimer pid tid) }, hkey, ?_,
        (congrArg (fun r => r.1) heq).symm, (congrArg (fun r => r.2.1) heq).symm⟩
      exact taken_of_pool hc hkey (.inl (mem_of_find?_eq_some hfind)) rfl
  · rcases kerTimerRestart_cases minInterval t c pid tid interval with
      hrun | ⟨tt, t1, i, htake, hi, ⟨-, hrun⟩ | ⟨-, hrun⟩⟩
    · exact absurd (hrun.symm.trans hcall) (hfail (by decide))
    · exact absurd (hrun.symm.trans hcall) (hfail (by decide))
    · rw [if_neg (not_le.mpr hpos)] at hi
      obtain ⟨hkey, htaken⟩ := takeTimer_taken hc htake
      have heq := hrun.symm.trans hcall
      rw [hi] at heq
      exact ⟨tt, t1, hkey, htaken, (congrArg (fun r => r.1) heq).symm,
        (congrArg (fun r => r.2.1) heq).symm⟩

lemma NoneExpired.removesCleanly (hn : NoneExpired pid tid l) (hnodup : (l.map key).Nodup) :
    RemovesCleanly pid tid l := by
  rw [List.Nodup, pairwise_map] at hnodup
  refine hnodup.imp_of_mem ?_
  intro a b _ hb hne ha _
  apply hn b hb
  rw [Bool.eq_false_iff]
  intro hbkey
  exact hne ((isTimer_iff.mp ha).trans (isTimer_iff.mp hbkey).symm)

lemma removesCleanly_of_ordered (ho : DeltaOrdered l) : RemovesCleanly pid tid l := by
  refine List.Pairwise.imp ?_ ho
  intro a b hab _
  exact hab

lemma noneExpired_iff_expiries (t : TimerState) (c : Clock) :
    NoneExpired pid tid t.deltaq ↔ ∀ e ∈ others pid tid (expiries t c), c.base ≤ e.2 := by
  have hkeys : NoneExpired pid tid t.deltaq ↔ ∀ u ∈ t.deltaq, key u ≠ (pid, tid) → 0 ≤ u.delta := by
    refine forall₂_congr (fun u _ => imp_congr_left ?_)
    rw [Bool.eq_false_iff, ne_eq, isTimer_iff]
  rw [hkeys, nonneg_iff_deadlines (P := fun k => k ≠ (pid, tid)) (le_refl c.base)]
  simp only [others, mem_filter, decide_eq_true_eq, and_imp, expiries]

lemma Taken.noneExpired_iff (ht : Taken t t1 pid tid) (hc : Conserved t)
    (hclean : RemovesCleanly pid tid t.deltaq) :
    NoneExpired pid tid t.deltaq ↔ ∀ u ∈ t1.deltaq, 0 ≤ u.delta := by
  have hall := nonneg_iff_deadlines (P := fun _ => True) (l := t1.deltaq) (le_refl (0 : ℤ))
  simp only [forall_const] at hall
  rw [hall, noneExpired_iff_expiries t ⟨0, 0, 0, 0⟩, ← ht.expiries hc hclean]
  rfl

lemma Taken.deltaOrdered (ht : Taken t t1 pid tid) (ho : DeltaOrdered t.deltaq) :
    DeltaOrdered t1.deltaq := by
  rcases ht.deltaq with hq | hq
  · rw [hq]
    exact ho
  · rw [hq]
    exact DeltaOrdered.removeTimer ho

lemma delta_lt_of_enqueue {b : ℤ} (tt : Timer) (hout : 0 ≤ c.outstanding) (hi : 0 ≤ interval)
    (hl : ∀ u ∈ t1.deltaq, 0 ≤ u.delta) (hdue : ∀ e ∈ expiries t1 c, e.2 - c.base < b)
    (hb : interval + (c.outstanding + c.counter) < b) :
    ∀ u ∈ (enqueue minInterval t1 c tt interval).1.deltaq, u.delta < b := by
  obtain ⟨ds, ds', hds, hnew⟩ := expiries_enqueue minInterval t1 c tt (by omega) hi
  rw [lag_eq_zero hl] at hnew
  have hbase : (enqueue minInterval t1 c tt interval).2.base =
      if t1.deltaq = [] then c.now else c.base := timerDeltaQInsert_base ..
  apply delta_lt_of_deadlines (le_refl (enqueue minInterval t1 c tt interval).2.base)
  intro e he
  rw [← expiries, hnew, mem_append, mem_cons] at he
  rw [hbase]
  by_cases hq : t1.deltaq = []
  · have hnil : ds ++ ds' = [] := by
      rw [← hds, expiries, hq]
      rfl
    obtain ⟨rfl, rfl⟩ := append_eq_nil_iff.mp hnil
    simp only [not_mem_nil, or_false, false_or] at he
    rw [if_pos hq, he]
    omega
  · rw [if_neg hq]
    have hnow : c.now = c.base + c.outstanding + c.counter := rfl
    rcases he with he | rfl | he
    · exact hdue e (hds ▸ mem_append_left _ he)
    · omega
    · exact hdue e (hds ▸ mem_append_right _ he)

def Counted (s : State) : Prop := Conserved s.timers ∧ 0 ≤ s.clock.outstanding

lemma timerSetHwTop_outstanding (hout : 0 ≤ c.outstanding) (cnt : ℤ) (upd : Bool) :
    0 ≤ (timerSetHwTop minInterval c cnt upd).outstanding := by
  simp only [timerSetHwTop]
  split <;> omega

lemma timerDeltaQInsert_outstanding (q : List Timer) (h : Timer) (hout : 0 ≤ c.outstanding) :
    0 ≤ (timerDeltaQInsert minInterval q c h true).2.outstanding := by
  cases q with
  | nil => exact timerSetHwTop_outstanding hout ..
  | cons link l =>
    simp only [timerDeltaQInsert, if_true]
    split
    · exact timerSetHwTop_outstanding hout ..
    · exact hout

lemma step_preserves_counted (s : State) (e : Event) (s' : State) (hc : Counted s)
    (hfresh : FreshFor s e) (hrun : step minInterval s e = some s') : Counted s' := by
  refine ⟨step_preserves_conserved s e s' hc.1 hfresh hrun, ?_⟩
  have hout := hc.2
  cases e with
  | preallocate maxTimers pools pid numTimers =>
    obtain ⟨r, -, rfl⟩ := map_eq_some_iff.mp hrun
    exact hout
  | init pool pid tid type =>
    cases hrun
    exact hout
  | start pid tid interval =>
    cases hrun
    rcases kerTimerStart_cases minInterval s.timers s.clock pid tid interval with
      heq | ⟨tt, -, heq⟩
    · simp only [heq]
      exact hout
    · simp only [heq]
      exact timerDeltaQInsert_outstanding _ _ hout
  | restart pid tid interval =>
    cases hrun
    rcases kerTimerRestart_cases minInterval s.timers s.clock pid tid interval with
      heq | ⟨tt, t1, i, -, -, ⟨-, heq⟩ | ⟨-, heq⟩⟩
    · simp only [heq]
      exact hout
    · simp only [heq]
      exact hout
    · simp only [heq]
      exact timerDeltaQInsert_outstanding _ _ hout
  | stop pid tid =>
    cases hrun
    exact hout
  | stopAndRelease pid tid =>
    obtain ⟨r, -, rfl⟩ := map_eq_some_iff.mp hrun
    exact hout
  | removeAll pid =>
    obtain ⟨r, -, rfl⟩ := map_eq_some_iff.mp hrun
    exact hout
  | tick =>
    cases hrun
    simp only [Clock.tick]
    split
    · exact hout
    · simp only
      omega
  | beginExpiry =>
    simp only [step] at hrun
    split at hrun
    · cases hrun
      exact le_rfl
    · cases hrun
  | expire =>
    simp only [step] at hrun
    split at hrun
    · obtain ⟨t, -, rfl⟩ := map_eq_some_iff.mp hrun
      exact hout
    · cases hrun
  | finish =>
    simp only [step] at hrun
    split at hrun
    · obtain ⟨r, hcall, rfl⟩ := map_eq_some_iff.mp hrun
      unfold finishExpiry at hcall
      split at hcall
      · cases hcall
        simp only [setForHead, drainPeriodicPool_eq]
        split
        · exact timerSetHwTop_outstanding hout ..
        · split
          · exact timerSetHwTop_outstanding hout ..
          · exact hout
      · cases hcall
    · cases hrun

lemma counted_of_initial {s : State} (hs : Initial s) : Counted s :=
  ⟨conserved_of_initial hs, hs.outstanding.ge⟩

/-- Wherever a run gets, a timer that is started or restarted is due after its interval and the
others when they were, if no other queued timer has gone past its time; and no delta gets out
of the range `b` of the deadlines. Where the expired timers stand in front, this is needed. -/
theorem started_deadline_over_runs {s0 s : State} (hs : Initial s0) {es : List Event}
    (hvalid : ValidTrace (step minInterval) FreshFor s0 es)
    (hrun : runTrace (step minInterval) s0 es = some s)
    (hpos : 0 < minInterval) (hmin : minInterval ≤ interval)
    (hcall : kerTimerStart minInterval s.timers s.clock pid tid interval = (t', c', 0) ∨
      kerTimerRestart minInterval s.timers s.clock pid tid interval = (t', c', 0)) :
    (NoneExpired pid tid s.timers.deltaq →
      StartedAt s.timers t' s.clock c' pid tid interval ∧
      ∀ b, (∀ e ∈ expiries s.timers s.clock, e.2 - s.clock.base < b) →
        interval + (s.clock.outstanding + s.clock.counter) < b → ∀ u ∈ t'.deltaq, u.delta < b) ∧
    (DeltaOrdered s.timers.deltaq →
      StartedAt s.timers t' s.clock c' pid tid interval → NoneExpired pid tid s.timers.deltaq) := by
  obtain ⟨hc, hout⟩ : Counted s :=
    run_invariant_of_some step_preserves_counted (counted_of_initial hs) hvalid hrun
  have hi : 0 < interval := by omega
  have hx : 0 < interval + (s.clock.outstanding + s.clock.counter) := by omega
  obtain ⟨tt, t1, hkey, htaken, rfl, rfl⟩ := start_or_restart hc hi hcall
  have hstarted : RemovesCleanly pid tid s.timers.deltaq → _ := fun hclean =>
    startedAt_enqueue_iff minInterval hkey htaken.absent
      (htaken.expiries hc hclean s.clock) hx.le hi.le
  constructor
  · intro hnone
    have hclean := hnone.removesCleanly hc.deltaq_keys
    have hl := (htaken.noneExpired_iff hc hclean).mp hnone
    refine ⟨(hstarted hclean).mpr (lag_eq_zero hl), fun b hdue hb => ?_⟩
    apply delta_lt_of_enqueue tt hout hi.le hl _ hb
    intro e he
    rw [htaken.expiries hc hclean] at he
    exact hdue e (mem_of_mem_filter he)
  · intro ho hs
    have hclean : RemovesCleanly pid tid s.timers.deltaq := removesCleanly_of_ordered ho
    have hlag := (hstarted hclean).mp hs
    rw [htaken.noneExpired_iff hc hclean]
    by_contra hneg
    push Not at hneg
    exact absurd hlag (lag_pos (htaken.deltaOrdered ho) hx hneg).ne'

instance (t t' : TimerState) (c c' : Clock) (pid tid : ℕ) (interval : ℤ) :
    Decidable (StartedAt t t' c c' pid tid interval) :=
  decidable_of_iff ((∃ e ∈ expiries t' c', key e.1 = (pid, tid) ∧ e.2 = c.now + interval) ∧
      others pid tid (expiries t' c') = others pid tid (expiries t c))
    ⟨fun ⟨⟨e, he, hkey, hdue⟩, ho⟩ => ⟨⟨e.1, hkey, hdue ▸ he⟩, ho⟩,
      fun h => ⟨h.started.elim (fun _ hu => ⟨_, hu.2, hu.1, rfl⟩), h.others⟩⟩

def halfwayEvents : List Event :=
  [.init 300 128 0 1, .start 128 0 10] ++ replicate 5 .tick ++ [.init 300 129 7 1]

theorem started_deadline_sample :
    ∃ s t' c', runTrace (step 5) sampleState halfwayEvents = some s ∧
      kerTimerStart 5 s.timers s.clock 129 7 8 = (t', c', 0) ∧
      StartedAt s.timers t' s.clock c' 129 7 8 := by
  obtain ⟨s, hrun, hnone, hok⟩ : ∃ s, runTrace (step 5) sampleState halfwayEvents = some s ∧
      NoneExpired 129 7 s.timers.deltaq ∧
      (kerTimerStart 5 s.timers s.clock 129 7 8).2.2 = 0 := by decide +kernel
  have hcall : kerTimerStart 5 s.timers s.clock 129 7 8 = (_, _, 0) :=
    Prod.ext rfl (Prod.ext rfl hok)
  have hvalid : ValidTrace (step 5) FreshFor sampleState halfwayEvents := by decide +kernel
  have hstart := started_deadline_over_runs sampleState_initial hvalid hrun (by decide) (by decide)
    (.inl hcall)
  exact ⟨s, _, _, hrun, hcall, (hstart.1 hnone).1⟩

def lateEvents : List Event :=
  [.init 300 128 0 1, .start 128 0 5, .init 300 129 7 1, .start 129 7 6] ++
    replicate 10 .tick ++ [.beginExpiry, .expire]

/-- The other timer, four ticks past its time, makes the started one four ticks late. -/
theorem started_deadline_late :
    ValidTrace (step 5) FreshFor sampleState lateEvents ∧
    ∃ s t' c', runTrace (step 5) sampleState lateEvents = some s ∧
      kerTimerStart 5 s.timers s.clock 128 0 5 = (t', c', 0) ∧
      (expiries t' c').map (fun e => (key e.1, e.2 - s.clock.now)) =
        [((129, 7), -4), ((128, 0), 9)] ∧
      ¬ StartedAt s.timers t' s.clock c' 128 0 5 := by
  obtain ⟨s, hrun, hok, hlate, hnot⟩ : ∃ s, runTrace (step 5) sampleState lateEvents = some s ∧
      (kerTimerStart 5 s.timers s.clock 128 0 5).2.2 = 0 ∧
      (expiries (kerTimerStart 5 s.timers s.clock 128 0 5).1
        (kerTimerStart 5 s.timers s.clock 128 0 5).2.1).map
          (fun e => (key e.1, e.2 - s.clock.now)) = [((129, 7), -4), ((128, 0), 9)] ∧
      ¬ StartedAt s.timers (kerTimerStart 5 s.timers s.clock 128 0 5).1 s.clock
        (kerTimerStart 5 s.timers s.clock 128 0 5).2.1 128 0 5 := by decide +kernel
  exact ⟨by decide +kernel, s, _, _, hrun, Prod.ext rfl (Prod.ext rfl hok), hlate, hnot⟩

end TimerDeadlines
