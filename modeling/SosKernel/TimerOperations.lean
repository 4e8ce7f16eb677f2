import SosKernel.DeltaTimers
import SosKernel.GuardedRuns

/-! # Timer operations and the soft interrupt, `sos_timer.c` without preemption

`soft_interrupt` runs handlers while it works through the expired timers, so it is three kinds
of event: it begins, it takes one expired timer off the queue, and it ends. What a handler
calls comes between them. Real-time clocks are not in use; the message to the owner of an
expired timer is not shown. Deltas are integers: where the `int32_t` of the source could
overflow, the results about deadlines say so. -/
namespace TimerOperations

open HeapBlocks SlabPools DeltaTimers

def maxSleepInterval : ℕ := 250
def oneShotTimerMask : ℕ := 1
def eperm : ℤ := 1

/-- `outstanding_ticks` and the hardware timer. The source does not keep `base`, the time from
which the deltas count. -/
structure Clock where
  base : ℤ
  outstanding : ℤ
  counter : ℕ
  interval : ℕ

def Clock.now (c : Clock) : ℤ := c.base + c.outstanding + c.counter

def Clock.tick (c : Clock) : Clock :=
  if c.counter + 1 < c.interval then { c with counter := c.counter + 1 }
  else { c with counter := 0, outstanding := c.outstanding + c.interval }

section Hardware

-- `TIMER_MIN_INTERVAL` of the processor
variable (minInterval : ℕ)

def hwInterval (cnt : ℤ) : ℕ :=
  if cnt < minInterval then minInterval
  else if maxSleepInterval < cnt then maxSleepInterval
  else cnt.toNat

/-- `timer_set_hw_top` restarts the hardware counter. Ticks that are not kept as outstanding are
lost to the deltas, so these count from now on. -/
def timerSetHwTop (c : Clock) (cnt : ℤ) (updateOutstanding : Bool) : Clock :=
  { base := if updateOutstanding then c.base else c.now
    outstanding := if updateOutstanding then c.outstanding + c.counter else 0
    counter := 0
    interval := hwInterval minInterval cnt }

def insertLoop (h : Timer) : List Timer → List Timer
  | [] => [h]
  | curr :: l =>
    if h.delta < curr.delta then h :: { curr with delta := curr.delta - h.delta } :: l
    else curr :: insertLoop { h with delta := h.delta - curr.delta } l

def timerDeltaQInsert (q : List Timer) (c : Clock) (h : Timer) (newTimer : Bool) :
    List Timer × Clock :=
  match q with
  | [] => ([h], if newTimer then timerSetHwTop minInterval c h.delta false else c)
  | link :: l =>
    let hwCnt := c.outstanding + c.counter
    -- the ticks that are counted already will be subtracted later
    let h' := if newTimer then { h with delta := h.delta + hwCnt } else h
    if h'.delta < link.delta then
      (h' :: { link with delta := link.delta - h'.delta } :: l,
        if newTimer then timerSetHwTop minInterval c (h'.delta - hwCnt) true else c)
    else (insertLoop h' (link :: l), c)

lemma timerDeltaQInsert_fst (q : List Timer) (c : Clock) (h : Timer) (newTimer : Bool) :
    (timerDeltaQInsert minInterval q c h newTimer).1 = insertLoop (if newTimer = true ∧ q ≠ [] then
        { h with delta := h.delta + (c.outstanding + c.counter) } else h) q := by
  cases q with
  | nil => simp [timerDeltaQInsert, insertLoop]
  | cons link l =>
    cases newTimer with
    | false =>
      simp only [timerDeltaQInsert, insertLoop, Bool.false_eq_true, false_and, if_false]
      split <;> rfl
    | true =>
      simp only [timerDeltaQInsert, insertLoop, ne_eq, reduceCtorEq, not_false_eq_true, and_self,
        if_true]
      split <;> rfl

def updateDelta : ℤ → List Timer → List Timer
  | _, [] => []
  | d, h :: l =>
    if d ≤ h.delta then { h with delta := h.delta - d } :: l
    else { h with delta := h.delta - d } :: updateDelta (d - h.delta) l

def isTimer (pid tid : ℕ) (t : Timer) : Bool := t.pid = pid ∧ t.tid = tid

def removeTimer (pid tid : ℕ) : List Timer → List Timer
  | [] => []
  | t :: l => if isTimer pid tid t then addDelta t.delta l else t :: removeTimer pid tid l

def kerTimerStop (t : TimerState) (pid tid : ℕ) : TimerState × ℤ :=
  match t.periodicPool.find? (isTimer pid tid) with
  | some tt =>
    ({ t with
      periodicPool := t.periodicPool.eraseP (isTimer pid tid)
      timerPool := t.timerPool ++ [tt] }, 0)
  | none =>
    match t.deltaq.find? (isTimer pid tid) with
    | some tt =>
      ({ t with
        deltaq := removeTimer pid tid t.deltaq
        timerPool := t.timerPool ++ [tt] }, 0)
    | none => (t, -einval)

def setType (mem : Ptr) (type : ℕ) (l : List Timer) : List Timer :=
  l.map (fun u => if u.mem = mem then { u with type := type } else u)

section

variable (t : TimerState)

/-- `ker_timer_init`; `pool` is what the heap returns if the slab needs a pool. Members of a new
block that the source does not set are shown as zero. -/
def kerTimerInit (h : Heap) (pool pid tid type : ℕ) : TimerState × Heap × ℤ :=
  match t.periodicPool.find? (isTimer pid tid) with
  | some tt =>
    ({ t with
      periodicPool := t.periodicPool.eraseP (isTimer pid tid)
      timerPool := t.timerPool ++ [{ tt with type := type }] }, h, 0)
  | none =>
    match t.deltaq.find? (isTimer pid tid) with
    | some tt =>
      let t1 := (kerTimerStop t pid tid).1
      ({ t1 with timerPool := setType tt.mem type t1.timerPool }, h, 0)
    | none =>
      match t.timerPool.find? (isTimer pid tid) with
      | some tt =>
        ({ t with
          timerPool := t.timerPool.eraseP (isTimer pid tid) ++
            [{ tt with pid := pid, tid := tid, type := type }] }, h, 0)
      | none =>
        match t.preallocTimerPool.find? (fun u => u.pid = pid) with
        | some tt =>
          ({ t with
            preallocTimerPool := t.preallocTimerPool.eraseP (fun u => u.pid = pid)
            timerPool := t.timerPool ++ [{ tt with pid := pid, tid := tid, type := type }] }, h, 0)
        | none =>
          match kerSlabAlloc t.slab h pool timerPid with
          | (s, h', some it) =>
            ({ t with
              slab := s
              timerPool := t.timerPool ++ [⟨.slab it, type, pid, tid, 0, 0, 0⟩] }, h', 0)
          | (s, h', none) => ({ t with slab := s }, h', -enomem)

def kerTimerStopAndRelease (h : Heap) (pid tid : ℕ) :
    Option (TimerState × Heap × ℤ) :=
  let t1 := (kerTimerStop t pid tid).1
  match t1.timerPool.find? (isTimer pid tid) with
  | none => some (t1, h, -einval)
  | some tt => (kerSlabFree t1.slab h tt.mem).map (fun r =>
      ({ t1 with timerPool := t1.timerPool.eraseP (isTimer pid tid), slab := r.1 }, r.2, 0))

def enqueue (c : Clock) (tt : Timer) (interval : ℤ) : TimerState × Clock :=
  let r := timerDeltaQInsert minInterval t.deltaq c { tt with ticks := interval, delta := interval }
    true
  ({ t with deltaq := r.1 }, r.2)

def kerTimerStart (c : Clock) (pid tid : ℕ) (interval : ℤ) :
    TimerState × Clock × ℤ :=
  match t.timerPool.find? (isTimer pid tid) with
  | none => (t, c, -einval)
  | some tt =>
    let r := enqueue minInterval { t with timerPool := t.timerPool.eraseP (isTimer pid tid) } c tt
      interval
    (r.1, r.2, 0)

def takeTimer (pid tid : ℕ) : Option (Timer × TimerState) :=
  match t.periodicPool.find? (isTimer pid tid) with
  | some tt => some (tt, { t with periodicPool := t.periodicPool.eraseP (isTimer pid tid) })
  | none =>
    match t.deltaq.find? (isTimer pid tid) with
    | some tt => some (tt, { t with deltaq := removeTimer pid tid t.deltaq })
    | none => (t.timerPool.find? (isTimer pid tid)).map (fun tt =>
        (tt, { t with timerPool := t.timerPool.eraseP (isTimer pid tid) }))

def kerTimerRestart (c : Clock) (pid tid : ℕ) (interval : ℤ) :
    TimerState × Clock × ℤ :=
  match takeTimer t pid tid with
  | none => (t, c, -einval)
  | some (tt, t1) =>
    let interval' := if interval ≤ 0 then tt.ticks else interval
    if interval' < minInterval then ({ t1 with timerPool := t1.timerPool ++ [tt] }, c, -eperm)
    else
      let r := enqueue minInterval t1 c tt interval'
      (r.1, r.2, 0)

lemma kerTimerStart_cases (c : Clock) (pid tid : ℕ) (interval : ℤ) :
    kerTimerStart minInterval t c pid tid interval = (t, c, -einval) ∨
      ∃ tt, t.timerPool.find? (isTimer pid tid) = some tt ∧
        kerTimerStart minInterval t c pid tid interval =
          ((enqueue minInterval { t with timerPool := t.timerPool.eraseP (isTimer pid tid) } c tt
            interval).1,
          (enqueue minInterval { t with timerPool := t.timerPool.eraseP (isTimer pid tid) } c tt
            interval).2, 0) := by
  unfold kerTimerStart
  split
  · exact .inl rfl
  next tt hfind => exact .inr ⟨tt, hfind, rfl⟩

lemma kerTimerRestart_cases (c : Clock) (pid tid : ℕ) (interval : ℤ) :
    kerTimerRestart minInterval t c pid tid interval = (t, c, -einval) ∨
      ∃ tt t1 i, takeTimer t pid tid = some (tt, t1) ∧
        (i = if interval ≤ 0 then tt.ticks else interval) ∧
        ((i < minInterval ∧ kerTimerRestart minInterval t c pid tid interval =
            ({ t1 with timerPool := t1.timerPool ++ [tt] }, c, -eperm)) ∨
          (minInterval ≤ i ∧ kerTimerRestart minInterval t c pid tid interval =
            ((enqueue minInterval t1 c tt i).1, (enqueue minInterval t1 c tt i).2, 0))) := by
  unfold kerTimerRestart
  split
  · exact .inl rfl
  next tt t1 htake =>
    refine .inr ⟨tt, t1, _, htake, rfl, ?_⟩
    by_cases hi : (if interval ≤ 0 then tt.ticks else interval) < (minInterval : ℤ)
    · exact .inl ⟨hi, if_pos hi⟩
    · exact .inr ⟨not_lt.mp hi, if_neg hi⟩

end

def rewindLoop (ticks : ℤ) : ℕ → ℤ → ℤ
  | 0, d => d
  | n + 1, d => if d ≤ 0 then rewindLoop ticks n (d + ticks) else d

/-- The delta of the next period; `none` if the loop does not end. -/
def rewind (ticks delta : ℤ) : Option ℤ :=
  if 0 < delta then some delta
  else if 0 < ticks then some (rewindLoop ticks ((-delta).toNat + 1) delta)
  else none

def timerUpdateDelta (t : TimerState) (c : Clock) : TimerState × Clock :=
  ({ t with deltaq := updateDelta c.outstanding t.deltaq },
    { c with base := c.base + c.outstanding, outstanding := 0 })

def expireHead (t : TimerState) : Option TimerState :=
  match t.deltaq with
  | [] => none
  | h :: l =>
    if 0 < h.delta then none
    else if h.type &&& oneShotTimerMask = 0 then
      (rewind h.ticks h.delta).map (fun d =>
        { t with deltaq := l, periodicPool := t.periodicPool ++ [{ h with delta := d }] })
    else some { t with deltaq := l, timerPool := t.timerPool ++ [h] }

def drainPeriodicPool (q : List Timer) (c : Clock) (pool : List Timer) : List Timer × Clock :=
  pool.foldl (fun r h => timerDeltaQInsert minInterval r.1 r.2 h false) (q, c)

lemma drainPeriodicPool_eq (q : List Timer) (c : Clock) (pool : List Timer) :
    drainPeriodicPool minInterval q c pool = (pool.foldl (fun q h => insertLoop h q) q, c) := by
  induction pool generalizing q with
  | nil => rfl
  | cons h pool ih =>
    have hclock : (timerDeltaQInsert minInterval q c h false).2 = c := by
      cases q with
      | nil => rfl
      | cons link l =>
        simp only [timerDeltaQInsert, Bool.false_eq_true, if_false]
        split <;> rfl
    have hinsert : timerDeltaQInsert minInterval q c h false = (insertLoop h q, c) := by
      apply Prod.ext
      · rw [timerDeltaQInsert_fst, if_neg (by simp)]
      · exact hclock
    rw [drainPeriodicPool, List.foldl_cons, hinsert]
    exact ih (insertLoop h q)

/-- The hardware is set for the head of the queue. A head that is due already gets another soft
interrupt. -/
def setForHead (q : List Timer) (c : Clock) : Clock :=
  match q with
  | [] => timerSetHwTop minInterval c maxSleepInterval false
  | h :: _ =>
    let hwCnt := c.outstanding - c.counter
    if 0 < h.delta - hwCnt then timerSetHwTop minInterval c (h.delta - hwCnt) true else c

/-- What `soft_interrupt` does when no timer at the head of the queue has expired. -/
def finishExpiry (t : TimerState) (c : Clock) : Option (TimerState × Clock) :=
  if t.deltaq.head?.elim True (fun h => 0 < h.delta) then
    let r := drainPeriodicPool minInterval t.deltaq c t.periodicPool
    some ({ t with deltaq := r.1, periodicPool := [] }, setForHead minInterval r.1 r.2)
  else none

inductive Phase where
  | idle
  | expiring
  deriving DecidableEq, Repr

structure State where
  timers : TimerState
  heap : Heap
  clock : Clock
  phase : Phase

inductive Event where
  | preallocate (maxTimers : ℕ) (pools : List ℕ) (pid numTimers : ℕ)
  | init (pool pid tid type : ℕ)
  | start (pid tid : ℕ) (interval : ℤ)
  | restart (pid tid : ℕ) (interval : ℤ)
  | stop (pid tid : ℕ)
  | stopAndRelease (pid tid : ℕ)
  | removeAll (pid : ℕ)
  | tick
  | beginExpiry
  | expire
  | finish
  deriving DecidableEq, Repr

/-- One event; `none` if it cannot happen, if the source panics or if it does not return. -/
def step (s : State) : Event → Option State
  | .preallocate maxTimers pools pid numTimers =>
    (timerPreallocate maxTimers (fun i => pools.getD i 0) s.timers s.heap pid numTimers).map
      (fun r => { s with timers := r.1, heap := r.2.1 })
  | .init pool pid tid type =>
    let r := kerTimerInit s.timers s.heap pool pid tid type
    some { s with timers := r.1, heap := r.2.1 }
  | .start pid tid interval =>
    let r := kerTimerStart minInterval s.timers s.clock pid tid interval
    some { s with timers := r.1, clock := r.2.1 }
  | .restart pid tid interval =>
    let r := kerTimerRestart minInterval s.timers s.clock pid tid interval
    some { s with timers := r.1, clock := r.2.1 }
  | .stop pid tid => some { s with timers := (kerTimerStop s.timers pid tid).1 }
  | .stopAndRelease pid tid => (kerTimerStopAndRelease s.timers s.heap pid tid).map
      (fun r => { s with timers := r.1, heap := r.2.1 })
  | .removeAll pid => (timerRemoveAll s.timers s.heap pid).map
      (fun r => { s with timers := r.1, heap := r.2 })
  | .tick => some { s with clock := s.clock.tick }
  | .beginExpiry =>
    if s.phase = .idle then
      let r := timerUpdateDelta s.timers s.clock
      some { s with timers := r.1, clock := r.2, phase := .expiring }
    else none
  | .expire =>
    if s.phase = .expiring then (expireHead s.timers).map (fun t => { s with timers := t })
    else none
  | .finish =>
    if s.phase = .expiring then (finishExpiry minInterval s.timers s.clock).map
      (fun r => { s with timers := r.1, clock := r.2, phase := .idle })
    else none

def FreshFor (s : State) : Event → Prop
  | .preallocate _ pools _ _ => pools.Nodup ∧ ∀ q ∈ pools, q ∉ poolAddrs s.timers.slab.pools
  | .init pool _ _ _ => pool ∉ poolAddrs s.timers.slab.pools
  | _ => True

instance (s : State) (e : Event) : Decidable (FreshFor s e) := by
  cases e <;> (dsimp only [FreshFor]; infer_instance)

end Hardware

structure Initial (s : State) : Prop where
  deltaq : s.timers.deltaq = []
  timerPool : s.timers.timerPool = []
  preallocTimerPool : s.timers.preallocTimerPool = []
  periodicPool : s.timers.periodicPool = []
  slab : WellFormed s.timers.slab
  unused : ∀ it, ¬ Allocated s.timers.slab.pools it
  outstanding : s.clock.outstanding = 0
  phase : s.phase = .idle

end TimerOperations
