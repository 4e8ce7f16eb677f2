import SosKernel.ModuleRuns

/-! # Registrations that fail

A registration takes a handle, a pid, memory for the state and timers one after the other, and
gives up when one of them is missing. -/
namespace RegistrationAtomicity

open HeapBlocks SlabPools DeltaTimers PointerChain KernelState FunctionTable Scheduler ModuleTable
open Option

variable {img : Image} {k k' : Kernel} {bins : ℕ → List Ptr} {h : Ptr} {env : AllocEnv}
  {hdr init pid flag : ℕ} {rest : Heap} {c : ℤ} {P : Prop}

structure Consistent (img : Image) (k : Kernel) (bins : ℕ → List Ptr) : Prop extends
    Good img k bins where
  threads : k.pidPool.length = schedNumThreadPids
  timerSlab : WellFormed k.timers.slab
  timersBacked : ∃ rest, Backed k.timers.slab timerPid rest k.heap
  schedBacked : ∃ rest, Backed k.schedSlab KernelState.kerSchedPid rest k.heap
  notNull : 0 ∉ addrs k.heap

structure FreshEnv (env : AllocEnv) (h : Heap) : Prop where
  handlePool : env.handlePool ∉ addrs h
  state : env.state ∉ addrs h
  timerPool : ∀ i, env.timerPool i ∉ addrs h
  stateApart : env.state ≠ 0 → env.state ≠ env.handlePool
  timersApart : ∀ i, env.timerPool i ≠ 0 →
    env.timerPool i ≠ env.handlePool ∧ env.timerPool i ≠ env.state
  inj : ∀ i j, env.timerPool i ≠ 0 → env.timerPool j = env.timerPool i → j = i

/-- The bins with the handles in them, all still allocated, the thread pids, the timers, the
function links of the modules and the heap blocks are the same. -/
structure Unchanged (img : Image) (bins : ℕ → List Ptr) (k k' : Kernel) : Prop where
  modBin : k'.modBin = k.modBin
  handles : ∀ q, Linked bins q → k'.handles q = k.handles q
  live : ∀ q, Linked bins q → LiveHandle img k' q
  pidPool : k'.pidPool = k.pidPool
  timers : SameTimers k.timers k'.timers
  links : ∀ q, Linked bins q → k'.cbInRam q = k.cbInRam q
  blocks : ∀ b, b ∈ k'.heap ↔ b ∈ k.heap

/-- The registration under `pid` gets as far as the `MSG_INIT` message. -/
def ReachesInit (img : Image) (k : Kernel) (hdr : ℕ) (env : AllocEnv) (pid : ℕ) : Prop :=
  ((img.header hdr).stateSize = 0 ∨ env.state ≠ 0) ∧ searchBin img k pid = some none ∧
  ((img.header hdr).numTimers = 0 ∨ canPreallocate img.maxPreAllocatedTimers env.timerPool
    k.timers.slab (img.header hdr).numTimers = true)
  deriving Decidable

/-- A call that, should it fail, fails before a thread pid is taken and before `MSG_INIT`. -/
def Lossless (img : Image) (k : Kernel) (hdr : ℕ) (env : AllocEnv) (flag : ℕ) : Prop :=
  (freeSlots k.schedSlab.pools = 0 ∧ env.handlePool = 0) ∨
  (flag = sosCreateThread ∧ false ∉ k.pidPool) ∨
  (flag ≠ sosCreateThread ∧ (appModMaxPid < (img.header hdr).modId ∨ env.msgHeader = true ∨
    ¬ ReachesInit img k hdr env (img.header hdr).modId))
  deriving Decidable

structure Ready (img : Image) (env : AllocEnv) (k : Kernel) (bins : ℕ → List Ptr) (rest : Heap) :
    Prop where
  good : Good img k bins
  timerSlab : WellFormed k.timers.slab
  backed : Backed k.timers.slab timerPid rest k.heap
  notNull : 0 ∉ addrs k.heap
  state : env.state ∉ addrs k.heap
  timerPool : ∀ i, env.timerPool i ∉ addrs k.heap
  timersApart : ∀ i, env.timerPool i ≠ 0 → env.timerPool i ≠ env.state
  inj : ∀ i j, env.timerPool i ≠ 0 → env.timerPool j = env.timerPool i → j = i

structure Kept (h : Ptr) (k k' : Kernel) : Prop where
  modBin : k'.modBin = k.modBin
  schedSlab : k'.schedSlab = k.schedSlab
  pidPool : k'.pidPool = k.pidPool
  cbInRam : k'.cbInRam = k.cbInRam
  handles : ∀ q, q ≠ h → k'.handles q = k.handles q
  timers : SameTimers k.timers k'.timers
  blocks : ∀ b, b ∈ k'.heap ↔ b ∈ k.heap

lemma Kept.refl (h : Ptr) (k : Kernel) : Kept h k k :=
  ⟨rfl, rfl, rfl, rfl, fun _ _ => rfl, SameTimers.refl _, fun _ => Iff.rfl⟩

def stateOf (img : Image) (hdr : ℕ) (env : AllocEnv) : ℕ :=
  if (img.header hdr).stateSize = 0 then 0 else env.state

def withHandle (img : Image) (k : Kernel) (hdr : ℕ) (h : Ptr) (env : AllocEnv) (pid : ℕ) : Kernel :=
  setHandle { k with heap := kerMalloc k.heap (stateOf img hdr env) pid } h
    ⟨none, hdr, pid, 0, stateOf img hdr env⟩

lemma withHandle_self : (withHandle img k hdr h env pid).handles h =
    ⟨none, hdr, pid, 0, stateOf img hdr env⟩ :=
  Function.update_self ..

lemma withHandle_of_ne {q : Ptr} (hq : q ≠ h) :
    (withHandle img k hdr h env pid).handles q = k.handles q :=
  setHandle_of_ne hq _

lemma withHandle_good (hg : Good img k bins) (hnew : ¬ Linked bins h) :
    Good img (withHandle img k hdr h env pid) bins := by
  have hg1 : Good img { k with heap := kerMalloc k.heap (stateOf img hdr env) pid } bins :=
    hg.same ⟨rfl, rfl, rfl, rfl, rfl⟩
  exact hg1.setHandle hnew _

lemma find_withHandle (hg : Good img k bins) (hnew : ¬ Linked bins h) :
    (bins (hashPid pid)).find? (fun q => ((withHandle img k hdr h env pid).handles q).pid = pid) =
      (bins (hashPid pid)).find? (fun q => (k.handles q).pid = pid) := by
  apply Option.ext
  intro q
  rw [(withHandle_good hg hnew).find_eq_some, hg.find_eq_some]
  apply and_congr_right
  intro hq
  have hne : q ≠ h := fun heq => hnew (heq ▸ hq)
  rw [withHandle_of_ne hne]

lemma state_fresh (hr : Ready img env k bins rest) : stateOf img hdr env ∉ addrs k.heap := by
  unfold stateOf
  split
  · exact hr.notNull
  · exact hr.state

lemma initAndRegister_eq (hstate : (img.header hdr).stateSize = 0 ∨ env.state ≠ 0) :
    initAndRegister img k hdr h init env pid =
      (schedRegisterModule img (withHandle img k hdr h env pid) h hdr env init).map (fun r =>
        if r.2 = 0 then r
        else ({ r.1 with heap := kerFree r.1.heap (r.1.handles h).handlerState }, r.2)) := by
  rw [initAndRegister, if_neg (by tauto)]
  rfl

lemma freshPools_withHandle (hdr pid : ℕ) (hr : Ready img env k bins rest) :
    FreshPools env.timerPool 0 k.timers.slab (kerMalloc rest (stateOf img hdr env) pid) := by
  refine ⟨fun j _ hmem => hr.timerPool j (hr.backed.pool_mem hmem), fun j hmem => ?_, hr.inj⟩
  rcases addrs_kerMalloc hmem with hmem | ⟨heq, hz⟩
  · exact hr.timerPool j (hr.backed.rest_mem hmem)
  · have hstate : stateOf img hdr env = env.state := if_neg (fun hs => hz (if_pos hs))
    rw [hstate] at heq hz
    exact hr.timersApart j (heq ▸ hz) heq

lemma backed_withHandle (hdr pid : ℕ) (h : Ptr) (hr : Ready img env k bins rest) :
    Backed k.timers.slab timerPid (kerMalloc rest (stateOf img hdr env) pid)
      (withHandle img k hdr h env pid).heap := by
  apply hr.backed.malloc
  intro hmem
  exact state_fresh hr (hr.backed.pool_mem hmem)

lemma kerFree_withHandle (hr : Ready img env k bins rest) :
    kerFree (withHandle img k hdr h env pid).heap (stateOf img hdr env) = k.heap :=
  kerFree_kerMalloc (state_fresh hr)

lemma initAndRegister_kept (init : ℕ) (hr : Ready img env k bins rest) (hnew : ¬ Linked bins h)
    (hstop : ¬ ReachesInit img k hdr env pid) :
    ∃ k' c, initAndRegister img k hdr h init env pid = some (k', c) ∧ c ≠ 0 ∧ Kept h k k' := by
  by_cases hstate : (img.header hdr).stateSize = 0 ∨ env.state ≠ 0
  · have hg2 : Good img (withHandle img k hdr h env pid) bins := withHandle_good hr.good hnew
    obtain ⟨cache, hget, -⟩ := kerGetModule_spec hg2.toTable hg2.cacheIn pid
    rw [find_withHandle hr.good hnew] at hget
    rw [initAndRegister_eq hstate, schedRegisterModule, withHandle_self, hget]
    cases hf : (bins (hashPid pid)).find? (fun q => (k.handles q).pid = pid) with
    | some q =>
      -- `-EEXIST`: only the state has been allocated
      refine ⟨_, -eexist, rfl, by decide, ?_⟩
      refine ⟨rfl, rfl, rfl, rfl, fun q hq => withHandle_of_ne hq, SameTimers.refl _, fun b => ?_⟩
      simp only [withHandle_self, kerFree_withHandle hr]
    | none =>
      have hsearch : searchBin img k pid = some none := by rw [hr.good.searchBin_eq, hf]
      have htimers : ¬ ((img.header hdr).numTimers = 0 ∨
          canPreallocate img.maxPreAllocatedTimers env.timerPool k.timers.slab
            (img.header hdr).numTimers = true) := fun hh => hstop ⟨hstate, hsearch, hh⟩
      obtain ⟨hn, hcan⟩ := not_or.mp htimers
      obtain ⟨t', h', c, hrun, hneg, hsame, hblocks⟩ := timerPreallocate_failed pid hr.timerSlab
        (freshPools_withHandle hdr pid hr) (backed_withHandle hdr pid h hr) (by simpa using hcan)
      have htimer : preallocTimers img { withHandle img k hdr h env pid with cache := cache } env
          pid (img.header hdr).numTimers = some ({ withHandle img k hdr h env pid with
            cache := cache, timers := t', heap := h' }, c) := by
        rw [preallocTimers, if_neg hn]
        exact congrArg (Option.map _) hrun
      simp only [isSome_none, Bool.false_eq_true, if_false, htimer, bind_some, if_pos hneg]
      refine ⟨_, -enomem, rfl, by decide, ?_⟩
      refine ⟨rfl, rfl, rfl, rfl, fun q hq => withHandle_of_ne hq, hsame, fun b => ?_⟩
      simp only [withHandle_self]
      rw [mem_kerFree_congr hblocks, kerFree_withHandle hr]
  · have hno : (img.header hdr).stateSize ≠ 0 ∧ env.state = 0 := by tauto
    rw [initAndRegister, if_pos hno]
    refine ⟨_, _, rfl, by decide, ?_⟩
    exact ⟨rfl, rfl, rfl, rfl, fun q hq => setHandle_of_ne hq _, SameTimers.refl _,
      fun _ => Iff.rfl⟩

lemma initAndRegister_posts (init : ℕ) (hr : Ready img env k bins rest) (hnew : ¬ Linked bins h)
    (hreach : ReachesInit img k hdr env pid) :
    ∃ k4, initAndRegister img k hdr h init env pid = (postInit k4 env pid init).map (fun r =>
        if r.2 = 0 then r
        else ({ r.1 with heap := kerFree r.1.heap (r.1.handles h).handlerState }, r.2)) ∧
      k4.modBin (hashPid pid) = some h ∧ k4.pidPool = k.pidPool ∧ (k4.handles h).pid = pid := by
  obtain ⟨hstate, hsearch, htimers⟩ := hreach
  have hg2 : Good img (withHandle img k hdr h env pid) bins := withHandle_good hr.good hnew
  obtain ⟨cache, hget, hcache⟩ := kerGetModule_spec hg2.toTable hg2.cacheIn pid
  have hf : (bins (hashPid pid)).find? (fun q => (k.handles q).pid = pid) = none := by
    rw [hr.good.searchBin_eq] at hsearch
    exact Option.some.inj hsearch
  rw [find_withHandle hr.good hnew, hf] at hget
  have hprealloc : ∃ t' h', preallocTimers img
      { withHandle img k hdr h env pid with cache := cache } env pid (img.header hdr).numTimers =
        some ({ withHandle img k hdr h env pid with
          cache := cache, timers := t', heap := h' }, 0) := by
    unfold preallocTimers
    split
    · exact ⟨_, _, rfl⟩
    next hn =>
      obtain ⟨t', h', hrun⟩ := timerPreallocate_ok pid (withHandle img k hdr h env pid).heap
        hr.timerSlab (freshPools_withHandle hdr pid hr) (htimers.resolve_left hn)
      exact ⟨t', h', congrArg (Option.map _) hrun⟩
  obtain ⟨t', h', htimer⟩ := hprealloc
  have hg3 : Good img { withHandle img k hdr h env pid with
      cache := cache, timers := t', heap := h' } bins :=
    ⟨hg2.toTable.congr rfl rfl rfl, hcache⟩
  obtain ⟨k3, hlink, hl⟩ := fntableLink_links h hg3
  have hh : k3.handles h = ⟨none, hdr, pid, 0, stateOf img hdr env⟩ := by
    rw [hl.handles]
    exact withHandle_self
  refine ⟨linkHandle k3 h, ?_, ?_, ?_, ?_⟩
  · rw [initAndRegister_eq hstate, schedRegisterModule, withHandle_self, hget]
    simp only [isSome_none, Bool.false_eq_true, if_false, htimer, bind_some, lt_irrefl, hlink]
  · simp only [linkHandle, hh, Function.update_self]
  · have hpool : k3.pidPool = k.pidPool := by
      rw [hl.eq]
      rfl
    exact hpool
  · simp only [linkHandle, setHandle, hh, Function.update_self]

section Handle

variable {s : Slab} {hp : Heap} {it : Item} {pool : List Bool}

def taken (k : Kernel) (s : Slab) (hp : Heap) (pool : List Bool) : Kernel :=
  { k with schedSlab := s, heap := hp, pidPool := pool }

lemma registerModule_eq
    (halloc : kerSlabAlloc k.schedSlab k.heap env.handlePool KernelState.kerSchedPid =
      (s, hp, some it)) : registerModule img k hdr init env flag =
      giveBack it (doRegisterModule img (taken k s hp k.pidPool) hdr (.slab it) init env flag) := by
  rw [registerModule, halloc]
  rfl

lemma doRegisterModule_thread {i : ℕ} {pool' : List Bool} (hlen : k.pidPool.length =
    schedNumThreadPids) (htake : takeSlot k.pidPool = some (i, pool')) :
    doRegisterModule img (taken k s hp k.pidPool) hdr h init env sosCreateThread =
      initAndRegister img (taken k s hp pool') hdr h init env (schedMinThreadPid + i) ∧
    schedMinThreadPid + i ≠ runtimePid ∧ pool' ≠ k.pidPool := by
  obtain ⟨hbit, hset⟩ := takeSlot_some htake
  have hi : i < k.pidPool.length := (List.getElem?_eq_some_iff.mp hbit).1
  have hne : schedMinThreadPid + i ≠ runtimePid := by
    rw [hlen] at hi
    simp only [schedMinThreadPid, appModMaxPid, runtimePid, schedNumThreadPids] at hi ⊢
    omega
  refine ⟨?_, hne, ?_⟩
  · have hpool : (taken k s hp k.pidPool).pidPool = k.pidPool := rfl
    simp only [doRegisterModule, choosePid, if_true, schedGetPidFromPool, hpool, htake, if_neg hne]
    rfl
  · intro heq
    rw [← heq, hset, List.getElem?_set_self (by simpa [hset] using hi)] at hbit
    cases hbit

/-- A registration that returns if `P`, and leaves everything unchanged in a failure just if `P`. -/
structure Outcome (img : Image) (bins : ℕ → List Ptr) (k : Kernel) (P : Prop)
    (o : Option (Kernel × ℤ × Option Ptr)) : Prop where
  returns : P → o.isSome
  result : ∀ k' c r, o = some (k', c, r) →
    (c = 0 ∧ ∃ p, r = some p ∧ (k'.handles p).pid ≠ runtimePid) ∨
    (c ≠ 0 ∧ r = none ∧ (Unchanged img bins k k' ↔ P))

lemma Outcome.of_unchanged (hP : P) (hc : c ≠ 0)
    (hsame : Unchanged img bins k k') : Outcome img bins k P (some (k', c, none)) := by
  refine ⟨fun _ => rfl, fun k1 c1 r1 heq => .inr ?_⟩
  cases heq
  exact ⟨hc, rfl, fun _ => hP, fun _ => hsame⟩

variable (hk : Consistent img k bins) (henv : FreshEnv env k.heap)
  (halloc : kerSlabAlloc k.schedSlab k.heap env.handlePool KernelState.kerSchedPid =
    (s, hp, some it))
include hk henv halloc

lemma not_linked : ¬ Linked bins (.slab it) := by
  obtain ⟨rest, hback⟩ := hk.schedBacked
  obtain ⟨-, hfree, -⟩ := kerSlabAlloc_some hk.slab
    (fun hmem => henv.handlePool (hback.pool_mem hmem)) halloc
  rintro ⟨b, hb, hmem⟩
  exact hfree (hk.live b hb _ hmem).1

lemma ready_taken (pool : List Bool) : ∃ rest, Ready img env (taken k s hp pool) bins rest := by
  obtain ⟨rest0, hsched⟩ := hk.schedBacked
  obtain ⟨rest, hback⟩ := hk.timersBacked
  obtain ⟨hwf, -, hcount, -⟩ := kerSlabAlloc_some hk.slab
    (fun hmem => henv.handlePool (hsched.pool_mem hmem)) halloc
  obtain ⟨-, hheap, -⟩ := kerSlabAlloc_frame hk.slab.distinct halloc
  have hgood : Good img (taken k s hp pool) bins := by
    have hslab := hk.toGood.setSlab hwf (fun x _ hx => (hcount x).mpr (.inl hx)) hp
    exact hslab.same ⟨rfl, rfl, rfl, rfl, rfl⟩
  have hbacked : ∃ rest', Backed k.timers.slab timerPid rest' hp := by
    rcases hheap with rfl | rfl
    · exact ⟨rest, hback⟩
    · exact ⟨_, hback.malloc (fun hmem => henv.handlePool (hback.pool_mem hmem))⟩
  -- the only block that may be new is the pool of handles
  have haddrs : ∀ a ∈ addrs hp, a ∈ addrs k.heap ∨ (a = env.handlePool ∧ env.handlePool ≠ 0) := by
    rcases hheap with rfl | rfl
    · exact fun a ha => .inl ha
    · exact fun a ha => addrs_kerMalloc ha
  obtain ⟨rest', hbacked⟩ := hbacked
  refine ⟨rest', hgood, hk.timerSlab, hbacked, fun hmem => ?_, fun hmem => ?_, fun i hmem => ?_,
    fun i hz => (henv.timersApart i hz).2, henv.inj⟩
  · rcases haddrs _ hmem with hmem | ⟨heq, hz⟩
    · exact hk.notNull hmem
    · exact hz heq.symm
  · rcases haddrs _ hmem with hmem | ⟨heq, hz⟩
    · exact henv.state hmem
    · exact henv.stateApart (heq ▸ hz) heq
  · rcases haddrs _ hmem with hmem | ⟨heq, hz⟩
    · exact henv.timerPool i hmem
    · exact (henv.timersApart i (heq ▸ hz)).1 heq

lemma reachesInit_taken (pool : List Bool) :
    ReachesInit img (taken k s hp pool) hdr env pid ↔ ReachesInit img k hdr env pid := by
  obtain ⟨rest, hr⟩ := ready_taken hk henv halloc pool
  have hsearch : searchBin img (taken k s hp pool) pid = searchBin img k pid := by
    rw [hr.good.searchBin_eq, hk.searchBin_eq]
    rfl
  rw [ReachesInit, hsearch]
  rfl

lemma giveBack_kept {k2 : Kernel} (hc : c ≠ 0) (hkept : Kept (.slab it) (taken k s hp pool) k2) :
    ∃ k', giveBack it (some (k2, c)) = some (k', c, none) ∧ k'.pidPool = pool ∧
      (pool = k.pidPool → Unchanged img bins k k') := by
  have hnew := not_linked hk henv halloc
  obtain ⟨rest, hback⟩ := hk.schedBacked
  obtain ⟨hwf, hno, hcount, hhead, hback1⟩ := kerSlabAlloc_some hk.slab
    (fun hmem => henv.handlePool (hback.pool_mem hmem)) halloc
  have hback2 : Backed s KernelState.kerSchedPid rest k2.heap := by
    apply Backed.congr _ hkept.blocks
    exact hback1 rest hback (fun hmem => henv.handlePool (hback.rest_mem hmem))
  obtain ⟨s', h', hfree, hwf', hcount', hhead', -, hback'⟩ :=
    kerSlabFree_spec (h := k2.heap) hwf ((hcount it).mpr (.inr rfl))
  have hitems : ∀ x, Allocated s'.pools x ↔ Allocated k.schedSlab.pools x := by
    intro x
    rw [hcount', hcount]
    constructor
    · rintro ⟨hx | hx, hne⟩
      · exact hx
      · exact absurd hx hne
    · intro hx
      refine ⟨.inl hx, ?_⟩
      rintro rfl
      exact hno hx
  have hslab : k2.schedSlab = s := hkept.schedSlab
  have hhandles : ∀ q, Linked bins q → k2.handles q = k.handles q := by
    intro q hq
    apply hkept.handles
    rintro rfl
    exact hnew hq
  refine ⟨{ k2 with schedSlab := s', heap := h' }, ?_, hkept.pidPool, fun hpool => ?_⟩
  · rw [giveBack, bind_some, if_neg hc, hslab, hfree, map_some]
  · refine ⟨hkept.modBin, hhandles, fun q hq => ?_, hkept.pidPool.trans hpool, hkept.timers,
      fun q _ => congrFun hkept.cbInRam q, ?_⟩
    · obtain ⟨b, hb, hmem⟩ := id hq
      have hlive := hk.live b hb q hmem
      have hsame := hhandles q hq
      cases q with
      | other n => exact ⟨hlive.1, (congrArg Handle.flag hsame).trans hlive.2⟩
      | slab x => exact ⟨(hitems x).mpr hlive.1, (congrArg Handle.flag hsame).trans hlive.2⟩
    · apply hback.same_blocks (hback' _ _ hback2)
      exact hk.slab.pools_determined hwf' (hhead'.trans hhead) hitems

lemma giveBack_lost {r : Option Ptr} (hreach : ReachesInit img k hdr env pid)
    (hmsg : env.msgHeader = false)
    (hrun : giveBack it (initAndRegister img (taken k s hp pool) hdr (.slab it) init env pid) =
      some (k', c, r)) :
    c ≠ 0 ∧ r = none ∧ k'.pidPool = pool ∧ ¬ Unchanged img bins k k' := by
  have hnew := not_linked hk henv halloc
  obtain ⟨rest, hr⟩ := ready_taken hk henv halloc pool
  obtain ⟨k4, hposts, hbin, hpool, -⟩ :=
    initAndRegister_posts init hr hnew ((reachesInit_taken hk henv halloc pool).mpr hreach)
  rw [hposts, postInit, if_neg (by simp [hmsg]), map_map] at hrun
  obtain ⟨r1, hr1, hrun⟩ := bind_eq_some_iff.mp hrun
  obtain ⟨k5, hremove, rfl⟩ := map_eq_some_iff.mp hr1
  have hcode : (-enomem : ℤ) ≠ 0 := by decide
  obtain ⟨u, -, hres⟩ := map_eq_some_iff.mp hrun
  cases hres
  obtain ⟨t, -, rfl⟩ := map_eq_some_iff.mp hremove
  refine ⟨hcode, rfl, hpool, fun hsame => hnew ?_⟩
  have hfirst : k.modBin (hashPid pid) = some (.slab it) :=
    (congrFun hsame.modBin (hashPid pid)).symm.trans hbin
  have hchain := hk.chain _ (hashPid_lt pid)
  rw [hfirst] at hchain
  obtain ⟨l, hb⟩ := hchain.eq_cons
  exact ⟨hashPid pid, hashPid_lt pid, hb ▸ List.mem_cons_self⟩

lemma giveBack_registered (init : ℕ) (pool : List Bool)
    (hreach : ReachesInit img k hdr env pid) (hmsg : env.msgHeader = true) :
    ∃ k', giveBack it (initAndRegister img (taken k s hp pool) hdr (.slab it) init env pid) =
      some (k', 0, some (.slab it)) ∧ (k'.handles (.slab it)).pid = pid := by
  have hnew := not_linked hk henv halloc
  obtain ⟨rest, hr⟩ := ready_taken hk henv halloc pool
  obtain ⟨k4, hposts, -, -, hpid⟩ :=
    initAndRegister_posts init hr hnew ((reachesInit_taken hk henv halloc pool).mpr hreach)
  rw [hposts, postInit, if_pos hmsg]
  exact ⟨_, rfl, hpid⟩

lemma giveBack_outcome (hdr init pid : ℕ) (pool : List Bool) {o : Option (Kernel × ℤ × Option Ptr)}
    (ho : giveBack it (initAndRegister img (taken k s hp pool) hdr (.slab it) init env pid) = o) :
    (env.msgHeader = true ∨ ¬ ReachesInit img k hdr env pid → o.isSome) ∧
    ∀ k' c r, o = some (k', c, r) →
      (c = 0 ∧ r = some (.slab it) ∧ (k'.handles (.slab it)).pid = pid) ∨
      (c ≠ 0 ∧ r = none ∧ k'.pidPool = pool ∧ (pool = k.pidPool → (Unchanged img bins k k' ↔
        env.msgHeader = true ∨ ¬ ReachesInit img k hdr env pid))) := by
  subst ho
  by_cases hreach : ReachesInit img k hdr env pid
  · cases hmsg : env.msgHeader with
    | true =>
      obtain ⟨k1, hrun, hpid⟩ := giveBack_registered hk henv halloc init pool hreach hmsg
      rw [hrun]
      refine ⟨fun _ => rfl, fun k' c r heq => .inl ?_⟩
      cases heq
      exact ⟨rfl, rfl, hpid⟩
    | false =>
      refine ⟨fun hno => ?_, fun k' c r hrun => .inr ?_⟩
      · simp [hreach] at hno
      · obtain ⟨hc, hr, hpool, hsame⟩ := giveBack_lost hk henv halloc hreach hmsg hrun
        refine ⟨hc, hr, hpool, fun _ => ⟨fun hh => absurd hh hsame, fun hh => ?_⟩⟩
        simp [hreach] at hh
  · obtain ⟨rest, hready⟩ := ready_taken hk henv halloc pool
    obtain ⟨k2, c2, hrun, hc, hkept⟩ := initAndRegister_kept init hready
      (not_linked hk henv halloc) (fun hh => hreach ((reachesInit_taken hk henv halloc pool).mp hh))
    obtain ⟨k3, hgive, hpool, hsame⟩ := giveBack_kept hk henv halloc hc hkept
    rw [hrun, hgive]
    refine ⟨fun _ => rfl, fun k' c r heq => .inr ?_⟩
    cases heq
    exact ⟨hc, rfl, hpool, fun heq => ⟨fun _ => .inr hreach, fun _ => hsame heq⟩⟩

lemma outcome_refused (hP : P) (hc : c ≠ 0) :
    Outcome img bins k P (giveBack it (some (taken k s hp k.pidPool, c))) := by
  obtain ⟨k1, hrun, -, hsame⟩ := giveBack_kept hk henv halloc hc (Kept.refl _ _)
  rw [hrun]
  exact Outcome.of_unchanged hP hc (hsame rfl)

lemma thread_outcome (hdr init : ℕ) :
    Outcome img bins k (false ∉ k.pidPool) (giveBack it
      (doRegisterModule img (taken k s hp k.pidPool) hdr (.slab it) init env sosCreateThread)) := by
  cases htake : takeSlot k.pidPool with
  | none =>
    have hrun : doRegisterModule img (taken k s hp k.pidPool) hdr (.slab it) init env
        sosCreateThread = some (taken k s hp k.pidPool, -enomem) := by
      have hpool : (taken k s hp k.pidPool).pidPool = k.pidPool := rfl
      simp only [doRegisterModule, choosePid, if_true, schedGetPidFromPool, hpool, htake]
    rw [hrun]
    exact outcome_refused hk henv halloc (takeSlot_eq_none.mp htake) (by decide)
  | some r =>
    obtain ⟨i, pool'⟩ := r
    obtain ⟨hrun, hpid, hpool⟩ := doRegisterModule_thread hk.threads htake
    have hfree : ¬ false ∉ k.pidPool := by
      rw [← takeSlot_eq_none, htake]
      exact some_ne_none _
    rw [hrun]
    obtain ⟨-, hresult⟩ :=
      giveBack_outcome hk henv halloc hdr init (schedMinThreadPid + i) pool' rfl
    refine ⟨fun hno => absurd hno hfree, fun k' c r heq => ?_⟩
    rcases hresult k' c r heq with ⟨hc, hr, hp'⟩ | ⟨hc, hr, hk', -⟩
    · exact .inl ⟨hc, .slab it, hr, hp' ▸ hpid⟩
    · refine .inr ⟨hc, hr, fun hsame => ?_, fun hno => absurd hno hfree⟩
      exact absurd (hk'.symm.trans hsame.pidPool) hpool

lemma module_outcome (hdr init : ℕ) (hflag : flag ≠ sosCreateThread) :
    Outcome img bins k (appModMaxPid < (img.header hdr).modId ∨ env.msgHeader = true ∨
        ¬ ReachesInit img k hdr env (img.header hdr).modId)
      (giveBack it
        (doRegisterModule img (taken k s hp k.pidPool) hdr (.slab it) init env flag)) := by
  by_cases hmax : appModMaxPid < (img.header hdr).modId
  · have hrun : doRegisterModule img (taken k s hp k.pidPool) hdr (.slab it) init env flag =
        some (taken k s hp k.pidPool, -einval) := by
      simp only [doRegisterModule, choosePid, if_neg hflag, if_pos hmax]
    rw [hrun]
    exact outcome_refused hk henv halloc (.inl hmax) (by decide)
  · have hrun : doRegisterModule img (taken k s hp k.pidPool) hdr (.slab it) init env flag =
        initAndRegister img (taken k s hp k.pidPool) hdr (.slab it) init env
          (img.header hdr).modId := by
      simp only [doRegisterModule, choosePid, if_neg hflag, if_neg hmax]
    have hpid : (img.header hdr).modId ≠ runtimePid := by
      simp only [appModMaxPid, runtimePid] at hmax ⊢
      omega
    rw [hrun]
    obtain ⟨hreturns, hresult⟩ :=
      giveBack_outcome hk henv halloc hdr init (img.header hdr).modId k.pidPool rfl
    refine ⟨fun hP => hreturns (hP.resolve_left hmax), fun k' c r heq => ?_⟩
    rcases hresult k' c r heq with ⟨hc, hr, hp'⟩ | ⟨hc, hr, -, hiff⟩
    · exact .inl ⟨hc, .slab it, hr, hp' ▸ hpid⟩
    · refine .inr ⟨hc, hr, (hiff rfl).trans ⟨.inr, fun hP => hP.resolve_left hmax⟩⟩

end Handle

lemma Unchanged.refl (hk : Consistent img k bins) : Unchanged img bins k k := by
  refine ⟨rfl, fun _ _ => rfl, ?_, rfl, SameTimers.refl _, fun _ _ => rfl, fun _ => Iff.rfl⟩
  rintro q ⟨b, hb, hmem⟩
  exact hk.live b hb q hmem

lemma registerModule_outcome (hk : Consistent img k bins) (henv : FreshEnv env k.heap)
    (hdr init flag : ℕ) :
    Outcome img bins k (Lossless img k hdr env flag) (registerModule img k hdr init env flag) := by
  cases halloc : kerSlabAlloc k.schedSlab k.heap env.handlePool KernelState.kerSchedPid with
  | mk s r =>
    obtain ⟨hp, item⟩ := r
    have hfree := kerSlabAlloc_free halloc
    cases item with
    | none =>
      have hno : freeSlots k.schedSlab.pools = 0 ∧ env.handlePool = 0 := by
        cases hslots : freeSlots k.schedSlab.pools with
        | zero => exact ⟨rfl, (kerSlabAlloc_none halloc).2.2⟩
        | succ n =>
          rw [hslots] at hfree
          cases hfree.1
      have hrun : registerModule img k hdr init env flag = some (k, -enomem, none) := by
        rw [registerModule, halloc]
      rw [hrun]
      exact Outcome.of_unchanged (.inl hno) (by decide) (Unchanged.refl hk)
    | some it =>
      have hyes : ¬ (freeSlots k.schedSlab.pools = 0 ∧ env.handlePool = 0) := by
        rintro ⟨hslots, hz⟩
        rw [hslots] at hfree
        exact hfree.1.mp rfl hz
      rw [registerModule_eq halloc]
      by_cases hflag : flag = sosCreateThread
      · have hiff : Lossless img k hdr env flag ↔ false ∉ k.pidPool := by
          simp [Lossless, hyes, hflag]
        rw [hflag] at hiff ⊢
        rw [propext hiff]
        exact thread_outcome hk henv halloc hdr init
      · have hiff : Lossless img k hdr env flag ↔ (appModMaxPid < (img.header hdr).modId ∨
            env.msgHeader = true ∨ ¬ ReachesInit img k hdr env (img.header hdr).modId) := by
          simp [Lossless, hyes, hflag]
        rw [propext hiff]
        exact module_outcome hk henv halloc hdr init hflag

/-- A failed `ker_spawn_module` or `ker_register_module` leaves everything as it was just if it
fails before it has taken a thread pid and before the `MSG_INIT` message. -/
theorem failed_registration_atomic_iff (hk : Consistent img k bins) (henv : FreshEnv env k.heap) :
    (∀ hdr init flag,
      (Lossless img k hdr env flag → (kerSpawnModule img k hdr init env flag).isSome) ∧
      ∀ k', kerSpawnModule img k hdr init env flag = some (k', runtimePid) →
        (Unchanged img bins k k' ↔ hdr = 0 ∨ Lossless img k hdr env flag)) ∧
    (∀ hdr, (Lossless img k hdr env 0 → (kerRegisterModule img k hdr env).isSome) ∧
      ∀ k' c, kerRegisterModule img k hdr env = some (k', c) → c ≠ 0 →
        (Unchanged img bins k k' ↔ hdr = 0 ∨ Lossless img k hdr env 0)) := by
  constructor
  · intro hdr init flag
    have hout := registerModule_outcome hk henv hdr init flag
    by_cases hz : hdr = 0
    · rw [kerSpawnModule, if_pos hz]
      refine ⟨fun _ => rfl, fun k' heq => ?_⟩
      cases heq
      exact ⟨fun _ => .inl hz, fun _ => Unchanged.refl hk⟩
    · rw [kerSpawnModule, if_neg hz]
      refine ⟨fun hl => by simpa using hout.returns hl, fun k' heq => ?_⟩
      obtain ⟨⟨k1, c, r⟩, hrun, heq⟩ := map_eq_some_iff.mp heq
      simp only [hz, false_or]
      rcases hout.result k1 c r hrun with ⟨-, p, rfl, hpid⟩ | ⟨-, rfl, hiff⟩
      · exact absurd (congrArg Prod.snd heq) hpid
      · cases heq
        exact hiff
  · intro hdr
    have hout := registerModule_outcome hk henv hdr 0 0
    by_cases hz : hdr = 0
    · rw [kerRegisterModule, if_pos hz]
      refine ⟨fun _ => rfl, fun k' c heq _ => ?_⟩
      cases heq
      exact ⟨fun _ => .inl hz, fun _ => Unchanged.refl hk⟩
    · rw [kerRegisterModule, if_neg hz]
      refine ⟨fun hl => by simpa using hout.returns hl, fun k' c heq hc => ?_⟩
      obtain ⟨⟨k1, c1, r⟩, hrun, heq⟩ := map_eq_some_iff.mp heq
      cases heq
      simp only [hz, false_or]
      rcases hout.result k1 c1 r hrun with ⟨hc', -⟩ | ⟨-, -, hiff⟩
      · exact absurd hc' hc
      · exact hiff

/-- Every module wants memory for its state and six timers. -/
def wantingImage : Image :=
  { ModuleRuns.sampleImage with header := fun h => ⟨16, 127 + h, 6, 0, 0, true⟩ }

def backedKernel : Kernel := { ModuleRuns.sampleKernel with heap := [⟨100, 2, 2⟩, ⟨200, 4, 4⟩] }

def scarceEnv : AllocEnv := ⟨400, 500, fun _ => 0, true⟩

lemma backedKernel_consistent : Consistent wantingImage backedKernel (fun _ => []) := by
  have hgood : Good wantingImage backedKernel (fun _ => []) := by
    refine ⟨⟨fun _ _ => rfl, by simp, by simp, by simp, ?_⟩, fun c hc => by cases hc⟩
    constructor <;> simp [backedKernel, ModuleRuns.sampleKernel, poolAddrs, Busy]
  refine ⟨hgood, rfl, ?_, ⟨[⟨100, 2, 2⟩], ?_⟩, ⟨[⟨200, 4, 4⟩], ?_⟩, by decide⟩
  · constructor <;> simp [backedKernel, ModuleRuns.sampleKernel, poolAddrs, Busy]
  · constructor <;> simp [backedKernel, ModuleRuns.sampleKernel, poolAddrs, addrs, timerPid]
  · constructor <;>
      simp [backedKernel, ModuleRuns.sampleKernel, poolAddrs, addrs, KernelState.kerSchedPid,
        or_comm]

lemma scarceEnv_fresh : FreshEnv scarceEnv backedKernel.heap := by
  constructor <;> simp [scarceEnv, backedKernel, addrs]

theorem failed_registration_atomic_sample :
    ∃ k', kerRegisterModule wantingImage backedKernel 2 scarceEnv = some (k', -enomem) ∧
      Unchanged wantingImage (fun _ => []) backedKernel k' := by
  refine ⟨_, rfl, ?_⟩
  apply (((failed_registration_atomic_iff backedKernel_consistent scarceEnv_fresh).2 2).2 _ _ rfl
    (by decide)).mpr
  exact .inr (by decide +kernel)

/-- Without memory for the state of a thread its pid is lost; without a header for `MSG_INIT`
the bin of the module keeps the freed handle. -/
theorem failed_registration_leaks :
    (∃ k', kerSpawnModule wantingImage backedKernel 2 0 { scarceEnv with state := 0 }
        sosCreateThread = some (k', runtimePid) ∧
      k'.pidPool ≠ backedKernel.pidPool ∧ ¬ Unchanged wantingImage (fun _ => []) backedKernel k') ∧
    ∃ k', kerRegisterModule ModuleRuns.sampleImage backedKernel 2
        { scarceEnv with msgHeader := false } = some (k', -enomem) ∧
      k'.modBin (hashPid 129) = some (.slab ⟨100, 0⟩) ∧ ¬ Allocated k'.schedSlab.pools ⟨100, 0⟩ ∧
      ¬ Unchanged ModuleRuns.sampleImage (fun _ => []) backedKernel k' := by
  constructor
  · refine ⟨_, rfl, by decide +kernel, fun hsame => ?_⟩
    exact absurd hsame.pidPool (by decide +kernel)
  · refine ⟨_, rfl, rfl, ?_, fun hsame => ?_⟩
    · rintro ⟨p, hp, -, hbit⟩
      cases List.mem_singleton.mp hp
      cases hbit
    · have hbin := congrFun hsame.modBin (hashPid 129)
      cases hbin

end RegistrationAtomicity
