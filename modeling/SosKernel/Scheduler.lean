import SosKernel.FunctionTable

/-! # Registration and removal of modules, `sched.c` without preemption

Allocation results are inputs of a call. The `MSG_FINAL` handler of a module is a
parameter of its removal. `none` means that the call does not return. -/
namespace Scheduler

open HeapBlocks SlabPools DeltaTimers PointerChain KernelState FunctionTable Function

variable (img : Image)

/-- What the allocators give during one registration; `0` and `false` stand for no memory. -/
structure AllocEnv where
  handlePool : ℕ
  state : ℕ
  timerPool : ℕ → ℕ
  msgHeader : Bool

section

variable (k : Kernel)

def setHandle (p : Ptr) (h : Handle) : Kernel := { k with handles := update k.handles p h }

/-- `sched_get_pid_from_pool`; `NULL_PID` when every thread pid is taken. -/
def schedGetPidFromPool : Kernel × ℕ :=
  match takeSlot k.pidPool with
  | some (i, pool) => ({ k with pidPool := pool }, schedMinThreadPid + i)
  | none => (k, runtimePid)

def preallocTimers (env : AllocEnv) (pid n : ℕ) : Option (Kernel × ℤ) :=
  if n = 0 then some (k, 0)
  else (timerPreallocate img.maxPreAllocatedTimers env.timerPool k.timers k.heap pid n).map
    (fun r => ({ k with timers := r.1, heap := r.2.1 }, r.2.2))

def linkHandle (h : Ptr) : Kernel :=
  let b := hashPid (k.handles h).pid
  { setHandle k h { k.handles h with next := k.modBin b } with
    modBin := update k.modBin b (some h) }

def removeTimers (pid : ℕ) : Option Kernel :=
  (timerRemoveAll k.timers k.heap pid).map (fun r => { k with timers := r.1, heap := r.2 })

/-- The `MSG_INIT` post, which gives `init` to the scheduler, or frees it. -/
def postInit (env : AllocEnv) (pid init : ℕ) : Option (Kernel × ℤ) :=
  if env.msgHeader then some ({ k with heap := kerChangeOwn k.heap init kerSchedPid }, 0)
  else (removeTimers { k with heap := kerFree k.heap init } pid).map (fun k' => (k', -enomem))

def schedRegisterModule (h : Ptr) (hdr : ℕ) (env : AllocEnv) (init : ℕ) :
    Option (Kernel × ℤ) :=
  (kerGetModule img k (k.handles h).pid).bind (fun r =>
    if r.2.isSome then some (r.1, -eexist)
    else
      (preallocTimers img r.1 env (k.handles h).pid (img.header hdr).numTimers).bind (fun t =>
        if t.2 < 0 then some (t.1, -enomem)
        else
          (fntableLink img t.1 h).bind (fun k3 =>
            postInit (linkHandle k3 h) env (k.handles h).pid init)))

/-- The pid of a new module: from the pool for a thread, from the header otherwise. -/
def choosePid (hdr flag : ℕ) : Kernel × Except ℤ ℕ :=
  if flag = sosCreateThread then
    let r := schedGetPidFromPool k
    (r.1, if r.2 = runtimePid then .error (-enomem) else .ok r.2)
  else if appModMaxPid < (img.header hdr).modId then (k, .error (-einval))
  else (k, .ok (img.header hdr).modId)

def initAndRegister (hdr : ℕ) (h : Ptr) (init : ℕ) (env : AllocEnv) (pid : ℕ) :
    Option (Kernel × ℤ) :=
  if (img.header hdr).stateSize ≠ 0 ∧ env.state = 0 then
    some (setHandle k h { k.handles h with handlerState := 0 }, -enomem)
  else
    let state := if (img.header hdr).stateSize = 0 then 0 else env.state
    let k1 := { k with heap := kerMalloc k.heap state pid }
    let k2 := setHandle k1 h ⟨none, hdr, pid, 0, state⟩
    (schedRegisterModule img k2 h hdr env init).map (fun r =>
      if r.2 = 0 then r
      else ({ r.1 with heap := kerFree r.1.heap (r.1.handles h).handlerState }, r.2))

def doRegisterModule (hdr : ℕ) (h : Ptr) (init : ℕ) (env : AllocEnv) (flag : ℕ) :
    Option (Kernel × ℤ) :=
  match choosePid img k hdr flag with
  | (k1, .error e) => some (k1, e)
  | (k1, .ok pid) => initAndRegister img k1 hdr h init env pid

end

/-- The end of `ker_spawn_module` and `ker_register_module`: a failure frees the handle. -/
def giveBack (it : Item) (o : Option (Kernel × ℤ)) : Option (Kernel × ℤ × Option Ptr) :=
  o.bind (fun r =>
    if r.2 = 0 then some (r.1, 0, some (.slab it))
    else (kerSlabFree r.1.schedSlab r.1.heap (.slab it)).map
      (fun u => ({ r.1 with schedSlab := u.1, heap := u.2 }, r.2, none)))

section

variable (k : Kernel)

/-- The part that `ker_spawn_module` and `ker_register_module` share: the code and the handle. -/
def registerModule (hdr init : ℕ) (env : AllocEnv) (flag : ℕ) :
    Option (Kernel × ℤ × Option Ptr) :=
  match kerSlabAlloc k.schedSlab k.heap env.handlePool kerSchedPid with
  | (_, _, none) => some (k, -enomem, none)
  | (s, hp, some it) => giveBack it
      (doRegisterModule img { k with schedSlab := s, heap := hp } hdr (.slab it) init env flag)

def kerSpawnModule (hdr init : ℕ) (env : AllocEnv) (flag : ℕ) :
    Option (Kernel × ℕ) :=
  if hdr = 0 then some (k, runtimePid)
  else (registerModule img k hdr init env flag).map (fun r =>
    (r.1, r.2.2.elim runtimePid (fun h => (r.1.handles h).pid)))

def kerRegisterModule (hdr : ℕ) (env : AllocEnv) : Option (Kernel × ℤ) :=
  if hdr = 0 then some (k, -einval)
  else (registerModule img k hdr 0 env 0).map (fun r => (r.1, r.2.1))

def schedRegisterKernelModule (n hdr statePtr : ℕ) (env : AllocEnv) :
    Option (Kernel × ℤ) :=
  if hdr = 0 then some (k, -einval)
  else if appModMaxPid < (img.header hdr).modId then some (k, -einval)
  else schedRegisterModule img
    (setHandle k (.other n) ⟨none, hdr, (img.header hdr).modId, sosKerStaticModule, statePtr⟩)
    (.other n) hdr env 0

def unlinkHandle (b : ℕ) (prev : Option Ptr) (h : Ptr) : Kernel :=
  match prev with
  | none => { k with modBin := update k.modBin b (k.next h) }
  | some q => setHandle k q { k.handles q with next := k.next h }

def releasePid (pid : ℕ) : Kernel :=
  if schedMinThreadPid ≤ pid then
    { k with pidPool := k.pidPool.set (pid - schedMinThreadPid) false }
  else k

def freeHandle (h : Ptr) : Option Kernel :=
  if (k.handles h).flag &&& sosKerStaticModule = 0 then
    (kerSlabFree k.schedSlab k.heap h).map (fun r => { k with schedSlab := r.1, heap := r.2 })
  else some k

/-- What `ker_deregister_module` does after the `MSG_FINAL` handler has returned. -/
def cleanUp (pid : ℕ) (prev : Option Ptr) (h : Ptr) : Option Kernel :=
  let k1 := releasePid (unlinkHandle k (hashPid pid) prev h) (k.handles h).pid
  (removeTimers k1 pid).bind (fun k2 =>
    (fntableRemoveAll img (monitorRemoveAll k2 pid) h).bind (fun k3 =>
      (freeHandle k3 h).map (fun k4 => { k4 with heap := memRemoveAll k4.heap pid })))

end

/-- `ker_deregister_module`; `final` is what the module's handler does with `MSG_FINAL`. -/
def kerDeregisterModule (final : Kernel → Option Kernel) (k : Kernel) (pid : ℕ) :
    Option (Kernel × ℤ) :=
  (findPrev k.next (fun p => (k.handles p).pid = pid) (k.fuel img) none
    (k.modBin (hashPid pid))).bind (fun r =>
      match r.2 with
      | none => some (k, -einval)
      | some h =>
        (if (img.header (k.handles h).header).hasHandler then final k else some k).bind
          (fun k1 => (cleanUp img k1 pid r.1 h).map (fun k2 => (k2, 0))))

def lookUps (pids : List ℕ) (k : Kernel) : Option Kernel :=
  pids.foldlM (fun k pid => (kerGetModule img k pid).map Prod.fst) k

end Scheduler
