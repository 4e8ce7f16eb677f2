import SosKernel.DeltaTimers
import SosKernel.SharedMemory
import SosKernel.PointerChain

/-! # The kernel's tables

Module handles live in memory of their own: statically allocated ones and items of
the scheduler slab, linked into four bins. `ker_get_module` keeps one handle in a
static cache. Module headers and function control blocks are program memory, read
through addresses that count words on the AVR and bytes elsewhere. -/
namespace KernelState

open HeapBlocks SlabPools DeltaTimers SharedMemory PointerChain

def schedNumberBins : ℕ := 4
def appModMaxPid : ℕ := 223
def schedMinThreadPid : ℕ := appModMaxPid + 1
def schedNumThreadPids : ℕ := 31
/-- `RUNTIME_PID` is `NULL_PID`. -/
def runtimePid : ℕ := 255
def kerSchedPid : ℕ := 2
def sosCreateThread : ℕ := 1
def sosKerStaticModule : ℕ := 2
def eexist : ℤ := 17

structure FuncCb where
  proto : UInt8 × UInt8 × UInt8 × UInt8
  pid : ℕ
  fid : ℕ

/-- The members of `mod_header_t` that the kernel reads; `funct[]` follows it. -/
structure ModHeader where
  stateSize : ℕ
  modId : ℕ
  numTimers : ℕ
  numSubFunc : ℕ
  numProvFunc : ℕ
  hasHandler : Bool

structure Image where
  header : ℕ → ModHeader
  funcCb : ℕ → FuncCb
  addrUnit : ℕ
  offsetofFunct : ℕ
  sizeofFuncCb : ℕ
  maxPreAllocatedTimers : ℕ
  numStatic : ℕ
  unit_pos : 0 < addrUnit
  unit_dvd_funct : addrUnit ∣ offsetofFunct
  unit_dvd_cb : addrUnit ∣ sizeofFuncCb

variable (img : Image)

def Image.getHeaderMember (h offset : ℕ) : ℕ := (h * img.addrUnit + offset) / img.addrUnit

def Image.functAt (h i : ℕ) : ℕ := img.getHeaderMember h (img.offsetofFunct + i * img.sizeofFuncCb)

def Image.funct (h i : ℕ) : FuncCb := img.funcCb (img.functAt h i)

structure Handle where
  next : Option Ptr
  header : ℕ
  pid : ℕ
  flag : ℕ
  handlerState : ℕ

structure MonitorCb where
  modHandle : Ptr
  type : ℕ

structure Post where
  did : ℕ
  byte : ℕ

structure Kernel where
  heap : Heap
  handles : Ptr → Handle
  modBin : ℕ → Option Ptr
  cache : Option Ptr
  schedSlab : Slab
  pidPool : List Bool
  timers : TimerState
  shm : ShmState
  monitors : List MonitorCb
  cbInRam : Ptr → ℕ → ℕ
  posts : List Post

def hashPid (pid : ℕ) : ℕ := pid % schedNumberBins

section

variable (k : Kernel)

def Kernel.next (p : Ptr) : Option Ptr := (k.handles p).next

def Kernel.fuel : ℕ := img.numStatic + k.schedSlab.pools.length * k.schedSlab.numItemsPerPool

/-- The search of `ker_get_module`, past the cache; `none` if the list does not end. -/
def searchBin (pid : ℕ) : Option (Option Ptr) :=
  find k.next (fun p => (k.handles p).pid = pid) (k.fuel img) (k.modBin (hashPid pid))

def kerGetModule (pid : ℕ) : Option (Kernel × Option Ptr) :=
  match k.cache with
  | some p => if (k.handles p).pid = pid then some (k, some p) else search
  | none => search
where
  search : Option (Kernel × Option Ptr) :=
    (searchBin img k pid).map (fun r =>
      match r with
      | some p => ({ k with cache := some p }, some p)
      | none => (k, none))

/-- All modules, bin by bin, as the loops over `sched_get_all_module()` meet them. -/
def allModules : Option (List Ptr) :=
  (List.range schedNumberBins).foldrM
    (fun b l => (collect k.next (k.fuel img) (k.modBin b)).map (· ++ l)) []

/-- `monitor_remove_all` takes out the first control block of the pid, then returns. -/
def monitorRemoveAll (pid : ℕ) : Kernel :=
  { k with monitors := k.monitors.eraseP (fun cb => (k.handles cb.modHandle).pid = pid) }

end

end KernelState
