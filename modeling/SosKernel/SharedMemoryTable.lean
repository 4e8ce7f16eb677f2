import SosKernel.SharedMemory
import SosKernel.ChainedBins
import SosKernel.GuardedRuns

/-! # The bins of `shm_cb` chains, `sos_shm.c`

The table with its links: control blocks are items of the slab, and a bin is a pointer to the
first of them. The messages to the waiters are the list `posts`; whether `post_short` finds a
header for them does not matter to the table. -/
namespace SharedMemoryTable

open HeapBlocks SlabPools PointerChain ChainedBins Function
open SharedMemory (kerShmPid nullPid shmNumBins shmNumWaiter eexist ebadf enomem)

def eperm : ℤ := 1
def einval : ℤ := 22

inductive ShmEvent where
  | updated
  | closed

structure ShmCb where
  name : ℕ
  mem : ℕ
  owner : ℕ
  waiter : Fin shmNumWaiter → ℕ

structure Post where
  did : ℕ
  type : ShmEvent
  name : ℕ

structure Table where
  shmBin : Fin shmNumBins → Option Item
  cbs : Item → ShmCb
  next : Item → Option Item
  slab : Slab
  heap : Heap
  posts : List Post

def hashBin (name : ℕ) : Fin shmNumBins := ⟨name % shmNumBins, Nat.mod_lt _ (by decide)⟩

section

variable (s : Table)

def Table.fuel : ℕ := s.slab.pools.length * s.slab.numItemsPerPool

def shmLookup (name : ℕ) : Option (Option Item) :=
  find s.next (fun p => (s.cbs p).name = name) s.fuel (s.shmBin (hashBin name))

def Table.setCb (p : Item) (cb : ShmCb) : Table := { s with cbs := update s.cbs p cb }

@[simp] lemma Table.setCb_self (p : Item) (cb : ShmCb) : (s.setCb p cb).cbs p = cb := update_self ..

lemma Table.setCb_ne {p q : Item} (cb : ShmCb) (h : q ≠ p) :
    (s.setCb p cb).cbs q = s.cbs q :=
  update_of_ne h _ _

@[simp] lemma Table.setCb_posts (p : Item) (cb : ShmCb) :
    (s.setCb p cb).posts = s.posts := rfl

end

def events (cb : ShmCb) (type : ShmEvent) : List Post :=
  (List.finRange shmNumWaiter).filterMap (fun i =>
    if cb.waiter i ≠ nullPid then some ⟨cb.waiter i, type, cb.name⟩ else none)

def shmSendEvent (s : Table) (cb : Item) (type : ShmEvent) : Table :=
  { s with posts := s.posts ++ events (s.cbs cb) type }

def firstSlot (waiter : Fin shmNumWaiter → ℕ) (pid : ℕ) : Option (Fin shmNumWaiter) :=
  (List.finRange shmNumWaiter).find? (fun i => waiter i = pid)

section

variable (s : Table)

/-- `q` is what the heap returns if the slab needs a pool. -/
def kerShmOpen (pid name shm q : ℕ) : Option (Table × ℤ) :=
  (shmLookup s name).map (fun
    | some _ => (s, -eexist)
    | none =>
      match kerSlabAlloc s.slab s.heap q kerShmPid with
      | (slab, heap, none) => ({ s with slab := slab, heap := heap }, -enomem)
      | (slab, heap, some cb) =>
        ({ s with
          shmBin := update s.shmBin (hashBin name) (some cb)
          cbs := update s.cbs cb ⟨name, shm, pid, fun _ => nullPid⟩
          next := update s.next cb (s.shmBin (hashBin name))
          slab := slab
          heap := heap }, 0))

def kerShmUpdate (name shm : ℕ) : Option (Table × ℤ) :=
  (shmLookup s name).map (fun
    | none => (s, -ebadf)
    | some cb => (shmSendEvent (s.setCb cb { s.cbs cb with mem := shm }) cb .updated, 0))

def Table.unlink (i : Fin shmNumBins) (prev curr : Item) : Table :=
  { s with
    shmBin := unlinkHead s.next s.shmBin i curr
    next := unlinkNext s.next s.shmBin i prev curr }

def Table.free (cb : Item) : Option Table :=
  (kerSlabFree s.slab s.heap (.slab cb)).map (fun r => { s with slab := r.1, heap := r.2 })

/-- Unlink, tell the waiters and free, as `ker_shm_close` and `shm_remove_all` do. -/
def closeCb (i : Fin shmNumBins) (prev curr : Item) : Option Table :=
  (shmSendEvent (s.unlink i prev curr) curr .closed).free curr

def kerShmClose (pid name : ℕ) : Option (Table × ℤ) :=
  match s.shmBin (hashBin name) with
  | none => some (s, -ebadf)
  | some head =>
    (findPrev s.next (fun p => (s.cbs p).name = name) s.fuel (some head) (some head)).bind (fun
      | (some prev, some curr) =>
        if pid ≠ (s.cbs curr).owner then some (s, -eperm)
        else (closeCb s (hashBin name) prev curr).map (·, 0)
      | _ => some (s, -ebadf))

/-- `NULL` is `0`. -/
def kerShmGet (name : ℕ) : Option ℕ :=
  (shmLookup s name).map (fun cb => cb.elim 0 (fun p => (s.cbs p).mem))

/-- Put `new` into the first slot that holds `old`; `err` if there is none. The common part of
`ker_shm_wait` and `ker_shm_stopwait`. -/
def changeSlot (name old new : ℕ) (err : ℤ) : Option (Table × ℤ) :=
  (shmLookup s name).map (fun
    | none => (s, -ebadf)
    | some cb =>
      match firstSlot (s.cbs cb).waiter old with
      | none => (s, -err)
      | some i => (s.setCb cb { s.cbs cb with waiter := update (s.cbs cb).waiter i new }, 0))

def kerShmWait (pid name : ℕ) : Option (Table × ℤ) := changeSlot s name nullPid pid enomem

def kerShmStopwait (pid name : ℕ) : Option (Table × ℤ) := changeSlot s name pid nullPid einval

end

def clearWaiter (pid : ℕ) (cb : ShmCb) : ShmCb :=
  { cb with waiter := fun i => if cb.waiter i = pid then nullPid else cb.waiter i }

def removeFrom (pid : ℕ) (i : Fin shmNumBins) : ℕ → Table → Item → Option Item → Option Table
  | _, s, _, none => some s
  | 0, _, _, some _ => none
  | fuel + 1, s, prev, some curr =>
    if (s.cbs curr).owner = pid then
      (closeCb s i prev curr).bind (fun s' => removeFrom pid i fuel s' prev (s.next curr))
    else
      removeFrom pid i fuel (s.setCb curr (clearWaiter pid (s.cbs curr))) curr (s.next curr)

def removeBin (pid : ℕ) (s : Table) (i : Fin shmNumBins) : Option Table :=
  match s.shmBin i with
  | none => some s
  | some head => removeFrom pid i s.fuel s head (some head)

def shmRemoveAll (s : Table) (pid : ℕ) : Option Table :=
  (List.finRange shmNumBins).foldlM (removeBin pid) s

inductive Call where
  | openShm (pid name shm q : ℕ)
  | update (pid name shm : ℕ)
  | close (pid name : ℕ)
  | get (pid name : ℕ)
  | wait (pid name : ℕ)
  | stopwait (pid name : ℕ)
  | removeAll (pid : ℕ)
  deriving DecidableEq, Repr

inductive Answer where
  | code (r : ℤ)
  | ptr (p : ℕ)

def call (s : Table) : Call → Option (Table × Answer)
  | .openShm pid name shm q => (kerShmOpen s pid name shm q).map (Prod.map id .code)
  | .update _ name shm => (kerShmUpdate s name shm).map (Prod.map id .code)
  | .close pid name => (kerShmClose s pid name).map (Prod.map id .code)
  | .get _ name => (kerShmGet s name).map (fun p => (s, .ptr p))
  | .wait pid name => (kerShmWait s pid name).map (Prod.map id .code)
  | .stopwait pid name => (kerShmStopwait s pid name).map (Prod.map id .code)
  | .removeAll pid => (shmRemoveAll s pid).map (fun s' => (s', .code 0))

end SharedMemoryTable
