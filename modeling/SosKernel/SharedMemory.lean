import SosKernel.SlabPools

/-! # The contents of the shared-memory table of `sos_shm.c`

Each bin is the list of its control blocks, front first. `SharedMemoryTable` has the functions. -/
namespace SharedMemory

open SlabPools

def kerShmPid : ℕ := 19
def nullPid : ℕ := 255
def shmNumBins : ℕ := 4
def shmNumWaiter : ℕ := 2
def eexist : ℤ := 17
def ebadf : ℤ := 9
def enomem : ℤ := 12

structure ShmCb where
  cb : Item
  name : ℕ
  mem : ℕ
  owner : ℕ
  waiter : List ℕ

structure ShmState where
  shmBin : ℕ → List ShmCb
  slab : Slab

def ShmCb.Mentions (e : ShmCb) (pid : ℕ) : Prop := e.owner = pid ∨ pid ∈ e.waiter
  deriving Decidable

def MentionsPid (s : ShmState) (pid : ℕ) : Prop :=
  ∃ i < shmNumBins, ∃ e ∈ s.shmBin i, e.Mentions pid

end SharedMemory
