import SosKernel.ModuleRuns

/-! # What a removed module leaves behind

`ker_deregister_module` hands its cleanup to one routine for each subsystem. `CleanedUp` says
what they do together; from it follows exactly when nothing of the module is left over. -/
namespace Deregistration

open HeapBlocks SlabPools DeltaTimers SharedMemory PointerChain KernelState FunctionTable Option
open Scheduler ModuleTable ModuleRuns
open List hiding Chain
open Function (update update_self update_of_ne)

variable {img : Image} {k k' k1 : Kernel} {bins bins1 : ℕ → List Ptr} {h : Ptr} {pid : ℕ}
  {prev : Option Ptr} {l1 l2 : List Ptr} {α : Type*} {t t' : TimerState} {hp hp' : Heap}
  {q : Ptr} {i hdr : ℕ}

structure Sound (img : Image) (k : Kernel) (bins : ℕ → List Ptr) : Prop extends
    Table img k bins where
  timers : Placed k.timers
  ordered : DeltaOrdered k.timers.deltaq
  timersBacked : ∃ rest, Backed k.timers.slab timerPid rest k.heap
  schedBacked : ∃ rest, Backed k.schedSlab KernelState.kerSchedPid rest k.heap

structure Clean (k : Kernel) (pid : ℕ) (h : Ptr) : Prop where
  timers : ∀ t ∈ k.timers.all, t.pid ≠ pid
  shm : ¬ MentionsPid k.shm pid
  monitors : ∀ cb ∈ k.monitors, cb.modHandle ≠ h
  heap : ∀ b ∈ k.heap, b.owner ≠ pid

def OwnBlock (img : Image) (hdr cb : ℕ) : Prop :=
  ∃ j, (img.header hdr).numSubFunc ≤ j ∧ j < provEnd (img.header hdr) ∧ cb = img.functAt hdr j

/-- What belongs to other pids is as before: modules in their bins, thread pids, timers with the
time they are due, shared memory, monitors and heap blocks, empty pools of the kernel's slabs
apart. A function link stays, or it led to the removed module and falls back to its default. -/
structure OthersKept (img : Image) (bins : ℕ → List Ptr) (pid : ℕ) (h : Ptr) (k k' : Kernel) :
    Prop where
  links : ∀ q, Linked bins q → q ≠ h → ∀ i < (img.header (k.handles q).header).numSubFunc,
    k'.cbInRam q i = k.cbInRam q i ∨ OwnBlock img (k.handles h).header (k.cbInRam q i) ∧
      k'.cbInRam q i = img.functAt (k.handles q).header i
  bins : ∀ b < schedNumberBins, Chain k'.next (k'.modBin b) ((bins b).filter (fun q => q ≠ h))
  handles : ∀ q, { k'.handles q with next := (k.handles q).next } = k.handles q
  pidPool : ∀ i, schedMinThreadPid + i ≠ pid → k'.pidPool[i]? = k.pidPool[i]?
  deltaq : pending 0 k'.timers.deltaq = (pending 0 k.timers.deltaq).filter (fun u => u.pid ≠ pid)
  timerPool : k'.timers.timerPool = dropOwned pid k.timers.timerPool
  preallocTimerPool : k'.timers.preallocTimerPool = dropOwned pid k.timers.preallocTimerPool
  periodicPool : k'.timers.periodicPool = dropOwned pid k.timers.periodicPool
  timerItems : ∀ x, Allocated k'.timers.slab.pools x ↔
    Allocated k.timers.slab.pools x ∧ .slab x ∉ ownedBlocks pid k.timers.all
  shm : ∀ i, (k'.shm.shmBin i).filter (fun e => ¬ e.Mentions pid) =
    (k.shm.shmBin i).filter (fun e => ¬ e.Mentions pid)
  monitors : k'.monitors.filter (fun cb => (k.handles cb.modHandle).pid ≠ pid) =
    k.monitors.filter (fun cb => (k.handles cb.modHandle).pid ≠ pid)
  blocks : ∀ b ∈ k'.heap, b ∈ k.heap
  heap : ∀ b ∈ k.heap, b.owner ≠ pid → b ∈ k'.heap ∨
    EmptyPool k.timers.slab k'.timers.slab b.addr ∨ EmptyPool k.schedSlab k'.schedSlab b.addr

def handleBefore (bins : ℕ → List Ptr) (pid : ℕ) (h : Ptr) : Option Ptr :=
  ((bins (hashPid pid)).takeWhile (fun q => q ≠ h)).getLast?

/-- The removal of a module with header `hdr` resets a slot that is declared as `sub` and holds
`cb`. It does not ask what a slot declared for one of the functions holds. -/
def Resets (img : Image) (hdr : ℕ) (sub : FuncCb) (cb : ℕ) : Prop :=
  (img.header hdr).numProvFunc ≠ 0 ∧
    if sub.pid = (img.funcCb (cbAt img (functBase img hdr) (img.header hdr).numSubFunc)).pid then
      providedCb img hdr sub.fid ≠ 0
    else sub.pid = runtimePid ∧ ∃ j, (img.header hdr).numSubFunc ≤ j ∧
      j < provEnd (img.header hdr) ∧ functBase img hdr + j * img.sizeofFuncCb = cb

/-- The kernel the `MSG_FINAL` handler leaves has the handle in its place, no shared memory that
mentions the pid, no second monitor of the module, heap blocks with their guard bytes, and no slot
of another module that would be reset although it leads elsewhere. -/
structure Removable (img : Image) (k : Kernel) (bins bins1 : ℕ → List Ptr) (pid : ℕ) (h : Ptr) :
    Prop where
  place : handleBefore bins1 pid h = handleBefore bins pid h
  shm : ¬ MentionsPid k.shm pid
  monitors : ∀ cb ∈ (k.monitors.filter (fun cb => (k.handles cb.modHandle).pid = pid)).tail,
    cb.modHandle ≠ h
  guards : ∀ b ∈ k.heap, b.owner = pid → b.Intact
  links : ∀ q, Linked bins1 q → q ≠ h → ∀ i < (img.header (k.handles q).header).numSubFunc,
    Resets img (k.handles h).header (img.funct (k.handles q).header i) (k.cbInRam q i) →
      OwnBlock img (k.handles h).header (k.cbInRam q i) ∨
        k.cbInRam q i = img.functAt (k.handles q).header i

def FreedHandle (k k' : Kernel) (h : Ptr) (hp hp' : Heap) : Prop :=
  if (k.handles h).flag &&& sosKerStaticModule = 0 then
    kerSlabFree k.schedSlab hp h = some (k'.schedSlab, hp')
  else k'.schedSlab = k.schedSlab ∧ hp' = hp

structure CleanedUp (img : Image) (pid : ℕ) (prev : Option Ptr) (h : Ptr) (k k' : Kernel) :
    Prop where
  modBin : k'.modBin = (unlinkHandle k (hashPid pid) prev h).modBin
  handles : k'.handles = (unlinkHandle k (hashPid pid) prev h).handles
  pidPool : k'.pidPool = (releasePid k pid).pidPool
  shm : k'.shm = k.shm
  monitors : k'.monitors = k.monitors.eraseP (fun cb => (k.handles cb.modHandle).pid = pid)
  functions : ∃ k2 k3, fntableRemoveAll img k2 h = some k3 ∧ k'.cbInRam = k3.cbInRam ∧
    k2 = { k with
      modBin := (unlinkHandle k (hashPid pid) prev h).modBin
      handles := (unlinkHandle k (hashPid pid) prev h).handles
      pidPool := k2.pidPool, timers := k2.timers, heap := k2.heap, monitors := k2.monitors }
  memory : ∃ hp hp', timerRemoveAll k.timers k.heap pid = some (k'.timers, hp) ∧
    FreedHandle k k' h hp hp' ∧ k'.heap = memRemoveAll hp' pid

structure FellBack (img : Image) (hdr : ℕ) (k k' : Kernel) : Prop where
  eq : k' = { k with cbInRam := k'.cbInRam, posts := k'.posts }
  links : ∀ q i, k'.cbInRam q i = k.cbInRam q i ∨
    k'.cbInRam q i = img.functAt (k.handles q).header i ∧
      Resets img hdr (img.funct (k.handles q).header i) (k.cbInRam q i)

lemma FellBack.refl (img : Image) (hdr : ℕ) (k : Kernel) : FellBack img hdr k k :=
  ⟨rfl, fun _ _ => .inl rfl⟩

lemma FellBack.handles (hf : FellBack img hdr k k') : k'.handles = k.handles := by rw [hf.eq]

lemma FellBack.trans {k'' : Kernel} (hf : FellBack img hdr k k') (hf' : FellBack img hdr k' k'') :
    FellBack img hdr k k'' := by
  constructor
  · have heq := hf'.eq
    rwa [hf.eq] at heq
  · intro q i
    have hrest := hf'.links q i
    rw [hf.handles] at hrest
    rcases hf.links q i with hfirst | ⟨hfirst, hreset⟩
    · rwa [hfirst] at hrest
    · exact .inr ⟨hrest.elim (fun heq => heq.trans hfirst) And.left, hreset⟩

/-- The body of the loop for a module that provides functions and goes. -/
def unlinkSlot (img : Image) (hdr : ℕ) (q : Ptr) (k : Kernel) (i : ℕ) : Kernel :=
  relinkSlot img (functBase img hdr) (img.header hdr).numSubFunc (provEnd (img.header hdr)) false
    q k i

lemma unlinkSlot_cases (hprov : (img.header hdr).numProvFunc ≠ 0) (q : Ptr) (k : Kernel) (i : ℕ) :
    unlinkSlot img hdr q k i = k ∧
        ¬ Resets img hdr (img.funct (k.handles q).header i) (k.cbInRam q i) ∨
      ∃ posts, unlinkSlot img hdr q k i =
          { setCb k q i (img.functAt (k.handles q).header i) with posts := posts } ∧
        Resets img hdr (img.funct (k.handles q).header i) (k.cbInRam q i) := by
  have hany : ((range' (img.header hdr).numSubFunc (provEnd (img.header hdr) -
      (img.header hdr).numSubFunc)).any
        (fun j => functBase img hdr + j * img.sizeofFuncCb = k.cbInRam q i)) = true ↔
      ∃ j, (img.header hdr).numSubFunc ≤ j ∧ j < provEnd (img.header hdr) ∧
        functBase img hdr + j * img.sizeofFuncCb = k.cbInRam q i := by
    simp only [List.any_eq_true, mem_range'_1, decide_eq_true_eq]
    constructor
    · rintro ⟨j, ⟨hlo, hhi⟩, heq⟩
      exact ⟨j, hlo, by omega, heq⟩
    · rintro ⟨j, hlo, hhi, heq⟩
      exact ⟨j, ⟨hlo, by omega⟩, heq⟩
  simp only [unlinkSlot, relinkSlot, Resets, providedCb, Bool.false_eq_true, if_false]
  split_ifs with hpid hcb hrt hfound
  · exact .inl ⟨rfl, fun h => h.2 hcb⟩
  · exact .inr ⟨k.posts, rfl, hprov, hcb⟩
  · exact .inr ⟨_, rfl, hprov, hrt.1, hany.mp hfound⟩
  · exact .inl ⟨rfl, fun h => hfound (hany.mpr h.2.2)⟩
  · exact .inl ⟨rfl, fun h => hrt ⟨h.2.1, trivial⟩⟩

lemma unlinkSlot_fellBack (hprov : (img.header hdr).numProvFunc ≠ 0) (q : Ptr) (k : Kernel)
    (i : ℕ) : FellBack img hdr k (unlinkSlot img hdr q k i) := by
  rcases unlinkSlot_cases hprov q k i with ⟨heq, -⟩ | ⟨posts, heq, hreset⟩
  · rw [heq]
    exact FellBack.refl img hdr k
  · rw [heq]
    refine ⟨rfl, fun r j => ?_⟩
    simp only [setCb_apply]
    split
    next hsame =>
      obtain ⟨rfl, rfl⟩ := hsame
      exact .inr ⟨rfl, hreset⟩
    · exact .inl rfl

lemma foldl_fellBack {f : Kernel → α → Kernel} (hf : ∀ k a, FellBack img hdr k (f k a))
    (l : List α) (k : Kernel) : FellBack img hdr k (l.foldl f k) := by
  induction l generalizing k with
  | nil => exact FellBack.refl img hdr k
  | cons a l ih => exact (hf k a).trans (ih (f k a))

lemma foldl_reset {f : Kernel → α → Kernel} (hf : ∀ k a, FellBack img hdr k (f k a))
    {l : List α} {a : α} (ha : a ∈ l) (hstep : ∀ k', FellBack img hdr k k' →
      (f k' a).cbInRam q i = img.functAt (k.handles q).header i)
    (hk' : FellBack img hdr k k') :
    (l.foldl f k').cbInRam q i = img.functAt (k.handles q).header i := by
  obtain ⟨l1, l2, rfl⟩ := append_of_mem ha
  rw [foldl_append, foldl_cons]
  have hbefore := hk'.trans (foldl_fellBack hf l1 k')
  have hreset := hstep _ hbefore
  have hafter := foldl_fellBack hf l2 (f (l1.foldl f k') a)
  rcases hafter.links q i with hkept | ⟨hdef, -⟩
  · rw [hkept]
    exact hreset
  · rw [hdef, (hbefore.trans (hf _ a)).handles]

lemma fntableRemoveAll_fellBack (hrun : fntableRemoveAll img k h = some k') :
    FellBack img (k.handles h).header k k' := by
  simp only [fntableRemoveAll, relinkHeader] at hrun
  split at hrun
  · cases hrun
    exact FellBack.refl img _ k
  next hprov =>
    obtain ⟨k2, hk2, rfl⟩ := map_eq_some_iff.mp hrun
    obtain ⟨mods, -, rfl⟩ := map_eq_some_iff.mp hk2
    apply FellBack.trans (foldl_fellBack _ mods k)
    · exact ⟨rfl, fun _ _ => .inl rfl⟩
    · intro k' q
      exact foldl_fellBack (unlinkSlot_fellBack hprov q) _ k'

/-- The loop over the modules meets `q`, and the one over its slots meets `i`. -/
lemma fntableRemoveAll_resets (hs : Table img k bins) (hrun : fntableRemoveAll img k h = some k')
    (hq : Linked bins q) (hi : i < (img.header (k.handles q).header).numSubFunc)
    (hreset : Resets img (k.handles h).header (img.funct (k.handles q).header i) (k.cbInRam q i)) :
    k'.cbInRam q i = img.functAt (k.handles q).header i := by
  have hprov := hreset.1
  obtain ⟨mods, hall, hmem⟩ := hs.mem_allModules
  simp only [fntableRemoveAll, relinkHeader, if_neg hprov, fntableLinkProvidedFunctions, hall,
    map_some] at hrun
  cases hrun
  apply foldl_reset (fun k1 r => foldl_fellBack (unlinkSlot_fellBack hprov r) _ k1)
    ((hmem q).mpr hq) _ (FellBack.refl img _ k)
  intro k1 hk1
  have hin : i ∈ List.range (img.header (k1.handles q).header).numSubFunc := by
    rw [hk1.handles]
    exact mem_range.mpr hi
  apply foldl_reset (unlinkSlot_fellBack hprov q) hin _ hk1
  intro k2 hk2
  rcases unlinkSlot_cases hprov q k2 i with ⟨heq, hnot⟩ | ⟨posts, heq, -⟩
  · rw [heq]
    rcases hk2.links q i with hkept | ⟨hdef, -⟩
    · rw [hk2.handles, hkept] at hnot
      exact absurd hreset hnot
    · exact hdef
  · rw [heq, ← hk2.handles]
    exact (setCb_apply ..).trans (if_pos ⟨rfl, rfl⟩)

lemma releasePid_unlinkHandle (k : Kernel) (b : ℕ) (prev : Option Ptr) (h : Ptr) (pid : ℕ) :
    releasePid (unlinkHandle k b prev h) pid = { k with
      modBin := (unlinkHandle k b prev h).modBin
      handles := (unlinkHandle k b prev h).handles
      pidPool := (releasePid k pid).pidPool } := by
  cases prev <;> simp only [releasePid, unlinkHandle, setHandle] <;> split <;> rfl

lemma unlinkHandle_header (k : Kernel) (b : ℕ) (prev : Option Ptr) (h q : Ptr) :
    ((unlinkHandle k b prev h).handles q).header = (k.handles q).header := by
  have heq := congrArg Handle.header (unlinkHandle_handles k b prev h q)
  exact heq

lemma cleanUp_cleanedUp (hpid : (k.handles h).pid = pid)
    (hrun : cleanUp img k pid prev h = some k') : CleanedUp img pid prev h k k' := by
  simp only [cleanUp, hpid, releasePid_unlinkHandle] at hrun
  obtain ⟨k2, hremove, hrest⟩ := bind_eq_some_iff.mp hrun
  obtain ⟨⟨t, hp⟩, htimers, rfl⟩ := map_eq_some_iff.mp hremove
  obtain ⟨k3, hfn, hrest⟩ := bind_eq_some_iff.mp hrest
  obtain ⟨k4, hfree, rfl⟩ := map_eq_some_iff.mp hrest
  have hf := fntableRemoveAll_fellBack hfn
  have hpids : ∀ q, ((unlinkHandle k (hashPid pid) prev h).handles q).pid = (k.handles q).pid :=
    fun q => (unlinkHandle_fields q).1
  have hflag : (k3.handles h).flag = (k.handles h).flag := by
    rw [hf.handles]
    exact (unlinkHandle_fields h).2
  -- the handle is freed from the slab as it was, in the heap without the timers
  have hslab : k3.schedSlab = k.schedSlab := by rw [hf.eq]; rfl
  have hheap : k3.heap = hp := by rw [hf.eq]; rfl
  have hkeep : k4 = { k3 with schedSlab := k4.schedSlab, heap := k4.heap } ∧
      FreedHandle k k4 h hp k4.heap := by
    unfold freeHandle at hfree
    rw [hflag] at hfree
    unfold FreedHandle
    split at hfree
    next hstatic =>
      obtain ⟨u, hu, rfl⟩ := map_eq_some_iff.mp hfree
      rw [if_pos hstatic, ← hslab, ← hheap]
      exact ⟨rfl, hu⟩
    next hstatic =>
      cases hfree
      rw [if_neg hstatic]
      exact ⟨rfl, hslab, hheap⟩
  obtain ⟨heq, hfreed⟩ := hkeep
  constructor
  · rw [heq, hf.eq]
    rfl
  · rw [heq, hf.eq]
    rfl
  · rw [heq, hf.eq]
    rfl
  · rw [heq, hf.eq]
    rfl
  · rw [heq, hf.eq]
    simp only [monitorRemoveAll, hpids]
  · exact ⟨_, k3, hfn, by rw [heq], rfl⟩
  · refine ⟨hp, k4.heap, ?_, hfreed, rfl⟩
    rw [heq, hf.eq]
    exact htimers

lemma CleanedUp.links (hc : CleanedUp img pid prev h k k') (q : Ptr) (i : ℕ) :
    k'.cbInRam q i = k.cbInRam q i ∨ k'.cbInRam q i = img.functAt (k.handles q).header i ∧
      Resets img (k.handles h).header (img.funct (k.handles q).header i) (k.cbInRam q i) := by
  obtain ⟨k2, k3, hfn, hslots, heq⟩ := hc.functions
  have hlinks := (fntableRemoveAll_fellBack hfn).links q i
  rw [heq] at hlinks
  simp only [unlinkHandle_header] at hlinks
  rwa [hslots]

lemma timerRemoveAll_eq (hrun : timerRemoveAll t hp pid = some (t', hp')) :
    freeBlocks (ownedBlocks pid t.all) t.slab hp = some (t'.slab, hp') ∧
    t'.deltaq = dropDelta pid t.deltaq.length t.deltaq ∧ t'.timerPool = dropOwned pid t.timerPool ∧
    t'.preallocTimerPool = dropOwned pid t.preallocTimerPool ∧
    t'.periodicPool = dropOwned pid t.periodicPool := by
  obtain ⟨⟨s, hp1⟩, hfree, heq⟩ := map_eq_some_iff.mp hrun
  rw [ownedBlocks_all] at hfree
  cases heq
  exact ⟨hfree, rfl, rfl, rfl, rfl⟩

lemma timerRemoveAll_clean (hrun : timerRemoveAll t hp pid = some (t', hp')) :
    ∀ u ∈ t'.all, u.pid ≠ pid := by
  obtain ⟨-, hdelta, hpool, hpre, hperiodic⟩ := timerRemoveAll_eq hrun
  intro u hu
  simp only [TimerState.all, mem_append, hdelta, hpool, hpre, hperiodic] at hu
  rcases hu with ((hu | hu) | hu) | hu
  · exact dropDelta_clean le_rfl hu
  · exact dropOwned_clean hu
  · exact dropOwned_clean hu
  · exact dropOwned_clean hu

lemma timerRemoveAll_memory (ht : Placed t) (hrun : timerRemoveAll t hp pid = some (t', hp')) :
    (∀ x, Allocated t'.slab.pools x ↔ Allocated t.slab.pools x ∧ .slab x ∉ ownedBlocks pid t.all) ∧
    (poolAddrs t'.slab.pools).Sublist (poolAddrs t.slab.pools) ∧
    ∀ owner rest, Backed t.slab owner rest hp → Backed t'.slab owner rest hp' := by
  obtain ⟨hfree, -⟩ := timerRemoveAll_eq hrun
  obtain ⟨items, hitems⟩ := freeBlocks_items hfree
  obtain ⟨s', h', hfree', -, hcount, hsub, hback⟩ := ht.freeBlocks_owned hp hitems
  rw [hfree] at hfree'
  cases hfree'
  exact ⟨hcount, hsub, hback⟩

lemma FreedHandle.backed {rest : Heap} (hs : WellFormed k.schedSlab) (hlive : LiveHandle img k h)
    (hfreed : FreedHandle k k' h hp hp')
    (hback : Backed k.schedSlab KernelState.kerSchedPid rest hp) :
    Backed k'.schedSlab KernelState.kerSchedPid rest hp' ∧
      (poolAddrs k'.schedSlab.pools).Sublist (poolAddrs k.schedSlab.pools) := by
  unfold FreedHandle at hfreed
  cases h with
  | other n =>
    rw [hlive.2] at hfreed
    obtain ⟨hslab, rfl⟩ := hfreed
    rw [hslab]
    exact ⟨hback, Sublist.refl _⟩
  | slab it =>
    rw [hlive.2] at hfreed
    obtain ⟨s', h', hfree, -, -, -, hsub, hback'⟩ := kerSlabFree_spec hs hlive.1
    rw [hfreed] at hfree
    obtain ⟨rfl, rfl⟩ := Prod.mk.inj (some.inj hfree)
    exact ⟨hback' _ _ hback, hsub⟩

lemma CleanedUp.heap (hs : Sound img k bins) (hlive : LiveHandle img k h)
    (htimers : timerRemoveAll k.timers k.heap pid = some (k'.timers, hp))
    (hfreed : FreedHandle k k' h hp hp') :
    (∀ b ∈ hp', b ∈ k.heap) ∧ ∀ b ∈ k.heap, b ∈ hp' ∨ (b.Intact ∧
      (EmptyPool k.timers.slab k'.timers.slab b.addr ∨
        EmptyPool k.schedSlab k'.schedSlab b.addr)) := by
  obtain ⟨rest, hback⟩ := hs.timersBacked
  obtain ⟨-, hsub, hback'⟩ := timerRemoveAll_memory hs.timers htimers
  obtain ⟨hin, hlost⟩ := hback.lost (hback' _ _ hback) hsub
  obtain ⟨rest2, hsched⟩ := hs.schedBacked
  have hpools : ∀ p ∈ k.schedSlab.pools,
      ⟨p.addr, KernelState.kerSchedPid, KernelState.kerSchedPid⟩ ∈ hp := by
    intro p hp
    rcases hlost _ ((hsched.blocks _).mpr (.inr ⟨p, hp, rfl⟩)) with hmem | ⟨howner, -⟩
    · exact hmem
    · exact absurd (show KernelState.kerSchedPid = timerPid from howner) (by decide)
  obtain ⟨hback2, hsub2⟩ := hfreed.backed hs.slab hlive (hsched.shrink hin hpools)
  obtain ⟨hin2, hlost2⟩ := (hsched.shrink hin hpools).lost hback2 hsub2
  refine ⟨fun b hb => hin b (hin2 b hb), fun b hb => ?_⟩
  rcases hlost b hb with hmem | ⟨-, hintact, hempty⟩
  · rcases hlost2 b hmem with hmem | ⟨-, hintact, hempty⟩
    · exact .inl hmem
    · exact .inr ⟨hintact, .inr hempty⟩
  · exact .inr ⟨hintact, .inl hempty⟩

lemma CleanedUp.heap_iff (hs : Sound img k bins) (hlive : LiveHandle img k h)
    (hc : CleanedUp img pid prev h k k') :
    (∀ b ∈ k'.heap, b.owner ≠ pid) ↔ ∀ b ∈ k.heap, b.owner = pid → b.Intact := by
  obtain ⟨hp, hp', htimers, hfreed, hheap⟩ := hc.memory
  obtain ⟨hin, hlost⟩ := CleanedUp.heap hs hlive htimers hfreed
  rw [hheap]
  constructor
  · intro hclean b hb howner
    by_contra hbad
    rcases hlost b hb with hmem | ⟨hintact, -⟩
    · exact hclean b (mem_memRemoveAll.mpr ⟨hmem, fun hh => hbad hh.2⟩) howner
    · exact hbad hintact
  · intro hguards b hb howner
    obtain ⟨hmem, hno⟩ := mem_memRemoveAll.mp hb
    exact hno ⟨howner, hguards b (hin b hmem) howner⟩

lemma filter_eraseP (p : α → Bool) (l : List α) : (l.eraseP p).filter p = (l.filter p).tail := by
  induction l with
  | nil => rfl
  | cons a l ih =>
    by_cases ha : p a = true
    · rw [eraseP_cons_of_pos ha, filter_cons_of_pos ha, tail_cons]
    · rw [eraseP_cons_of_neg ha, filter_cons_of_neg ha, filter_cons_of_neg ha, ih]

lemma filter_not_eraseP (p : α → Bool) (l : List α) :
    (l.eraseP p).filter (fun a => !p a) = l.filter (fun a => !p a) := by
  induction l with
  | nil => rfl
  | cons a l ih =>
    by_cases ha : p a = true
    · rw [eraseP_cons_of_pos ha, filter_cons_of_neg (by simp [ha])]
    · rw [eraseP_cons_of_neg ha, filter_cons_of_pos (by simp [ha]),
        filter_cons_of_pos (by simp [ha]), ih]

lemma CleanedUp.monitors_iff (hpid : (k.handles h).pid = pid) (hc : CleanedUp img pid prev h k k') :
    (∀ cb ∈ k'.monitors, cb.modHandle ≠ h) ↔
      ∀ cb ∈ (k.monitors.filter (fun cb => (k.handles cb.modHandle).pid = pid)).tail,
        cb.modHandle ≠ h := by
  rw [hc.monitors, ← filter_eraseP]
  constructor
  · intro hclean cb hcb
    exact hclean cb (mem_of_mem_filter hcb)
  · intro hrest cb hcb heq
    have hmem : cb ∈ (k.monitors.eraseP (fun cb => (k.handles cb.modHandle).pid = pid)).filter
        (fun cb => (k.handles cb.modHandle).pid = pid) := by
      apply mem_filter.mpr
      exact ⟨hcb, by simp [heq, hpid]⟩
    exact hrest cb hmem heq

lemma mem_of_chain_some {nxt : Ptr → Option Ptr} {l : List Ptr} (hc : Chain nxt (some h) l) :
    h ∈ l := by
  cases l with
  | nil => cases hc
  | cons q l =>
    rw [some.inj hc.1]
    exact mem_cons_self

section

variable (hs : Table img k bins) (hsplit : bins (hashPid pid) = l1 ++ h :: l2)
include hs hsplit

lemma handleBefore_eq : handleBefore bins pid h = l1.getLast? := by
  have hnodup := hs.nodup (hashPid_lt pid)
  rw [hsplit, nodup_middle, nodup_cons] at hnodup
  have hno : ∀ q ∈ l1, decide (q ≠ h) = true := by
    intro q hq
    apply decide_eq_true
    rintro rfl
    exact hnodup.1 (mem_append_left _ hq)
  rw [handleBefore, hsplit, takeWhile_append_of_pos hno,
    takeWhile_cons_of_neg (by simp), append_nil]

lemma filter_bin {b : ℕ} (hb : b < schedNumberBins) :
    (bins b).filter (fun q => q ≠ h) = update bins (hashPid pid) (l1 ++ l2) b := by
  have hmem : h ∈ bins (hashPid pid) := by simp [hsplit]
  by_cases hbin : b = hashPid pid
  · subst hbin
    have hnodup := hs.nodup hb
    rw [hsplit, nodup_middle, nodup_cons] at hnodup
    rw [update_self, hsplit, filter_append, filter_cons_of_neg (by simp), ← filter_append]
    apply filter_eq_self.mpr
    intro q hq
    apply decide_eq_true
    rintro rfl
    exact hnodup.1 hq
  · rw [update_of_ne hbin]
    apply filter_eq_self.mpr
    intro q hq
    apply decide_eq_true
    rintro rfl
    apply hbin
    rw [← hs.hashed b hb q hq, ← hs.hashed _ (hashPid_lt pid) q hmem]

lemma unlinkHandle_table :
    Table img (unlinkHandle k (hashPid pid) l1.getLast? h)
      (update bins (hashPid pid) (l1 ++ l2)) := by
  -- the table does not depend on the lookup cache
  have hgood : Good img { k with cache := none } bins :=
    ⟨hs.congr rfl rfl rfl, fun c hc => by cases hc⟩
  have hunlinked := hgood.unlinkHandle (hashPid_lt pid) hsplit (by simp)
  apply hunlinked.toTable.congr
  · cases l1.getLast? <;> rfl
  · cases l1.getLast? <;> rfl
  · cases l1.getLast? <;> rfl

lemma CleanedUp.bins_iff (hc : CleanedUp img pid prev h k k') :
    (∀ b < schedNumberBins, Chain k'.next (k'.modBin b) ((bins b).filter (fun q => q ≠ h))) ↔
      l1.getLast? = prev := by
  have hnext : k'.next = (unlinkHandle k (hashPid pid) prev h).next := by
    funext q
    simp only [Kernel.next, hc.handles]
  constructor
  · intro hbins
    by_contra hne
    have hchain := hs.chain _ (hashPid_lt pid)
    have hnodup := hs.nodup (hashPid_lt pid)
    have hchain' := hbins _ (hashPid_lt pid)
    rw [filter_bin hs hsplit (hashPid_lt pid), update_self] at hchain'
    rw [hsplit] at hchain hnodup
    rw [nodup_middle, nodup_cons] at hnodup
    apply hnodup.1
    apply mem_append_right
    rcases eq_nil_or_concat l1 with rfl | ⟨l, z, hl⟩
    · -- the first handle was not taken for the first one, so the bin still starts with it
      cases prev with
      | none => exact absurd rfl hne
      | some q =>
        have hstart : k'.modBin (hashPid pid) = some h := by
          rw [hc.modBin]
          exact hchain.1
        rw [hstart] at hchain'
        exact mem_of_chain_some hchain'
    · subst hl
      have hz : k.next z = some h := by
        have htail : Chain k.next (k.modBin (hashPid pid)) (l ++ z :: h :: l2) := by
          simpa using hchain
        exact htail.tail.1
      have hkept : k'.next z = k.next z := by
        rw [hnext]
        cases prev with
        | none => rfl
        | some q =>
          have hzq : z ≠ q := by
            rintro rfl
            exact hne (by simp)
          simp only [Kernel.next, unlinkHandle, setHandle_of_ne hzq]
      have htail : Chain k'.next (k'.modBin (hashPid pid)) (l ++ z :: l2) := by simpa using hchain'
      have hrest := htail.tail
      rw [hkept, hz] at hrest
      exact mem_of_chain_some hrest
  · rintro rfl b hb
    rw [filter_bin hs hsplit hb, hnext, hc.modBin]
    exact (unlinkHandle_table hs hsplit).chain b hb

end

lemma CleanedUp.resets (hs : Table img k bins) (hsplit : bins (hashPid pid) = l1 ++ h :: l2)
    (hc : CleanedUp img pid l1.getLast? h k k') (hq : Linked bins q) (hne : q ≠ h)
    (hi : i < (img.header (k.handles q).header).numSubFunc)
    (hreset : Resets img (k.handles h).header (img.funct (k.handles q).header i) (k.cbInRam q i)) :
    k'.cbInRam q i = img.functAt (k.handles q).header i := by
  obtain ⟨k2, k3, hfn, hslots, heq⟩ := hc.functions
  have hslab : k2.schedSlab = k.schedSlab := by rw [heq]
  have htable : Table img k2 (update bins (hashPid pid) (l1 ++ l2)) :=
    (unlinkHandle_table hs hsplit).congr (by rw [heq]) (by rw [heq])
      (hslab.trans unlinkHandle_slab.symm)
  have hhdr : ∀ r, (k2.handles r).header = (k.handles r).header := fun r => by
    rw [heq]
    exact unlinkHandle_header k _ _ h r
  have hcb : k2.cbInRam = k.cbInRam := by rw [heq]
  rw [hslots, ← hhdr q]
  have hlinked := (hs.linked_unlink (hashPid_lt pid) hsplit).mpr ⟨hq, hne⟩
  apply fntableRemoveAll_resets htable hfn hlinked
  · rwa [hhdr]
  · rwa [hhdr, hhdr, hcb]

lemma releasePid_others (k : Kernel) {i : ℕ} (hi : schedMinThreadPid + i ≠ pid) :
    (releasePid k pid).pidPool[i]? = k.pidPool[i]? := by
  unfold releasePid
  split
  · exact getElem?_set_ne (by omega)
  · rfl

lemma CleanedUp.othersKept (hs : Sound img k bins) (hlive : LiveHandle img k h)
    (hsplit : bins (hashPid pid) = l1 ++ h :: l2) (hc : CleanedUp img pid l1.getLast? h k k')
    {bins0 : ℕ → List Ptr} (hrem : Removable img k bins0 bins pid h) :
    OthersKept img bins pid h k k' := by
  obtain ⟨hp, hp', htimers, hfreed, hheap⟩ := hc.memory
  obtain ⟨-, hdelta, hpool, hpre, hperiodic⟩ := timerRemoveAll_eq htimers
  obtain ⟨hin, hlost⟩ := CleanedUp.heap hs hlive htimers hfreed
  constructor
  · intro q hq hne i hi
    rcases hc.links q i with hkept | ⟨hdef, hreset⟩
    · exact .inl hkept
    · rcases hrem.links q hq hne i hi hreset with hown | hsame
      · exact .inr ⟨hown, hdef⟩
      · exact .inl (hdef.trans hsame.symm)
  · exact (hc.bins_iff hs.toTable hsplit).mpr rfl
  · intro q
    rw [hc.handles]
    exact unlinkHandle_handles k _ _ h q
  · intro i hi
    rw [hc.pidPool]
    exact releasePid_others k hi
  · rw [hdelta]
    exact pending_dropDelta le_rfl hs.ordered 0
  · exact hpool
  · exact hpre
  · exact hperiodic
  · exact (timerRemoveAll_memory hs.timers htimers).1
  · intro i
    rw [hc.shm]
  · rw [hc.monitors]
    simpa using filter_not_eraseP (fun cb => decide ((k.handles cb.modHandle).pid = pid)) k.monitors
  · intro b hb
    rw [hheap] at hb
    exact hin b (mem_memRemoveAll.mp hb).1
  · intro b hb howner
    rcases hlost b hb with hmem | ⟨-, hempty⟩
    · rw [hheap]
      exact .inl (mem_memRemoveAll.mpr ⟨hmem, fun hh => howner hh.1⟩)
    · exact .inr hempty

lemma fntableRemoveAll_returns (hs : Table img k bins) (h : Ptr) :
    ∃ k', fntableRemoveAll img k h = some k' := by
  simp only [fntableRemoveAll, relinkHeader, fntableLinkProvidedFunctions, hs.allModules_eq]
  split
  · exact ⟨k, rfl⟩
  · exact ⟨_, rfl⟩

lemma freeHandle_returns (hs : WellFormed k.schedSlab) (hlive : LiveHandle img k h) :
    ∃ k', freeHandle k h = some k' := by
  unfold freeHandle
  cases h with
  | other n =>
    rw [hlive.2]
    exact ⟨k, rfl⟩
  | slab it =>
    obtain ⟨s', h', hfree, -⟩ := kerSlabFree_spec hs hlive.1
    rw [hlive.2, hfree]
    exact ⟨_, rfl⟩

lemma cleanUp_returns {items : List Item} (hs : Sound img k bins) (hlive : LiveHandle img k h)
    (hsplit : bins (hashPid pid) = l1 ++ h :: l2) (hpid : (k.handles h).pid = pid)
    (hitems : ownedBlocks pid k.timers.all = items.map Ptr.slab) :
    ∃ k', cleanUp img k pid l1.getLast? h = some k' := by
  obtain ⟨s', hp, hfree, -⟩ := hs.timers.freeBlocks_owned k.heap hitems
  have htable := unlinkHandle_table hs.toTable hsplit
  simp only [cleanUp, hpid, releasePid_unlinkHandle, removeTimers, timerRemoveAll, ownedBlocks_all,
    hfree, map_some, bind_some]
  set k2 : Kernel := monitorRemoveAll _ pid with hk2
  have hslab2 : k2.schedSlab = k.schedSlab := rfl
  have htable2 : Table img k2 (update bins (hashPid pid) (l1 ++ l2)) :=
    htable.congr rfl rfl (hslab2.trans unlinkHandle_slab.symm)
  obtain ⟨k3, hfn⟩ := fntableRemoveAll_returns htable2 h
  have hf := fntableRemoveAll_fellBack hfn
  have hslab : k3.schedSlab = k.schedSlab := by rw [hf.eq]; rfl
  have hlive3 : LiveHandle img k3 h := by
    have hflag : (k3.handles h).flag = (k.handles h).flag := by
      rw [hf.handles]
      exact (unlinkHandle_fields h).2
    cases h <;> simpa only [LiveHandle, hflag, hslab] using hlive
  obtain ⟨k4, hfree4⟩ := freeHandle_returns (hslab.symm ▸ hs.slab) hlive3
  rw [hfn, bind_some, hfree4]
  exact ⟨_, rfl⟩

def SlabTimers (t : TimerState) (pid : ℕ) : Prop :=
  ∀ u ∈ t.all, u.pid = pid → ∃ it, u.mem = .slab it

lemma SlabTimers.items (ht : SlabTimers t pid) :
    ∃ items : List Item, ownedBlocks pid t.all = items.map Ptr.slab := by
  have hall : ∀ p ∈ ownedBlocks pid t.all, ∃ it, Ptr.slab it = p := by
    intro p hp
    obtain ⟨u, hu, rfl⟩ := mem_map.mp hp
    obtain ⟨hmem, hpid⟩ := mem_filter.mp hu
    obtain ⟨it, hit⟩ := ht u hmem (by simpa using hpid)
    exact ⟨it, hit.symm⟩
  generalize ownedBlocks pid t.all = l at hall
  induction l with
  | nil => exact ⟨[], rfl⟩
  | cons p l ih =>
    obtain ⟨it, rfl⟩ := hall p mem_cons_self
    obtain ⟨items, rfl⟩ := ih (fun q hq => hall q (mem_cons_of_mem _ hq))
    exact ⟨it :: items, rfl⟩

lemma linked_split (hs : Table img k bins) (hlinked : Linked bins h)
    (hpid : (k.handles h).pid = pid) : ∃ l1 l2, bins (hashPid pid) = l1 ++ h :: l2 := by
  obtain ⟨b, hb, hmem⟩ := hlinked
  have hbin : b = hashPid pid := by rw [← hs.hashed b hb h hmem, hpid]
  subst hbin
  exact append_of_mem hmem

/-- A removal leaves nothing of the module, and all of the others, just if the kernel that the
`MSG_FINAL` handler leaves is `Removable`. -/
theorem deregistration_complete_iff (final : Kernel → Option Kernel) (hk : Table img k bins)
    (hlinked : Linked bins h) (hpid : (k.handles h).pid = pid)
    (hfinal : (if (img.header (k.handles h).header).hasHandler then final k else some k) = some k1)
    (hk1 : Sound img k1 bins1) (hlinked1 : Linked bins1 h) (hpid1 : (k1.handles h).pid = pid) :
    (Removable img k1 bins bins1 pid h → SlabTimers k1.timers pid →
      ∃ k', kerDeregisterModule img final k pid = some (k', 0)) ∧
    ∀ k' c, kerDeregisterModule img final k pid = some (k', c) → c = 0 ∧
      (Clean k' pid h ∧ OthersKept img bins1 pid h k1 k' ↔ Removable img k1 bins bins1 pid h) := by
  obtain ⟨l1, l2, hsplit⟩ := linked_split hk hlinked hpid
  obtain ⟨m1, m2, hsplit1⟩ := linked_split hk1.toTable hlinked1 hpid1
  obtain ⟨b, hb, hmem⟩ := id hlinked1
  have hlive : LiveHandle img k1 h := hk1.live b hb h hmem
  have hrun : kerDeregisterModule img final k pid =
      (cleanUp img k1 pid l1.getLast? h).map (fun k2 => (k2, 0)) := by
    rw [kerDeregisterModule, findPrev_eq hk hsplit hpid]
    simp only [hfinal, bind_some]
  have hplace : handleBefore bins1 pid h = handleBefore bins pid h ↔
      m1.getLast? = l1.getLast? := by
    rw [handleBefore_eq hk hsplit, handleBefore_eq hk1.toTable hsplit1]
  rw [hrun]
  constructor
  · intro hrem htimers
    obtain ⟨items, hitems⟩ := htimers.items
    obtain ⟨k', hk'⟩ := cleanUp_returns hk1 hlive hsplit1 hpid1 hitems
    rw [hplace.mp hrem.place] at hk'
    exact ⟨k', by rw [hk', map_some]⟩
  · intro k' c heq
    obtain ⟨k2, hclean, heq⟩ := map_eq_some_iff.mp heq
    cases heq
    have hc := cleanUp_cleanedUp hpid1 hclean
    refine ⟨rfl, fun ⟨hcl, hothers⟩ => ?_, fun hrem => ⟨?_, ?_⟩⟩
    · have hsame := (hc.bins_iff hk1.toTable hsplit1).mp hothers.bins
      refine ⟨hplace.mpr hsame, hc.shm ▸ hcl.shm, (hc.monitors_iff hpid1).mp hcl.monitors,
        (hc.heap_iff hk1 hlive).mp hcl.heap, fun q hq hne i hi hreset => ?_⟩
      rw [← hsame] at hc
      have hdef := hc.resets hk1.toTable hsplit1 hq hne hi hreset
      rcases hothers.links q hq hne i hi with hkept | ⟨hown, -⟩
      · exact .inr (hkept.symm.trans hdef)
      · exact .inl hown
    · obtain ⟨hp, hp', htimers, -⟩ := hc.memory
      refine ⟨timerRemoveAll_clean htimers, ?_, (hc.monitors_iff hpid1).mpr hrem.monitors,
        (hc.heap_iff hk1 hlive).mpr hrem.guards⟩
      rw [hc.shm]
      exact hrem.shm
    · rw [← hplace.mp hrem.place] at hc
      exact hc.othersKept hk1 hlive hsplit1 hrem

def firstHandle : Ptr := .slab ⟨100, 0⟩
def secondHandle : Ptr := .slab ⟨100, 1⟩

/-- Two modules in one bin; the one behind is removed. -/
def twoModules : Kernel :=
  { sampleKernel with
    heap := [⟨100, 2, 2⟩, ⟨200, 4, 4⟩, ⟨600, 129, 129⟩, ⟨640, 133, 133⟩]
    handles := update (update sampleKernel.handles firstHandle
      ⟨none, 2, 129, 0, 600⟩) secondHandle ⟨some firstHandle, 6, 133, 0, 640⟩
    modBin := update sampleKernel.modBin 1 (some secondHandle)
    schedSlab := ⟨[⟨100, [true, true, false, false]⟩], 4⟩
    timers := ⟨[⟨.slab ⟨200, 0⟩, 0, 129, 1, 50, 5, 0⟩, ⟨.slab ⟨200, 1⟩, 0, 133, 1, 80, 3, 0⟩],
      [], [], [], ⟨[⟨200, [true, true, false, false]⟩], 4⟩⟩
    monitors := [⟨secondHandle, 1⟩, ⟨firstHandle, 1⟩] }

def twoBins : ℕ → List Ptr := update (fun _ => []) 1 [secondHandle, firstHandle]

lemma twoModules_sound : Sound sampleImage twoModules twoBins := by
  have htable : Table sampleImage twoModules twoBins := by
    refine ⟨?_, ?_, ?_, ?_, ?_⟩
    · intro b _
      by_cases hb : b = 1
      · subst hb
        exact ⟨rfl, rfl, rfl⟩
      · simp [twoBins, twoModules, hb, Chain, sampleKernel]
    · decide +kernel
    · decide +kernel
    · intro b _
      by_cases hb : b = 1
      · subst hb
        simp [twoBins, LiveHandle, Allocated, twoModules, firstHandle, secondHandle]
      · simp [twoBins, hb]
    · constructor <;> simp [twoModules, poolAddrs, Busy]
  refine ⟨htable, ⟨?_, by decide +kernel, ?_⟩, ?_,
    ⟨[⟨100, 2, 2⟩, ⟨600, 129, 129⟩, ⟨640, 133, 133⟩], ?_⟩,
    ⟨[⟨200, 4, 4⟩, ⟨600, 129, 129⟩, ⟨640, 133, 133⟩], ?_⟩⟩
  · constructor <;> simp [twoModules, poolAddrs, Busy]
  · simp [twoModules, TimerState.all, Allocated]
  · simp [DeltaOrdered, twoModules]
  · constructor <;> simp [twoModules, poolAddrs, addrs, timerPid]
    tauto
  · constructor <;> simp [twoModules, poolAddrs, addrs, KernelState.kerSchedPid]
    tauto

lemma twoModules_linked : Linked twoBins firstHandle := ⟨1, by decide, by decide⟩

theorem deregistration_complete_sample :
    ∃ k', kerDeregisterModule sampleImage some twoModules 129 = some (k', 0) ∧
      Clean k' 129 firstHandle ∧ OthersKept sampleImage twoBins 129 firstHandle twoModules k' := by
  have hall := deregistration_complete_iff some twoModules_sound.toTable
    twoModules_linked rfl rfl twoModules_sound twoModules_linked rfl
  have hrem : Removable sampleImage twoModules twoBins twoBins 129 firstHandle := by
    refine ⟨rfl, ?_, by decide +kernel, by decide +kernel, fun _ _ _ _ _ hreset => ?_⟩
    · rintro ⟨i, -, e, he, -⟩
      cases he
    · exact absurd hreset.1 (by decide +kernel)
  obtain ⟨k', hrun⟩ := hall.1 hrem (by
    intro u hu hpid
    simp only [twoModules, TimerState.all, append_nil, mem_cons, not_mem_nil,
      or_false] at hu
    rcases hu with rfl | rfl
    · exact ⟨_, rfl⟩
    · exact ⟨_, rfl⟩)
  obtain ⟨-, hiff⟩ := hall.2 k' 0 hrun
  exact ⟨k', hrun, hiff.mpr hrem⟩

/-- The module owns shared memory, has two monitors, and one of its blocks lost its guard. -/
def messyModule : Kernel :=
  { twoModules with
    heap := ⟨680, 129, 0⟩ :: twoModules.heap
    shm := ⟨update (fun _ => []) 3 [⟨⟨300, 0⟩, 7, 600, 129, [255, 255]⟩],
      ⟨[⟨300, [true, false, false, false]⟩], 4⟩⟩
    monitors := [⟨firstHandle, 1⟩, ⟨firstHandle, 2⟩] }

theorem removal_leaves_traces :
    ∃ k', kerDeregisterModule sampleImage some messyModule 129 = some (k', 0) ∧
      MentionsPid k'.shm 129 ∧ (∃ cb ∈ k'.monitors, cb.modHandle = firstHandle) ∧
      (∃ b ∈ k'.heap, b.owner = 129) ∧ ¬ Clean k' 129 firstHandle := by
  have hshm : MentionsPid messyModule.shm 129 := ⟨3, by decide, _, mem_cons_self, .inl rfl⟩
  refine ⟨_, rfl, hshm, by decide +kernel, by decide +kernel, fun hclean => ?_⟩
  exact hclean.shm hshm

end Deregistration
