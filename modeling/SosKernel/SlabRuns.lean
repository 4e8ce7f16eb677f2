import SosKernel.GuardedRuns
import SosKernel.SlabPools

/-! # Runs of a slab

The items that clients hold, while the slab takes pools from the heap and gives them back. -/
namespace SlabRuns

open HeapBlocks SlabPools GuardedRuns List

/-- `ker_slab_init` with a heap that returns `q`; `none` if it refuses. -/
def kerSlabInit (h : Heap) (q pid itemsPerPool : ℕ) : Option (Slab × Heap) :=
  if 8 < itemsPerPool ∨ q = 0 then none
  else some (⟨[⟨q, replicate itemsPerPool false⟩], itemsPerPool⟩, kerMalloc h q pid)

structure State where
  slab : Slab
  heap : Heap
  held : List Item

inductive Call where
  | alloc (q : ℕ)
  | free (it : Item)

def step (pid : ℕ) (s : State) : Call → Option State
  | .alloc q =>
    let r := kerSlabAlloc s.slab s.heap q pid
    some ⟨r.1, r.2.1, r.2.2.toList ++ s.held⟩
  | .free it => (kerSlabFree s.slab s.heap (.slab it)).map (fun r => ⟨r.1, r.2, s.held.erase it⟩)

/-- The heap returns `NULL` or a new block, and clients give back what they hold. -/
def Legal (s : State) : Call → Prop
  | .alloc q => q ∉ addrs s.heap
  | .free it => it ∈ s.held

instance (s : State) (e : Call) : Decidable (Legal s e) := by
  cases e <;> (dsimp only [Legal]; infer_instance)

/-- Exactly the items held are allocated, and beside `rest` the heap holds exactly the pools, of
which all but the first have an item in use. -/
structure Sound (pid : ℕ) (rest : Heap) (s : State) : Prop where
  wellFormed : WellFormed s.slab
  backed : Backed s.slab pid rest s.heap
  held : ∀ it, Allocated s.slab.pools it ↔ it ∈ s.held
  once : s.held.Nodup

variable {pid : ℕ} {rest : Heap}

lemma step_sound (s : State) (e : Call) (hs : Sound pid rest s) (hl : Legal s e) :
    ∃ u, step pid s e = some u ∧ Sound pid rest u := by
  cases e with
  | alloc q =>
    refine ⟨_, rfl, ?_⟩
    rcases hrun : kerSlabAlloc s.slab s.heap q pid with ⟨s', h', _ | it⟩
    · obtain ⟨rfl, rfl, -⟩ := kerSlabAlloc_none hrun
      exact hs
    · have hpool : q ∉ poolAddrs s.slab.pools := fun hq => hl (hs.backed.pool_mem hq)
      have hrest : q ∉ addrs rest := fun hq => hl (hs.backed.rest_mem hq)
      obtain ⟨hwf, hnew, hall, -, hback⟩ := kerSlabAlloc_some hs.wellFormed hpool hrun
      refine ⟨hwf, hback rest hs.backed hrest, fun x => ?_, ?_⟩
      · rw [hall, hs.held]
        exact or_comm.trans mem_cons.symm
      · exact nodup_cons.mpr ⟨fun hm => hnew ((hs.held it).mpr hm), hs.once⟩
  | free it =>
    obtain ⟨s', h', hrun, hwf, hall, -, -, hback⟩ :=
      kerSlabFree_spec hs.wellFormed ((hs.held it).mpr hl)
    refine ⟨_, by rw [step, hrun]; rfl, hwf, hback _ _ hs.backed, fun x => ?_, hs.once.erase it⟩
    rw [hall, hs.held, hs.once.mem_erase_iff, and_comm]

lemma kerSlabInit_sound {q n : ℕ} {slab : Slab} {h : Heap} (hn : 0 < n) (hq : q ∉ addrs rest)
    (hinit : kerSlabInit rest q pid n = some (slab, h)) : Sound pid rest ⟨slab, h, []⟩ := by
  unfold kerSlabInit at hinit
  split at hinit
  next => cases hinit
  next hok =>
    cases hinit
    have hq0 : q ≠ 0 := fun hz => hok (.inr hz)
    refine ⟨⟨hn, by simp, by simp [poolAddrs], by simp [poolAddrs, hq0.symm], by simp,
      .inl rfl, trivial⟩, ⟨fun b => ?_, by simpa [poolAddrs] using hq⟩, fun it => ?_, .nil⟩
    · simp [kerMalloc, hq0, or_comm]
    · exact iff_of_false (not_allocated_of_clear (by simp)) not_mem_nil

theorem items_over_runs (pid n q : ℕ) (rest h : Heap) (slab : Slab) (es : List Call) (hn : 0 < n)
    (hq : q ∉ addrs rest) (hinit : kerSlabInit rest q pid n = some (slab, h))
    (hv : ValidTrace (step pid) Legal ⟨slab, h, []⟩ es) :
    ∃ u, runTrace (step pid) ⟨slab, h, []⟩ es = some u ∧ Sound pid rest u :=
  run_invariant step_sound (kerSlabInit_sound hn hq hinit) hv

theorem items_of_two_pools : ∃ u, runTrace (step 9) ⟨⟨[⟨64, [false]⟩], 1⟩, [⟨64, 9, 9⟩], []⟩
    [.alloc 0, .alloc 80, .free ⟨80, 0⟩] = some u ∧ Sound 9 [] u :=
  items_over_runs 9 1 64 [] _ _ _ (by decide) (by decide) rfl (by decide)

end SlabRuns
