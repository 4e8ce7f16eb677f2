import SosKernel.HeapBlocks
import SosKernel.HeapRuns

/-! # The bytes of the heap and the list of its blocks

The other subsystems are modelled over the list of blocks. Here the allocator works on the bytes
and the block operations on the list, call by call. -/
namespace HeapSimulation

open ByteMemory HeapLayout HeapAreas GuardedRuns HeapBlocks List
open HeapRuns (avrConf)

inductive Call where
  | alloc (longterm : Bool) (size : ℕ) (id : UInt8)
  | free (pntr : ℕ)
  | changeOwn (ptr : ℕ) (id : UInt8)
  | removeAll (id : UInt8)

variable (c : MallocConf)

def allocate (longterm : Bool) : Mem → ℕ → ℕ → Option (Mem × ℕ) :=
  if longterm then sosBlkMemLongtermAlloc c else sosBlkMemAlloc c

def step (s : Mem × Heap) : Call → Option (Mem × Heap)
  | .alloc longterm size id => (allocate c longterm s.1 size id.toNat).map (fun r =>
      (r.1, kerMalloc s.2 r.2 id.toNat))
  | .free pntr => (sosBlkMemFree c s.1 pntr).map (·, kerFree s.2 pntr)
  | .changeOwn ptr id =>
    some ((sosBlkMemChangeOwn c s.1 ptr id.toNat).1, kerChangeOwn s.2 ptr id.toNat)
  | .removeAll id =>
    (HeapLayout.memRemoveAll c s.1 id.toNat).map (·, HeapBlocks.memRemoveAll s.2 id.toNat)

def Legal (s : Mem × Heap) : Call → Prop
  | .alloc _ size _ => size + c.blockOverhead + c.blockSize - 1 ≤ 65535
  | .free p | .changeOwn p _ => p ∈ 0 :: addrs s.2
  | .removeAll _ => True

instance (s : Mem × Heap) (e : Call) : Decidable (Legal c s e) := by
  cases e <;> (dsimp only [Legal]; infer_instance)

/-- The list names the reserved areas, each once, with the owner and guard byte in memory. -/
def Simulates (s : Mem × Heap) : Prop := (addrs s.2).Nodup ∧ ∃ L, Abstracts c s.1 L s.2

variable {c}

lemma step_simulates (s : Mem × Heap) (e : Call) (hs : Simulates c s) (hl : Legal c s e) :
    ∃ u, step c s e = some u ∧ Simulates c u := by
  obtain ⟨m, h⟩ := s
  obtain ⟨hd, L, habs⟩ := hs
  have hkeep (keep : Block → Bool) : (addrs (h.filter keep)).Nodup :=
    hd.sublist (filter_sublist.map _)
  cases e with
  | alloc longterm size id =>
    have hserved : Served c m L size id.toNat (allocate c longterm m size id.toNat) := by
      cases longterm with
      | false => exact sosBlkMemAlloc_spec size _ habs.represents hl
      | true => exact sosBlkMemLongtermAlloc_spec size _ habs.represents hl
    obtain ⟨m', p, L', hrun, hnew, habs'⟩ := served_refines habs id.toNat_lt hserved
    refine ⟨(m', kerMalloc h p id.toNat), by simp [step, hrun], ?_, L', habs'⟩
    rw [kerMalloc]
    split
    · exact hd
    · exact nodup_cons.mpr ⟨hnew, hd⟩
  | free pntr =>
    rcases mem_cons.mp hl with rfl | hp
    · exact ⟨(m, h), by simp [step, sosBlkMemFree, kerFree], hd, L, habs⟩
    · obtain ⟨m', L', hrun, habs'⟩ := sosBlkMemFree_refines habs hp
      refine ⟨(m', kerFree h pntr), by simp [step, hrun], ?_, L', habs'⟩
      rw [kerFree]
      split
      · exact hd
      · exact hkeep _
  | changeOwn ptr id =>
    refine ⟨_, rfl, (addrs_kerChangeOwn h ptr id.toNat).symm ▸ hd, L, ?_⟩
    rcases mem_cons.mp hl with rfl | hp
    · simpa [sosBlkMemChangeOwn, kerChangeOwn] using habs
    · exact sosBlkMemChangeOwn_refines habs id.toNat_lt hp
  | removeAll id =>
    obtain ⟨m', L', hrun, habs'⟩ := memRemoveAll_refines habs id.toNat
    exact ⟨_, by rw [step, hrun]; rfl, hkeep _, L', habs'⟩

/-- The two heaps stay together, also from a heap in which guard bytes were overwritten. -/
theorem blocks_simulated_over_runs (c : MallocConf) (s : Mem × Heap) (es : List Call)
    (hs : Simulates c s) (hv : ValidTrace (step c) (Legal c) s es) :
    ∃ u, runTrace (step c) s es = some u ∧ Simulates c u :=
  run_invariant step_simulates hs hv

lemma memInit_simulates (m : Mem) : ∃ m0, memInit c m = some m0 ∧ Simulates c (m0, []) := by
  obtain ⟨m0, hinit, hrep⟩ := memInit_spec (c := c) m
  exact ⟨m0, hinit, .nil, _, hrep, by simp [reservedAreas]⟩

def sampleCalls : List Call := [.alloc false 10 7, .alloc true 6 9, .changeOwn 0x103 9, .free 0x103]

theorem blocks_of_four_calls : ∃ m0 u, memInit avrConf (fun _ => 0xaa) = some m0 ∧
    runTrace (step avrConf) (m0, []) sampleCalls = some u ∧ Simulates avrConf u := by
  obtain ⟨m0, hinit, hs⟩ := memInit_simulates (c := avrConf) (fun _ => 0xaa)
  have hv : (memInit avrConf (fun _ => 0xaa)).elim False (fun m =>
      ValidTrace (step avrConf) (Legal avrConf) (m, []) sampleCalls) := by
    decide +kernel
  rw [hinit] at hv
  obtain ⟨u, hrun, hu⟩ := blocks_simulated_over_runs _ _ _ hs hv
  exact ⟨m0, u, hinit, hrun, hu⟩

end HeapSimulation
