import SosKernel.HeapReallocation
import SosKernel.GuardedRuns

/-! # Runs of the heap

A run starts at `mem_init` and makes allocator calls; between them clients store bytes in the
blocks they hold. `live` is the set of user pointers that were returned and not given back. -/
namespace HeapRuns

open ByteMemory HeapLayout LinkedRing HeapAreas GuardedRuns List

structure State where
  mem : Mem
  live : List ℕ

inductive Call where
  | alloc (size : ℕ) (id : UInt8)
  | longtermAlloc (size : ℕ) (id : UInt8)
  | free (pntr : ℕ)
  | realloc (pntr newSize : ℕ)
  | changeOwn (ptr : ℕ) (id : UInt8)
  | removeAll (id : UInt8)
  | clientWrite (pntr x : ℕ) (b : UInt8)
  deriving DecidableEq

variable (c : MallocConf) {m : Mem} {L l1 l2 : List Area} {m' : Mem} {x : ℕ}

def returned (s : State) : Mem × ℕ → State
  | (m, p) => ⟨m, if p = 0 then s.live else p :: s.live⟩

def step (s : State) : Call → Option State
  | .alloc size id => (sosBlkMemAlloc c s.mem size id.toNat).map (returned s)
  | .longtermAlloc size id => (sosBlkMemLongtermAlloc c s.mem size id.toNat).map (returned s)
  | .free pntr => (sosBlkMemFree c s.mem pntr).map (fun m => ⟨m, s.live.filter (· ≠ pntr)⟩)
  | .realloc pntr newSize =>
    -- a `NULL` result leaves the old block with its owner
    (sosBlkMemRealloc c s.mem pntr newSize).map (fun r =>
      ⟨r.1, if r.2 = 0 then s.live else r.2 :: s.live.filter (· ≠ pntr)⟩)
  | .changeOwn ptr id => some { s with mem := (sosBlkMemChangeOwn c s.mem ptr id.toNat).1 }
  | .removeAll id => (memRemoveAll c s.mem id.toNat).map (fun m =>
      ⟨m, s.live.filter (fun p => c.get s.mem (toBlockPtr c p) .owner ≠ id.toNat)⟩)
  | .clientWrite _ x b => some { s with mem := store s.mem x b }

def Passable (s : State) (p : ℕ) : Prop := p = 0 ∨ p ∈ s.live
  deriving Decidable

/-- What the callers owe: sizes that do not wrap, live pointers, writes in the user part. -/
def Legal (s : State) : Call → Prop
  | .alloc size _ => size + c.blockOverhead + c.blockSize - 1 ≤ 65535
  | .longtermAlloc size _ => size + c.blockOverhead + c.blockSize - 1 ≤ 65535
  | .free pntr => Passable s pntr
  | .realloc pntr newSize => Passable s pntr ∧ newSize + c.blockOverhead + c.blockSize - 1 ≤ 65535
  | .changeOwn ptr _ => Passable s ptr
  | .removeAll _ => True
  | .clientWrite pntr x _ => pntr ∈ s.live ∧ pntr ≤ x ∧
    x < toBlockPtr c pntr + areaSize c s.mem (toBlockPtr c pntr) * c.blockSize

instance (s : State) (e : Call) : Decidable (Legal c s e) := by
  cases e <;> (dsimp only [Legal]; infer_instance)

def boot (m : Mem) : Option State := (memInit c m).map (fun m' => ⟨m', []⟩)

def walk (m : Mem) : ℕ → ℕ → Option (List ℕ)
  | 0, _ => none
  | fuel + 1, p =>
    if p = c.mSentinel then some []
    else if areaSize c m p = 0 then none
    else (walk m fuel (p + areaSize c m p * c.blockSize)).map (p :: ·)

def HeapConsistent (m : Mem) : Prop :=
  ∃ areas free, walk c m c.numHeapBlocks c.mallocHeap = some areas ∧
    Ring (fun p => c.get m p .next) (fun p => c.get m p .prev) c.mSentinel free ∧
    free.Pairwise (· < ·) ∧
    ∀ p, p ∈ free ↔ p ∈ areas ∧ ¬ isReserved c m p

variable {c} {live : List ℕ} {L' : List Area} {a : Area} {s : State} {p : ℕ}

lemma walk_spec {fuel : ℕ} (h : Represents c m (l1 ++ l2)) (hfuel : l2.length < fuel) :
    walk c m fuel (c.addr ((l2.map Area.idx).headD (c.numHeapBlocks - 1))) =
      some (l2.map (fun a => c.addr a.idx)) := by
  induction l2 generalizing l1 fuel with
  | nil =>
    obtain ⟨fuel, rfl⟩ := Nat.exists_eq_add_of_lt hfuel
    exact if_pos rfl
  | cons a l2 ih =>
    cases fuel with
    | zero => simp at hfuel
    | succ fuel =>
      have hpos := h.tiles.pos
      have hsize := h.areaSize_eq (a := a) (by simp)
      have hassoc : Represents c m ((l1 ++ [a]) ++ l2) := by simpa using h
      have hrest := ih hassoc (show l2.length < fuel by simpa using hfuel)
      rw [h.tiles.head_idx] at hrest
      simp only [map_cons, headD_cons, walk]
      rw [if_neg (addr_ne_sentinel h (by simp)), hsize, if_neg (by omega), ← addr_add, hrest]
      rfl

lemma consistent_of_represents (h : Represents c m L) : HeapConsistent c m := by
  have hwalk := walk_spec (show Represents c m ([] ++ L) from h) h.length_lt
  rw [h.start] at hwalk
  refine ⟨_, (freeBlocks L).map c.addr, hwalk, h.ring, ?_, ?_⟩
  · have hord := (pairwise_append.mp h.ordered).1
    exact pairwise_map.mpr (hord.imp (fun hlt => addr_lt_iff.mpr hlt))
  · intro p
    simp only [mem_map, mem_freeBlocks]
    constructor
    · rintro ⟨i, ⟨a, ha, hfree, rfl⟩, rfl⟩
      refine ⟨⟨a, ha, rfl⟩, ?_⟩
      rw [h.isReserved_iff ha, hfree]
      simp
    · rintro ⟨⟨a, ha, rfl⟩, hr⟩
      rw [h.isReserved_iff ha] at hr
      exact ⟨a.idx, ⟨a, ha, by simpa using hr, rfl⟩, rfl⟩

def LiveIn (c : MallocConf) (live : List ℕ) (L : List Area) : Prop :=
  ∀ p ∈ live, ∃ a ∈ reservedAreas L, p = userPart c (c.addr a.idx)

def Inv (c : MallocConf) (s : State) : Prop := ∃ L, Represents c s.mem L ∧ LiveIn c s.live L

lemma LiveIn.mono (h : LiveIn c live L) (hs : ∀ e ∈ reservedAreas L, e ∈ reservedAreas L') :
    LiveIn c live L' := by
  intro p hp
  obtain ⟨a, ha, rfl⟩ := h p hp
  exact ⟨a, hs a ha, rfl⟩

lemma LiveIn.cons (h : LiveIn c live L) (ha : a ∈ reservedAreas L) :
    LiveIn c (userPart c (c.addr a.idx) :: live) L := by
  exact forall_mem_cons.mpr ⟨⟨a, ha, rfl⟩, h⟩

lemma LiveIn.others (h : LiveIn c live (l1 ++ a :: l2)) :
    LiveIn c (live.filter (· ≠ userPart c (c.addr a.idx))) (l1 ++ l2) := by
  intro p hp
  obtain ⟨hp, hne⟩ := mem_filter.mp hp
  obtain ⟨e, he, rfl⟩ := h p hp
  refine ⟨e, mem_reservedAreas_others he ?_, rfl⟩
  rintro rfl
  simp at hne

lemma inv_of_allocated {id : ℕ} (h : Allocated c s.mem L m' L' a id)
    (hl : LiveIn c s.live L) : Inv c (returned s (m', userPart c (c.addr a.idx))) := by
  refine ⟨L', h.represents, ?_⟩
  simp only [returned, if_neg (userPart_ne_zero a.idx)]
  exact (hl.mono h.survives.reserved).cons ((h.reserved a).mpr (.inl rfl))

lemma inv_of_evolves (h : Evolves c s.mem L m' L') (hl : LiveIn c s.live L) :
    Inv c (returned s (m', 0)) :=
  ⟨L', h.represents, hl.mono h.survives.reserved⟩

lemma live_area (hl : LiveIn c s.live L) (hp : Passable s p) (hz : p ≠ 0) :
    ∃ l1 a l2, L = l1 ++ a :: l2 ∧ a.reserved = true ∧ p = userPart c (c.addr a.idx) := by
  rcases hp with rfl | hp
  · exact (hz rfl).elim
  · obtain ⟨a, ha, rfl⟩ := hl p hp
    obtain ⟨hmem, hr⟩ := mem_reservedAreas.mp ha
    obtain ⟨l1, l2, rfl⟩ := append_of_mem hmem
    exact ⟨l1, a, l2, rfl, hr, rfl⟩

variable {s : State} {id : UInt8}

lemma served_preserves {size id : ℕ} {run : Option (Mem × ℕ)} (hl : LiveIn c s.live L)
    (hrun : Served c s.mem L size id run) : ∃ u, run.map (returned s) = some u ∧ Inv c u := by
  obtain ⟨m', p, L', rfl, ⟨rfl, hev⟩ | ⟨a, rfl, halloc, -⟩⟩ := hrun
  · exact ⟨_, rfl, inv_of_evolves hev hl⟩
  · exact ⟨_, rfl, inv_of_allocated halloc hl⟩

section

variable (h : Represents c s.mem L) (hl : LiveIn c s.live L)
include h hl

lemma free_preserves (hp : Passable s p) : ∃ u, step c s (.free p) = some u ∧ Inv c u := by
  by_cases hz : p = 0
  · subst hz
    refine ⟨⟨s.mem, s.live.filter (· ≠ 0)⟩, by simp [step, sosBlkMemFree], L, h, ?_⟩
    exact fun q hq => hl q (mem_filter.mp hq).1
  obtain ⟨l1, a, l2, rfl, hr, rfl⟩ := live_area hl hp hz
  obtain ⟨m', hrun, hres⟩ := sosBlkMemFree_spec h hr
  refine ⟨_, by rw [step, hrun]; rfl, ?_⟩
  rcases hres with ⟨-, rfl⟩ | ⟨-, hrep, -⟩
  · exact ⟨_, h, fun q hq => hl q (mem_filter.mp hq).1⟩
  · refine ⟨_, hrep, hl.others.mono ?_⟩
    intro e he
    rw [reservedAreas_without rfl]
    exact he

lemma realloc_preserves {n : ℕ} (hp : Passable s p)
    (hsize : n + c.blockOverhead + c.blockSize - 1 ≤ 65535) :
    ∃ u, step c s (.realloc p n) = some u ∧ Inv c u := by
  by_cases hz : p = 0
  · subst hz
    exact ⟨s, by simp [step, sosBlkMemRealloc], L, h, hl⟩
  obtain ⟨l1, a, l2, rfl, hr, rfl⟩ := live_area hl hp hz
  by_cases hn : n = 0
  · refine ⟨_, by rw [step, sosBlkMemRealloc, if_pos (.inr hn)]; rfl, l1 ++ a :: l2, ?_⟩
    refine ⟨h, ?_⟩
    simp only [if_neg hz]
    have hothers := hl.others.mono (fun e he => (mem_reservedAreas_cons hr).mpr (.inr he))
    exact hothers.cons (mem_reservedAreas.mpr ⟨by simp, hr⟩)
  obtain ⟨fr, l3, m', q, L', -, -, -, hrun, hout⟩ := sosBlkMemRealloc_outcome h hr hn hsize
  refine ⟨_, by rw [step, hrun]; rfl, L', ?_⟩
  cases hout with
  | inPlace fits heap owned contents =>
    refine ⟨heap.represents, ?_⟩
    simp only [if_neg hz]
    have hothers := hl.others.mono (fun e he => (heap.reserved e).mpr (.inr he))
    have hnew : ⟨a.idx, reqBlocks c n, true⟩ ∈ reservedAreas L' :=
      (heap.reserved _).mpr (.inl (mem_singleton_self _))
    have hboth := hothers.cons hnew
    exact hboth
  | moved b full room elsewhere heap owned contents =>
    refine ⟨heap.represents, ?_⟩
    simp only [if_neg (userPart_ne_zero b.idx)]
    have hothers := hl.others.mono (fun e he => (heap.reserved e).mpr (.inr he))
    exact hothers.cons ((heap.reserved b).mpr (.inl mem_cons_self))
  | failed full heap body guard =>
    refine ⟨heap.represents, fun q hq => ?_⟩
    -- the old pointer is still good, for an area that may have grown
    by_cases hqa : q = userPart c (c.addr a.idx)
    · exact ⟨_, (heap.reserved _).mpr (.inl (mem_singleton_self _)), hqa⟩
    · exact (hl.others.mono (fun e he => (heap.reserved e).mpr (.inr he))) q
        (mem_filter.mpr ⟨hq, by simpa using hqa⟩)

lemma changeOwn_preserves (hp : Passable s p) :
    ∃ u, step c s (.changeOwn p id) = some u ∧ Inv c u := by
  refine ⟨_, rfl, ?_⟩
  by_cases hz : p = 0
  · subst hz
    exact ⟨L, by simpa [sosBlkMemChangeOwn] using h, hl⟩
  obtain ⟨l1, a, l2, rfl, hr, rfl⟩ := live_area hl hp hz
  exact ⟨_, (sosBlkMemChangeOwn_spec id.toNat h hr).1, hl⟩

lemma removeAll_preserves : ∃ u, step c s (.removeAll id) = some u ∧ Inv c u := by
  obtain ⟨m', hrun, hrep, -⟩ := memRemoveAll_spec id.toNat h
  refine ⟨_, by rw [step, hrun]; rfl, _, hrep, ?_⟩
  intro p hp
  obtain ⟨hp, hne⟩ := mem_filter.mp hp
  obtain ⟨a, ha, rfl⟩ := hl p hp
  rw [toBlockPtr_userPart] at hne
  have hsame : release c s.mem id.toNat a = a := if_neg (fun hh => (of_decide_eq_true hne) hh.2.1)
  obtain ⟨hmem, hr⟩ := mem_reservedAreas.mp ha
  refine ⟨a, mem_reservedAreas.mpr ⟨mem_map.mpr ⟨a, hmem, hsame⟩, hr⟩, rfl⟩

end

lemma clientWrite_represents (b : UInt8) (h : Represents c m L) (ha : a ∈ reservedAreas L)
    (hlo : userPart c (c.addr a.idx) ≤ x) (hhi : x < c.addr (a.idx + a.len)) :
    Represents c (store m x b) L := by
  obtain ⟨hmem, hr⟩ := mem_reservedAreas.mp ha
  obtain ⟨l1, l2, rfl⟩ := append_of_mem hmem
  rw [Represents, freeBlocks_append, freeBlocks_cons_reserved hr] at h ⊢
  have hhdr := c.header_holds_fields
  refine h.write_inside h.tiles.ring_apart (fun y hy => store_other _ _ ?_)
  simp only [userPart] at hlo
  omega

lemma clientWrite_preserves {b : UInt8} (h : Represents c s.mem L)
    (hl : LiveIn c s.live L) (hp : p ∈ s.live) (hlo : p ≤ x)
    (hhi : x < toBlockPtr c p + areaSize c s.mem (toBlockPtr c p) * c.blockSize) :
    ∃ u, step c s (.clientWrite p x b) = some u ∧ Inv c u := by
  obtain ⟨a, ha, rfl⟩ := hl p hp
  rw [toBlockPtr_userPart, h.areaSize_eq (mem_reservedAreas.mp ha).1, ← addr_add] at hhi
  exact ⟨_, rfl, L, clientWrite_represents b h ha hlo hhi, hl⟩

lemma step_preserves_invariant (s : State) (e : Call) (hi : Inv c s) (hlegal : Legal c s e) :
    ∃ u, step c s e = some u ∧ Inv c u := by
  obtain ⟨L, h, hl⟩ := hi
  cases e with
  | alloc size id => exact served_preserves hl (sosBlkMemAlloc_spec size _ h hlegal)
  | longtermAlloc size id => exact served_preserves hl (sosBlkMemLongtermAlloc_spec size _ h hlegal)
  | free pntr => exact free_preserves h hl hlegal
  | realloc pntr newSize => exact realloc_preserves h hl hlegal.1 hlegal.2
  | changeOwn ptr id => exact changeOwn_preserves h hl hlegal
  | removeAll id => exact removeAll_preserves h hl
  | clientWrite pntr x b => exact clientWrite_preserves h hl hlegal.1 hlegal.2.1 hlegal.2.2

lemma boot_invariant (c : MallocConf) (m : Mem) : ∃ s, boot c m = some s ∧ Inv c s := by
  obtain ⟨m', hrun, hrep⟩ := memInit_spec m
  exact ⟨⟨m', []⟩, by rw [boot, hrun]; rfl, _, hrep, by simp [LiveIn]⟩

/-- Every run of legal calls from `mem_init` returns in a consistent heap. -/
theorem heap_consistent_over_runs (c : MallocConf) (m : Mem) :
    ∃ s0, boot c m = some s0 ∧ ∀ calls, ValidTrace (step c) (Legal c) s0 calls →
      ∃ s, runTrace (step c) s0 calls = some s ∧ HeapConsistent c s.mem := by
  obtain ⟨s0, hboot, hinv⟩ := boot_invariant c m
  refine ⟨s0, hboot, fun calls hvalid => ?_⟩
  obtain ⟨s, hrun, L, hrep, -⟩ := run_invariant step_preserves_invariant hinv hvalid
  exact ⟨s, hrun, consistent_of_represents hrep⟩

lemma avrHeap_pos : 0 < 0x100 := by decide

def avrConf : MallocConf where
  shiftValue := 3
  sizeofBlockHeader := 3
  sizeofPointer := 2
  mallocHeap := 0x100
  numHeapBlocks := 12
  header_holds_fields := by decide
  pointer_pos := by decide
  links_fit := by decide
  two_blocks := by decide
  count_below_marks := by decide
  heap_not_null := avrHeap_pos
  pointers_fit := by decide

def sampleCalls : List Call :=
  [.alloc 10 7, .longtermAlloc 6 9, .clientWrite 0x103 0x104 0xff, .alloc 3 9,
    .realloc 0x103 25, .changeOwn 0x113 7, .free 0x113, .removeAll 9]

theorem heap_consistent_sample :
    ∃ s0 s, boot avrConf (fun _ => 0xaa) = some s0 ∧
      ValidTrace (step avrConf) (Legal avrConf) s0 sampleCalls ∧
      runTrace (step avrConf) s0 sampleCalls = some s ∧ HeapConsistent avrConf s.mem := by
  obtain ⟨s0, hboot, hruns⟩ := heap_consistent_over_runs avrConf (fun _ => 0xaa)
  have hvalid : (boot avrConf (fun _ => 0xaa)).elim False
      (fun s => ValidTrace (step avrConf) (Legal avrConf) s sampleCalls) := by
    decide +kernel
  rw [hboot] at hvalid
  obtain ⟨s, hrun, hcons⟩ := hruns sampleCalls hvalid
  exact ⟨s0, s, hboot, hvalid, hrun, hcons⟩

end HeapRuns
