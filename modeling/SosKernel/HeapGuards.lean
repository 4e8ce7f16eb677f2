import SosKernel.HeapRuns

/-! # Guard bytes and reallocation

The guard byte of an area is its last byte, so it moves when the size of the area changes. -/
namespace HeapGuards

open ByteMemory HeapLayout HeapAreas HeapRuns GuardedRuns List Option

section Condition

variable (c : MallocConf) {run : Option (Mem × ℕ)} {X : List Area} {b : UInt8} {g : Area} {x : ℕ}

/-- The blocks of the free areas from `p` on, up to the next reserved one. -/
def freeBlocksFrom (m : Mem) : ℕ → ℕ → ℕ
  | 0, _ => 0
  | fuel + 1, p =>
    if isReserved c m p then 0
    else areaSize c m p + freeBlocksFrom m fuel (p + areaSize c m p * c.blockSize)

def mergedSize (m : Mem) (block : ℕ) : ℕ :=
  areaSize c m block +
    freeBlocksFrom c m c.numHeapBlocks (block + areaSize c m block * c.blockSize)

/-- The request fits in place, or the last byte of the area with the free areas behind it is
already its owner. -/
def GuardSurvives (m : Mem) (pntr newSize : ℕ) : Prop :=
  reqBlocks c newSize ≤ mergedSize c m (toBlockPtr c pntr) ∨
    c.get m (toBlockPtr c pntr) .owner =
      (m (toBlockPtr c pntr + mergedSize c m (toBlockPtr c pntr) * c.blockSize - 1)).toNat
  deriving Decidable

end Condition

variable {c : MallocConf} {m m' : Mem} {L L' l1 l2 l3 fr : List Area} {a : Area}

lemma freeBlocksFrom_eq {fuel : ℕ} (h : Represents c m (l1 ++ (fr ++ l3)))
    (hfr : ∀ e ∈ fr, e.reserved = false) (hstop : ∀ e ∈ l3.head?, e.reserved = true)
    (hfuel : fr.length < fuel) :
    freeBlocksFrom c m fuel (c.addr (((fr ++ l3).map Area.idx).headD (c.numHeapBlocks - 1))) =
      (fr.map Area.len).sum := by
  induction fr generalizing l1 fuel with
  | nil =>
    obtain ⟨fuel, rfl⟩ := Nat.exists_eq_add_of_lt hfuel
    refine if_pos ?_
    cases l3 with
    | nil => exact h.sentinel_reserved
    | cons e l3 => exact (h.isReserved_iff (by simp)).mpr (hstop e rfl)
  | cons f fr ih =>
    cases fuel with
    | zero => simp at hfuel
    | succ fuel =>
      have hf : f ∈ l1 ++ (f :: fr ++ l3) := by simp
      have hfree : ¬ isReserved c m (c.addr f.idx) := by
        rw [h.isReserved_iff hf, hfr f (by simp)]
        exact Bool.false_ne_true
      have hnext : Represents c m ((l1 ++ [f]) ++ (fr ++ l3)) := by simpa using h
      have hrest := ih hnext (fun e he => hfr e (mem_cons_of_mem _ he))
        (show fr.length < fuel by simpa using hfuel)
      have htiles : Tiles 0 (l1 ++ f :: (fr ++ l3)) (c.numHeapBlocks - 1) := by simpa using h.tiles
      rw [htiles.head_idx] at hrest
      simp only [cons_append, map_cons, headD_cons, freeBlocksFrom, if_neg hfree,
        h.areaSize_eq hf, ← addr_add, hrest, sum_cons]

section

variable (h : Represents c m (l1 ++ a :: (fr ++ l3))) (hfr : ∀ e ∈ fr, e.reserved = false)
    (hstop : ∀ e ∈ l3.head?, e.reserved = true)
include h hfr hstop

lemma mergedSize_eq : mergedSize c m (c.addr a.idx) = (exposed a fr).len := by
  have hlen : fr.length < c.numHeapBlocks := by
    have := h.tail_length
    simp only [length_append] at this
    omega
  have hnext : Represents c m ((l1 ++ [a]) ++ (fr ++ l3)) := by simpa using h
  have hfree := freeBlocksFrom_eq hnext hfr hstop hlen
  rw [h.tiles.head_idx] at hfree
  simp only [mergedSize, h.areaSize_eq (a := a) (by simp), ← addr_add, hfree]
  rfl

lemma guardSurvives_iff {newSize : ℕ} :
    GuardSurvives c m (userPart c (c.addr a.idx)) newSize ↔
      reqBlocks c newSize ≤ (exposed a fr).len ∨
        c.get m (c.addr a.idx) .owner = (m ((exposed a fr).guard c)).toNat := by
  simp only [GuardSurvives, toBlockPtr_userPart, mergedSize_eq h hfr hstop, ← addr_add]
  rfl

end

section Purpose

variable (c)

def HeldExactly (m : Mem) (live : List ℕ) : Prop :=
  ∃ areas, walk c m c.numHeapBlocks c.mallocHeap = some areas ∧
    ∀ p, p ∈ live ↔ ∃ block ∈ areas, isReserved c m block ∧ p = userPart c block

def usableSize (m : Mem) (pntr : ℕ) : ℕ :=
  areaSize c m (toBlockPtr c pntr) * c.blockSize - c.blockOverhead

/-- What a reallocation is for: the contents arrive in an area of the new size and nothing but that
area and the others' stays reserved; or the old area is intact, and can still be freed. -/
def ReallocSound (m : Mem) (live : List ℕ) (pntr newSize : ℕ) : Prop :=
  ∃ m' q, sosBlkMemRealloc c m pntr newSize = some (m', q) ∧ HeapConsistent c m' ∧
    (q ≠ 0 ∧ (∀ k < min (usableSize c m pntr) newSize, m' (q + k) = m (pntr + k)) ∧
        HeldExactly c m' (q :: live.filter (· ≠ pntr)) ∨
      q = 0 ∧ (∀ k < usableSize c m pntr, m' (pntr + k) = m (pntr + k)) ∧
        ∃ m1, sosBlkMemFree c m' pntr = some m1 ∧ HeapConsistent c m1 ∧
          HeldExactly c m1 (live.filter (· ≠ pntr)))

end Purpose

variable {live others : List ℕ} {R L0 : List Area} {pntr newSize q p : ℕ} {s u : State}

instance (m : Mem) (live : List ℕ) : Decidable (HeldExactly c m live) :=
  match h : walk c m c.numHeapBlocks c.mallocHeap with
  | none => isFalse (fun ⟨_, hrun, _⟩ => by rw [h] at hrun; cases hrun)
  | some areas => decidable_of_iff
      ((∀ p ∈ live, ∃ block ∈ areas, isReserved c m block ∧ p = userPart c block) ∧
        ∀ block ∈ areas, isReserved c m block → userPart c block ∈ live)
      ⟨fun hh => ⟨areas, h, fun p => ⟨hh.1 p, fun ⟨block, hb, hr, hp⟩ => hp ▸ hh.2 block hb hr⟩⟩,
        fun ⟨areas', hrun, hheld⟩ => by
          rw [h] at hrun
          cases hrun
          exact ⟨fun p hp => (hheld p).mp hp,
            fun block hb hr => (hheld _).mpr ⟨block, hb, hr, rfl⟩⟩⟩

lemma heldExactly_iff (h : Represents c m L) : HeldExactly c m live ↔
    ∀ p, p ∈ live ↔ ∃ a ∈ reservedAreas L, p = userPart c (c.addr a.idx) := by
  have hwalk := walk_spec (show Represents c m ([] ++ L) from h) h.length_lt
  rw [h.start] at hwalk
  have hareas : ∀ p, (∃ block ∈ L.map (fun a => c.addr a.idx), isReserved c m block ∧
      p = userPart c block) ↔ ∃ a ∈ reservedAreas L, p = userPart c (c.addr a.idx) := by
    intro p
    constructor
    · rintro ⟨block, hmem, hr, rfl⟩
      obtain ⟨a, ha, rfl⟩ := mem_map.mp hmem
      exact ⟨a, mem_reservedAreas.mpr ⟨ha, (h.isReserved_iff ha).mp hr⟩, rfl⟩
    · rintro ⟨a, ha, rfl⟩
      obtain ⟨hmem, hr⟩ := mem_reservedAreas.mp ha
      exact ⟨_, mem_map.mpr ⟨a, hmem, rfl⟩, (h.isReserved_iff hmem).mpr hr, rfl⟩
  constructor
  · rintro ⟨areas, hrun, hheld⟩ p
    rw [hwalk, some.injEq] at hrun
    rw [hheld, ← hrun]
    exact hareas p
  · intro hheld
    exact ⟨_, hwalk, fun p => (hheld p).trans (hareas p).symm⟩

lemma held_others (h : Represents c m (l1 ++ a :: l2)) (ha : a.reserved = true)
    (hheld : ∀ p, p ∈ live ↔ ∃ e ∈ reservedAreas (l1 ++ a :: l2), p = userPart c (c.addr e.idx))
    (p : ℕ) : p ∈ live.filter (· ≠ userPart c (c.addr a.idx)) ↔
      ∃ e ∈ reservedAreas (l1 ++ l2), p = userPart c (c.addr e.idx) := by
  rw [mem_filter, hheld, decide_eq_true_eq]
  constructor
  · rintro ⟨⟨e, he, rfl⟩, hne⟩
    exact ⟨e, mem_reservedAreas_others he (fun heq => hne (by rw [heq])), rfl⟩
  · rintro ⟨e, he, rfl⟩
    refine ⟨⟨e, (mem_reservedAreas_cons ha).mpr (.inr he), rfl⟩, fun heq => ?_⟩
    have hpos := h.tiles.pos
    have hpos' := (h.tiles.bounds (mem_reservedAreas.mp ((mem_reservedAreas_cons ha).mpr
      (.inr he))).1).2.2
    have := h.tiles.others_apart (mem_reservedAreas.mp he).1
    have := userPart_inj heq
    omega

lemma reqBlocks_covers {newSize : ℕ} (hsize : newSize + c.blockOverhead + c.blockSize - 1 ≤ 65535) :
    newSize + c.blockOverhead ≤ reqBlocks c newSize * c.blockSize := by
  have hpos := blockSize_pos (c := c)
  rw [reqBlocks, Nat.mod_eq_of_lt (by omega), Nat.shiftRight_eq_div_pow]
  have hdiv := Nat.div_add_mod (newSize + c.blockOverhead + c.blockSize - 1) c.blockSize
  rw [Nat.mul_comm] at hdiv
  simp only [MallocConf.blockSize] at *
  omega

lemma inPlace_contents (hsize : newSize + c.blockOverhead + c.blockSize - 1 ≤ 65535)
    (hcont : ∀ x, userPart c (c.addr a.idx) ≤ x → x < c.addr (a.idx + a.len) →
      x < Area.guard c ⟨a.idx, reqBlocks c newSize, true⟩ → m' x = m x) :
    ∀ k < min (a.len * c.blockSize - c.blockOverhead) newSize,
      m' (userPart c (c.addr a.idx) + k) = m (userPart c (c.addr a.idx) + k) := by
  intro k hk
  have hcov := reqBlocks_covers hsize
  have hend : c.addr (a.idx + a.len) = c.addr a.idx + a.len * c.blockSize := addr_add _ _
  have hguard : Area.guard c ⟨a.idx, reqBlocks c newSize, true⟩ =
      c.addr a.idx + reqBlocks c newSize * c.blockSize - 1 := by
    rw [Area.guard, addr_add]
  simp only [MallocConf.blockOverhead] at *
  exact hcont _ (Nat.le_add_right _ _) (by simp only [userPart]; omega)
    (by rw [hguard]; simp only [userPart]; omega)

section

variable (hothers : ∀ p, p ∈ others ↔ ∃ e ∈ R, p = userPart c (c.addr e.idx))
include hothers

lemma heldExactly_reallocated (heap : Reallocated c R X m m' L') :
    HeldExactly c m' live ↔
      ∀ p, p ∈ live ↔ (∃ e ∈ X, p = userPart c (c.addr e.idx)) ∨ p ∈ others := by
  rw [heldExactly_iff heap.represents]
  simp only [heap.reserved, hothers, or_and_right, exists_or]

lemma not_heldExactly {q : ℕ} (heap : Reallocated c R X m m' L')
    (hg : g ∈ X) (hnot : userPart c (c.addr g.idx) ∉ others) (hq : userPart c (c.addr g.idx) ≠ q) :
    ¬ HeldExactly c m' (q :: others) := by
  rw [heldExactly_reallocated hothers heap]
  intro hheld
  rcases mem_cons.mp ((hheld _).mpr (.inl ⟨g, hg, rfl⟩)) with heq | hmem
  · exact hq heq
  · exact hnot hmem

lemma free_after_failure (h : Represents c m L)
    (hres : ∀ e, e ∈ reservedAreas L ↔ e ∈ [g] ∨ e ∈ R) (hgR : g ∉ R)
    (hnot : userPart c (c.addr g.idx) ∉ others) :
    ∃ m1, sosBlkMemFree c m (userPart c (c.addr g.idx)) = some m1 ∧ HeapConsistent c m1 ∧
      (HeldExactly c m1 others ↔ ¬ corrupted c m (c.addr g.idx)) := by
  obtain ⟨m1, L1, hrun, hrep, -, hleft⟩ := free_area_spec h (by simpa using hres) hgR
  refine ⟨m1, hrun, consistent_of_represents hrep, ?_⟩
  rw [heldExactly_iff hrep]
  constructor
  · intro hheld hc
    exact hnot ((hheld _).mpr ⟨g, (hleft g).mpr (.inl ⟨rfl, hc⟩), rfl⟩)
  · intro hc p
    simp only [hothers, hleft, hc, and_false, false_or]

lemma failed_release (hpos : 0 < a.len)
    (heap : Reallocated c R [{ exposed a fr with reserved := true }] m m' L')
    (hbody : KeepsBody c a m m') (hguard : m' ((exposed a fr).guard c) = m ((exposed a fr).guard c))
    (hnot : userPart c (c.addr a.idx) ∉ others) :
    ∃ m1, sosBlkMemFree c m' (userPart c (c.addr a.idx)) = some m1 ∧ HeapConsistent c m1 ∧
      (HeldExactly c m1 others ↔
        c.get m (c.addr a.idx) .owner = (m ((exposed a fr).guard c)).toNat) := by
  have hgR : { exposed a fr with reserved := true } ∉ R :=
    fun hmem => hnot ((hothers _).mpr ⟨_, hmem, rfl⟩)
  obtain ⟨m1, hfree, hcons, hheld⟩ :=
    free_after_failure hothers heap.represents heap.reserved hgR hnot
  refine ⟨m1, hfree, hcons, hheld.trans ?_⟩
  have hiff := not_congr (heap.represents.corrupted_iff heap.head_mem)
  rw [not_not] at hiff
  rw [← hguard, ← hbody.owner hpos]
  exact hiff

end

lemma exists_returned_iff {P : Mem → ℕ → Prop}
    (hrun : run = some (m', q)) : (∃ m1 q1, run = some (m1, q1) ∧ P m1 q1) ↔ P m' q := by
  constructor
  · rintro ⟨_, _, hrun', h⟩
    cases hrun.symm.trans hrun'
    exact h
  · exact fun h => ⟨m', q, hrun, h⟩

/-- A reallocation keeps the contents and leaks nothing if and only if a right guard byte
survives it. -/
theorem realloc_sound_iff (h : Represents c m L) (hheld : HeldExactly c m live)
    (hp : pntr ∈ live) (hn : 0 < newSize)
    (hsize : newSize + c.blockOverhead + c.blockSize - 1 ≤ 65535) :
    ReallocSound c m live pntr newSize ↔ GuardSurvives c m pntr newSize := by
  have hlive := (heldExactly_iff h).mp hheld
  obtain ⟨a, hmem, rfl⟩ := (hlive pntr).mp hp
  obtain ⟨haL, ha⟩ := mem_reservedAreas.mp hmem
  obtain ⟨l1, l2, rfl⟩ := append_of_mem haL
  have hothers := held_others h ha hlive
  have hnot : userPart c (c.addr a.idx) ∉ live.filter (· ≠ userPart c (c.addr a.idx)) := by simp
  have husable : usableSize c m (userPart c (c.addr a.idx)) =
      a.len * c.blockSize - c.blockOverhead := by
    rw [usableSize, toBlockPtr_userPart, h.areaSize_eq (by simp)]
  obtain ⟨fr, l3, m', q, L', rfl, hfr, hstop, hrun, hout⟩ :=
    sosBlkMemRealloc_outcome h ha (Nat.ne_of_gt hn) hsize
  rw [guardSurvives_iff h hfr hstop, ReallocSound, exists_returned_iff hrun, husable]
  cases hout with
  | inPlace fits heap owned contents =>
    refine iff_of_true ⟨consistent_of_represents heap.represents,
      .inl ⟨userPart_ne_zero _, inPlace_contents hsize contents, ?_⟩⟩ (.inl fits)
    rw [heldExactly_reallocated hothers heap]
    simp
  | moved n full room elsewhere heap owned contents =>
    by_cases hc : c.get m (c.addr a.idx) .owner = (m ((exposed a fr).guard c)).toNat
    · rw [if_neg (not_not.mpr hc)] at heap
      refine iff_of_true ⟨consistent_of_represents heap.represents,
        .inl ⟨userPart_ne_zero _, fun k hk => contents k ?_, ?_⟩⟩ (.inr hc)
      · simp only [MallocConf.blockOverhead] at *
        omega
      · rw [heldExactly_reallocated hothers heap]
        simp
    · rw [if_pos hc] at heap
      have hne : userPart c (c.addr a.idx) ≠ userPart c (c.addr n.idx) :=
        fun heq => elsewhere (userPart_inj heq).symm
      have hleak := not_heldExactly hothers (g := { exposed a fr with reserved := true }) heap
        (by simp) hnot hne
      refine iff_of_false ?_ (fun hh => hh.elim (by omega) hc)
      rintro ⟨-, ⟨-, -, hheld'⟩ | ⟨hz, -⟩⟩
      · exact hleak hheld'
      · exact userPart_ne_zero _ hz
  | failed full heap body guard =>
    have hpos := h.tiles.pos
    obtain ⟨m1, hfree, hcons, hheld1⟩ := failed_release hothers hpos heap body guard hnot
    constructor
    · rintro ⟨-, ⟨hz, -⟩ | ⟨-, -, m2, hfree', -, hheld'⟩⟩
      · exact absurd rfl hz
      · rw [hfree, some.injEq] at hfree'
        subst hfree'
        exact .inr (hheld1.mp hheld')
    · rintro (hfits | hc)
      · omega
      · refine ⟨consistent_of_represents heap.represents,
          .inr ⟨rfl, fun k hk => ?_, m1, hfree, hcons, hheld1.mpr hc⟩⟩
        have hend : c.addr (a.idx + a.len) = c.addr a.idx + a.len * c.blockSize := addr_add _ _
        have hhdr := c.header_holds_fields
        simp only [MallocConf.blockOverhead] at hk
        exact body _ (by simp only [userPart]; omega) (by simp only [userPart]; omega)

def gapCalls : List Call := [.alloc 10 7, .alloc 10 8, .alloc 3 9, .free 0x113]

theorem realloc_sound_sample :
    ∃ s0 s, boot avrConf (fun _ => 0xaa) = some s0 ∧
      runTrace (step avrConf) s0 gapCalls = some s ∧
      ReallocSound avrConf s.mem s.live 0x103 20 := by
  obtain ⟨s0, hboot, hinv⟩ := boot_invariant avrConf (fun _ => 0xaa)
  obtain ⟨_, hboot', hvalid, s, hrun, hheld, hmem, hguard⟩ :
      ∃ s0, boot avrConf (fun _ => 0xaa) = some s0 ∧
        ValidTrace (step avrConf) (Legal avrConf) s0 gapCalls ∧
        ∃ s, runTrace (step avrConf) s0 gapCalls = some s ∧ HeldExactly avrConf s.mem s.live ∧
          0x103 ∈ s.live ∧ GuardSurvives avrConf s.mem 0x103 20 := by
    decide +kernel
  cases hboot.symm.trans hboot'
  obtain ⟨s', hrun', L, h, -⟩ := run_invariant step_preserves_invariant hinv hvalid
  cases hrun.symm.trans hrun'
  exact ⟨s0, s, hboot, hrun,
    (realloc_sound_iff h hheld hmem (by decide) (by decide)).mpr hguard⟩

/-- With a request that needs another area the first one absorbs the gap and is moved, and the old
area stays reserved though nobody holds it. With a request that the heap cannot meet, the pointer
stays held, and `sos_blk_mem_free` leaves its area reserved. -/
theorem realloc_leaks :
    ∃ s0, boot avrConf (fun _ => 0xaa) = some s0 ∧
      ValidTrace (step avrConf) (Legal avrConf) s0 gapCalls ∧
      ∃ s, runTrace (step avrConf) s0 gapCalls = some s ∧
        HeldExactly avrConf s.mem s.live ∧ 0x103 ∈ s.live ∧
        (sosBlkMemRealloc avrConf s.mem 0x103 30).elim False (fun r =>
          r.2 = 0x12b ∧ isReserved avrConf r.1 0x100 ∧
          ¬ HeldExactly avrConf r.1 (r.2 :: s.live.filter (· ≠ 0x103))) ∧
        (sosBlkMemRealloc avrConf s.mem 0x103 80).elim False (fun r =>
          r.2 = 0 ∧ (sosBlkMemFree avrConf r.1 0x103).elim False (fun m1 =>
            isReserved avrConf m1 0x100 ∧
            ¬ HeldExactly avrConf m1 (s.live.filter (· ≠ 0x103)))) := by
  decide +kernel

def Guards (c : MallocConf) (m : Mem) (live : List ℕ) : Prop :=
  ∀ p ∈ live, ¬ corrupted c m (toBlockPtr c p)

def Careful (c : MallocConf) (s : State) : Call → Prop
  | .realloc pntr newSize => pntr = 0 ∨ newSize = 0 ∨ GuardSurvives c s.mem pntr newSize
  | .clientWrite pntr x _ => x ≠ guardAddr c s.mem (toBlockPtr c pntr)
  | .alloc _ _ | .longtermAlloc _ _ | .free _ | .changeOwn _ _ | .removeAll _ => True

lemma Guards.survive (hg : Guards c m live) (h : Represents c m L) (hsub : ∀ e ∈ L0, e ∈ L)
    (hs : Survives c (reservedAreas L0) m m' L') (hl : LiveIn c live L0) : Guards c m' live := by
  intro p hp
  obtain ⟨a, ha, rfl⟩ := hl p hp
  have hno := hg _ hp
  rw [toBlockPtr_userPart] at hno ⊢
  exact mt (corrupted_congr h hs.represents (hsub a (mem_reservedAreas.mp ha).1)
    (mem_reservedAreas.mp (hs.reserved a ha)).1 (hs.kept a ha)).mp hno

lemma Guards.cons (hg : Guards c m live) (h : Represents c m L) (ha : a ∈ L) {id : ℕ}
    (ho : Owned c m a id) : Guards c m (userPart c (c.addr a.idx) :: live) := by
  intro p hp
  rcases mem_cons.mp hp with rfl | hp
  · rw [toBlockPtr_userPart, h.corrupted_iff ha, ho.owner, ho.guard]
    exact not_not.mpr rfl
  · exact hg p hp

lemma Guards.filter (hg : Guards c m live) (keep : ℕ → Bool) : Guards c m (live.filter keep) :=
  fun p hp => hg p (mem_filter.mp hp).1

lemma served_guards {size id : ℕ} (h : Represents c s.mem L)
    (hl : LiveIn c s.live L) (hg : Guards c s.mem s.live)
    (hserved : Served c s.mem L size id run) (hrun : run.map (returned s) = some u) :
    Guards c u.mem u.live := by
  obtain ⟨m', p, L', rfl, ⟨rfl, hev⟩ | ⟨a, rfl, hal, -⟩⟩ := hserved
  · cases hrun
    exact hg.survive h (fun _ he => he) hev.survives hl
  · cases hrun
    simp only [returned, if_neg (userPart_ne_zero a.idx)]
    have hold := hg.survive h (fun _ he => he) hal.survives hl
    exact hold.cons hal.represents (mem_reservedAreas.mp ((hal.reserved a).mpr (.inl rfl))).1
      hal.owned

section

variable (h : Represents c s.mem L) (hl : LiveIn c s.live L) (hg : Guards c s.mem s.live)
include h hl hg

lemma free_guards (hp : Passable s p) (hrun : step c s (.free p) = some u) :
    Guards c u.mem u.live := by
  obtain ⟨m', hfree, rfl⟩ := map_eq_some_iff.mp hrun
  by_cases hz : p = 0
  · rw [sosBlkMemFree, if_pos hz] at hfree
    cases hfree
    exact hg.filter _
  obtain ⟨l1, a, l2, rfl, hr, rfl⟩ := live_area hl hp hz
  obtain ⟨m1, hrun1, hres⟩ := sosBlkMemFree_spec h hr
  rw [hfree] at hrun1
  cases hrun1
  rcases hres with ⟨-, rfl⟩ | ⟨-, hrep, hkeep⟩
  · exact hg.filter _
  · have hsurv : Survives c (reservedAreas (l1 ++ l2)) s.mem m'
        (l1 ++ { a with reserved := false } :: l2) := by
      refine ⟨hrep, fun e he => ?_, hkeep⟩
      rw [reservedAreas_without rfl]
      exact he
    exact (hg.filter _).survive h (fun _ => mem_of_mem_others) hsurv hl.others

lemma realloc_guards {n : ℕ} (hp : Passable s p)
    (hsize : n + c.blockOverhead + c.blockSize - 1 ≤ 65535)
    (hcare : p = 0 ∨ n = 0 ∨ GuardSurvives c s.mem p n) (hrun : step c s (.realloc p n) = some u) :
    Guards c u.mem u.live := by
  obtain ⟨⟨m', q⟩, hreal, rfl⟩ := map_eq_some_iff.mp hrun
  by_cases hz : p = 0 ∨ n = 0
  · rw [sosBlkMemRealloc, if_pos hz] at hreal
    cases hreal
    split
    · exact hg
    · rcases hp with rfl | hp
      · contradiction
      · intro q hq
        rcases mem_cons.mp hq with rfl | hq
        · exact hg q hp
        · exact hg.filter _ q hq
  have hcare' := (hcare.resolve_left (fun h0 => hz (.inl h0))).resolve_left
    (fun h0 => hz (.inr h0))
  obtain ⟨l1, a, l2, rfl, hr, rfl⟩ := live_area hl hp (fun h0 => hz (.inl h0))
  obtain ⟨fr, l3, m1, q1, L', rfl, hfr, hstop, hrun1, hout⟩ :=
    sosBlkMemRealloc_outcome h hr (fun h0 => hz (.inr h0)) hsize
  rw [hreal] at hrun1
  cases hrun1
  rw [guardSurvives_iff h hfr hstop] at hcare'
  have hsub : ∀ e ∈ l1 ++ (fr ++ l3), e ∈ l1 ++ a :: (fr ++ l3) := fun _ => mem_of_mem_others
  have hothers : ∀ {X}, Reallocated c (reservedAreas (l1 ++ (fr ++ l3))) X s.mem m' L' →
      Guards c m' (s.live.filter (· ≠ userPart c (c.addr a.idx))) := fun heap =>
    (hg.filter _).survive h hsub
      ⟨heap.represents, fun e he => (heap.reserved e).mpr (.inr he), heap.kept⟩ hl.others
  cases hout with
  | inPlace fits heap owned contents =>
    simp only [if_neg (userPart_ne_zero a.idx)]
    have hboth := (hothers heap).cons heap.represents heap.head_mem owned
    exact hboth
  | moved b full room elsewhere heap owned contents =>
    simp only [if_neg (userPart_ne_zero b.idx)]
    exact (hothers heap).cons heap.represents heap.head_mem owned
  | failed full heap body guard =>
    intro q hq
    by_cases hqa : q = userPart c (c.addr a.idx)
    · have hpos := h.tiles.pos
      have hiff := heap.represents.corrupted_iff heap.head_mem
      have howner := hcare'.resolve_left (by omega)
      rw [← body.owner hpos, ← guard] at howner
      rw [hqa, toBlockPtr_userPart]
      exact fun hc => hiff.mp hc howner
    · exact hothers heap q (mem_filter.mpr ⟨hq, by simpa using hqa⟩)

lemma changeOwn_guards {id : UInt8} (hp : Passable s p)
    (hrun : step c s (.changeOwn p id) = some u) : Guards c u.mem u.live := by
  cases hrun
  by_cases hz : p = 0
  · subst hz
    simpa [sosBlkMemChangeOwn] using hg
  obtain ⟨l1, a, l2, rfl, hr, rfl⟩ := live_area hl hp hz
  obtain ⟨hrep, hout, hres⟩ := sosBlkMemChangeOwn_spec id.toNat h hr
  rcases hres with ⟨-, hsame⟩ | ⟨-, howned⟩
  · simp only [hsame]
    exact hg
  · intro q hq
    have hothers : Guards c (sosBlkMemChangeOwn c s.mem (userPart c (c.addr a.idx)) id.toNat).1
        (s.live.filter (· ≠ userPart c (c.addr a.idx))) := by
      refine (hg.filter _).survive h (fun _ => mem_of_mem_others) ⟨hrep, fun e he => ?_, ?_⟩
        hl.others
      · exact (mem_reservedAreas_cons hr).mpr (.inr he)
      · exact keeps_of_inside hout
          (fun e he => h.tiles.others_apart (mem_reservedAreas.mp he).1)
    by_cases hqa : q = userPart c (c.addr a.idx)
    · exact hothers.cons hrep (by simp) howned q (by simp [hqa])
    · exact hothers q (mem_filter.mpr ⟨hq, by simpa using hqa⟩)

lemma removeAll_guards {id : UInt8} (hrun : step c s (.removeAll id) = some u) :
    Guards c u.mem u.live := by
  obtain ⟨m', hremove, hrep, hkeep⟩ := memRemoveAll_spec id.toNat h
  rw [step, hremove] at hrun
  cases hrun
  intro p hp
  obtain ⟨hp, hne⟩ := mem_filter.mp hp
  obtain ⟨a, ha, rfl⟩ := hl p hp
  have hno := hg _ hp
  rw [toBlockPtr_userPart] at hne hno ⊢
  have hsame : release c s.mem id.toNat a = a := if_neg (fun hh => (of_decide_eq_true hne) hh.2.1)
  obtain ⟨hmem, hr⟩ := mem_reservedAreas.mp ha
  have hmem' : a ∈ L.map (release c s.mem id.toNat) := mem_map.mpr ⟨a, hmem, hsame⟩
  exact mt (corrupted_congr h hrep hmem hmem' (hkeep a (mem_reservedAreas.mpr ⟨hmem', hr⟩))).mp hno

end

lemma clientWrite_corrupted {e : Area} (h : Represents c m L)
    (ha : a ∈ reservedAreas L) (he : e ∈ L) (hlo : userPart c (c.addr a.idx) ≤ x)
    (hhi : x < c.addr (a.idx + a.len)) (hguard : x ≠ a.guard c) :
    corrupted c (store m x b) (c.addr e.idx) ↔ corrupted c m (c.addr e.idx) := by
  have haL := (mem_reservedAreas.mp ha).1
  have hin := guard_inside (c := c) (h.tiles.bounds he).2.2
  have hhdr := c.header_holds_fields
  simp only [userPart] at hlo
  have hapart : x ≠ c.addr e.idx + 2 ∧ x ≠ e.guard c := by
    by_cases hea : e = a
    · subst hea
      exact ⟨by omega, hguard⟩
    · rcases h.tiles.disjoint he haL hea with hd | hd
      · have := (addr_le_iff (c := c)).mpr hd
        omega
      · have := (addr_le_iff (c := c)).mpr hd
        omega
  have howner : c.get (store m x b) (c.addr e.idx) .owner = c.get m (c.addr e.idx) .owner :=
    load_store_apart _ _ (by simp only [Field.offset, Field.size]; omega)
  rw [(clientWrite_represents b h ha hlo hhi).corrupted_iff he, h.corrupted_iff he, howner,
    store_other _ _ hapart.2.symm]

section

variable (h : Represents c s.mem L) (hl : LiveIn c s.live L) (hg : Guards c s.mem s.live)
include h hl hg

lemma clientWrite_guards (hp : p ∈ s.live) (hlo : p ≤ x)
    (hhi : x < toBlockPtr c p + areaSize c s.mem (toBlockPtr c p) * c.blockSize)
    (hguard : x ≠ guardAddr c s.mem (toBlockPtr c p))
    (hrun : step c s (.clientWrite p x b) = some u) : Guards c u.mem u.live := by
  cases hrun
  obtain ⟨a, ha, rfl⟩ := hl p hp
  have haL := (mem_reservedAreas.mp ha).1
  rw [toBlockPtr_userPart, h.areaSize_eq haL, ← addr_add] at hhi
  rw [toBlockPtr_userPart, h.guardAddr_eq haL] at hguard
  intro q hq
  obtain ⟨e, he, rfl⟩ := hl q hq
  have hno := hg _ hq
  rw [toBlockPtr_userPart] at hno ⊢
  exact mt (clientWrite_corrupted h ha (mem_reservedAreas.mp he).1 hlo hhi hguard).mp hno

lemma step_guards {e : Call} (hlegal : Legal c s e) (hcare : Careful c s e)
    (hrun : step c s e = some u) : Guards c u.mem u.live := by
  cases e with
  | alloc size id => exact served_guards h hl hg (sosBlkMemAlloc_spec size _ h hlegal) hrun
  | longtermAlloc size id =>
    exact served_guards h hl hg (sosBlkMemLongtermAlloc_spec size _ h hlegal) hrun
  | free pntr => exact free_guards h hl hg hlegal hrun
  | realloc pntr newSize => exact realloc_guards h hl hg hlegal.1 hlegal.2 hcare hrun
  | changeOwn ptr id => exact changeOwn_guards h hl hg hlegal hrun
  | removeAll id => exact removeAll_guards h hl hg hrun
  | clientWrite pntr x b =>
    exact clientWrite_guards h hl hg hlegal.1 hlegal.2.1 hlegal.2.2 hcare hrun

end

/-- The pointer is that of a reserved area with a right guard byte, which can be freed and given
to another owner. -/
structure Releasable (c : MallocConf) (m : Mem) (p : ℕ) : Prop where
  reserved : isReserved c m (toBlockPtr c p)
  guard : c.get m (toBlockPtr c p) .owner = (blockGuardByte c m (toBlockPtr c p)).toNat
  changeOwn : ∀ id, (sosBlkMemChangeOwn c m p id).2 = sosOk
  free : ∃ m', sosBlkMemFree c m p = some m' ∧ ¬ isReserved c m' (toBlockPtr c p)

lemma Guards.releasable (hg : Guards c m live) (h : Represents c m L) (hl : LiveIn c live L)
    (hp : p ∈ live) : Releasable c m p := by
  obtain ⟨a, ha, rfl⟩ := hl p hp
  obtain ⟨hmem, hr⟩ := mem_reservedAreas.mp ha
  have hno := hg _ hp
  rw [toBlockPtr_userPart] at hno
  have hin := not_outsideHeap h hmem
  refine ⟨?_, ?_, fun id => ?_, ?_⟩
  · rw [toBlockPtr_userPart]
    exact (h.isReserved_iff hmem).mpr hr
  · rw [toBlockPtr_userPart]
    exact not_not.mp hno
  · simp only [sosBlkMemChangeOwn, toBlockPtr_userPart, if_neg hin, if_neg hno]
    split <;> rfl
  · obtain ⟨l1, l2, rfl⟩ := append_of_mem hmem
    obtain ⟨m', hrun, ⟨hc, -⟩ | ⟨-, hrep, -⟩⟩ := sosBlkMemFree_spec h hr
    · exact absurd hc hno
    · refine ⟨m', hrun, ?_⟩
      rw [toBlockPtr_userPart]
      have hiff := hrep.isReserved_iff (a := { a with reserved := false }) (by simp)
      exact mt hiff.mp Bool.false_ne_true

def Guarded (c : MallocConf) (s : State) : Prop := Inv c s ∧ Guards c s.mem s.live

lemma step_preserves_guarded (s : State) (e : Call) (hi : Guarded c s)
    (hlegal : Legal c s e ∧ Careful c s e) : ∃ u, step c s e = some u ∧ Guarded c u := by
  obtain ⟨⟨L, h, hl⟩, hg⟩ := hi
  obtain ⟨u, hstep, hi'⟩ := step_preserves_invariant s e ⟨L, h, hl⟩ hlegal.1
  exact ⟨u, hstep, hi', step_guards h hl hg hlegal.1 hlegal.2 hstep⟩

/-- In every run of careful calls from `mem_init` every pointer that a client holds has a right
guard byte and can be released. -/
theorem guards_over_runs (c : MallocConf) (m : Mem) :
    ∃ s0, boot c m = some s0 ∧
      ∀ calls, ValidTrace (step c) (fun s e => Legal c s e ∧ Careful c s e) s0 calls →
        ∃ s, runTrace (step c) s0 calls = some s ∧ ∀ p ∈ s.live, Releasable c s.mem p := by
  obtain ⟨s0, hboot, hinv⟩ := boot_invariant c m
  have hstart : Guarded c s0 := by
    obtain ⟨m', -, rfl⟩ := map_eq_some_iff.mp hboot
    exact ⟨hinv, fun p hp => absurd hp not_mem_nil⟩
  refine ⟨s0, hboot, fun calls hvalid => ?_⟩
  obtain ⟨s, hrun, ⟨L, h, hl⟩, hg⟩ := run_invariant step_preserves_guarded hstart hvalid
  exact ⟨s, hrun, fun p hp => hg.releasable h hl hp⟩

instance (c : MallocConf) (s : State) (e : Call) : Decidable (Careful c s e) := by
  induction e using Call.casesOn <;> (dsimp only [Careful]; infer_instance)

def carefulCalls : List Call :=
  [.alloc 10 7, .alloc 10 8, .realloc 0x103 60, .alloc 3 9, .clientWrite 0x103 0x105 0xff,
    .free 0x113, .realloc 0x103 20, .changeOwn 0x103 9]

theorem guards_sample :
    ∃ s0 s, boot avrConf (fun _ => 0xaa) = some s0 ∧
      ValidTrace (step avrConf) (fun s e => Legal avrConf s e ∧ Careful avrConf s e) s0
        carefulCalls ∧
      runTrace (step avrConf) s0 carefulCalls = some s ∧
      ∀ p ∈ s.live, Releasable avrConf s.mem p := by
  obtain ⟨s0, hboot, hruns⟩ := guards_over_runs avrConf (fun _ => 0xaa)
  have hvalid : (boot avrConf (fun _ => 0xaa)).elim False (fun s => ValidTrace (step avrConf)
      (fun s e => Legal avrConf s e ∧ Careful avrConf s e) s carefulCalls) := by
    decide +kernel
  rw [hboot] at hvalid
  obtain ⟨s, hrun, hrel⟩ := hruns carefulCalls hvalid
  exact ⟨s0, s, hboot, hvalid, hrun, hrel⟩

/-- A reallocation to more than the heap has: the first area absorbs the gap and `NULL` is
returned. The pointer is still held, but its last byte is the guard byte of the freed area, and
neither release nor change of owner accept it. -/
theorem guard_lost_by_failed_realloc :
    ∃ s0, boot avrConf (fun _ => 0xaa) = some s0 ∧
      ValidTrace (step avrConf) (Legal avrConf) s0 (gapCalls ++ [.realloc 0x103 80]) ∧
      ∃ s, runTrace (step avrConf) s0 (gapCalls ++ [.realloc 0x103 80]) = some s ∧
        0x103 ∈ s.live ∧ isReserved avrConf s.mem 0x100 ∧ corrupted avrConf s.mem 0x100 ∧
        (sosBlkMemChangeOwn avrConf s.mem 0x103 9).2 = -einval ∧
        (sosBlkMemFree avrConf s.mem 0x103).elim False (fun m => isReserved avrConf m 0x100) := by
  decide +kernel

/-- A pointer that is returned has `size` user bytes before its guard byte, in an area that is
not empty. -/
def LargeEnough (c : MallocConf) (size : ℕ) (r : Option (Mem × ℕ)) : Prop :=
  r.elim False (fun r => r.2 ≠ 0 → 0 < areaSize c r.1 (toBlockPtr c r.2) ∧
    r.2 + size ≤ guardAddr c r.1 (toBlockPtr c r.2))
  deriving Decidable

def Enough (c : MallocConf) (m : Mem) (L : List Area) (size id : ℕ) : Prop :=
  LargeEnough c size (sosBlkMemAlloc c m size id) ∧
    LargeEnough c size (sosBlkMemLongtermAlloc c m size id) ∧
    ∀ a ∈ reservedAreas L,
      LargeEnough c size (sosBlkMemRealloc c m (userPart c (c.addr a.idx)) size)

section Sizes

variable {size : ℕ}

lemma largeEnough_of_area (h : Represents c m L) (ha : a ∈ L)
    (hlen : size + c.blockOverhead ≤ a.len * c.blockSize) :
    LargeEnough c size (some (m, userPart c (c.addr a.idx))) := by
  intro _
  rw [toBlockPtr_userPart, h.areaSize_eq ha, guardAddr, h.areaSize_eq ha]
  refine ⟨(h.tiles.bounds ha).2.2, ?_⟩
  simp only [userPart, MallocConf.blockOverhead] at *
  omega

variable (hsize : size + c.blockOverhead + c.blockSize - 1 ≤ 65535)
include hsize

lemma largeEnough_of_blocks (h : Represents c m L) (ha : a ∈ reservedAreas L)
    (hreq : reqBlocks c size ≤ a.len) : LargeEnough c size (some (m, userPart c (c.addr a.idx))) :=
  largeEnough_of_area h (mem_reservedAreas.mp ha).1
    ((reqBlocks_covers hsize).trans (Nat.mul_le_mul_right _ hreq))

lemma realloc_largeEnough (h : Represents c m L) (ha : a ∈ reservedAreas L) :
    LargeEnough c size (sosBlkMemRealloc c m (userPart c (c.addr a.idx)) size) := by
  obtain ⟨haL, hr⟩ := mem_reservedAreas.mp ha
  by_cases hz : size = 0
  · have hguard := (guard_inside (c := c) (h.tiles.bounds haL).2.2).1
    rw [Area.guard, addr_add] at hguard
    rw [sosBlkMemRealloc, if_pos (.inr hz)]
    refine largeEnough_of_area h haL ?_
    unfold MallocConf.blockOverhead
    omega
  · obtain ⟨l1, l2, rfl⟩ := append_of_mem haL
    obtain ⟨fr, l3, m', q, L', -, -, -, hrun, hout⟩ := sosBlkMemRealloc_outcome h hr hz hsize
    rw [hrun]
    cases hout with
    | inPlace fits heap owned contents =>
      have hmem := (heap.reserved _).mpr (.inl (mem_singleton_self _))
      exact (largeEnough_of_blocks hsize heap.represents hmem le_rfl :)
    | moved n full room elsewhere heap owned contents =>
      have hmem := (heap.reserved n).mpr (.inl (by simp))
      exact largeEnough_of_blocks hsize heap.represents hmem room
    | failed full heap body guard => exact fun hq => absurd rfl hq

lemma enough_of_size (h : Represents c m L) (id : ℕ) : Enough c m L size id := by
  have hnew {run : Option (Mem × ℕ)} (hserved : Served c m L size id run) :
      LargeEnough c size run := by
    obtain ⟨m', p, L', rfl, ⟨rfl, -⟩ | ⟨a, rfl, hal, hreq⟩⟩ := hserved
    · exact fun hp => absurd rfl hp
    · exact largeEnough_of_blocks hsize hal.represents ((hal.reserved a).mpr (.inl rfl)) hreq
  exact ⟨hnew (sosBlkMemAlloc_spec size id h hsize),
    hnew (sosBlkMemLongtermAlloc_spec size id h hsize), fun a ha => realloc_largeEnough hsize h ha⟩

end Sizes

/-- The rounding wraps from 65525 bytes on, and none of these sizes gets enough. -/
lemma wrapped_sizes_fail : (boot avrConf (fun _ => 0xaa)).elim False (fun s0 =>
    ∀ size ∈ List.range' 65525 11,
      ¬ LargeEnough avrConf size (sosBlkMemAlloc avrConf s0.mem size 7)) := by
  decide +kernel

/-- On every heap, a size whose rounding does not wrap gets an area that holds it, and on the AVR
no other size does. `NULL` is never reallocated. -/
theorem areas_large_enough (size : ℕ) :
    (∀ c m L id, size + c.blockOverhead + c.blockSize - 1 ≤ 65535 → Represents c m L →
      Enough c m L size id) ∧
    (size ≤ 65535 → (∀ m L id, Represents avrConf m L → Enough avrConf m L size id) →
      size + avrConf.blockOverhead + avrConf.blockSize - 1 ≤ 65535) ∧
    ∀ c m, LargeEnough c size (sosBlkMemRealloc c m 0 size) := by
  refine ⟨fun c m L id hsize h => enough_of_size hsize h id, fun hsize hall => ?_, fun c m => ?_⟩
  · obtain ⟨s0, hboot, L, h, -⟩ := boot_invariant avrConf (fun _ => 0xaa)
    have hfail := wrapped_sizes_fail
    rw [hboot] at hfail
    by_contra hwrap
    refine hfail size ?_ (hall s0.mem L 7 h).1
    have hmin : 65525 ≤ size := by
      simp only [MallocConf.blockOverhead, MallocConf.blockSize, avrConf] at hwrap
      omega
    exact List.mem_range'_1.mpr ⟨hmin, by omega⟩
  · rw [sosBlkMemRealloc, if_pos (.inl rfl)]
    exact fun hq => absurd rfl hq

theorem areas_large_enough_after_boot :
    ∃ s0, boot avrConf (fun _ => 0xaa) = some s0 ∧
      LargeEnough avrConf 80 (sosBlkMemAlloc avrConf s0.mem 80 7) := by
  obtain ⟨s0, hboot, L, h, -⟩ := boot_invariant avrConf (fun _ => 0xaa)
  exact ⟨s0, hboot, ((areas_large_enough 80).1 avrConf s0.mem L 7 (by decide) h).1⟩

/-- 65535 bytes become one block and 65526 bytes none. -/
theorem huge_sizes_wrap :
    (boot avrConf (fun _ => 0xaa)).elim False (fun s0 =>
      ∀ q ∈ [(65535, 1), (65526, 0)],
        ¬ LargeEnough avrConf q.1 (sosBlkMemAlloc avrConf s0.mem q.1 7) ∧
        (sosBlkMemAlloc avrConf s0.mem q.1 7).elim False (fun r =>
          r.2 ≠ 0 ∧ areaSize avrConf r.1 (toBlockPtr avrConf r.2) = q.2)) := by
  decide +kernel

end HeapGuards
