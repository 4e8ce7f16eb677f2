import SosKernel.HeapOperations

/-! # Release, change of owner and start-up on a represented heap -/
namespace HeapAreas

open ByteMemory HeapLayout LinkedRing List

variable {c : MallocConf} {m m' : Mem} {L l1 l2 L' : List Area} {F : List ℕ} {a : Area} {i j id : ℕ}
  {e : Area}

lemma toBlockPtr_userPart (p : ℕ) : toBlockPtr c (userPart c p) = p :=
  Nat.add_sub_cancel p c.sizeofBlockHeader

lemma userPart_ne_zero (i : ℕ) : userPart c (c.addr i) ≠ 0 := by
  have := addr_pos (c := c) i
  simp only [userPart]
  omega

lemma userPart_inj (h : userPart c (c.addr i) = userPart c (c.addr j)) : i = j := by
  simp only [userPart, Nat.add_right_cancel_iff] at h
  exact addr_inj.mp h

lemma not_outsideHeap (h : Laid c m L F) (ha : a ∈ L) : ¬ outsideHeap c (c.addr a.idx) := by
  have := h.tiles.bounds ha
  rintro (hlt | hle)
  · exact absurd hlt (Nat.not_lt.mpr (Nat.le_add_right _ _))
  · have := addr_le_iff.mp hle
    omega

lemma Laid.corrupted_iff (h : Laid c m L F) (ha : a ∈ L) :
    corrupted c m (c.addr a.idx) ↔ c.get m (c.addr a.idx) .owner ≠ (m (a.guard c)).toNat := by
  rw [corrupted, blockGuardByte, h.guardAddr_eq ha]

lemma Tiles.set_reserved (h : Tiles i (l1 ++ a :: l2) j) (r : Bool) :
    Tiles i (l1 ++ { a with reserved := r } :: l2) j := by
  simpa [tiles_append, Tiles] using h

lemma sosBlkMemFree_spec (h : Represents c m (l1 ++ a :: l2)) (ha : a.reserved = true) :
    ∃ m', sosBlkMemFree c m (userPart c (c.addr a.idx)) = some m' ∧
      (corrupted c m (c.addr a.idx) ∧ m' = m ∨ ¬ corrupted c m (c.addr a.idx) ∧
        Represents c m' (l1 ++ { a with reserved := false } :: l2) ∧
        Keeps c (reservedAreas (l1 ++ l2)) m m') := by
  simp only [sosBlkMemFree, if_neg (userPart_ne_zero a.idx), toBlockPtr_userPart,
    if_neg (not_outsideHeap h (a := a) (by simp))]
  by_cases hc : corrupted c m (c.addr a.idx)
  · exact ⟨m, if_pos hc, .inl ⟨hc, rfl⟩⟩
  rw [if_neg hc, h.headers a (by simp), header_size (h.len_lt (by simp)).2]
  set b : Area := { a with reserved := false }
  have ht : Tiles 0 (l1 ++ b :: l2) (c.numHeapBlocks - 1) := h.tiles.set_reserved false
  have hF : freeBlocks (l1 ++ a :: l2) = freeBlocks l1 ++ freeBlocks l2 := by
    rw [freeBlocks_append, freeBlocks_cons_reserved ha]
  have hF' : freeBlocks (l1 ++ b :: l2) = freeBlocks l1 ++ a.idx :: freeBlocks l2 := by
    rw [freeBlocks_append, freeBlocks_cons_free rfl]
  have h1 : Laid c (c.set m (c.addr a.idx) .blocks a.len) (l1 ++ b :: l2)
      (freeBlocks l1 ++ freeBlocks l2) := by
    rw [Represents, hF] at h
    exact h.set_header (b := b) rfl (fun e he => he) ht
  have h2 : Laid c (c.set (c.set m (c.addr a.idx) .blocks a.len) (c.addr a.idx) .owner nullPid)
      (l1 ++ b :: l2) (freeBlocks l1 ++ freeBlocks l2) := by
    have hpos := ht.pos
    have hg := guard_inside (c := c) hpos
    have := c.header_holds_fields
    refine h1.write_inside ht.ring_apart (fun x hx => set_owner_outside _ _ _ ?_)
    show x ≠ c.addr b.idx + 2
    omega
  have ho : ((freeBlocks l1 ++ a.idx :: freeBlocks l2) ++ [c.numHeapBlocks - 1]).Pairwise
      (· < ·) := hF' ▸ ht.ordered
  obtain ⟨m', hrun, hring, hlinks⟩ := insertAfter_spec h2.ring ho
  refine ⟨m', hrun, .inr ⟨hc, ?_, ?_⟩⟩
  · rw [Represents, hF']
    exact h2.relink hlinks ho hring
  · have hframe : Frame c ((c.numHeapBlocks - 1) :: a.idx :: (freeBlocks l1 ++ freeBlocks l2))
        m m' := ((frame_set m _ _ (by simp)).trans (frame_set _ _ _ (by simp))).trans hlinks.frame
    refine hframe.keeps (fun i hi e he => ht.freeBlocks_apart ?_ ?_)
    · rw [reservedAreas_without rfl]
      exact he
    · rw [hF']
      simp only [mem_cons, mem_append] at hi ⊢
      tauto

lemma sosBlkMemChangeOwn_spec (id : ℕ) (h : Represents c m (l1 ++ a :: l2))
    (ha : a.reserved = true) :
    Represents c (sosBlkMemChangeOwn c m (userPart c (c.addr a.idx)) id).1 (l1 ++ a :: l2) ∧
    (∀ x, ¬ a.Covers c x → (sosBlkMemChangeOwn c m (userPart c (c.addr a.idx)) id).1 x = m x) ∧
    ((nullPid = id ∨ corrupted c m (c.addr a.idx)) ∧
        (sosBlkMemChangeOwn c m (userPart c (c.addr a.idx)) id).1 = m ∨
      ¬ (nullPid = id ∨ corrupted c m (c.addr a.idx)) ∧
        Owned c (sosBlkMemChangeOwn c m (userPart c (c.addr a.idx)) id).1 a id) := by
  unfold sosBlkMemChangeOwn
  simp only [toBlockPtr_userPart, if_neg (not_outsideHeap h (a := a) (by simp)),
    userPart_ne_zero a.idx, or_false]
  by_cases hid : nullPid = id
  · rw [if_pos hid]
    exact ⟨h, fun _ _ => rfl, .inl ⟨.inl hid, rfl⟩⟩
  by_cases hc : corrupted c m (c.addr a.idx)
  · rw [if_neg hid, if_pos hc]
    exact ⟨h, fun _ _ => rfl, .inl ⟨.inr hc, rfl⟩⟩
  rw [if_neg hid, if_neg hc, h.guardAddr_eq (by simp)]
  have hg := guard_inside (c := c) h.tiles.pos
  have hhdr := c.header_holds_fields
  have hout : ∀ x, x ≠ a.guard c → x ≠ c.addr a.idx + 2 →
      c.set (store m (a.guard c) (UInt8.ofNat id)) (c.addr a.idx) .owner id x = m x := by
    intro x h1 h2
    rw [set_owner_outside _ _ _ h2, store_other _ _ h1]
  have hF : freeBlocks (l1 ++ a :: l2) = freeBlocks l1 ++ freeBlocks l2 := by
    rw [freeBlocks_append, freeBlocks_cons_reserved ha]
  refine ⟨?_, ?_, .inr ⟨fun hh => hh.elim hid hc, ?_, ?_⟩⟩
  · rw [Represents, hF] at h ⊢
    exact h.write_inside h.tiles.ring_apart (fun x hx => hout x (by omega) (by omega))
  · intro x hx
    simp only [Area.Covers] at hx
    exact hout x (by omega) (by omega)
  · exact load_storeWord_self _ _ _ _
  · have hne : a.guard c ≠ c.addr a.idx + 2 := by omega
    exact (set_owner_outside _ _ _ hne).trans (store_self _ _ _)

def release (c : MallocConf) (m : Mem) (id : ℕ) (a : Area) : Area :=
  if a.reserved = true ∧ c.get m (c.addr a.idx) .owner = id ∧ ¬ corrupted c m (c.addr a.idx)
  then { a with reserved := false } else a

lemma release_free (h : a.reserved = false) : release c m id a = a := by simp [release, h]

lemma release_reserved (h : (release c m id a).reserved = true) : release c m id a = a := by
  by_cases hfree : a.reserved = true ∧ c.get m (c.addr a.idx) .owner = id ∧
      ¬ corrupted c m (c.addr a.idx)
  · rw [release, if_pos hfree] at h
    simp at h
  · exact if_neg hfree

lemma owner_congr (hpos : 0 < a.len) (hk : ∀ x, a.Covers c x → m' x = m x) :
    c.get m' (c.addr a.idx) .owner = c.get m (c.addr a.idx) .owner := by
  have hone : c.addr (a.idx + 1) ≤ c.addr (a.idx + a.len) := addr_le_iff.mpr (by omega)
  exact get_congr_block _ (fun x hx => hk x ⟨hx.1, Nat.lt_of_lt_of_le hx.2 hone⟩)

section

variable (h : Represents c m L) (h' : Represents c m' L') (ha : a ∈ L) (ha' : a ∈ L')
    (hk : ∀ x, a.Covers c x → m' x = m x)
include h h' ha ha' hk

lemma corrupted_congr : corrupted c m' (c.addr a.idx) ↔ corrupted c m (c.addr a.idx) := by
  have hpos := (h.tiles.bounds ha).2.2
  have hg := guard_inside (c := c) hpos
  have hguard : m' (a.guard c) = m (a.guard c) := hk _ ⟨by omega, hg.2⟩
  rw [h.corrupted_iff ha, h'.corrupted_iff ha', owner_congr hpos hk, hguard]

lemma release_congr : release c m' id a = release c m id a := by
  have hpos := (h.tiles.bounds ha).2.2
  simp only [release, corrupted_congr h h' ha ha' hk, owner_congr hpos hk]

end

lemma Tiles.head_idx (h : Tiles i (l1 ++ a :: l2) j) :
    (l2.map Area.idx).headD j = a.idx + a.len := by
  cases l2 with
  | nil => exact h.last.symm
  | cons e l2 => exact h.next

lemma removeWalk_round (id : ℕ) (h : Represents c m (l1 ++ a :: l2)) :
    ∃ m', (if c.get m (c.addr a.idx) .owner = id ∧ isReserved c m (c.addr a.idx)
        then sosBlkMemFree c m (userPart c (c.addr a.idx)) else some m) = some m' ∧
      Represents c m' (l1 ++ release c m id a :: l2) ∧
      Keeps c (reservedAreas (l1 ++ release c m id a :: l2)) m m' := by
  by_cases hid : c.get m (c.addr a.idx) .owner = id ∧ isReserved c m (c.addr a.idx)
  · have hr : a.reserved = true := (h.isReserved_iff (by simp)).mp hid.2
    obtain ⟨m', hrun, hres⟩ := sosBlkMemFree_spec h hr
    rw [if_pos hid]
    refine ⟨m', hrun, ?_⟩
    rcases hres with ⟨hc, rfl⟩ | ⟨hc, hrep, hkeep⟩
    · have he : release c m' id a = a := if_neg (fun hh => hh.2.2 hc)
      rw [he]
      exact ⟨h, Keeps.refl _ _⟩
    · have he : release c m id a = { a with reserved := false } := if_pos ⟨hr, hid.1, hc⟩
      rw [he, reservedAreas_without rfl]
      exact ⟨hrep, hkeep⟩
  · have he : release c m id a = a := by
      refine if_neg (fun hh => hid ⟨hh.2.1, ?_⟩)
      exact (h.isReserved_iff (by simp)).mpr hh.1
    rw [if_neg hid, he]
    exact ⟨m, rfl, h, Keeps.refl _ _⟩

lemma removeWalk_succ (id fuel block : ℕ) :
    removeWalk c id (fuel + 1) m block = if block = c.mSentinel then some m else
      (if c.get m block .owner = id ∧ isReserved c m block
        then sosBlkMemFree c m (userPart c block) else some m).bind
      (fun m1 => removeWalk c id fuel m1 (block + areaSize c m1 block * c.blockSize)) := by
  rw [removeWalk]
  split
  · rfl
  · split <;> rfl

lemma removeWalk_spec {fuel : ℕ} (id : ℕ) (h : Represents c m (l1 ++ l2))
    (hfuel : l2.length < fuel) :
    ∃ m', removeWalk c id fuel m (c.addr ((l2.map Area.idx).headD (c.numHeapBlocks - 1))) =
        some m' ∧ Represents c m' (l1 ++ l2.map (release c m id)) ∧
      Keeps c (reservedAreas (l1 ++ l2.map (release c m id))) m m' := by
  induction l2 generalizing m l1 fuel with
  | nil =>
    obtain ⟨fuel, rfl⟩ := Nat.exists_eq_add_of_lt hfuel
    exact ⟨m, if_pos rfl, h, Keeps.refl _ _⟩
  | cons a l2 ih =>
    cases fuel with
    | zero => simp at hfuel
    | succ fuel =>
      obtain ⟨m1, hround, hrep, hkeep⟩ := removeWalk_round id h
      have hnext : Represents c m1 ((l1 ++ [release c m id a]) ++ l2) := by simpa using hrep
      obtain ⟨m', hrun, hrep', hkeep'⟩ := ih hnext (show l2.length < fuel by simpa using hfuel)
      have hmap : l2.map (release c m1 id) = l2.map (release c m id) := by
        refine map_congr_left (fun e he => ?_)
        by_cases hr : e.reserved = true
        · have hres : e ∈ reservedAreas (l1 ++ release c m id a :: l2) :=
            mem_reservedAreas.mpr ⟨by simp [he], hr⟩
          exact release_congr h hrep (by simp [he]) (by simp [he]) (hkeep e hres)
        · rw [release_free (by simpa using hr), release_free (by simpa using hr)]
      rw [hmap] at hrep' hkeep'
      simp only [map_cons, append_assoc, singleton_append] at hrep' hkeep' ⊢
      refine ⟨m', ?_, hrep', Keeps.trans (hkeep.mono ?_) hkeep'⟩
      · have hidx : (release c m id a).idx = a.idx ∧ (release c m id a).len = a.len := by
          unfold release; split <;> exact ⟨rfl, rfl⟩
        have hsize := hrep.areaSize_eq (a := release c m id a) (by simp)
        rw [hidx.1, hidx.2] at hsize
        rw [headD_cons, removeWalk_succ, if_neg (addr_ne_sentinel h (by simp)),
          hround, Option.bind_some, hsize, ← addr_add, ← h.tiles.head_idx]
        exact hrun
      · intro e he
        simp only [reservedAreas_append, mem_append] at he ⊢
        refine he.imp_right (fun hmem => ?_)
        -- a released list has no reserved area that was not there before
        obtain ⟨hin, hr⟩ := mem_reservedAreas.mp hmem
        refine mem_reservedAreas.mpr ⟨?_, hr⟩
        rcases mem_cons.mp hin with rfl | hin
        · simp
        · obtain ⟨d, hd, rfl⟩ := mem_map.mp hin
          rw [release_reserved hr]
          exact mem_cons_of_mem _ hd

lemma Represents.start (h : Represents c m L) :
    c.addr ((L.map Area.idx).headD (c.numHeapBlocks - 1)) = c.mallocHeap := by
  have ht := h.tiles
  cases L with
  | nil => simp only [Tiles] at ht; simp [← ht, MallocConf.addr]
  | cons e L => simp [ht.1, MallocConf.addr]

lemma Represents.length_lt (h : Represents c m L) : L.length < c.numHeapBlocks := by
  have := h.tiles.length_le
  have := c.two_blocks
  omega

lemma memRemoveAll_spec (id : ℕ) (h : Represents c m L) :
    ∃ m', memRemoveAll c m id = some m' ∧ Represents c m' (L.map (release c m id)) ∧
      Keeps c (reservedAreas (L.map (release c m id))) m m' := by
  have hwalk := removeWalk_spec id (show Represents c m ([] ++ L) from h) h.length_lt
  rwa [h.start] at hwalk

structure Survives (c : MallocConf) (R : List Area) (m m' : Mem) (L' : List Area) : Prop where
  represents : Represents c m' L'
  reserved : ∀ e ∈ R, e ∈ reservedAreas L'
  kept : Keeps c R m m'

lemma Evolves.survives (h : Evolves c m L m' L') : Survives c (reservedAreas L) m m' L' :=
  ⟨h.represents, fun _ he => h.reserved ▸ he, h.kept⟩

lemma Allocated.survives (h : Allocated c m L m' L' a id) : Survives c (reservedAreas L) m m' L' :=
  ⟨h.represents, fun e he => (h.reserved e).mpr (.inr he), h.kept⟩

lemma mem_reservedAreas_others (he : e ∈ reservedAreas (l1 ++ a :: l2)) (hne : e ≠ a) :
    e ∈ reservedAreas (l1 ++ l2) := by
  obtain ⟨hmem, hr⟩ := mem_reservedAreas.mp he
  exact mem_reservedAreas.mpr ⟨mem_others_of_ne hmem hne, hr⟩

lemma ne_of_apart (hpos : 0 < a.len)
    (h : e.idx + e.len ≤ a.idx ∨ a.idx + a.len ≤ e.idx) : e ≠ a := by
  rintro rfl
  omega

/-- Freeing the area `g` leaves the others `R`, and `g` too when its guard byte is wrong. -/
lemma free_area_spec {g : Area} {R : List Area} (h : Represents c m L)
    (hres : ∀ e, e ∈ reservedAreas L ↔ e = g ∨ e ∈ R) (hgR : g ∉ R) :
    ∃ m' L', sosBlkMemFree c m (userPart c (c.addr g.idx)) = some m' ∧ Represents c m' L' ∧
      Keeps c (reservedAreas L') m m' ∧
      ∀ e, e ∈ reservedAreas L' ↔ e = g ∧ corrupted c m (c.addr g.idx) ∨ e ∈ R := by
  obtain ⟨hmem, hg⟩ := mem_reservedAreas.mp ((hres g).mpr (.inl rfl))
  obtain ⟨u, v, rfl⟩ := append_of_mem hmem
  obtain ⟨m', hrun, ⟨hc, rfl⟩ | ⟨hc, hrep, hkeep⟩⟩ := sosBlkMemFree_spec h hg
  · exact ⟨m', _, hrun, h, .refl _ _, fun e => by rw [hres, and_iff_left hc]⟩
  · have hfreed : reservedAreas (u ++ { g with reserved := false } :: v) = reservedAreas (u ++ v) :=
      reservedAreas_without rfl
    refine ⟨m', _, hrun, hrep, hfreed ▸ hkeep, fun e => ?_⟩
    rw [hfreed, or_iff_right (fun hh => hc hh.2)]
    constructor
    · intro he
      have hne := ne_of_apart (h.tiles.bounds hmem).2.2
        (h.tiles.others_apart (mem_reservedAreas.mp he).1)
      exact ((hres e).mp ((mem_reservedAreas_cons hg).mpr (.inr he))).resolve_left hne
    · intro he
      exact mem_reservedAreas_others ((hres e).mpr (.inr he)) (fun heq => hgR (heq ▸ he))

lemma memInit_spec (m : Mem) :
    ∃ m', memInit c m = some m' ∧ Represents c m' [⟨0, c.numHeapBlocks - 1, false⟩] := by
  have htwo := c.two_blocks
  have hcount := c.count_below_marks
  have hne : c.numHeapBlocks - 1 ≠ 0 := by omega
  have hptr : c.addr (c.numHeapBlocks - 1) < 256 ^ c.sizeofPointer :=
    lt_of_lt_of_le (addr_lt_iff.mpr (by omega)) (addr_fits le_rfl)
  have hword : ∀ v, v < 65536 → v < 256 ^ Field.blocks.size c := fun v hv => by
    simpa [Field.size] using hv
  have hseal : (1 ||| reservedBit) = 0x8001 := by decide
  have hone : ∀ m0 : Mem, c.get (c.set m0 c.mSentinel .blocks 1) c.mSentinel .blocks = 1 :=
    fun m0 => get_set_self m0 _ (hword 1 (by omega))
  simp only [memInit, hone, hseal]
  set m1 := c.set m c.mSentinel .blocks 1
  set m2 := c.set m1 c.mSentinel .blocks 0x8001
  set m3 := c.set (c.set m2 c.mSentinel .prev c.mSentinel) c.mSentinel .next c.mSentinel
  set m4 := c.set m3 (c.addr 0) .blocks (c.numHeapBlocks - 1)
  have hlaid : Laid c m4 [⟨0, c.numHeapBlocks - 1, false⟩] [] := by
    refine ⟨⟨rfl, by simp only; omega, by simp [Tiles]⟩, ?_, ?_, by simp, ?_, ?_⟩
    · intro e he
      obtain rfl := mem_singleton.mp he
      exact get_set_self _ _ (hword _ (by omega))
    · have hsent : c.get m4 c.mSentinel .blocks = c.get m2 c.mSentinel .blocks := by
        refine (get_set_other _ _ _ (Ne.symm hne)).trans ?_
        exact (get_set_ne _ _ _ _ (by decide)).trans (get_set_ne _ _ _ _ (by decide))
      rw [hsent]
      exact get_set_self _ _ (hword _ (by omega))
    · refine (get_set_other _ _ _ (Ne.symm hne)).trans ?_
      exact get_set_self _ _ hptr
    · refine (get_set_other _ _ _ (Ne.symm hne)).trans ?_
      exact (get_set_ne _ _ _ _ (by decide)).trans (get_set_self _ _ hptr)
  have ho : (([] ++ 0 :: []) ++ [c.numHeapBlocks - 1]).Pairwise (· < ·) := by
    simp only [nil_append, cons_append, pairwise_cons, mem_singleton,
      not_mem_nil, false_implies, implies_true, List.Pairwise.nil, and_true]
    omega
  obtain ⟨m', hrun, hring, hlinks⟩ :=
    insertAfter_spec (show FreeRing c m4 ([] ++ []) from hlaid.ring) ho
  exact ⟨m', hrun, hlaid.relink hlinks ho hring⟩

end HeapAreas
