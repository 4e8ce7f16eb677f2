import SosKernel.HeapMerging

/-! # The operations of `malloc.c` on a represented heap

Every operation returns, keeps the heap represented and leaves the bytes of all other reserved
areas alone. -/
namespace HeapAreas

open ByteMemory HeapLayout LinkedRing List Option

variable {c : MallocConf} {m m' m1 : Mem} {L l1 l2 R : List Area} {F : List ℕ} {a e : Area}
  {i j x k fuel req : ℕ} {L1 L2 l3 : List Area}

def reservedAreas (L : List Area) : List Area := L.filter (fun a => a.reserved)

@[simp] lemma reservedAreas_append (L1 L2 : List Area) :
    reservedAreas (L1 ++ L2) = reservedAreas L1 ++ reservedAreas L2 := by
  simp [reservedAreas]

lemma reservedAreas_cons_free (h : a.reserved = false) (L : List Area) :
    reservedAreas (a :: L) = reservedAreas L := by
  simp [reservedAreas, h]

lemma reservedAreas_cons_reserved (h : a.reserved = true) (L : List Area) :
    reservedAreas (a :: L) = a :: reservedAreas L := by
  simp [reservedAreas, h]

lemma reservedAreas_without (h : a.reserved = false) :
    reservedAreas (l1 ++ a :: l2) = reservedAreas (l1 ++ l2) := by
  rw [reservedAreas_append, reservedAreas_cons_free h, reservedAreas_append]

lemma mem_reservedAreas_cons (ha : a.reserved = true) :
    e ∈ reservedAreas (l1 ++ a :: l2) ↔ e ∈ [a] ∨ e ∈ reservedAreas (l1 ++ l2) := by
  rw [reservedAreas_append, reservedAreas_cons_reserved ha, reservedAreas_append]
  simp only [mem_append, mem_cons, not_mem_nil, or_false]
  exact or_left_comm

lemma reservedAreas_free (h : ∀ e ∈ L, e.reserved = false) : reservedAreas L = [] := by
  simpa [reservedAreas, filter_eq_nil_iff] using h

lemma mem_reservedAreas : a ∈ reservedAreas L ↔ a ∈ L ∧ a.reserved = true := by simp [reservedAreas]

def Area.Covers (c : MallocConf) (a : Area) (x : ℕ) : Prop :=
  c.addr a.idx ≤ x ∧ x < c.addr (a.idx + a.len)

def Keeps (c : MallocConf) (R : List Area) (m m' : Mem) : Prop :=
  ∀ a ∈ R, ∀ x, a.Covers c x → m' x = m x

lemma Keeps.refl (R : List Area) (m : Mem) : Keeps c R m m := fun _ _ _ _ => rfl

lemma Keeps.trans {m2 m3 : Mem} (h : Keeps c R m1 m2) (k : Keeps c R m2 m3) : Keeps c R m1 m3 :=
  fun a ha x hx => (k a ha x hx).trans (h a ha x hx)

lemma Keeps.mono {R' : List Area} (h : Keeps c R m m') (hs : ∀ a ∈ R', a ∈ R) :
    Keeps c R' m m' := fun a ha => h a (hs a ha)

lemma addr_not_between (h : i ≤ j) (hlt : x < c.addr i) (hle : c.addr j ≤ x) : False :=
  Nat.lt_irrefl x (Nat.lt_of_lt_of_le hlt ((addr_le_iff.mpr h).trans hle))

lemma Tiles.others_apart (h : Tiles i (l1 ++ a :: l2) j) (he : e ∈ l1 ++ l2) :
    e.idx + e.len ≤ a.idx ∨ a.idx + a.len ≤ e.idx := by
  have hp := pairwise_append.mp h.apart
  rcases mem_append.mp he with he | he
  · exact .inl (hp.2.2 e he a (by simp))
  · exact .inr ((pairwise_cons.mp hp.2.1).1 e he)

lemma Tiles.ring_apart (h : Tiles i (l1 ++ a :: l2) k) :
    ∀ j ∈ freeBlocks l1 ++ freeBlocks l2, j < a.idx ∨ a.idx + a.len ≤ j := by
  intro j hj
  rw [← freeBlocks_append, mem_freeBlocks] at hj
  obtain ⟨e, he, -, rfl⟩ := hj
  have hpos : 0 < e.len := by exact (h.bounds (mem_of_mem_others he)).2.2
  rcases h.others_apart he with hle | hle
  · exact .inl (by omega)
  · exact .inr hle

lemma Frame.keeps {S : List ℕ} (h : Frame c S m m')
    (hS : ∀ i ∈ S, ∀ e ∈ R, i < e.idx ∨ e.idx + e.len ≤ i) : Keeps c R m m' := by
  intro e he x hx
  refine h x (fun i hi hin => ?_)
  rcases hS i hi e he with hlt | hle
  · exact addr_not_between hlt hin.2 hx.1
  · exact addr_not_between hle hx.2 hin.1

lemma keeps_of_inside (hm : ∀ x, ¬ a.Covers c x → m' x = m x)
    (hR : ∀ e ∈ R, e.idx + e.len ≤ a.idx ∨ a.idx + a.len ≤ e.idx) : Keeps c R m m' := by
  intro e he x hx
  refine hm x (fun hin => ?_)
  rcases hR e he with hle | hle
  · exact addr_not_between hle hx.2 hin.1
  · exact addr_not_between hle hin.2 hx.1

lemma get_congr_block (f : Field) (h : ∀ x, InBlock c i x → m' x = m x) :
    c.get m' (c.addr i) f = c.get m (c.addr i) f := by
  have hf := field_in_block (c := c) f
  refine load_congr (fun x hl hu => h x ⟨by omega, ?_⟩)
  rw [addr_add]
  omega

lemma Laid.write_inside (h : Laid c m (l1 ++ a :: l2) F)
    (hF : ∀ j ∈ F, j < a.idx ∨ a.idx + a.len ≤ j)
    (hm : ∀ x, x < c.addr a.idx + 2 ∨ c.addr (a.idx + a.len) ≤ x → m' x = m x) :
    Laid c m' (l1 ++ a :: l2) F := by
  have hblock : ∀ j, j < a.idx ∨ a.idx + a.len ≤ j → ∀ x, InBlock c j x → m' x = m x := by
    intro j hj x hx
    refine hm x ?_
    rcases hj with hj | hj
    · have hle := (addr_le_iff (c := c)).mpr (show j + 1 ≤ a.idx from hj)
      have := hx.2
      omega
    · exact .inr ((addr_le_iff.mpr hj).trans hx.1)
  have hsent : ∀ f, c.get m' c.mSentinel f = c.get m c.mSentinel f := by
    have := (h.len_lt (a := a) (by simp)).1
    exact fun f => get_congr_block f (hblock _ (.inr this))
  have hnode : ∀ j ∈ (c.numHeapBlocks - 1) :: F, ∀ f,
      c.get m' (c.addr j) f = c.get m (c.addr j) f := by
    intro j hj f
    rcases mem_cons.mp hj with rfl | hj
    · exact hsent f
    · exact get_congr_block f (hblock j (hF j hj))
  refine ⟨h.tiles, ?_, (hsent _).trans h.sentinel, h.ordered,
    h.ring.congr (fun j hj => hnode j hj _) (fun j hj => hnode j hj _)⟩
  intro e he
  rw [← h.headers e he]
  by_cases hea : e = a
  · subst hea
    refine load_congr (fun x _ hu => hm x (.inl ?_))
    simpa [Field.offset, Field.size] using hu
  · have hmem : e ∈ l1 ++ l2 := mem_others_of_ne he hea
    have hpos := (h.tiles.bounds he).2.2
    refine get_congr_block _ (hblock _ ?_)
    rcases h.tiles.others_apart hmem with hlt | hle
    · exact .inl (by omega)
    · exact .inr hle

lemma header_or_reserved (h : a.len < 0x4000) :
    a.header ||| reservedBit = Area.header { a with reserved := true } := by
  have hor := or_reservedBit (show a.len < 0x8000 by omega)
  cases hr : a.reserved with
  | false => simpa [Area.header, hr] using hor
  | true =>
    simp only [Area.header, hr, if_true]
    rw [← hor, Nat.or_assoc, Nat.or_self]

lemma header_size (h : a.len < 0x4000) : a.header &&& sizeMask = a.len := by
  rw [and_sizeMask, Area.header]
  split <;> omega

lemma header_expose (h : a.len < 0x4000) : a.header &&& 0x7fff = a.len := by
  rw [and_exposeMask, Area.header]
  split <;> omega

def Area.guard (c : MallocConf) (a : Area) : ℕ := c.addr (a.idx + a.len) - 1

lemma Laid.areaSize_eq (h : Laid c m L F) (ha : a ∈ L) : areaSize c m (c.addr a.idx) = a.len := by
  rw [areaSize, h.headers a ha, header_size (h.len_lt ha).2]

lemma Laid.guardAddr_eq (h : Laid c m L F) (ha : a ∈ L) :
    guardAddr c m (c.addr a.idx) = a.guard c := by
  rw [guardAddr, h.areaSize_eq ha, ← addr_add]; rfl

lemma guard_inside (ha : 0 < a.len) :
    c.addr a.idx + c.sizeofBlockHeader < a.guard c ∧ a.guard c < c.addr (a.idx + a.len) := by
  have hone : c.addr a.idx + c.blockSize ≤ c.addr (a.idx + a.len) := addr_apart (by omega)
  have := c.links_fit
  have := c.pointer_pos
  simp only [Area.guard, MallocConf.blockSize] at *
  omega

lemma set_owner_outside (m : Mem) (i v : ℕ) (h : x ≠ c.addr i + 2) :
    c.set m (c.addr i) .owner v x = m x := by
  refine storeWord_outside m ?_
  simp only [Field.offset, Field.size]
  omega

structure Owned (c : MallocConf) (m : Mem) (a : Area) (id : ℕ) : Prop where
  owner : c.get m (c.addr a.idx) .owner = id % 256
  guard : m (a.guard c) = UInt8.ofNat id

lemma reserve_eq (id : ℕ) (h : Laid c m (l1 ++ a :: l2) F) :
    reserve c m (c.addr a.idx) id =
      store (c.set (c.set m (c.addr a.idx) .blocks (Area.header { a with reserved := true }))
        (c.addr a.idx) .owner id) (a.guard c) (UInt8.ofNat id) := by
  have hlt := h.len_lt (a := a) (by simp)
  have hhead : c.get m (c.addr a.idx) .blocks ||| reservedBit =
      Area.header { a with reserved := true } := by
    rw [h.headers a (by simp), header_or_reserved hlt.2]
  have hfits : Area.header { a with reserved := true } < 256 ^ Field.blocks.size c := by
    simp only [Area.header, if_true, Field.size]
    omega
  have hsize := header_size (a := { a with reserved := true }) hlt.2
  simp only [reserve, hhead, guardAddr, areaSize]
  rw [get_set_ne _ _ _ _ (by decide), get_set_self _ _ hfits, hsize, ← addr_add]
  rfl

lemma reserve_spec (id : ℕ) (h : Laid c m (l1 ++ a :: l2) (freeBlocks l1 ++ freeBlocks l2)) :
    Represents c (reserve c m (c.addr a.idx) id) (l1 ++ { a with reserved := true } :: l2) ∧
    Owned c (reserve c m (c.addr a.idx) id) { a with reserved := true } id ∧
    ∀ x, ¬ a.Covers c x → reserve c m (c.addr a.idx) id x = m x := by
  have hpos := h.tiles.pos
  have heq := reserve_eq id h
  set b : Area := { a with reserved := true } with hb
  have ht : Tiles 0 (l1 ++ b :: l2) (c.numHeapBlocks - 1) := by
    simpa [tiles_append, Tiles, hb] using h.tiles
  have h1 := h.set_header (b := b) rfl (fun e he => he) ht
  set m1 := c.set m (c.addr a.idx) .blocks b.header with hm1
  set m2 := c.set m1 (c.addr a.idx) .owner id with hm2
  have hg := guard_inside (c := c) (a := b) hpos
  have hhdr := c.header_holds_fields
  have hfree := ht.ring_apart
  have h2 : Laid c m2 (l1 ++ b :: l2) (freeBlocks l1 ++ freeBlocks l2) :=
    h1.write_inside hfree (fun x hx => set_owner_outside _ _ _ (by
      show x ≠ c.addr b.idx + 2
      omega))
  rw [heq, show a.guard c = b.guard c from rfl]
  refine ⟨?_, ⟨?_, store_self _ _ _⟩, ?_⟩
  · have hF : freeBlocks (l1 ++ b :: l2) = freeBlocks l1 ++ freeBlocks l2 := by
      rw [freeBlocks_append, freeBlocks_cons_reserved rfl]
    rw [Represents, hF]
    exact h2.write_inside hfree (fun x hx => store_other _ _ (by omega))
  · have hkeep : c.get (store m2 (b.guard c) (UInt8.ofNat id)) (c.addr b.idx) .owner =
        c.get m2 (c.addr b.idx) .owner :=
      load_store_apart _ _ (by simp only [Field.offset, Field.size]; omega)
    rw [hkeep]
    exact load_storeWord_self _ _ _ _
  · intro x hx
    have hlow : c.addr a.idx + c.sizeofBlockHeader < b.guard c := hg.1
    have hhigh : b.guard c < c.addr (a.idx + a.len) := hg.2
    have hguard : x ≠ b.guard c := by rintro rfl; exact hx ⟨by omega, hhigh⟩
    have howner : x ≠ c.addr a.idx + 2 := by rintro rfl; exact hx ⟨by omega, by omega⟩
    have hblock : ¬ InBlock c a.idx x := by
      intro hin
      exact hx ⟨hin.1, Nat.lt_of_lt_of_le hin.2 (addr_le_iff.mpr (by omega))⟩
    rw [store_other _ _ hguard, hm2, set_owner_outside _ _ _ howner, hm1, set_outside _ _ _ hblock]

lemma reserve_user (id : ℕ) (h : Laid c m (l1 ++ a :: l2) F) (hlo : userPart c (c.addr a.idx) ≤ x)
    (hguard : x ≠ a.guard c) : reserve c m (c.addr a.idx) id x = m x := by
  have hhdr := c.header_holds_fields
  simp only [userPart] at hlo
  rw [reserve_eq id h, store_other _ _ hguard, set_owner_outside _ _ _ (by omega)]
  refine set_other_field _ _ (fun hin => ?_)
  have := hin.2
  simp only [Field.offset, Field.size] at this
  omega

/-- From `m`, which lays out `L`, to `m'`, which lays out `L'` with the same reserved areas. -/
structure Evolves (c : MallocConf) (m : Mem) (L : List Area) (m' : Mem) (L' : List Area) :
    Prop where
  represents : Represents c m' L'
  reserved : reservedAreas L' = reservedAreas L
  kept : Keeps c (reservedAreas L) m m'

lemma Evolves.refl (h : Represents c m L) : Evolves c m L m L := ⟨h, rfl, Keeps.refl _ _⟩

lemma Evolves.trans {m2 : Mem} (h : Evolves c m L m1 L1)
    (k : Evolves c m1 L1 m2 L2) : Evolves c m L m2 L2 :=
  ⟨k.represents, k.reserved.trans h.reserved, h.kept.trans (h.reserved ▸ k.kept)⟩

lemma Tiles.free_apart {b : Area} (h : Tiles i L j) (he : e ∈ reservedAreas L) (hb : b ∈ L)
    (hfree : b.reserved = false) (hlo : b.idx ≤ k) (hhi : k < b.idx + b.len) :
    k < e.idx ∨ e.idx + e.len ≤ k := by
  obtain ⟨heL, her⟩ := mem_reservedAreas.mp he
  have hne : e ≠ b := by
    rintro rfl
    simp [hfree] at her
  rcases h.disjoint heL hb hne with hd | hd
  · exact .inr (by omega)
  · exact .inl (by omega)

lemma Tiles.freeBlocks_apart (h : Tiles i L j) (he : e ∈ reservedAreas L)
    (hk : k ∈ j :: freeBlocks L) : k < e.idx ∨ e.idx + e.len ≤ k := by
  rcases mem_cons.mp hk with rfl | hk
  · exact .inr (h.bounds (mem_reservedAreas.mp he).1).2.1
  · obtain ⟨b, hb, hfree, rfl⟩ := mem_freeBlocks.mp hk
    have := (h.bounds hb).2.2
    exact h.free_apart he hb hfree le_rfl (by omega)

lemma Tiles.reserved_apart (h : Tiles i (l1 ++ a :: l2) j) (ha : a.reserved = false) :
    ∀ e ∈ reservedAreas (l1 ++ a :: l2), e.idx + e.len ≤ a.idx ∨ a.idx + a.len ≤ e.idx := by
  intro e he
  rw [reservedAreas_without ha] at he
  exact h.others_apart (mem_reservedAreas.mp he).1

lemma Absorbed.evolves {fr : List Area} (h : Represents c m (l1 ++ a :: (fr ++ l3)))
    (ha : a.reserved = false) (habs : Absorbed c m m' l1 a fr l3 (freeBlocks l1 ++ [a.idx])) :
    Evolves c m (l1 ++ a :: (fr ++ l3)) m' (l1 ++ grow a fr :: l3) := by
  have hgrow : (grow a fr).reserved = false := ha
  refine ⟨?_, ?_, ?_⟩
  · have hF : freeBlocks (l1 ++ grow a fr :: l3) = (freeBlocks l1 ++ [a.idx]) ++ freeBlocks l3 := by
      simp [freeBlocks_cons_free hgrow]
    rw [Represents, hF]
    exact habs.laid
  · simp [reservedAreas_cons_free hgrow, reservedAreas_cons_free ha, reservedAreas_free habs.free]
  · refine habs.frame.keeps (fun i hi e he => h.tiles.freeBlocks_apart he ?_)
    rw [freeBlocks_append, freeBlocks_cons_free ha]
    simp only [mem_cons, mem_append, not_mem_nil, or_false] at hi ⊢
    rcases hi with hi | hi | (hi | hi) | hi <;> simp only [hi, true_or, or_true]

lemma freeBlocks_eq_cons {rest : List ℕ} (h : freeBlocks L = i :: rest) :
    ∃ r b l3, L = r ++ b :: l3 ∧ b.reserved = false ∧ b.idx = i ∧ freeBlocks l3 = rest := by
  induction L with
  | nil => simp at h
  | cons e L ih =>
    by_cases he : e.reserved = true
    · rw [freeBlocks_cons_reserved he] at h
      obtain ⟨r, b, l3, rfl, hb⟩ := ih h
      exact ⟨e :: r, b, l3, rfl, hb⟩
    · have hfree : e.reserved = false := by simpa using he
      rw [freeBlocks_cons_free hfree, List.cons.injEq] at h
      exact ⟨[], e, L, rfl, hfree, h.1, h.2⟩

lemma Represents.next_free (h : Represents c m (l1 ++ a :: l3)) (ha : a.reserved = false) :
    c.get m (c.addr a.idx) .next = c.addr ((freeBlocks l3).headD (c.numHeapBlocks - 1)) := by
  have hring := h.ring
  rw [freeBlocks_append, freeBlocks_cons_free ha] at hring
  exact hring.neighbours.1

lemma Represents.first_free (h : Represents c m L) :
    c.get m c.mSentinel .next = c.addr ((freeBlocks L).headD (c.numHeapBlocks - 1)) :=
  (Segment.next_eq h.ring).trans (headD_addr _ _)

lemma Represents.tail_length (h : Represents c m (l1 ++ a :: l2)) :
    l2.length < c.numHeapBlocks := by
  have := h.tiles.length_le
  simp only [length_append, length_cons] at this
  omega

lemma Represents.laid_free (h : Represents c m (l1 ++ a :: l2)) (ha : a.reserved = false) :
    Laid c m (l1 ++ a :: l2) ((freeBlocks l1 ++ [a.idx]) ++ freeBlocks l2) := by
  simpa [Represents, freeBlocks_cons_free ha] using h

lemma freeBlocks_length_le : (freeBlocks L).length ≤ L.length := by
  simpa [freeBlocks] using length_filter_le _ L

lemma Represents.freeBlocks_length (h : Represents c m L) :
    (freeBlocks L).length < c.numHeapBlocks := by
  have := h.tiles.length_le
  have := freeBlocks_length_le (L := L)
  have := c.two_blocks
  omega

lemma addr_ne_sentinel (h : Represents c m L) (ha : a ∈ L) : c.addr a.idx ≠ c.mSentinel := by
  intro he
  have := addr_inj.mp he
  have := h.tiles.bounds ha
  omega

lemma firstFit_spec (req : ℕ) (h : Represents c m (l1 ++ l2))
    (hfuel : (freeBlocks l2).length < fuel) :
    ∃ m' L' block, firstFit c req fuel m (c.addr ((freeBlocks l2).headD (c.numHeapBlocks - 1))) =
        some (m', block) ∧ Evolves c m (l1 ++ l2) m' L' ∧ (block = c.mSentinel ∨
        ∃ a ∈ L', a.reserved = false ∧ block = c.addr a.idx ∧ req ≤ a.len) := by
  induction fuel generalizing m l1 l2 with
  | zero => simp at hfuel
  | succ fuel ih =>
    cases hF : freeBlocks l2 with
    | nil => exact ⟨m, l1 ++ l2, c.mSentinel, if_pos rfl, Evolves.refl h, .inl rfl⟩
    | cons i rest =>
      obtain ⟨r, a, l3, rfl, ha, rfl, rfl⟩ := freeBlocks_eq_cons hF
      rw [← append_assoc] at h ⊢
      obtain ⟨m1, fr, l4, rfl, hrun, habs⟩ :=
        mergeBlocksQuick_spec req (h.laid_free ha) ha h.tail_length
      have hev := habs.evolves h ha
      have hlen : c.get m1 (c.addr a.idx) .blocks = (grow a fr).len :=
        hev.represents.free_len (a := grow a fr) (by simp) ha
      simp only [headD_cons, firstFit, if_neg (addr_ne_sentinel h (a := a) (by simp)), hrun,
        bind_eq_bind, bind_some, hlen]
      by_cases hreq : req ≤ (grow a fr).len
      · exact ⟨m1, _, c.addr a.idx, if_pos hreq, hev, .inr ⟨grow a fr, by simp, ha, rfl, hreq⟩⟩
      · rw [if_neg hreq, show c.get m1 (c.addr a.idx) .next = _ from hev.represents.next_free ha]
        have hnext : Represents c m1 (((l1 ++ r) ++ [grow a fr]) ++ l4) := by
          simpa using hev.represents
        obtain ⟨m', L', block, hrun', hev', hblock⟩ := ih hnext (by
          simp only [freeBlocks_append, freeBlocks_cons_free ha, length_append,
            length_cons] at hfuel
          omega)
        refine ⟨m', L', block, hrun', hev.trans ?_, hblock⟩
        simpa using hev'

/-- The outcome of a successful allocation: `a` is reserved besides the areas reserved before. -/
structure Allocated (c : MallocConf) (m : Mem) (L : List Area) (m' : Mem) (L' : List Area)
    (a : Area) (id : ℕ) : Prop where
  represents : Represents c m' L'
  reserved : ∀ e, e ∈ reservedAreas L' ↔ e = a ∨ e ∈ reservedAreas L
  kept : Keeps c (reservedAreas L) m m'
  apart : ∀ e ∈ reservedAreas L, e.idx + e.len ≤ a.idx ∨ a.idx + a.len ≤ e.idx
  owned : Owned c m' a id

/-- An allocation returned: with no block, or with an area of at least the blocks needed. -/
def Served (c : MallocConf) (m : Mem) (L : List Area) (size id : ℕ) (run : Option (Mem × ℕ)) :
    Prop :=
  ∃ m' p L', run = some (m', p) ∧
    (p = 0 ∧ Evolves c m L m' L' ∨
      ∃ a, p = userPart c (c.addr a.idx) ∧ Allocated c m L m' L' a id ∧ reqBlocks c size ≤ a.len)

lemma Evolves.allocated {id : ℕ} (h : Evolves c m L m1 L1)
    (k : Allocated c m1 L1 m' L2 a id) : Allocated c m L m' L2 a id :=
  ⟨k.represents, fun e => by rw [k.reserved, h.reserved], h.kept.trans (h.reserved ▸ k.kept),
    h.reserved ▸ k.apart, k.owned⟩

lemma reqBlocks_pos {size : ℕ} (h : size + c.blockOverhead + c.blockSize - 1 ≤ 65535) :
    0 < reqBlocks c size := by
  have hover : 0 < c.blockOverhead := Nat.succ_pos _
  rw [reqBlocks, Nat.shiftRight_eq_div_pow]
  exact Nat.div_pos (by simp only [MallocConf.blockSize] at *; omega) (Nat.two_pow_pos _)

lemma unlink_reserve_spec (id : ℕ) (h : Represents c m (l1 ++ a :: l2)) (ha : a.reserved = false) :
    Allocated c m (l1 ++ a :: l2) (reserve c (unlink c m (c.addr a.idx)) (c.addr a.idx) id)
      (l1 ++ { a with reserved := true } :: l2) { a with reserved := true } id := by
  have hF : freeBlocks (l1 ++ a :: l2) = freeBlocks l1 ++ a.idx :: freeBlocks l2 := by
    rw [freeBlocks_append, freeBlocks_cons_free ha]
  rw [Represents, hF] at h
  obtain ⟨hring, hlinks⟩ := unlink_spec h.ring h.ordered
  have hlaid := h.relink hlinks (ordered_erase h.ordered) hring
  obtain ⟨hrep, howned, hout⟩ := reserve_spec id hlaid
  have hapart := h.tiles.reserved_apart ha
  refine ⟨hrep, ?_, ?_, hapart, howned⟩
  · intro e
    rw [mem_reservedAreas_cons rfl, mem_singleton, reservedAreas_without ha]
  · refine Keeps.trans (hlinks.frame.keeps ?_) (keeps_of_inside hout hapart)
    intro i hi e he
    refine h.tiles.freeBlocks_apart he ?_
    rw [hF]
    exact cons_subset_cons _ ((sublist_cons_self _ _).append_left _).subset hi

lemma Tiles.split_apart (h : Tiles i (l1 ++ a :: l2) j) (ha : a.reserved = false)
    (hlt : req < a.len) (he : e ∈ reservedAreas (l1 ++ a :: l2))
    (hk : k ∈ a.idx :: j :: (a.idx + req) :: (freeBlocks l1 ++ freeBlocks l2)) :
    k < e.idx ∨ e.idx + e.len ≤ k := by
  simp only [mem_cons] at hk
  rcases hk with rfl | rfl | rfl | hk
  · exact h.free_apart he (by simp) ha le_rfl (by omega)
  · exact h.freeBlocks_apart he (by simp)
  · exact h.free_apart he (by simp) ha (by omega) (by omega)
  · refine h.freeBlocks_apart he ?_
    rcases mem_append.mp hk with hk | hk <;> simp [freeBlocks_cons_free ha, hk]

lemma splitBlock_evolves (h : Represents c m (l1 ++ a :: l2)) (ha : a.reserved = false)
    (hpos : 0 < req) (hlt : req < a.len) :
    ∃ m', splitBlock c m (c.addr a.idx) req = some m' ∧ Evolves c m (l1 ++ a :: l2) m'
      (l1 ++ ⟨a.idx, req, false⟩ :: ⟨a.idx + req, a.len - req, false⟩ :: l2) := by
  have hbefore : ∀ j ∈ freeBlocks l1 ++ [a.idx], j ≤ a.idx := by
    intro j hj
    rcases mem_append.mp hj with hj | hj
    · obtain ⟨e, he, -, rfl⟩ := mem_freeBlocks.mp hj
      have := (pairwise_append.mp h.tiles.apart).2.2 e he a (by simp)
      omega
    · exact (mem_singleton.mp hj).le
  obtain ⟨m', hrun, hlaid, hframe⟩ := splitBlock_spec (h.laid_free ha) ha hbefore hpos hlt
  refine ⟨m', hrun, ?_, ?_, hframe.frame.keeps ?_⟩
  · simpa [Represents, freeBlocks_cons_free] using hlaid
  · simp [reservedAreas_cons_free, ha]
  · intro i hi e he
    refine h.tiles.split_apart ha hlt he ?_
    simp only [mem_cons, mem_append, not_mem_nil, or_false] at hi ⊢
    tauto

lemma sosBlkMemAlloc_spec (size id : ℕ) (h : Represents c m L)
    (hsize : size + c.blockOverhead + c.blockSize - 1 ≤ 65535) :
    Served c m L size id (sosBlkMemAlloc c m size id) := by
  unfold sosBlkMemAlloc
  by_cases hz : size = 0
  · exact ⟨m, 0, L, if_pos hz, .inl ⟨rfl, Evolves.refl h⟩⟩
  rw [if_neg hz, h.first_free]
  obtain ⟨m1, L1, block, hrun, hev, hblock⟩ :=
    firstFit_spec (reqBlocks c size) (show Represents c m ([] ++ L) from h) h.freeBlocks_length
  simp only [hrun, bind_eq_bind, bind_some]
  rcases hblock with rfl | ⟨a, ha, hfree, rfl, hreq⟩
  · exact ⟨m1, 0, L1, if_pos rfl, .inl ⟨rfl, hev⟩⟩
  rw [if_neg (addr_ne_sentinel hev.represents ha), hev.represents.free_len ha hfree]
  obtain ⟨l1, l2, rfl⟩ := append_of_mem ha
  by_cases hlt : reqBlocks c size < a.len
  · obtain ⟨m2, hsplit, hev2⟩ := splitBlock_evolves hev.represents hfree (reqBlocks_pos hsize) hlt
    rw [if_pos hlt, hsplit]
    have halloc := unlink_reserve_spec id hev2.represents rfl
    exact ⟨_, _, _, rfl, .inr ⟨⟨a.idx, reqBlocks c size, true⟩, rfl,
      (hev.trans hev2).allocated halloc, le_rfl⟩⟩
  · rw [if_neg hlt]
    have halloc := unlink_reserve_spec id hev.represents hfree
    exact ⟨_, _, _, rfl, .inr ⟨{ a with reserved := true }, rfl, hev.allocated halloc, hreq⟩⟩

lemma defragment_spec (h : Represents c m (l1 ++ l2)) (hfuel : (freeBlocks l2).length < fuel) :
    ∃ m' L', defragment c fuel m (c.addr ((freeBlocks l2).headD (c.numHeapBlocks - 1))) =
      some m' ∧ Evolves c m (l1 ++ l2) m' L' := by
  induction fuel generalizing m l1 l2 with
  | zero => simp at hfuel
  | succ fuel ih =>
    cases hF : freeBlocks l2 with
    | nil => exact ⟨m, l1 ++ l2, if_pos rfl, Evolves.refl h⟩
    | cons i rest =>
      obtain ⟨r, a, l3, rfl, ha, rfl, rfl⟩ := freeBlocks_eq_cons hF
      rw [← append_assoc] at h ⊢
      obtain ⟨m1, fr, l4, rfl, hrun, habs, -⟩ := mergeBlocks_spec (h.laid_free ha) ha h.tail_length
      have hev := habs.evolves h ha
      have hnext : Represents c m1 (((l1 ++ r) ++ [grow a fr]) ++ l4) := by
        simpa using hev.represents
      obtain ⟨m', L', hrun', hev'⟩ := ih hnext (by
        simp only [freeBlocks_append, freeBlocks_cons_free ha, length_append, length_cons] at hfuel
        omega)
      refine ⟨m', L', ?_, hev.trans (by simpa using hev')⟩
      simp only [headD_cons, defragment, if_neg (addr_ne_sentinel h (a := a) (by simp)), hrun,
        bind_eq_bind, bind_some]
      rw [show c.get m1 (c.addr a.idx) .next = _ from hev.represents.next_free ha]
      exact hrun'

def FitsOrNull (c : MallocConf) (L : List Area) (req block : ℕ) : Prop :=
  block = 0 ∨ ∃ a ∈ L, a.reserved = false ∧ block = c.addr a.idx ∧ req ≤ a.len

lemma highestFit_spec {maxBlock : ℕ} (h : Represents c m (l1 ++ l2))
    (hmax : FitsOrNull c (l1 ++ l2) req maxBlock) (hfuel : (freeBlocks l2).length < fuel) :
    ∃ block, highestFit c m req fuel (c.addr ((freeBlocks l2).headD (c.numHeapBlocks - 1)))
      maxBlock = some block ∧ FitsOrNull c (l1 ++ l2) req block := by
  induction fuel generalizing l1 l2 maxBlock with
  | zero => simp at hfuel
  | succ fuel ih =>
    cases hF : freeBlocks l2 with
    | nil => exact ⟨maxBlock, if_pos rfl, hmax⟩
    | cons i rest =>
      obtain ⟨r, a, l3, rfl, ha, rfl, rfl⟩ := freeBlocks_eq_cons hF
      have hsame : l1 ++ (r ++ a :: l3) = ((l1 ++ r) ++ [a]) ++ l3 := by simp
      have hmem : a ∈ l1 ++ (r ++ a :: l3) := by simp
      have hmax' : FitsOrNull c (l1 ++ (r ++ a :: l3)) req
          (if maxBlock < c.addr a.idx ∧ req ≤ a.len then c.addr a.idx else maxBlock) := by
        split
        next hc => exact .inr ⟨a, hmem, ha, rfl, hc.2⟩
        next => exact hmax
      have hassoc : Represents c m ((l1 ++ r) ++ a :: l3) := by simpa using h
      have hnext := hassoc.next_free ha
      have hlen := h.free_len hmem ha
      simp only [headD_cons, highestFit, if_neg (addr_ne_sentinel h hmem), hnext, hlen]
      rw [hsame] at h hmax' ⊢
      refine ih h hmax' ?_
      simp only [freeBlocks_append, freeBlocks_cons_free ha, length_append, length_cons] at hfuel
      omega

lemma tail_reserve_spec (id : ℕ) (h : Represents c m (l1 ++ a :: l2)) (ha : a.reserved = false)
    (hpos : 0 < req) (hlt : req < a.len) :
    ∃ L', Allocated c m (l1 ++ a :: l2)
      (reserve c (c.set (c.set m (c.addr a.idx) .blocks (a.len - req))
        (c.addr (a.idx + (a.len - req))) .blocks req) (c.addr (a.idx + (a.len - req))) id)
      L' ⟨a.idx + (a.len - req), req, true⟩ id := by
  have hsmall := (h.len_lt (a := a) (by simp)).2
  have hfits : ∀ v, v < 0x4000 → v < 256 ^ Field.blocks.size c := by
    simp only [Field.size]
    omega
  have hreq : a.len - (a.len - req) = req := by omega
  have hne : a.idx + (a.len - req) ≠ a.idx := by omega
  set m2 := c.set (c.set m (c.addr a.idx) .blocks (a.len - req))
    (c.addr (a.idx + (a.len - req))) .blocks req
  have hsplit : Laid c m2 (l1 ++ ⟨a.idx, a.len - req, false⟩ ::
      ⟨a.idx + (a.len - req), a.len - (a.len - req), false⟩ :: l2)
      (freeBlocks (l1 ++ a :: l2)) := by
    refine Laid.split_headers h (by omega) (by omega) ?_ ?_ ?_ ?_
    · rw [get_set_other _ _ _ hne, get_set_self _ _ (hfits _ (by omega))]
      rfl
    · rw [get_set_self _ _ (hfits _ (by omega)), hreq]
      rfl
    · intro j h1 h2
      rw [get_set_other _ _ _ h2.symm, get_set_other _ _ _ h1.symm]
    · exact (h.ring.set_blocks _ _).set_blocks _ _
  rw [hreq] at hsplit
  have hlaid : Laid c m2 ((l1 ++ [⟨a.idx, a.len - req, false⟩]) ++
      ⟨a.idx + (a.len - req), req, false⟩ :: l2)
      (freeBlocks (l1 ++ [⟨a.idx, a.len - req, false⟩]) ++ freeBlocks l2) := by
    simpa [freeBlocks_cons_free, ha] using hsplit
  obtain ⟨hrep, howned, hout⟩ := reserve_spec id hlaid
  have hapart : ∀ e ∈ reservedAreas (l1 ++ a :: l2),
      e.idx + e.len ≤ a.idx + (a.len - req) ∨ a.idx + (a.len - req) + req ≤ e.idx := by
    intro e he
    have := h.tiles.reserved_apart ha e he
    omega
  refine ⟨_, hrep, ?_, ?_, hapart, howned⟩
  · simp only [reservedAreas_append, reservedAreas_cons_free ha,
      reservedAreas_cons_reserved (a := ⟨a.idx + (a.len - req), req, true⟩) rfl,
      mem_append, mem_cons]
    tauto
  · have hin : ∀ i ∈ [a.idx, a.idx + (a.len - req)], ∀ e ∈ reservedAreas (l1 ++ a :: l2),
        i < e.idx ∨ e.idx + e.len ≤ i := by
      intro i hi e he
      simp only [mem_cons, not_mem_nil, or_false] at hi
      exact h.tiles.free_apart he (by simp) ha (by omega) (by omega)
    refine Keeps.trans (Frame.keeps ?_ hin) (keeps_of_inside hout hapart)
    exact (frame_set m _ _ (by simp)).trans (frame_set _ _ _ (by simp))

lemma sosBlkMemLongtermAlloc_spec (size id : ℕ) (h : Represents c m L)
    (hsize : size + c.blockOverhead + c.blockSize - 1 ≤ 65535) :
    Served c m L size id (sosBlkMemLongtermAlloc c m size id) := by
  unfold sosBlkMemLongtermAlloc
  by_cases hz : size = 0
  · exact ⟨m, 0, L, if_pos hz, .inl ⟨rfl, Evolves.refl h⟩⟩
  rw [if_neg hz, h.first_free]
  obtain ⟨m1, L1, hrun, hev⟩ :=
    defragment_spec (show Represents c m ([] ++ L) from h) h.freeBlocks_length
  have h1 := hev.represents
  obtain ⟨block, hfit, hblock⟩ := highestFit_spec (show Represents c m1 ([] ++ L1) from h1)
    (show FitsOrNull c ([] ++ L1) (reqBlocks c size) 0 from .inl rfl) h1.freeBlocks_length
  simp only [hrun, bind_eq_bind, bind_some, h1.first_free, hfit]
  rcases hblock with rfl | ⟨a, ha, hfree, rfl, hreq⟩
  · exact ⟨m1, 0, L1, if_pos rfl, .inl ⟨rfl, hev⟩⟩
  rw [if_neg (Nat.ne_of_gt (addr_pos _)), h1.free_len ha hfree, ← addr_add]
  obtain ⟨l1, l2, rfl⟩ := append_of_mem ha
  by_cases hlt : reqBlocks c size < a.len
  · obtain ⟨L', halloc⟩ := tail_reserve_spec id h1 hfree (reqBlocks_pos hsize) hlt
    have hne : ¬ c.addr (a.idx + (a.len - reqBlocks c size)) = c.addr a.idx := by
      rw [addr_inj]; omega
    rw [if_neg hne]
    exact ⟨_, _, L', rfl, .inr ⟨⟨a.idx + (a.len - reqBlocks c size), reqBlocks c size, true⟩,
      rfl, hev.allocated halloc, le_rfl⟩⟩
  · have hsame : a.idx + (a.len - reqBlocks c size) = a.idx := by omega
    rw [hsame, if_pos rfl]
    have halloc := unlink_reserve_spec id h1 hfree
    exact ⟨_, _, _, rfl, .inr ⟨{ a with reserved := true }, rfl, hev.allocated halloc, hreq⟩⟩

end HeapAreas
