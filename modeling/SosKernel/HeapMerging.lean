import SosKernel.HeapAreas

/-! # Merging and splitting of areas

The routines of `malloc.c` that change the sizes of areas. -/
namespace HeapAreas

open ByteMemory HeapLayout LinkedRing List

variable {c : MallocConf} {m m' : Mem} {F : List ℕ} {L l1 : List Area} {a : Area} {i j : ℕ}
  {x req : ℕ}

lemma FreeRing.congr (h : FreeRing c m F)
    (hn : ∀ j ∈ (c.numHeapBlocks - 1) :: F, c.get m' (c.addr j) .next = c.get m (c.addr j) .next)
    (hp : ∀ j ∈ (c.numHeapBlocks - 1) :: F, c.get m' (c.addr j) .prev = c.get m (c.addr j) .prev) :
    FreeRing c m' F := by
  refine Segment.congr h ?_ ?_
  · intro z hz
    obtain ⟨j, hj, rfl⟩ := mem_ring_nodes.mp hz
    exact hn j hj
  · intro z hz
    have hz' : z ∈ c.addr (c.numHeapBlocks - 1) :: F.map c.addr := by
      simp only [mem_append, mem_singleton] at hz
      exact mem_cons.mpr hz.symm
    obtain ⟨j, hj, rfl⟩ := mem_ring_nodes.mp hz'
    exact hp j hj

lemma FreeRing.set_blocks (h : FreeRing c m F) (i v : ℕ) :
    FreeRing c (c.set m (c.addr i) .blocks v) F :=
  h.congr (fun _ _ => get_set_ne _ _ _ _ (by decide)) (fun _ _ => get_set_ne _ _ _ _ (by decide))

lemma Laid.relink {m m' : Mem} {L : List Area} {F F' S : List ℕ} (h : Laid c m L F)
    (hl : LinksOnly c S m m') (ho : (F' ++ [c.numHeapBlocks - 1]).Pairwise (· < ·))
    (hr : FreeRing c m' F') : Laid c m' L F' where
  tiles := h.tiles
  headers a ha := (hl.fields _ _ (by decide) (by decide)).trans (h.headers a ha)
  sentinel := (hl.fields _ _ (by decide) (by decide)).trans h.sentinel
  ordered := ho
  ring := hr

lemma Laid.len_lt (h : Laid c m L F) (ha : a ∈ L) :
    a.idx + a.len ≤ c.numHeapBlocks - 1 ∧ a.len < 0x4000 := by
  have := h.tiles.bounds ha
  have := c.count_below_marks
  omega

lemma Laid.set_header {m : Mem} {l1 l2 l2' : List Area} {F : List ℕ} {a b : Area}
    (h : Laid c m (l1 ++ a :: l2) F) (hidx : b.idx = a.idx) (hsub : ∀ e ∈ l2', e ∈ l2)
    (ht : Tiles 0 (l1 ++ b :: l2') (c.numHeapBlocks - 1)) :
    Laid c (c.set m (c.addr a.idx) .blocks b.header) (l1 ++ b :: l2') F where
  tiles := ht
  headers e he := by
    have hhead : b.header < 256 ^ Field.blocks.size c := by
      have := (ht.bounds (a := b) (by simp)).2.1
      have := c.count_below_marks
      simp only [Area.header, Field.size]
      split <;> omega
    by_cases heb : e = b
    · subst heb
      rw [hidx, get_set_self _ _ hhead]
    · have hne : a.idx ≠ e.idx := fun hi => heb (ht.idx_inj he (by simp) (hi ▸ hidx.symm))
      rw [get_set_other _ _ _ hne]
      refine h.headers e ?_
      simp only [mem_append, mem_cons] at he ⊢
      rcases he with he | he | he
      · exact .inl he
      · exact (heb he).elim
      · exact .inr (.inr (hsub e he))
  sentinel := by
    have := (h.len_lt (a := a) (by simp)).1
    have := h.tiles.pos
    have hne : a.idx ≠ c.numHeapBlocks - 1 := by omega
    exact (get_set_other _ _ _ hne).trans h.sentinel
  ordered := h.ordered
  ring := h.ring.set_blocks _ _

lemma header_reserved_iff (h : a.len < 0x4000) :
    a.header &&& reservedBit ≠ 0 ↔ a.reserved = true := by
  rw [and_reservedBit_ne, Area.header]
  cases a.reserved <;> simp only [Bool.false_eq_true, if_true, if_false, iff_true, iff_false]
  · omega
  · omega

lemma Laid.isReserved_iff (h : Laid c m L F) (ha : a ∈ L) :
    isReserved c m (c.addr a.idx) ↔ a.reserved = true := by
  rw [isReserved, h.headers a ha, header_reserved_iff (h.len_lt ha).2]

lemma Laid.sentinel_reserved (h : Laid c m L F) : isReserved c m c.mSentinel := by
  rw [isReserved, h.sentinel, and_reservedBit_ne]

lemma Laid.free_len (h : Laid c m L F) (ha : a ∈ L) (hf : a.reserved = false) :
    c.get m (c.addr a.idx) .blocks = a.len := by
  rw [h.headers a ha, Area.header, hf]; rfl

lemma Tiles.last (h : Tiles i (l1 ++ [a]) j) : a.idx + a.len = j := by
  obtain ⟨k, -, hk⟩ := tiles_append.mp h
  simp only [Tiles] at hk
  omega

lemma Tiles.next {l2 : List Area} {f : Area} (h : Tiles i (l1 ++ a :: f :: l2) j) :
    f.idx = a.idx + a.len := by
  obtain ⟨k, -, hk⟩ := tiles_append.mp h
  simp only [Tiles] at hk
  omega

lemma Tiles.length_le (h : Tiles i L j) : i + L.length ≤ j := by
  induction L generalizing i with
  | nil => exact Nat.le_of_eq h
  | cons a L ih =>
    have := ih h.2.2
    have := h.2.1
    simp only [length_cons]
    omega

def grow (a : Area) (fr : List Area) : Area := { a with len := a.len + (fr.map Area.len).sum }

@[simp] lemma grow_idx (a : Area) (fr : List Area) : (grow a fr).idx = a.idx := rfl

lemma grow_cons (a f : Area) (fr : List Area) : grow a (f :: fr) = grow (grow a [f]) fr := by
  simp [grow, Nat.add_assoc]

lemma Tiles.grow {l2 : List Area} {f : Area} (h : Tiles i (l1 ++ a :: f :: l2) j) :
    Tiles i (l1 ++ HeapAreas.grow a [f] :: l2) j := by
  obtain ⟨k, h1, h2⟩ := tiles_append.mp h
  refine tiles_append.mpr ⟨k, h1, ?_⟩
  simp only [Tiles, HeapAreas.grow, map_cons, map_nil, sum_cons, sum_nil, Nat.add_zero] at h2 ⊢
  obtain ⟨hi, hpos, hif, hposf, ht⟩ := h2
  refine ⟨hi, by omega, ?_⟩
  rwa [← Nat.add_assoc]

/-- What merging does to an area and the free areas `fr` behind it. -/
structure Absorbed (c : MallocConf) (m m' : Mem) (l1 : List Area) (a : Area)
    (fr l3 : List Area) (F : List ℕ) : Prop where
  free : ∀ e ∈ fr, e.reserved = false
  laid : Laid c m' (l1 ++ grow a fr :: l3) (F ++ freeBlocks l3)
  frame : Frame c ((c.numHeapBlocks - 1) :: a.idx :: (F ++ freeBlocks (fr ++ l3))) m m'

variable {m : Mem} {l1 l2 : List Area} {F : List ℕ} {a f : Area} {fuel : ℕ}

lemma Absorbed.cons {m1 m2 : Mem} {fr l3 : List Area}
    (h : Absorbed c m m1 l1 a [f] (fr ++ l3) F) (k : Absorbed c m1 m2 l1 (grow a [f]) fr l3 F) :
    Absorbed c m m2 l1 a (f :: fr) l3 F := by
  refine ⟨?_, ?_, ?_⟩
  · exact forall_mem_cons.mpr ⟨h.free f (by simp), k.free⟩
  · rw [grow_cons]; exact k.laid
  · refine (h.frame.mono ?_).trans (k.frame.mono ?_)
    · intro j hj; simpa using hj
    · intro j hj
      have hf := h.free f (by simp)
      simp only [cons_append, freeBlocks_cons_free hf, grow_idx, mem_cons, mem_append] at hj ⊢
      tauto

lemma Absorbed.none (h : Laid c m (l1 ++ a :: l2) (F ++ freeBlocks l2)) :
    Absorbed c m m l1 a [] l2 F :=
  ⟨by simp, h, Frame.refl _ _⟩

lemma Laid.successor_reserved (h : Laid c m (l1 ++ a :: l2) F) (ha : a.reserved = false)
    (hstop : ∀ e ∈ l2.head?, e.reserved = true) :
    isReserved c m (c.addr a.idx + c.get m (c.addr a.idx) .blocks * c.blockSize) := by
  rw [h.free_len (by simp) ha, ← addr_add]
  cases l2 with
  | nil => rw [h.tiles.last]; exact h.sentinel_reserved
  | cons e l2 =>
    rw [← h.tiles.next]
    exact (h.isReserved_iff (by simp)).mpr (hstop e rfl)

lemma Laid.successor_eq (h : Laid c m (l1 ++ a :: f :: l2) F) (ha : a.reserved = false) :
    c.addr a.idx + c.get m (c.addr a.idx) .blocks * c.blockSize = c.addr f.idx := by
  rw [h.free_len (by simp) ha, ← addr_add, h.tiles.next]

section

variable (h : Laid c m (l1 ++ a :: f :: l2) (F ++ freeBlocks (f :: l2)))
include h

lemma absorb_spec
    (ha : a.reserved = false) (hf : f.reserved = false) :
    Absorbed c m (c.set (unlink c m (c.addr f.idx)) (c.addr a.idx) .blocks (a.len + f.len))
      l1 a [f] l2 F := by
  rw [freeBlocks_cons_free hf] at h
  obtain ⟨hring, hlinks⟩ := unlink_spec h.ring h.ordered
  have hlaid := h.relink hlinks (ordered_erase h.ordered) hring
  have hgrow : (grow a [f]).header = a.len + f.len := by simp [Area.header, grow, ha]
  refine ⟨by simpa using hf, ?_, ?_⟩
  · rw [← hgrow]
    exact hlaid.set_header rfl (fun e he => mem_cons_of_mem _ he) h.tiles.grow
  · refine (hlinks.frame.mono ?_).trans (frame_set _ _ _ (by simp))
    intro j hj
    simp only [singleton_append, freeBlocks_cons_free hf, mem_cons, mem_append] at hj ⊢
    tauto

lemma Laid.absorb_body
    (ha : a.reserved = false) (hf : f.reserved = false) :
    c.get (unlink c m (c.addr f.idx)) (c.addr a.idx) .blocks +
      c.get (unlink c m (c.addr f.idx)) (c.addr f.idx) .blocks = a.len + f.len := by
  have hlen := h.free_len (by simp) ha
  have hlenf := h.free_len (by simp) hf
  rw [freeBlocks_cons_free hf] at h
  have hlinks := (unlink_spec h.ring h.ordered).2
  rw [hlinks.fields _ _ (by decide) (by decide), hlinks.fields _ _ (by decide) (by decide),
    hlen, hlenf]

end

section

variable (h : Laid c m (l1 ++ a :: l2) (F ++ freeBlocks l2)) (ha : a.reserved = false)
include h ha

/-- The merging stops before a reserved area, or goes on with a free one. -/
lemma Laid.merge_cases :
    (isReserved c m (c.addr a.idx + c.get m (c.addr a.idx) .blocks * c.blockSize) ∧
      ∀ e ∈ l2.head?, e.reserved = true) ∨
    ∃ f l, l2 = f :: l ∧ f.reserved = false ∧ ¬ isReserved c m (c.addr f.idx) := by
  by_cases hstop : ∀ e ∈ l2.head?, e.reserved = true
  · exact .inl ⟨h.successor_reserved ha hstop, hstop⟩
  · cases l2 with
    | nil => simp at hstop
    | cons f l =>
      have hf : ¬ f.reserved = true := by simpa using hstop
      exact .inr ⟨f, l, rfl, by simpa using hf, (h.isReserved_iff (by simp)).not.mpr hf⟩

lemma mergeBlocks_spec (hfuel : l2.length < fuel) :
    ∃ m' fr l3, l2 = fr ++ l3 ∧ mergeBlocks c (c.addr a.idx) fuel m = some m' ∧
      Absorbed c m m' l1 a fr l3 F ∧ ∀ e ∈ l3.head?, e.reserved = true := by
  induction fuel generalizing m a l2 with
  | zero => simp at hfuel
  | succ fuel ih =>
    obtain ⟨hres, hstop⟩ | ⟨f, l2, rfl, hf, hgo⟩ := h.merge_cases ha
    · exact ⟨m, [], l2, rfl, if_pos hres, Absorbed.none h, hstop⟩
    · have hstep := absorb_spec h ha hf
      obtain ⟨m', fr, l3, rfl, hrun, habs, hstop⟩ := ih hstep.laid ha (Nat.lt_of_succ_lt_succ hfuel)
      refine ⟨m', f :: fr, l3, rfl, ?_, hstep.cons habs, hstop⟩
      simp only [mergeBlocks]
      rw [h.successor_eq ha, if_neg hgo, h.absorb_body ha hf]
      exact hrun

omit h ha in
lemma mergeBlocksQuick_spec (req : ℕ) (h : Laid c m (l1 ++ a :: l2) (F ++ freeBlocks l2))
    (ha : a.reserved = false) (hfuel : l2.length < fuel) :
    ∃ m' fr l3, l2 = fr ++ l3 ∧ mergeBlocksQuick c (c.addr a.idx) req fuel m = some m' ∧
      Absorbed c m m' l1 a fr l3 F := by
  induction fuel generalizing m a l2 with
  | zero => simp at hfuel
  | succ fuel ih =>
    obtain ⟨hres, -⟩ | ⟨f, l2, rfl, hf, hgo⟩ := h.merge_cases ha
    · exact ⟨m, [], l2, rfl, if_pos hres, Absorbed.none h⟩
    · have hstep := absorb_spec h ha hf
      simp only [mergeBlocksQuick]
      rw [h.successor_eq ha, if_neg hgo, h.absorb_body ha hf]
      by_cases henough : req ≤ c.get (c.set (unlink c m (c.addr f.idx)) (c.addr a.idx) .blocks
          (a.len + f.len)) (c.addr a.idx) .blocks
      · exact ⟨_, [f], l2, rfl, if_pos henough, hstep⟩
      · obtain ⟨m', fr, l3, rfl, hrun, habs⟩ := ih hstep.laid ha (Nat.lt_of_succ_lt_succ hfuel)
        exact ⟨m', f :: fr, l3, rfl, by rw [if_neg henough]; exact hrun, hstep.cons habs⟩

lemma mergeBlocks_untouched (hrun : mergeBlocks c (c.addr a.idx) fuel m = some m')
    (hb : ¬ InField c a.idx .blocks x)
    (hn : ∀ j ∈ (c.numHeapBlocks - 1) :: F, ¬ InField c j .next x)
    (hp : ∀ j ∈ (c.numHeapBlocks - 1) :: freeBlocks l2, ¬ InField c j .prev x) : m' x = m x := by
  induction fuel generalizing m a l2 with
  | zero => cases hrun
  | succ fuel ih =>
    obtain ⟨hres, -⟩ | ⟨f, l2, rfl, hf, hgo⟩ := h.merge_cases ha
    · rw [mergeBlocks, if_pos hres] at hrun
      cases hrun
      rfl
    · simp only [mergeBlocks] at hrun
      rw [h.successor_eq ha, if_neg hgo, h.absorb_body ha hf] at hrun
      rw [freeBlocks_cons_free hf] at hp
      have hp' : ∀ j ∈ (c.numHeapBlocks - 1) :: freeBlocks l2, ¬ InField c j .prev x := by
        intro j hj
        refine hp j ?_
        simp only [mem_cons] at hj ⊢
        tauto
      have hrest := ih (absorb_spec h ha hf).laid ha hrun hb hp'
      rw [freeBlocks_cons_free hf] at h
      rw [hrest, set_other_field _ _ hb, unlink_untouched h.ring h.ordered hn hp']

end

def SizeFrame (c : MallocConf) (S : List ℕ) (i : ℕ) (m m' : Mem) : Prop :=
  ∀ x, (∀ j ∈ S, ¬ InBlock c j x) → ¬ InField c i .blocks x → m' x = m x

lemma SizeFrame.frame {S : List ℕ} (h : SizeFrame c S i m m') : Frame c (i :: S) m m' := by
  intro x hx
  refine h x (fun j hj => hx j (mem_cons_of_mem _ hj)) (fun hin => ?_)
  exact hx i mem_cons_self hin.inBlock

lemma Tiles.split (h : Tiles i (l1 ++ a :: l2) j) (hpos : 0 < req) (hlt : req < a.len)
    (r1 r2 : Bool) :
    Tiles i (l1 ++ ⟨a.idx, req, r1⟩ :: ⟨a.idx + req, a.len - req, r2⟩ :: l2) j := by
  obtain ⟨k, h1, hidx, -, ht⟩ := tiles_append.mp h
  refine tiles_append.mpr ⟨k, h1, hidx, hpos, by simp [hidx], by simp; omega, ?_⟩
  have he : k + req + (a.len - req) = k + a.len := by omega
  simpa [he] using ht

lemma Tiles.tail_above (h : Tiles i (l1 ++ a :: l2) j) (hx : x ∈ freeBlocks l2) :
    a.idx + a.len ≤ x := by
  obtain ⟨k, -, hidx, -, ht⟩ := tiles_append.mp h
  obtain ⟨e, he, -, rfl⟩ := mem_freeBlocks.mp hx
  have := (ht.bounds he).1
  omega

lemma Laid.split_headers {m3 : Mem} {r1 r2 : Bool} (h : Laid c m (l1 ++ a :: l2) F)
    (hpos : 0 < req) (hlt : req < a.len)
    (hfst : c.get m3 (c.addr a.idx) .blocks = (Area.mk a.idx req r1).header)
    (hsnd : c.get m3 (c.addr (a.idx + req)) .blocks =
      (Area.mk (a.idx + req) (a.len - req) r2).header)
    (hother : ∀ j, j ≠ a.idx → j ≠ a.idx + req →
      c.get m3 (c.addr j) .blocks = c.get m (c.addr j) .blocks)
    (hring : FreeRing c m3 F) :
    Laid c m3 (l1 ++ ⟨a.idx, req, r1⟩ :: ⟨a.idx + req, a.len - req, r2⟩ :: l2) F where
  tiles := h.tiles.split hpos hlt r1 r2
  headers e he := by
    have ht := h.tiles.split hpos hlt r1 r2
    by_cases h1 : e.idx = a.idx
    · obtain rfl := ht.idx_inj he (b := ⟨a.idx, req, r1⟩) (by simp) h1
      exact hfst
    · by_cases h2 : e.idx = a.idx + req
      · obtain rfl := ht.idx_inj he (b := ⟨a.idx + req, a.len - req, r2⟩) (by simp) h2
        exact hsnd
      · rw [hother _ h1 h2]
        refine h.headers e ?_
        simp only [mem_append, mem_cons] at he ⊢
        rcases he with he | rfl | rfl | he
        · exact .inl he
        · exact (h1 rfl).elim
        · exact (h2 rfl).elim
        · exact .inr (.inr he)
  sentinel := by
    have := (h.len_lt (a := a) (by simp)).1
    exact (hother _ (by omega) (by omega)).trans h.sentinel
  ordered := h.ordered
  ring := hring

lemma splitBlock_spec {F1 : List ℕ}
    (h : Laid c m (l1 ++ a :: l2) (F1 ++ freeBlocks l2)) (ha : a.reserved = false)
    (hF : ∀ j ∈ F1, j ≤ a.idx) (hpos : 0 < req) (hlt : req < a.len) :
    ∃ m', splitBlock c m (c.addr a.idx) req = some m' ∧
      Laid c m' (l1 ++ ⟨a.idx, req, false⟩ :: ⟨a.idx + req, a.len - req, false⟩ :: l2)
        (F1 ++ (a.idx + req) :: freeBlocks l2) ∧
      SizeFrame c ((c.numHeapBlocks - 1) :: (a.idx + req) :: (F1 ++ freeBlocks l2)) a.idx m m' := by
  have hlen := h.free_len (by simp) ha
  have hsmall := (h.len_lt (a := a) (by simp)).2
  have hne : a.idx + req ≠ a.idx := by omega
  have hfits : ∀ v, v < 0x4000 → v < 256 ^ Field.blocks.size c := by
    simp only [Field.size]
    omega
  set m2 := c.set (c.set m (c.addr (a.idx + req)) .blocks (a.len - req)) (c.addr a.idx) .blocks req
  have hget : c.get m2 (c.addr (a.idx + req)) .blocks = a.len - req := by
    rw [get_set_other _ _ _ hne.symm, get_set_self _ _ (hfits _ (by omega))]
  set m3 := c.set m2 (c.addr (a.idx + req)) .blocks ((a.len - req) &&& sizeMask)
  have hlaid : Laid c m3 (l1 ++ ⟨a.idx, req, false⟩ :: ⟨a.idx + req, a.len - req, false⟩ :: l2)
      (F1 ++ freeBlocks l2) := by
    refine h.split_headers hpos hlt ?_ ?_ ?_ ?_
    · rw [get_set_other _ _ _ hne, get_set_self _ _ (hfits _ (by omega))]
      rfl
    · rw [get_set_self, and_sizeMask, Nat.mod_eq_of_lt (by omega)]
      · rfl
      · rw [and_sizeMask]
        exact hfits _ (Nat.mod_lt _ (by decide))
    · intro j h1 h2
      rw [get_set_other _ _ _ h2.symm, get_set_other _ _ _ h1.symm, get_set_other _ _ _ h2.symm]
    · exact ((h.ring.set_blocks _ _).set_blocks _ _).set_blocks _ _
  have ho : ((F1 ++ (a.idx + req) :: freeBlocks l2) ++ [c.numHeapBlocks - 1]).Pairwise
      (· < ·) := by
    have hold := h.ordered
    simp only [append_assoc, pairwise_append, cons_append, pairwise_cons]
      at hold ⊢
    refine ⟨hold.1, ⟨?_, hold.2.1⟩, ?_⟩
    · intro x hx
      rcases mem_append.mp hx with hx | hx
      · have := h.tiles.tail_above hx
        omega
      · have := (h.len_lt (a := a) (by simp)).1
        rw [mem_singleton] at hx
        omega
    · intro x hx y hy
      rcases mem_cons.mp hy with rfl | hy
      · have := hF x hx
        omega
      · exact hold.2.2 x hx y hy
  obtain ⟨m', hrun, hring, hlinks⟩ := insertAfter_spec hlaid.ring ho
  refine ⟨m', ?_, hlaid.relink hlinks ho hring, ?_⟩
  · simp only [splitBlock, ← addr_add, hlen]
    rw [show c.get m2 (c.addr (a.idx + req)) .blocks = a.len - req from hget]
    exact hrun
  · intro x hx hsize
    have hnew : ¬ InBlock c (a.idx + req) x := hx _ (by simp)
    calc m' x = m3 x := hlinks.frame x hx
      _ = m2 x := set_outside _ _ _ hnew
      _ = c.set m (c.addr (a.idx + req)) .blocks (a.len - req) x := set_other_field _ _ hsize
      _ = m x := set_outside _ _ _ hnew

end HeapAreas
