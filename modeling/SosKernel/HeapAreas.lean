import SosKernel.HeapLayout
import SosKernel.LinkedRing
import Mathlib.Tactic.Linarith

/-! # Areas: what the block heap represents

An abstract heap is the list of its areas in address order. -/
namespace HeapAreas

open ByteMemory HeapLayout LinkedRing List Option

variable {c : MallocConf} {i j v x : ℕ} {f : Field} {m1 m2 m3 : Mem} {g : Field} {e : Area}

lemma blockSize_pos : 0 < c.blockSize := Nat.two_pow_pos _

lemma addr_add (i k : ℕ) : c.addr (i + k) = c.addr i + k * c.blockSize := by
  simp only [MallocConf.addr, Nat.add_mul, Nat.add_assoc]

lemma addr_apart (h : i < j) : c.addr i + c.blockSize ≤ c.addr j := by
  have := Nat.mul_le_mul_right c.blockSize (show i + 1 ≤ j from h)
  simp only [MallocConf.addr, Nat.add_mul, Nat.one_mul] at *
  omega

lemma addr_lt_iff : c.addr i < c.addr j ↔ i < j := by
  constructor
  · intro h
    by_contra hn
    rcases Nat.lt_or_eq_of_le (Nat.le_of_not_lt hn) with hlt | rfl
    · have := addr_apart (c := c) hlt; omega
    · omega
  · intro h
    have := addr_apart (c := c) h
    have := blockSize_pos (c := c)
    omega

lemma addr_le_iff : c.addr i ≤ c.addr j ↔ i ≤ j := by rw [← Nat.not_lt, addr_lt_iff, Nat.not_lt]

@[simp] lemma addr_inj : c.addr i = c.addr j ↔ i = j := by
  constructor
  · intro h
    exact Nat.le_antisymm (addr_le_iff.mp h.le) (addr_le_iff.mp h.ge)
  · rintro rfl; rfl

lemma addr_pos (i : ℕ) : 0 < c.addr i := by
  have := c.heap_not_null
  simp only [MallocConf.addr]
  omega

lemma addr_fits (h : i ≤ c.numHeapBlocks) : c.addr i ≤ 256 ^ c.sizeofPointer := by
  have := Nat.mul_le_mul_right c.blockSize h
  have := c.pointers_fit
  simp only [MallocConf.addr, MallocConf.blockSize] at *
  omega

lemma field_in_block (f : Field) : f.offset c + f.size c ≤ c.blockSize := by
  have := c.links_fit
  have := c.header_holds_fields
  cases f <;> simp only [Field.offset, Field.size, MallocConf.blockSize] <;> omega

lemma fields_apart (h : f ≠ g) :
    f.offset c + f.size c ≤ g.offset c ∨ g.offset c + g.size c ≤ f.offset c := by
  have := c.header_holds_fields
  cases f <;> cases g <;>
    simp only [Field.offset, Field.size, ne_eq, reduceCtorEq, not_true_eq_false] at * <;> omega

lemma get_set (m : Mem) (i j : ℕ) (f g : Field) (v : ℕ) :
    c.get (c.set m (c.addr i) g v) (c.addr j) f =
      if i = j ∧ g = f then v % 256 ^ g.size c else c.get m (c.addr j) f := by
  by_cases hij : i = j
  · subst hij
    by_cases hgf : g = f
    · subst hgf
      rw [if_pos ⟨rfl, rfl⟩]
      exact load_storeWord_self m _ _ v
    · rw [if_neg (fun h => hgf h.2)]
      have := fields_apart (c := c) hgf
      exact load_storeWord_apart m (by omega)
  · rw [if_neg (fun h => hij h.1)]
    have hf := field_in_block (c := c) f
    have hg := field_in_block (c := c) g
    rcases Nat.lt_or_gt_of_ne hij with h | h
    · have := addr_apart (c := c) h
      exact load_storeWord_apart m (by omega)
    · have := addr_apart (c := c) h
      exact load_storeWord_apart m (by omega)

lemma get_set_ne (m : Mem) (i j v : ℕ) (h : g ≠ f) :
    c.get (c.set m (c.addr i) g v) (c.addr j) f = c.get m (c.addr j) f := by
  rw [get_set, if_neg (fun hh => h hh.2)]

lemma get_set_other (m : Mem) (f g : Field) (h : i ≠ j) :
    c.get (c.set m (c.addr i) g v) (c.addr j) f = c.get m (c.addr j) f := by
  rw [get_set, if_neg (fun hh => h hh.1)]

lemma get_set_self (m : Mem) (f : Field) (h : v < 256 ^ f.size c) :
    c.get (c.set m (c.addr i) f v) (c.addr i) f = v := by
  rw [get_set, if_pos ⟨rfl, rfl⟩, Nat.mod_eq_of_lt h]

def InBlock (c : MallocConf) (i x : ℕ) : Prop := c.addr i ≤ x ∧ x < c.addr (i + 1)

def InField (c : MallocConf) (i : ℕ) (f : Field) (x : ℕ) : Prop :=
  c.addr i + f.offset c ≤ x ∧ x < c.addr i + f.offset c + f.size c

lemma set_other_field (m : Mem) (v : ℕ) (h : ¬ InField c i f x) :
    c.set m (c.addr i) f v x = m x := by
  simp only [InField] at h
  exact storeWord_outside m (by omega)

lemma InField.inBlock (h : InField c i f x) : InBlock c i x := by
  have hf := field_in_block (c := c) f
  refine ⟨by have := h.1; omega, ?_⟩
  have := h.2
  rw [addr_add]
  omega

lemma set_outside (m : Mem) (f : Field) (v : ℕ) (h : ¬ InBlock c i x) :
    c.set m (c.addr i) f v x = m x := by
  have hf := field_in_block (c := c) f
  simp only [InBlock, addr_add, Nat.one_mul] at h
  exact storeWord_outside m (by omega)

lemma and_sizeMask (n : ℕ) : n &&& sizeMask = n % 0x4000 := by
  have := Nat.and_two_pow_sub_one_eq_mod n 14
  simpa [sizeMask] using this

lemma and_exposeMask (n : ℕ) : n &&& 0x7fff = n % 0x8000 := by
  have := Nat.and_two_pow_sub_one_eq_mod n 15
  simpa using this

lemma and_reservedBit_ne (n : ℕ) : n &&& reservedBit ≠ 0 ↔ n / 0x8000 % 2 = 1 := by
  have h := Nat.and_two_pow n 15
  rw [Nat.testBit_eq_decide_div_mod_eq] at h
  change n &&& 2 ^ 15 ≠ 0 ↔ n / 2 ^ 15 % 2 = 1
  rw [h]
  simp

lemma or_reservedBit {n : ℕ} (h : n < 0x8000) : n ||| reservedBit = n + 0x8000 := by
  have := Nat.two_pow_add_eq_or_of_lt (i := 15) h 1
  rw [Nat.or_comm, reservedBit, Nat.add_comm]
  simpa using this.symm

structure Area where
  idx : ℕ
  len : ℕ
  reserved : Bool
  deriving DecidableEq, Repr

def Area.header (a : Area) : ℕ := if a.reserved then a.len + 0x8000 else a.len

def Tiles : ℕ → List Area → ℕ → Prop
  | i, [], j => i = j
  | i, a :: L, j => a.idx = i ∧ 0 < a.len ∧ Tiles (i + a.len) L j

def freeBlocks (L : List Area) : List ℕ := (L.filter (fun a => !a.reserved)).map Area.idx

@[simp] lemma freeBlocks_nil : freeBlocks [] = [] := rfl

@[simp] lemma freeBlocks_append (L1 L2 : List Area) :
    freeBlocks (L1 ++ L2) = freeBlocks L1 ++ freeBlocks L2 := by
  simp [freeBlocks]

variable {a : Area} {L L1 L2 : List Area} {k b : ℕ} {F S F1 F2 : List ℕ} {m : Mem}

lemma freeBlocks_cons_free (h : a.reserved = false) (L : List Area) :
    freeBlocks (a :: L) = a.idx :: freeBlocks L := by
  simp [freeBlocks, h]

lemma freeBlocks_cons_reserved (h : a.reserved = true) (L : List Area) :
    freeBlocks (a :: L) = freeBlocks L := by
  simp [freeBlocks, h]

lemma mem_freeBlocks : i ∈ freeBlocks L ↔ ∃ a ∈ L, a.reserved = false ∧ a.idx = i := by
  simp [freeBlocks, and_assoc]

lemma mem_of_mem_others (he : e ∈ L1 ++ L2) : e ∈ L1 ++ a :: L2 :=
  ((sublist_cons_self a L2).append_left L1).subset he

lemma mem_others_of_ne (he : e ∈ L1 ++ a :: L2) (hne : e ≠ a) : e ∈ L1 ++ L2 :=
  mem_of_ne_of_mem hne (perm_middle.subset he)

lemma tiles_append : Tiles i (L1 ++ L2) k ↔ ∃ j, Tiles i L1 j ∧ Tiles j L2 k := by
  induction L1 generalizing i with
  | nil => simp [Tiles]
  | cons a L1 ih => simp [Tiles, ih, and_assoc]

section

variable (h : Tiles i L j)
include h

lemma Tiles.le : i ≤ j := by
  induction L generalizing i with
  | nil => exact Nat.le_of_eq h
  | cons a L ih =>
    have := ih h.2.2
    omega

lemma Tiles.bounds (ha : a ∈ L) : i ≤ a.idx ∧ a.idx + a.len ≤ j ∧ 0 < a.len := by
  induction L generalizing i with
  | nil => simp at ha
  | cons b L ih =>
    obtain ⟨hi, hpos, ht⟩ := h
    rcases mem_cons.mp ha with rfl | ha
    · have := ht.le; omega
    · have := ih ht ha; omega

lemma Tiles.apart : L.Pairwise (fun a b => a.idx + a.len ≤ b.idx) := by
  induction L generalizing i with
  | nil => exact List.Pairwise.nil
  | cons a L ih =>
    refine pairwise_cons.mpr ⟨fun b hb => ?_, ih h.2.2⟩
    have := (h.2.2.bounds hb).1
    have := h.1
    omega

lemma Tiles.disjoint {b : Area} (ha : a ∈ L) (hb : b ∈ L) (hne : a ≠ b) :
    a.idx + a.len ≤ b.idx ∨ b.idx + b.len ≤ a.idx := by
  induction L generalizing i with
  | nil => simp at ha
  | cons e L ih =>
    have hp := pairwise_cons.mp h.apart
    rcases mem_cons.mp ha with rfl | ha' <;> rcases mem_cons.mp hb with rfl | hb'
    · exact (hne rfl).elim
    · exact .inl (hp.1 b hb')
    · exact .inr (hp.1 a ha')
    · exact ih h.2.2 ha' hb'

lemma Tiles.idx_inj {b : Area} (ha : a ∈ L) (hb : b ∈ L) (he : a.idx = b.idx) : a = b := by
  by_contra hne
  have hda := h.bounds ha
  have hdb := h.bounds hb
  have := h.disjoint ha hb hne
  omega

lemma Tiles.ordered : (freeBlocks L ++ [j]).Pairwise (· < ·) := by
  refine pairwise_append.mpr ⟨?_, pairwise_singleton _ _, ?_⟩
  · refine pairwise_map.mpr (List.Pairwise.imp_of_mem ?_ (h.apart.filter _))
    intro a b ha _ hab
    have := h.bounds (mem_filter.mp ha).1
    omega
  · intro x hx y hy
    obtain ⟨a, ha, -, rfl⟩ := mem_freeBlocks.mp hx
    have := h.bounds ha
    rw [mem_singleton] at hy
    omega

end

lemma Tiles.pos (h : Tiles i (L1 ++ a :: L2) j) : 0 < a.len := (h.bounds (by simp)).2.2

lemma ordered_length {a : ℕ} (h : (F ++ [k]).Pairwise (· < ·)) (hmin : ∀ x ∈ F ++ [k], a ≤ x) :
    a + F.length ≤ k := by
  induction F generalizing a with
  | nil => simpa using hmin k (by simp)
  | cons x F ih =>
    have hx := hmin x (by simp)
    have hp := pairwise_cons.mp h
    have := ih (a := a + 1) hp.2 (fun y hy => by have := hp.1 y hy; omega)
    simp only [length_cons]
    omega

def FreeRing (c : MallocConf) (m : Mem) (F : List ℕ) : Prop :=
  Ring (fun p => c.get m p .next) (fun p => c.get m p .prev) c.mSentinel (F.map c.addr)

/-- The memory `m` lays out the areas `L`, and threads the blocks `F` on its free ring. -/
structure Laid (c : MallocConf) (m : Mem) (L : List Area) (F : List ℕ) : Prop where
  tiles : Tiles 0 L (c.numHeapBlocks - 1)
  headers : ∀ a ∈ L, c.get m (c.addr a.idx) .blocks = a.header
  sentinel : c.get m c.mSentinel .blocks = 0x8001
  ordered : (F ++ [c.numHeapBlocks - 1]).Pairwise (· < ·)
  ring : FreeRing c m F

def Represents (c : MallocConf) (m : Mem) (L : List Area) : Prop := Laid c m L (freeBlocks L)

def Frame (c : MallocConf) (S : List ℕ) (m m' : Mem) : Prop :=
  ∀ x, (∀ i ∈ S, ¬ InBlock c i x) → m' x = m x

lemma Frame.refl (S : List ℕ) (m : Mem) : Frame c S m m := fun _ _ => rfl

lemma Frame.trans (h : Frame c S m1 m2) (k : Frame c S m2 m3) :
    Frame c S m1 m3 := fun x hx => (k x hx).trans (h x hx)

lemma Frame.mono {S' : List ℕ} {m' : Mem} (h : Frame c S m m') (hs : ∀ i ∈ S, i ∈ S') :
    Frame c S' m m' := fun x hx => h x (fun i hi => hx i (hs i hi))

lemma frame_set (m : Mem) (f : Field) (v : ℕ) (hi : i ∈ S) :
    Frame c S m (c.set m (c.addr i) f v) := fun _ hx => set_outside m f v (hx i hi)

lemma nodup_of_ordered (h : (F ++ [k]).Pairwise (· < ·)) : (c.addr k :: F.map c.addr).Nodup := by
  have hd : (k :: F).Nodup := by
    have hn : (F ++ [k]).Nodup := h.imp (fun hab => Nat.ne_of_lt hab)
    exact (perm_append_singleton k F).nodup_iff.mp hn
  exact hd.map (fun _ _ h => addr_inj.mp h)

lemma mem_ring_nodes {z : ℕ} : z ∈ c.addr k :: F.map c.addr ↔ ∃ j ∈ k :: F, c.addr j = z := by
  rw [← map_cons, List.mem_map]

lemma headD_addr (F : List ℕ) (k : ℕ) : (F.map c.addr).headD (c.addr k) = c.addr (F.headD k) := by
  cases F <;> rfl

lemma FreeRing.neighbours (h : FreeRing c m (F1 ++ b :: F2)) :
    c.get m (c.addr b) .next = c.addr (F2.headD (c.numHeapBlocks - 1)) ∧
    ∃ p ∈ (c.numHeapBlocks - 1) :: F1, c.get m (c.addr b) .prev = c.addr p := by
  simp only [FreeRing, map_append, map_cons] at h
  refine ⟨h.next_eq.trans (headD_addr _ _), ?_⟩
  obtain ⟨p, hp, he⟩ := mem_ring_nodes.mp h.prev_mem
  exact ⟨p, hp, he.symm⟩

structure LinksOnly (c : MallocConf) (S : List ℕ) (m m' : Mem) : Prop where
  fields : ∀ j f, f ≠ .next → f ≠ .prev → c.get m' (c.addr j) f = c.get m (c.addr j) f
  frame : Frame c S m m'

lemma linksOnly_next (m : Mem) (hi : i ∈ S) : LinksOnly c S m (c.set m (c.addr i) .next v) :=
  ⟨fun _ _ hn _ => get_set_ne _ _ _ _ (Ne.symm hn), frame_set m _ _ hi⟩

lemma linksOnly_prev (m : Mem) (hi : i ∈ S) : LinksOnly c S m (c.set m (c.addr i) .prev v) :=
  ⟨fun _ _ _ hp => get_set_ne _ _ _ _ (Ne.symm hp), frame_set m _ _ hi⟩

lemma LinksOnly.trans (h : LinksOnly c S m1 m2) (k : LinksOnly c S m2 m3) :
    LinksOnly c S m1 m3 :=
  ⟨fun j f hn hp => (k.fields j f hn hp).trans (h.fields j f hn hp), h.frame.trans k.frame⟩

lemma pointer_fits (ho : (F ++ [c.numHeapBlocks - 1]).Pairwise (· < ·))
    (hj : j ∈ (c.numHeapBlocks - 1) :: F) : c.addr j < 256 ^ c.sizeofPointer := by
  have htwo := c.two_blocks
  have hlt : j < c.numHeapBlocks := by
    rcases mem_cons.mp hj with rfl | hj
    · omega
    · have := (pairwise_append.mp ho).2.2 j hj _ (mem_singleton_self _)
      omega
  exact lt_of_lt_of_le (addr_lt_iff.mpr hlt) (addr_fits le_rfl)

lemma headD_mem (F1 F2 : List ℕ) (k : ℕ) : F2.headD k ∈ k :: (F1 ++ F2) := by cases F2 <;> simp

lemma ordered_erase (ho : ((F1 ++ b :: F2) ++ [k]).Pairwise (· < ·)) :
    ((F1 ++ F2) ++ [k]).Pairwise (· < ·) :=
  ho.sublist (((sublist_cons_self b F2).append_left F1).append_right [k])

lemma ordered_ne {p : ℕ} (ho : ((F1 ++ b :: F2) ++ [k]).Pairwise (· < ·))
    (hp : p ∈ k :: (F1 ++ F2)) : p ≠ b := by
  have hnodup : ((F1 ++ b :: F2) ++ [k]).Nodup := ho.imp Nat.ne_of_lt
  rw [append_assoc, cons_append, nodup_middle, nodup_cons] at hnodup
  rintro rfl
  exact hnodup.1 (by grind)

section

variable (hr : FreeRing c m (F1 ++ b :: F2))
  (ho : ((F1 ++ b :: F2) ++ [c.numHeapBlocks - 1]).Pairwise (· < ·))
include hr ho

lemma unlink_eq :
    ∃ p ∈ (c.numHeapBlocks - 1) :: F1, c.get m (c.addr b) .prev = c.addr p ∧ unlink c m (c.addr b) =
        c.set (c.set m (c.addr p) .next (c.addr (F2.headD (c.numHeapBlocks - 1))))
          (c.addr (F2.headD (c.numHeapBlocks - 1))) .prev (c.addr p) := by
  obtain ⟨hnext, p, hp, hprev⟩ := hr.neighbours
  refine ⟨p, hp, hprev, ?_⟩
  simp only [unlink, hnext, hprev]
  rw [get_set_other _ _ _ (ordered_ne ho (mem_append_left F2 hp)),
    get_set_ne _ _ _ _ (by decide), hnext, hprev]

lemma unlink_spec : FreeRing c (unlink c m (c.addr b)) (F1 ++ F2) ∧
    LinksOnly c ((c.numHeapBlocks - 1) :: (F1 ++ F2)) m (unlink c m (c.addr b)) := by
  obtain ⟨p, hp, hprev, heq⟩ := unlink_eq hr ho
  have hnext := hr.neighbours.1
  have hnd := nodup_of_ordered (c := c) ho
  have hnmem := headD_mem F1 F2 (c.numHeapBlocks - 1)
  have hfit := fun j hj => pointer_fits (j := j) (ordered_erase ho) hj
  set n := F2.headD (c.numHeapBlocks - 1)
  have hpmem : p ∈ (c.numHeapBlocks - 1) :: (F1 ++ F2) := mem_append_left F2 hp
  rw [heq]
  refine ⟨?_, (linksOnly_next m hpmem).trans (linksOnly_prev _ hnmem)⟩
  simp only [FreeRing, map_append, map_cons] at hr hnd ⊢
  refine hr.unlink hnd ?_ ?_ ?_ ?_
  · intro z hz hne
    rw [← map_append] at hz
    obtain ⟨j, hj, rfl⟩ := mem_ring_nodes.mp hz
    rw [get_set_ne _ _ _ _ (by decide), get_set_other]
    rintro rfl; exact hne hprev.symm
  · simp only [hprev]
    rw [get_set_ne _ _ _ _ (by decide), get_set_self _ _ (hfit n hnmem), hnext]
  · intro z hz hne
    rw [← map_append] at hz
    obtain ⟨j, hj, rfl⟩ := mem_ring_nodes.mp hz
    simp only [hnext] at hne
    rw [get_set_other _ _ _ (fun he => hne (by rw [he])), get_set_ne _ _ _ _ (by decide)]
  · simp only [hnext]
    rw [get_set_self _ _ (hfit p hpmem), hprev]

lemma unlink_untouched (hn : ∀ j ∈ (c.numHeapBlocks - 1) :: F1, ¬ InField c j .next x)
    (hp : ∀ j ∈ (c.numHeapBlocks - 1) :: F2, ¬ InField c j .prev x) :
    unlink c m (c.addr b) x = m x := by
  obtain ⟨p, hmem, -, heq⟩ := unlink_eq hr ho
  have hhead : F2.headD (c.numHeapBlocks - 1) ∈ (c.numHeapBlocks - 1) :: F2 := headD_mem [] F2 _
  rw [heq, set_other_field _ _ (hp _ hhead), set_other_field _ _ (hn p hmem)]

end

lemma insertPoint_spec {m : Mem} {F1 F2 : List ℕ} {b x fuel : ℕ}
    (hs : Segment (fun p => c.get m p .next) (fun p => c.get m p .prev) x
      ((F1 ++ F2).map c.addr) c.mSentinel)
    (hlow : ∀ j ∈ F1, j < b) (hb : b < c.numHeapBlocks - 1) (hhigh : ∀ j ∈ F2, b ≤ j)
    (hfuel : F1.length < fuel) :
    insertPoint c m (c.addr b) fuel (c.get m x .next) =
      some (c.addr (F2.headD (c.numHeapBlocks - 1))) := by
  induction F1 generalizing x fuel with
  | nil =>
    obtain ⟨fuel, rfl⟩ := Nat.exists_eq_add_of_lt hfuel
    have hx : c.get m x .next = c.addr (F2.headD (c.numHeapBlocks - 1)) :=
      hs.next_eq.trans (headD_addr _ _)
    rw [hx]
    refine if_neg ?_
    cases F2 with
    | nil => exact fun h => h.2 rfl
    | cons j F2 =>
      have := hhigh j (by simp)
      exact fun h => Nat.not_lt.mpr this (addr_lt_iff.mp h.1)
  | cons j F1 ih =>
    cases fuel with
    | zero => simp at hfuel
    | succ fuel =>
      have hx : c.get m x .next = c.addr j := hs.1.1
      have hj := hlow j (by simp)
      have hgo : c.addr j < c.addr b ∧ c.addr j ≠ c.mSentinel := by
        refine ⟨addr_lt_iff.mpr hj, fun he => ?_⟩
        have := addr_inj.mp he
        omega
      rw [hx, insertPoint, if_pos hgo]
      exact ih hs.2 (fun i hi => hlow i (mem_cons_of_mem _ hi))
        (by simpa using hfuel)

lemma FreeRing.prev_headD (h : FreeRing c m (F1 ++ F2)) :
    ∃ p ∈ (c.numHeapBlocks - 1) :: F1,
      c.get m (c.addr (F2.headD (c.numHeapBlocks - 1))) .prev = c.addr p := by
  cases F2 with
  | nil =>
    rw [append_nil] at h
    obtain ⟨p, hp, he⟩ := mem_ring_nodes.mp (Segment.prev_mem h)
    exact ⟨p, hp, he.symm⟩
  | cons n F2 => exact h.neighbours.2

lemma insertAfter_spec (hr : FreeRing c m (F1 ++ F2))
    (ho : ((F1 ++ b :: F2) ++ [c.numHeapBlocks - 1]).Pairwise (· < ·)) :
    ∃ m', insertAfter c m (c.addr b) = some m' ∧ FreeRing c m' (F1 ++ b :: F2) ∧
      LinksOnly c ((c.numHeapBlocks - 1) :: b :: (F1 ++ F2)) m m' := by
  obtain ⟨p, hp, hprev⟩ := hr.prev_headD
  have ho' := ordered_erase ho
  have hnd := nodup_of_ordered (c := c) ho'
  have hsplit := ho
  simp only [append_assoc, cons_append, pairwise_append, pairwise_cons] at hsplit
  obtain ⟨-, ⟨habove, -⟩, hbelow⟩ := hsplit
  have hbk : b < c.numHeapBlocks - 1 := habove _ (by simp)
  have hlen : F1.length < c.numHeapBlocks := by
    have := ordered_length ho (fun _ _ => Nat.zero_le _)
    simp only [length_append, length_cons] at this
    omega
  have hpoint := insertPoint_spec hr (fun j hj => hbelow j hj b (by simp)) hbk
    (fun j hj => Nat.le_of_lt (habove j (by simp [hj]))) hlen
  have hnmem := headD_mem F1 F2 (c.numHeapBlocks - 1)
  set n := F2.headD (c.numHeapBlocks - 1) with hn
  have hpmem : p ∈ (c.numHeapBlocks - 1) :: (F1 ++ F2) := mem_append_left F2 hp
  have hfit := fun j hj => pointer_fits (j := j) ho' hj
  have hfitb : c.addr b < 256 ^ c.sizeofPointer := pointer_fits ho (by simp)
  have hwide : ∀ j ∈ (c.numHeapBlocks - 1) :: (F1 ++ F2),
      j ∈ (c.numHeapBlocks - 1) :: b :: (F1 ++ F2) := by
    intro j hj; simp only [mem_cons] at hj ⊢; tauto
  refine ⟨c.set (c.set (c.set (c.set m (c.addr p) .next (c.addr b)) (c.addr b) .prev (c.addr p))
    (c.addr n) .prev (c.addr b)) (c.addr b) .next (c.addr n), ?_, ?_, ?_⟩
  · simp only [insertAfter, hpoint, bind_eq_bind, bind_some, hprev]
    rw [get_set_ne _ _ _ _ (by decide), hprev]
  · have hother := fun j hj => (ordered_ne (p := j) ho hj).symm
    simp only [FreeRing, map_append, map_cons] at hr hnd ⊢
    refine hr.insert hnd (headD_addr _ _) ?_ ?_ ?_ ?_ ?_ ?_
    · intro z hz hne
      rw [← map_append] at hz
      obtain ⟨j, hj, rfl⟩ := mem_ring_nodes.mp hz
      rw [get_set_other _ _ _ (hother j hj), get_set_ne _ _ _ _ (by decide),
        get_set_other _ _ _ (hother j hj), get_set_other]
      rintro rfl; exact hne hprev.symm
    · simp only [← hn, hprev]
      rw [get_set_other _ _ _ (hother p hpmem), get_set_ne _ _ _ _ (by decide),
        get_set_other _ _ _ (hother p hpmem), get_set_self _ _ hfitb]
    · intro z hz hne
      rw [← map_append] at hz
      obtain ⟨j, hj, rfl⟩ := mem_ring_nodes.mp hz
      rw [get_set_ne _ _ _ _ (by decide), get_set_other _ _ _ (fun he => hne (by rw [← he])),
        get_set_other _ _ _ (hother j hj), get_set_ne _ _ _ _ (by decide)]
    · rw [get_set_ne _ _ _ _ (by decide), get_set_self _ _ hfitb]
    · rw [get_set_self _ _ (hfit n hnmem)]
    · rw [get_set_ne _ _ _ _ (by decide), get_set_other _ _ _ (hother n hnmem).symm,
        get_set_self _ _ (hfit p hpmem), hprev]
  · exact (((linksOnly_next m (hwide p hpmem)).trans (linksOnly_prev _ (by simp))).trans
      (linksOnly_prev _ (hwide n hnmem))).trans (linksOnly_next _ (by simp))

end HeapAreas
