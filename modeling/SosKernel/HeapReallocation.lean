import SosKernel.HeapRelease

/-! # Reallocation on a represented heap

`sos_blk_mem_realloc` lets the area absorb the free areas behind it before it compares sizes.
`Outcome` says what it leaves in each of its cases, down to the bytes of the area. -/
namespace HeapAreas

open ByteMemory HeapLayout LinkedRing List

variable {c : MallocConf} {m m' : Mem} {L l1 l2 : List Area} {a : Area} {x : ℕ} {j k newSize : ℕ}
  {R X L' : List Area} {g : Area}

def KeepsBody (c : MallocConf) (a : Area) (m m' : Mem) : Prop :=
  ∀ x, c.addr a.idx + 2 ≤ x → x < c.addr (a.idx + a.len) → m' x = m x

lemma KeepsBody.trans {m1 m2 m3 : Mem} (h : KeepsBody c a m1 m2) (k : KeepsBody c a m2 m3) :
    KeepsBody c a m1 m3 :=
  fun x hlo hhi => (k x hlo hhi).trans (h x hlo hhi)

lemma KeepsBody.front (h : KeepsBody c g m m') (hidx : g.idx = a.idx)
    (hlen : a.len ≤ g.len) : KeepsBody c a m m' := by
  intro x hlo hhi
  have hle : c.addr (a.idx + a.len) ≤ c.addr (g.idx + g.len) := addr_le_iff.mpr (by omega)
  exact h x (hidx ▸ hlo) (Nat.lt_of_lt_of_le hhi hle)

lemma Keeps.body (h : Keeps c R m m') (ha : a ∈ R) : KeepsBody c a m m' :=
  fun x hlo hhi => h a ha x ⟨by omega, hhi⟩

lemma KeepsBody.owner (h : KeepsBody c a m m') (hpos : 0 < a.len) :
    c.get m' (c.addr a.idx) .owner = c.get m (c.addr a.idx) .owner := by
  have hg := guard_inside (c := c) hpos
  have hhdr := c.header_holds_fields
  refine load_congr (fun x hlo hhi => h x hlo ?_)
  simp only [Field.offset, Field.size] at hhi
  omega

lemma body_outside_size (hlo : c.addr a.idx + 2 ≤ x) : ¬ InField c a.idx .blocks x := by
  rintro ⟨-, hhi⟩
  simp only [Field.offset, Field.size] at hhi
  omega

lemma body_set_blocks (m : Mem) (a : Area) (v : ℕ) :
    KeepsBody c a m (c.set m (c.addr a.idx) .blocks v) :=
  fun _ hlo _ => set_other_field _ _ (body_outside_size hlo)

lemma not_inBlock (hj : j < a.idx ∨ a.idx + a.len ≤ j) (hx : a.Covers c x) : ¬ InBlock c j x := by
  intro hin
  rcases hj with hlt | hle
  · exact addr_not_between hlt hin.2 hx.1
  · exact addr_not_between hle hx.2 hin.1

lemma last_byte_not_prev : ¬ InField c j .prev (c.addr k - 1) := by
  intro hin
  have hlinks := c.links_fit
  have hptr := c.pointer_pos
  have hpos := addr_pos (c := c) k
  have hblock := hin.inBlock
  have hlt : j < k := addr_lt_iff.mp (show c.addr j < c.addr k by have := hblock.1; omega)
  have hle : k ≤ j + 1 := addr_le_iff.mp (show c.addr k ≤ c.addr (j + 1) by have := hblock.2; omega)
  have hkj : k = j + 1 := by omega
  have hhi := hin.2
  rw [hkj, addr_add] at hhi
  simp only [Field.offset, Field.size, MallocConf.blockSize] at hhi hlinks
  omega

def exposed (a : Area) (fr : List Area) : Area := grow { a with reserved := false } fr

lemma reservedAreas_skip {fr l3 : List Area} (hfr : ∀ e ∈ fr, e.reserved = false) :
    reservedAreas (l1 ++ (fr ++ l3)) = reservedAreas (l1 ++ l3) := by
  simp [reservedAreas_free hfr]

section Merging

variable {fuel : ℕ} (h : Laid c m (l1 ++ a :: l2) (freeBlocks l1 ++ freeBlocks l2))
  (ha : a.reserved = false) (hrun : mergeBlocks c (c.addr a.idx) fuel m = some m')

include h ha hrun

lemma mergeBlocks_body : KeepsBody c a m m' := by
  intro x hlo hhi
  have hin : a.Covers c x := ⟨by omega, hhi⟩
  have hsent : ¬ InBlock c (c.numHeapBlocks - 1) x :=
    not_inBlock (.inr (h.tiles.bounds (by simp)).2.1) hin
  have hring : ∀ j ∈ freeBlocks l1 ++ freeBlocks l2, ¬ InBlock c j x :=
    fun j hj => not_inBlock (h.tiles.ring_apart j hj) hin
  refine mergeBlocks_untouched h ha hrun (body_outside_size hlo) (fun j hj hfield => ?_)
    (fun j hj hfield => ?_)
  · rcases mem_cons.mp hj with rfl | hj
    · exact hsent hfield.inBlock
    · exact hring j (mem_append_left _ hj) hfield.inBlock
  · rcases mem_cons.mp hj with rfl | hj
    · exact hsent hfield.inBlock
    · exact hring j (mem_append_right _ hj) hfield.inBlock

lemma mergeBlocks_last {l3 : List Area} (hidx : g.idx = a.idx)
    (hg : Laid c m' (l1 ++ g :: l3) (freeBlocks l1 ++ freeBlocks l3)) :
    m' (g.guard c) = m (g.guard c) := by
  have hinside := guard_inside (c := c) hg.tiles.pos
  have hhdr := c.header_holds_fields
  have hlo : c.addr a.idx + 2 ≤ g.guard c := by
    rw [← hidx]
    omega
  have hcov : g.Covers c (g.guard c) := ⟨by omega, hinside.2⟩
  refine mergeBlocks_untouched h ha hrun (body_outside_size hlo) (fun j hj hfield => ?_)
    (fun j _ => last_byte_not_prev)
  refine not_inBlock ?_ hcov hfield.inBlock
  rcases mem_cons.mp hj with rfl | hj
  · exact .inr (hg.tiles.bounds (by simp)).2.1
  · exact hg.tiles.ring_apart j (mem_append_left _ hj)

end Merging

/-- Memory after `MergeBlocks` on the held area `a`. Neither the old contents nor the last byte of
the merged area have changed. -/
structure Merged (c : MallocConf) (m m2 : Mem) (l1 : List Area) (a : Area) (fr l3 : List Area) :
    Prop where
  laid : Laid c m2 (l1 ++ exposed a fr :: l3) (freeBlocks l1 ++ freeBlocks l3)
  kept : Keeps c (reservedAreas (l1 ++ l3)) m m2
  body : KeepsBody c a m m2
  last : m2 ((exposed a fr).guard c) = m ((exposed a fr).guard c)

lemma expose_merge_spec (h : Represents c m (l1 ++ a :: l2)) (ha : a.reserved = true) :
    ∃ m2 fr l3, l2 = fr ++ l3 ∧ (∀ e ∈ fr, e.reserved = false) ∧
      (∀ e ∈ l3.head?, e.reserved = true) ∧
      mergeBlocks c (c.addr a.idx) c.numHeapBlocks (c.set m (c.addr a.idx) .blocks a.len) =
        some m2 ∧ Merged c m m2 l1 a fr l3 := by
  have hlen := h.tail_length
  rw [Represents, freeBlocks_append, freeBlocks_cons_reserved ha] at h
  set b : Area := { a with reserved := false }
  have ht : Tiles 0 (l1 ++ b :: l2) (c.numHeapBlocks - 1) := h.tiles.set_reserved false
  have h1 := h.set_header (b := b) rfl (fun e he => he) ht
  obtain ⟨m2, fr, l3, rfl, hrun, habs, hstop⟩ := mergeBlocks_spec h1 rfl hlen
  have hlaid : Laid c m2 (l1 ++ exposed a fr :: l3) (freeBlocks l1 ++ freeBlocks l3) := habs.laid
  refine ⟨m2, fr, l3, rfl, habs.free, hstop, hrun, hlaid, ?_, ?_, ?_⟩
  · rw [← reservedAreas_skip habs.free]
    have hframe : Frame c
        ((c.numHeapBlocks - 1) :: b.idx :: (freeBlocks l1 ++ freeBlocks (fr ++ l3))) m m2 :=
      (frame_set m _ _ (by simp [b])).trans habs.frame
    refine hframe.keeps (fun i hi e he => ht.freeBlocks_apart ?_ ?_)
    · rw [reservedAreas_without rfl]
      exact he
    · rw [freeBlocks_append]
      exact (perm_middle.symm.cons _).subset hi
  · have hbody : KeepsBody c b _ m2 := mergeBlocks_body h1 rfl hrun
    exact (body_set_blocks m a _).trans hbody
  · have hpos := (hlaid.tiles.bounds (a := exposed a fr) (by simp)).2.2
    have hin := guard_inside (c := c) hpos
    have hhdr := c.header_holds_fields
    have hstart : c.addr (exposed a fr).idx = c.addr a.idx := rfl
    have hout : ¬ InField c a.idx .blocks ((exposed a fr).guard c) := body_outside_size (by omega)
    rw [mergeBlocks_last h1 rfl hrun (g := exposed a fr) rfl hlaid]
    exact set_other_field _ _ hout

structure Reallocated (c : MallocConf) (R X : List Area) (m m' : Mem) (L' : List Area) : Prop where
  represents : Represents c m' L'
  reserved : ∀ e, e ∈ reservedAreas L' ↔ e ∈ X ∨ e ∈ R
  kept : Keeps c R m m'

lemma Reallocated.prepend {m1 : Mem} (h : Keeps c R m m1)
    (k : Reallocated c R X m1 m' L') : Reallocated c R X m m' L' :=
  ⟨k.represents, k.reserved, h.trans k.kept⟩

lemma Reallocated.head_mem
    (h : Reallocated c R (a :: X) m m' L') : a ∈ L' :=
  (mem_reservedAreas.mp ((h.reserved a).mpr (.inl mem_cons_self))).1

lemma reserve_reallocated (id : ℕ) (h : Laid c m (l1 ++ a :: l2) (freeBlocks l1 ++ freeBlocks l2)) :
    Reallocated c (reservedAreas (l1 ++ l2)) [{ a with reserved := true }] m
      (reserve c m (c.addr a.idx) id) (l1 ++ { a with reserved := true } :: l2) := by
  obtain ⟨hrep, -, hout⟩ := reserve_spec id h
  refine ⟨hrep, fun e => mem_reservedAreas_cons rfl, keeps_of_inside hout ?_⟩
  intro e he
  exact h.tiles.others_apart (mem_reservedAreas.mp he).1

lemma shrink_spec {req : ℕ} (id : ℕ) (hfree : a.reserved = false)
    (h : Laid c m (l1 ++ a :: l2) (freeBlocks l1 ++ freeBlocks l2))
    (hpos : 0 < req) (hlt : req < a.len) :
    ∃ m3 L', splitBlock c m (c.addr a.idx) req = some m3 ∧
      Reallocated c (reservedAreas (l1 ++ l2)) [⟨a.idx, req, true⟩] m
        (reserve c m3 (c.addr a.idx) id) L' ∧
      Owned c (reserve c m3 (c.addr a.idx) id) ⟨a.idx, req, true⟩ id ∧
      ∀ x, userPart c (c.addr a.idx) ≤ x → x < Area.guard c ⟨a.idx, req, true⟩ →
        reserve c m3 (c.addr a.idx) id x = m x := by
  have hbefore : ∀ j ∈ freeBlocks l1, j ≤ a.idx := by
    intro j hj
    obtain ⟨e, he, -, rfl⟩ := mem_freeBlocks.mp hj
    have := (pairwise_append.mp h.tiles.apart).2.2 e he a (by simp)
    omega
  obtain ⟨m3, hrun, hlaid, hframe⟩ := splitBlock_spec h hfree hbefore hpos hlt
  have hlaid' : Laid c m3 (l1 ++ ⟨a.idx, req, false⟩ :: (⟨a.idx + req, a.len - req, false⟩ :: l2))
      (freeBlocks l1 ++ freeBlocks (⟨a.idx + req, a.len - req, false⟩ :: l2)) := by
    exact hlaid
  have hsame : reservedAreas (l1 ++ ⟨a.idx + req, a.len - req, false⟩ :: l2) =
      reservedAreas (l1 ++ l2) := by
    rw [reservedAreas_without rfl]
  have hreal := reserve_reallocated id hlaid'
  rw [hsame] at hreal
  refine ⟨m3, _, hrun, hreal.prepend (hframe.frame.keeps ?_), (reserve_spec id hlaid').2.1, ?_⟩
  · intro i hi e he
    have he' : e ∈ reservedAreas (l1 ++ a :: l2) := by
      rw [reservedAreas_without hfree]
      exact he
    exact h.tiles.split_apart hfree hlt he' hi
  · intro x hlo hhi
    have hhdr := c.header_holds_fields
    have hend : x < c.addr (a.idx + req) := Nat.lt_of_lt_of_le hhi (Nat.sub_le _ _)
    have hstart : c.addr a.idx + 2 ≤ x := by
      simp only [userPart] at hlo
      omega
    have hcov : Area.Covers c ⟨a.idx, req, false⟩ x := ⟨by show c.addr a.idx ≤ x; omega, hend⟩
    rw [reserve_user id hlaid' hlo (Nat.ne_of_lt hhi)]
    refine hframe x (fun j hj => not_inBlock ?_ hcov) (body_outside_size hstart)
    simp only [mem_cons, mem_append] at hj
    rcases hj with rfl | rfl | hj
    · have := (h.len_lt (a := a) (by simp)).1
      exact .inr (by simp only; omega)
    · exact .inr le_rfl
    · have hring := h.tiles.ring_apart j (mem_append.mpr hj)
      simp only
      omega

lemma copy_inside {n : Area} (hle : g.len ≤ n.len) (src : ℕ)
    (hx : x < c.addr n.idx + 2 ∨ c.addr (n.idx + n.len) ≤ x) :
    copy m (userPart c (c.addr n.idx)) src (g.len * c.blockSize - c.sizeofBlockHeader) x = m x := by
  have hend : c.addr (n.idx + g.len) ≤ c.addr (n.idx + n.len) := addr_le_iff.mpr (by omega)
  have hhdr := c.header_holds_fields
  rw [addr_add] at hend
  refine copy_outside m ?_
  simp only [userPart]
  omega

lemma free_old_spec {n : Area} (h : Represents c m L)
    (hres : ∀ e, e ∈ reservedAreas L ↔ e ∈ [n, g] ∨ e ∈ R) (hgn : n ≠ g) (hgR : g ∉ R) :
    ∃ m' L', sosBlkMemFree c m (userPart c (c.addr g.idx)) = some m' ∧
      Reallocated c (n :: R) (if corrupted c m (c.addr g.idx) then [g] else []) m m' L' := by
  have hres' : ∀ e, e ∈ reservedAreas L ↔ e = g ∨ e ∈ n :: R := by
    intro e
    rw [hres]
    simp only [mem_cons, not_mem_nil, or_false]
    tauto
  obtain ⟨m', L', hrun, hrep, hkeep, hleft⟩ := free_area_spec h hres' (by simp [hgR, hgn.symm])
  refine ⟨m', L', hrun, hrep, fun e => ?_, hkeep.mono (fun e he => (hleft e).mpr (.inr he))⟩
  rw [hleft]
  split
  next hc => simp [hc]
  next hc => simp [hc]

lemma copy_user {n : Area} (hlt : g.len < n.len)
    (hapart : g.idx + g.len ≤ n.idx ∨ n.idx + n.len ≤ g.idx)
    (hk : k < g.len * c.blockSize - c.sizeofBlockHeader) :
    copy m (userPart c (c.addr n.idx)) (userPart c (c.addr g.idx))
        (g.len * c.blockSize - c.sizeofBlockHeader) (userPart c (c.addr n.idx) + k) =
      m (userPart c (c.addr g.idx) + k) := by
  refine copy_apart m ?_ hk
  have hn : c.addr (n.idx + g.len) ≤ c.addr (n.idx + n.len) := addr_le_iff.mpr (by omega)
  have happ : c.addr (g.idx + g.len) ≤ c.addr n.idx ∨ c.addr (n.idx + n.len) ≤ c.addr g.idx :=
    hapart.imp addr_le_iff.mpr addr_le_iff.mpr
  simp only [userPart]
  rw [addr_add] at hn happ
  omega

/-- The moving case: the contents are copied into the fresh area `n` and the old area `g` is given
back, unless its guard byte is wrong. -/
lemma move_spec {id : ℕ} {n : Area} {m4 : Mem} {L4 : List Area}
    (h : Represents c m (l1 ++ g :: l2)) (hg : g.reserved = true)
    (halloc : Allocated c m (l1 ++ g :: l2) m4 L4 n id) (hlt : g.len < n.len) :
    ∃ m6 L', sosBlkMemFree c (copy m4 (userPart c (c.addr n.idx)) (userPart c (c.addr g.idx))
        (g.len * c.blockSize - c.sizeofBlockHeader)) (userPart c (c.addr g.idx)) = some m6 ∧
      Reallocated c (reservedAreas (l1 ++ l2))
        (n :: if corrupted c m (c.addr g.idx) then [g] else []) m
        (reserve c m6 (c.addr n.idx) id) L' ∧ Owned c (reserve c m6 (c.addr n.idx) id) n id ∧
      ∀ k < g.len * c.blockSize - c.sizeofBlockHeader,
        reserve c m6 (c.addr n.idx) id (userPart c (c.addr n.idx) + k) =
          m (userPart c (c.addr g.idx) + k) := by
  have hgpos := h.tiles.pos
  have hgold : g ∈ reservedAreas (l1 ++ g :: l2) := mem_reservedAreas.mpr ⟨by simp, hg⟩
  have hnres := (halloc.reserved n).mpr (.inl rfl)
  have hgn : n ≠ g := (ne_of_apart (by omega) (halloc.apart g hgold)).symm
  have hgR : g ∉ reservedAreas (l1 ++ l2) := fun hmem =>
    ne_of_apart hgpos (h.tiles.others_apart (mem_reservedAreas.mp hmem).1) rfl
  set m5 := copy m4 (userPart c (c.addr n.idx)) (userPart c (c.addr g.idx))
    (g.len * c.blockSize - c.sizeofBlockHeader) with hm5
  -- the copy writes inside `n` only
  have hrep5 : Represents c m5 L4 := by
    obtain ⟨u, v, rfl⟩ := append_of_mem (mem_reservedAreas.mp hnres).1
    have h4 := halloc.represents
    rw [Represents, freeBlocks_append,
      freeBlocks_cons_reserved (mem_reservedAreas.mp hnres).2] at h4 ⊢
    exact h4.write_inside h4.tiles.ring_apart (fun x hx => copy_inside hlt.le _ hx)
  have hkeep5 : Keeps c (reservedAreas (l1 ++ g :: l2)) m m5 := by
    refine Keeps.trans halloc.kept (keeps_of_inside (fun x hx => ?_) halloc.apart)
    refine copy_inside hlt.le _ ?_
    simp only [Area.Covers] at hx
    omega
  have hcorrupt : corrupted c m5 (c.addr g.idx) ↔ corrupted c m (c.addr g.idx) :=
    corrupted_congr h hrep5 (by simp)
      (mem_reservedAreas.mp ((halloc.reserved g).mpr (.inr hgold))).1 (hkeep5 g hgold)
  obtain ⟨m6, L6, hrun, hfreed⟩ := free_old_spec (R := reservedAreas (l1 ++ l2)) hrep5 (fun e => by
    rw [halloc.reserved, mem_reservedAreas_cons hg]
    simp only [mem_cons, not_mem_nil, or_false, or_assoc]) hgn hgR
  rw [if_congr hcorrupt rfl rfl] at hfreed
  have hnin : n ∈ reservedAreas L6 := (hfreed.reserved n).mpr (.inr (by simp))
  obtain ⟨hmem, hnr⟩ := mem_reservedAreas.mp hnin
  obtain ⟨u, v, rfl⟩ := append_of_mem hmem
  have hlaid := hfreed.represents
  rw [Represents, freeBlocks_append, freeBlocks_cons_reserved hnr] at hlaid
  have hself : { n with reserved := true } = n := by rw [← hnr]
  obtain ⟨hrep7, howned, hout⟩ := reserve_spec id hlaid
  rw [hself] at hrep7 howned
  refine ⟨m6, _, hrun, ⟨hrep7, fun e => ?_, ?_⟩, howned, fun k hk => ?_⟩
  · rw [hfreed.reserved, mem_cons, mem_cons]
    exact or_left_comm.trans or_assoc.symm
  · have hmono : ∀ e ∈ reservedAreas (l1 ++ l2), e ∈ reservedAreas (l1 ++ g :: l2) :=
      fun e he => (mem_reservedAreas_cons hg).mpr (.inr he)
    refine ((hkeep5.mono hmono).trans (hfreed.kept.mono ?_)).trans (keeps_of_inside hout ?_)
    · exact fun e he => mem_cons_of_mem _ he
    · exact fun e he => halloc.apart e (hmono e he)
  · have hgn' := halloc.apart g hgold
    have hend : c.addr (n.idx + g.len) + c.blockSize ≤ c.addr (n.idx + n.len) :=
      addr_apart (by omega)
    have hbs := blockSize_pos (c := c)
    have hx : userPart c (c.addr n.idx) + k < n.guard c := by
      rw [addr_add] at hend
      simp only [Area.guard, userPart]
      omega
    have hgend : c.addr (g.idx + g.len) = c.addr g.idx + g.len * c.blockSize := addr_add _ _
    have hguard := guard_inside (c := c) (a := n) (by omega)
    rw [reserve_user id hlaid (Nat.le_add_right _ _) (Nat.ne_of_lt hx),
      hfreed.kept n (by simp) _ ⟨by simp only [userPart]; omega, by omega⟩, hm5,
      copy_user hlt hgn' hk]
    exact halloc.kept g hgold _ ⟨by simp only [userPart]; omega, by simp only [userPart]; omega⟩

/-- How `sos_blk_mem_realloc` leaves the heap for the area `a`, which `g` extends to all free space
behind it, and what it returns. `R` are the other reserved areas. -/
inductive Outcome (c : MallocConf) (m m' : Mem) (L' R : List Area) (a g : Area) (req : ℕ) :
    ℕ → Prop where
  | inPlace (fits : req ≤ g.len) (heap : Reallocated c R [⟨a.idx, req, true⟩] m m' L')
      (owned : Owned c m' ⟨a.idx, req, true⟩ (c.get m (c.addr a.idx) .owner))
      (contents : ∀ x, userPart c (c.addr a.idx) ≤ x → x < c.addr (a.idx + a.len) →
        x < Area.guard c ⟨a.idx, req, true⟩ → m' x = m x) :
      Outcome c m m' L' R a g req (userPart c (c.addr a.idx))
  | moved (n : Area) (full : g.len < req) (room : req ≤ n.len) (elsewhere : n.idx ≠ a.idx)
      (heap : Reallocated c R (n :: if c.get m (c.addr a.idx) .owner ≠ (m (g.guard c)).toNat
        then [{ g with reserved := true }] else []) m m' L')
      (owned : Owned c m' n (c.get m (c.addr a.idx) .owner))
      (contents : ∀ k < a.len * c.blockSize - c.sizeofBlockHeader,
        m' (userPart c (c.addr n.idx) + k) = m (userPart c (c.addr a.idx) + k)) :
      Outcome c m m' L' R a g req (userPart c (c.addr n.idx))
  | failed (full : g.len < req) (heap : Reallocated c R [{ g with reserved := true }] m m' L')
      (body : KeepsBody c a m m') (guard : m' (g.guard c) = m (g.guard c)) :
      Outcome c m m' L' R a g req 0

lemma seal_spec (hfree : a.reserved = false)
    (h : Laid c m (l1 ++ a :: l2) (freeBlocks l1 ++ freeBlocks l2)) :
    Represents c (c.set m (c.addr a.idx) .blocks (a.len ||| reservedBit))
      (l1 ++ { a with reserved := true } :: l2) ∧ Keeps c (reservedAreas (l1 ++ l2)) m
      (c.set m (c.addr a.idx) .blocks (a.len ||| reservedBit)) := by
  have hhead : a.len ||| reservedBit = Area.header { a with reserved := true } := by
    have := header_or_reserved (h.len_lt (a := a) (by simp)).2
    rwa [Area.header, hfree] at this
  constructor
  · rw [hhead, Represents, freeBlocks_append]
    exact h.set_header rfl (fun e he => he) (h.tiles.set_reserved true)
  · refine (frame_set (S := [a.idx]) m _ _ (by simp)).keeps (fun i hi e he => ?_)
    have hpos := h.tiles.pos
    have := h.tiles.others_apart (mem_reservedAreas.mp he).1
    rw [mem_singleton] at hi
    omega

lemma blocksToBytes_eq {n : ℕ} (h : n < 0x4000) :
    blocksToBytes c n = n * c.blockSize - c.sizeofBlockHeader := by
  rw [blocksToBytes, and_sizeMask, Nat.mod_eq_of_lt h]

variable {fr l3 : List Area} {m2 : Mem} {req : ℕ}

section

variable (h : Merged c m m2 l1 a fr l3)
include h

lemma Merged.cut (hpos : 0 < req) (hlt : req < (exposed a fr).len) :
    ∃ m3 L', splitBlock c m2 (c.addr a.idx) req = some m3 ∧
      Outcome c m (reserve c m3 (c.addr a.idx) (c.get m (c.addr a.idx) .owner)) L'
        (reservedAreas (l1 ++ l3)) a (exposed a fr) req (userPart c (c.addr a.idx)) := by
  obtain ⟨m3, L', hsplit, hreal, howned, hcont⟩ :=
    shrink_spec (c.get m (c.addr a.idx) .owner) rfl h.laid hpos hlt
  refine ⟨m3, L', hsplit, .inPlace hlt.le (hreal.prepend h.kept) howned (fun x hlo hend hhi => ?_)⟩
  have hhdr := c.header_holds_fields
  exact (hcont x hlo hhi).trans (h.body x (by simp only [userPart] at hlo; omega) hend)

lemma Merged.fill (heq : req = (exposed a fr).len) :
    ∃ L', Outcome c m (reserve c m2 (c.addr a.idx) (c.get m (c.addr a.idx) .owner)) L'
      (reservedAreas (l1 ++ l3)) a (exposed a fr) req (userPart c (c.addr a.idx)) := by
  have hreal := reserve_reallocated (c.get m (c.addr a.idx) .owner) h.laid
  have howned := (reserve_spec (c.get m (c.addr a.idx) .owner) h.laid).2.1
  have hnew : { exposed a fr with reserved := true } = (⟨a.idx, req, true⟩ : Area) := by
    rw [heq]
    rfl
  rw [hnew] at hreal howned
  refine ⟨_, .inPlace heq.le (hreal.prepend h.kept) howned (fun x hlo hend hhi => ?_)⟩
  have hhdr := c.header_holds_fields
  have hsame : Area.guard c ⟨a.idx, req, true⟩ = (exposed a fr).guard c := by
    rw [← hnew]
    rfl
  exact (reserve_user _ h.laid hlo (by omega)).trans
    (h.body x (by simp only [userPart] at hlo; omega) hend)

lemma Merged.relocate (hpos : 0 < a.len)
    (hsize : newSize + c.blockOverhead + c.blockSize - 1 ≤ 65535)
    (hlt : (exposed a fr).len < reqBlocks c newSize) :
    ∃ m4 fresh L', sosBlkMemAlloc c (c.set m2 (c.addr a.idx) .blocks
        ((exposed a fr).len ||| reservedBit)) newSize (c.get m (c.addr a.idx) .owner) =
          some (m4, fresh) ∧
      (fresh = 0 ∧ Outcome c m m4 L' (reservedAreas (l1 ++ l3)) a (exposed a fr)
          (reqBlocks c newSize) 0 ∨
        fresh ≠ 0 ∧ ∃ (m6 : Mem) (n : Area), fresh = userPart c (c.addr n.idx) ∧
          sosBlkMemFree c (copy m4 (userPart c (c.addr n.idx)) (userPart c (c.addr a.idx))
            ((exposed a fr).len * c.blockSize - c.sizeofBlockHeader))
            (userPart c (c.addr a.idx)) = some m6 ∧
          Outcome c m (reserve c m6 (c.addr n.idx) (c.get m (c.addr a.idx) .owner)) L'
            (reservedAreas (l1 ++ l3)) a (exposed a fr) (reqBlocks c newSize)
            (userPart c (c.addr n.idx))) := by
  have hle : a.len ≤ (exposed a fr).len := Nat.le_add_right _ _
  set id := c.get m (c.addr a.idx) .owner
  set g : Area := { exposed a fr with reserved := true }
  set m3 := c.set m2 (c.addr a.idx) .blocks ((exposed a fr).len ||| reservedBit)
  obtain ⟨hrep3, hkeep3⟩ : Represents c m3 (l1 ++ g :: l3) ∧
      Keeps c (reservedAreas (l1 ++ l3)) m2 m3 := seal_spec rfl h.laid
  have hgbody : KeepsBody c g m2 m3 := body_set_blocks m2 g _
  have hbody3 : KeepsBody c a m m3 := h.body.trans (hgbody.front rfl hle)
  have hlast3 : m3 (g.guard c) = m (g.guard c) := by
    have hin := guard_inside (c := c) (a := g) (show 0 < (exposed a fr).len by omega)
    have hhdr := c.header_holds_fields
    exact (hgbody _ (by omega) hin.2).trans h.last
  have hgres : g ∈ reservedAreas (l1 ++ g :: l3) := mem_reservedAreas.mpr ⟨by simp, rfl⟩
  obtain ⟨m4, fresh, L4, hrun, ⟨rfl, hev⟩ | ⟨n, rfl, halloc, hreq⟩⟩ :=
    sosBlkMemAlloc_spec newSize id hrep3 hsize
  · refine ⟨m4, 0, L4, hrun, .inl ⟨rfl, .failed hlt ⟨hev.represents, fun e => ?_, ?_⟩ ?_ ?_⟩⟩
    · rw [hev.reserved]
      exact mem_reservedAreas_cons rfl
    · exact (h.kept.trans hkeep3).trans
        (hev.kept.mono (fun e he => (mem_reservedAreas_cons rfl).mpr (.inr he)))
    · exact hbody3.trans ((hev.kept.body hgres).front rfl hle)
    · have hin := guard_inside (c := c) (a := g) (show 0 < (exposed a fr).len by omega)
      exact (hev.kept g hgres _ ⟨by omega, hin.2⟩).trans hlast3
  · obtain ⟨m6, L', hfreeRun, hreal, howned, hcont⟩ := move_spec hrep3 rfl halloc
      (Nat.lt_of_lt_of_le hlt hreq)
    have hcorrupt : corrupted c m3 (c.addr g.idx) ↔ id ≠ (m ((exposed a fr).guard c)).toNat := by
      rw [hrep3.corrupted_iff (by simp), hlast3]
      exact not_congr (by rw [show c.get m3 (c.addr g.idx) .owner = id from hbody3.owner hpos]; rfl)
    rw [if_congr hcorrupt rfl rfl] at hreal
    have happ := halloc.apart g hgres
    refine ⟨m4, _, L', hrun, .inr ⟨userPart_ne_zero _, m6, n, rfl, hfreeRun,
      .moved n hlt hreq ?_ (hreal.prepend (h.kept.trans hkeep3)) howned (fun k hk => ?_)⟩⟩
    · have hidx : g.idx = a.idx := rfl
      have hlen : g.len = (exposed a fr).len := rfl
      omega
    · have hmul : a.len * c.blockSize ≤ g.len * c.blockSize := Nat.mul_le_mul_right _ hle
      have hend : c.addr (a.idx + a.len) = c.addr a.idx + a.len * c.blockSize := addr_add _ _
      have hstart : c.addr g.idx = c.addr a.idx := rfl
      have hhdr := c.header_holds_fields
      rw [hcont k (by omega)]
      exact hbody3 _ (by simp only [userPart]; omega) (by simp only [userPart]; omega)

end

lemma sosBlkMemRealloc_outcome (h : Represents c m (l1 ++ a :: l2))
    (ha : a.reserved = true) (hn : newSize ≠ 0)
    (hsize : newSize + c.blockOverhead + c.blockSize - 1 ≤ 65535) :
    ∃ fr l3 m' p L', l2 = fr ++ l3 ∧ (∀ e ∈ fr, e.reserved = false) ∧
      (∀ e ∈ l3.head?, e.reserved = true) ∧
      sosBlkMemRealloc c m (userPart c (c.addr a.idx)) newSize = some (m', p) ∧
      Outcome c m m' L' (reservedAreas (l1 ++ l2)) a (exposed a fr) (reqBlocks c newSize) p := by
  obtain ⟨m2, fr, l3, rfl, hfr, hstop, hmerge, hmerged⟩ := expose_merge_spec h ha
  have hpos := h.tiles.pos
  have hglen : c.get m2 (c.addr a.idx) .blocks = (exposed a fr).len :=
    hmerged.laid.free_len (a := exposed a fr) (by simp) rfl
  rw [reservedAreas_skip hfr]
  simp only [sosBlkMemRealloc, toBlockPtr_userPart]
  rw [if_neg (fun hz => hz.elim (userPart_ne_zero a.idx) hn), h.headers a (by simp),
    header_expose (h.len_lt (by simp)).2, hmerge]
  simp only [Option.bind_eq_bind, Option.bind_some, hglen]
  rcases Nat.lt_trichotomy (reqBlocks c newSize) (exposed a fr).len with hlt | heq | hgt
  · obtain ⟨m3, L', hsplit, hout⟩ := hmerged.cut (reqBlocks_pos hsize) hlt
    exact ⟨fr, l3, _, _, L', rfl, hfr, hstop, by rw [if_pos hlt, hsplit]; rfl, hout⟩
  · obtain ⟨L', hout⟩ := hmerged.fill heq
    exact ⟨fr, l3, _, _, L', rfl, hfr, hstop, by rw [if_neg (by omega), if_neg (by omega)], hout⟩
  · obtain ⟨m4, fresh, L', halloc, ⟨rfl, hout⟩ | ⟨hne, m6, n, rfl, hfree, hout⟩⟩ :=
      hmerged.relocate hpos hsize hgt
    · refine ⟨fr, l3, m4, 0, L', rfl, hfr, hstop, ?_, hout⟩
      rw [if_neg (by omega), if_pos hgt, halloc]
      rfl
    · refine ⟨fr, l3, _, _, L', rfl, hfr, hstop, ?_, hout⟩
      rw [if_neg (by omega), if_pos hgt, halloc, blocksToBytes_eq (hmerged.laid.len_lt (by simp)).2]
      simp only [Option.bind_some, if_pos hne, toBlockPtr_userPart, hfree]

end HeapAreas
