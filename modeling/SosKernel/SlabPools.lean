import SosKernel.HeapBlocks

/-! # Slab pools, `slab.c`

A slab is the list of its pools, head first. An item is named by its pool and its
slot; other memory handed to `ker_slab_free` lies in no pool. `none` is `ker_panic`. -/
namespace SlabPools

open HeapBlocks List

structure Item where
  pool : ℕ
  slot : ℕ
  deriving DecidableEq, Repr

inductive Ptr where
  | slab (it : Item)
  | other (a : ℕ)
  deriving DecidableEq, Repr

/-- `slab_item_t`: the pool's heap block and its allocation vector, lowest bit first. -/
structure Pool where
  addr : ℕ
  alloc : List Bool

structure Slab where
  pools : List Pool
  numItemsPerPool : ℕ

def takeSlot : List Bool → Option (ℕ × List Bool)
  | [] => none
  | false :: v => some (0, true :: v)
  | true :: v => (takeSlot v).map (fun r => (r.1 + 1, true :: r.2))

def takeItem : List Pool → Option (Item × List Pool)
  | [] => none
  | p :: ps =>
    match takeSlot p.alloc with
    | some (i, v) => some (⟨p.addr, i⟩, { p with alloc := v } :: ps)
    | none => (takeItem ps).map (fun r => (r.1, p :: r.2))

/-- `ker_slab_alloc`; `q` is what the heap returns if a new pool is needed. -/
def kerSlabAlloc (s : Slab) (h : Heap) (q pid : ℕ) : Slab × Heap × Option Item :=
  match takeItem s.pools with
  | some (it, ps) => ({ s with pools := ps }, h, some it)
  | none =>
    if q = 0 then (s, h, none)
    else
      let pool : Pool := ⟨q, true :: replicate (s.numItemsPerPool - 1) false⟩
      ({ s with pools := s.pools ++ [pool] }, kerMalloc h q pid, some ⟨q, 0⟩)

/-- The loop of `ker_slab_free`, with the pool block to free (`0` if none). -/
def dropItem (it : Item) : Bool → List Pool → Option (List Pool × ℕ)
  | _, [] => none
  | isHead, p :: ps =>
    if p.addr = it.pool then
      let v := p.alloc.set it.slot false
      if true ∉ v ∧ isHead = false then some (ps, p.addr)
      else some ({ p with alloc := v } :: ps, 0)
    else (dropItem it false ps).map (fun r => (p :: r.1, r.2))

def kerSlabFree (s : Slab) (h : Heap) : Ptr → Option (Slab × Heap)
  | .slab it => (dropItem it true s.pools).map (fun r => ({ s with pools := r.1 }, kerFree h r.2))
  | .other _ => none

def Allocated (ps : List Pool) (it : Item) : Prop :=
  ∃ p ∈ ps, p.addr = it.pool ∧ p.alloc[it.slot]? = some true

def poolAddrs (ps : List Pool) : List ℕ := ps.map Pool.addr

def Busy : Bool → List Pool → Prop
  | _, [] => True
  | isHead, p :: ps => (isHead = true ∨ true ∈ p.alloc) ∧ Busy false ps

structure WellFormed (s : Slab) : Prop where
  items_pos : 0 < s.numItemsPerPool
  head_exists : s.pools ≠ []
  distinct : (poolAddrs s.pools).Nodup
  not_null : 0 ∉ poolAddrs s.pools
  width : ∀ p ∈ s.pools, p.alloc.length = s.numItemsPerPool
  busy : Busy true s.pools

variable {it : Item} {p : Pool} {ps ps' : List Pool} {v v' : List Bool} {i q pid : ℕ} {s s' : Slab}
  {h h' rest : Heap} {r : Option Item} {b : Bool} {owner : ℕ} {x : Item}

lemma allocated_cons : Allocated (p :: ps) it ↔
    (p.addr = it.pool ∧ p.alloc[it.slot]? = some true) ∨ Allocated ps it := by
  simp [Allocated]

lemma not_allocated_of_clear (h : ∀ p ∈ ps, true ∉ p.alloc) : ¬ Allocated ps it := by
  rintro ⟨p, hp, -, hbit⟩
  exact h p hp (mem_of_getElem? hbit)

lemma Allocated.pool_mem (h : Allocated ps it) : it.pool ∈ poolAddrs ps := by
  obtain ⟨p, hp, ha, -⟩ := h
  exact mem_map.mpr ⟨p, hp, ha⟩

lemma takeSlot_some (h : takeSlot v = some (i, v')) : v[i]? = some false ∧ v' = v.set i true := by
  induction v generalizing i v' with
  | nil => simp [takeSlot] at h
  | cons b v ih =>
    cases b with
    | false =>
      simp only [takeSlot, Option.some.injEq, Prod.mk.injEq] at h
      obtain ⟨hi, hv⟩ := h
      subst hi hv
      exact ⟨rfl, rfl⟩
    | true =>
      obtain ⟨⟨j, w⟩, hj, he⟩ := Option.map_eq_some_iff.mp h
      simp only [Prod.mk.injEq] at he
      obtain ⟨hi, hv⟩ := he
      subst hi hv
      have := ih hj
      simp [this.1, this.2]

lemma takeItem_spec (h : takeItem ps = some (it, ps')) (hd : (poolAddrs ps).Nodup) :
    poolAddrs ps' = poolAddrs ps ∧ it.pool ∈ poolAddrs ps ∧ ¬ Allocated ps it ∧
    (∀ x, Allocated ps' x ↔ Allocated ps x ∨ x = it) ∧ (∀ b, Busy b ps → Busy b ps') ∧
    ∀ n, (∀ p ∈ ps, p.alloc.length = n) → ∀ p ∈ ps', p.alloc.length = n := by
  induction ps generalizing ps' with
  | nil => simp [takeItem] at h
  | cons p ps ih =>
    have hd' := nodup_cons.mp hd
    unfold takeItem at h
    split at h
    next i v hslot =>
      simp only [Option.some.injEq, Prod.mk.injEq] at h
      obtain ⟨hit, hps⟩ := h
      subst hit hps
      obtain ⟨hclear, hv⟩ := takeSlot_some hslot
      have hi : i < p.alloc.length := (List.getElem?_eq_some_iff.mp hclear).1
      refine ⟨rfl, by simp [poolAddrs], ?_, ?_, ?_, fun n hw => ?_⟩
      · rw [allocated_cons]
        rintro (⟨-, hset⟩ | hrest)
        · simp [hclear] at hset
        · exact hd'.1 hrest.pool_mem
      · intro x
        rw [allocated_cons, allocated_cons, hv]
        by_cases hx : p.addr = x.pool
        · by_cases hs : i = x.slot
          · have hxi : x = ⟨p.addr, i⟩ := by cases x; simp_all
            simp [hxi, hi]
          · have hxi : x ≠ ⟨p.addr, i⟩ := fun he => hs (by rw [he])
            simp [hs, hxi]
        · have hxi : x ≠ ⟨p.addr, i⟩ := fun he => hx (by rw [he])
          simp [hx, hxi]
      · intro b hb
        refine ⟨.inr ?_, hb.2⟩
        rw [hv]
        exact mem_iff_getElem?.mpr ⟨i, by simp [hi]⟩
      · obtain ⟨hp, hps⟩ := forall_mem_cons.mp hw
        exact forall_mem_cons.mpr ⟨by simp [hv, hp], hps⟩
    next hslot =>
      obtain ⟨⟨jt, qs⟩, hj, he⟩ := Option.map_eq_some_iff.mp h
      simp only [Prod.mk.injEq] at he
      obtain ⟨hit, hps⟩ := he
      subst hit hps
      obtain ⟨haddr, hmem, hnot, hall, hbusy, hwidth⟩ := ih hj hd'.2
      have hpj : p.addr ≠ jt.pool := fun he => hd'.1 (he ▸ hmem)
      refine ⟨by simpa [poolAddrs] using haddr, mem_cons_of_mem _ hmem, ?_, ?_, ?_, fun n hw => ?_⟩
      · rw [allocated_cons]
        exact fun hh => hh.elim (fun hp => hpj hp.1) hnot
      · intro x
        rw [allocated_cons, allocated_cons, hall, or_assoc]
      · intro b hb
        exact ⟨hb.1, hbusy false hb.2⟩
      · obtain ⟨hp, hps⟩ := forall_mem_cons.mp hw
        exact forall_mem_cons.mpr ⟨hp, hwidth n hps⟩

lemma getElem?_clear (hx : x.pool = it.pool) :
    (v.set it.slot false)[x.slot]? = some true ↔ v[x.slot]? = some true ∧ x ≠ it := by
  rw [getElem?_set]
  by_cases hs : it.slot = x.slot
  · have hxi : x = it := by cases x; cases it; simp_all
    split <;> simp [hxi]
  · have hxi : x ≠ it := fun he => hs (by rw [he])
    simp [hs, hxi]

lemma allocated_clear (hp : p.addr = it.pool) (hnot : p.addr ∉ poolAddrs ps) (x : Item) :
    Allocated ({ p with alloc := p.alloc.set it.slot false } :: ps) x ↔
      Allocated (p :: ps) x ∧ x ≠ it := by
  rw [allocated_cons, allocated_cons]
  by_cases hx : p.addr = x.pool
  · have hrest : ¬ Allocated ps x := fun hal => hnot (hx ▸ hal.pool_mem)
    simp only [hx, true_and, hrest, or_false, getElem?_clear (hx.symm.trans hp)]
  · have hxi : x ≠ it := fun he => hx (by rw [he]; exact hp)
    simp only [hx, false_and, false_or, ne_eq, hxi, not_false_eq_true, and_true]

lemma allocated_of_empty (hempty : true ∉ p.alloc) :
    Allocated (p :: ps) x ↔ Allocated ps x := by
  rw [allocated_cons]
  refine or_iff_right (fun h => hempty ?_)
  exact mem_iff_getElem?.mpr ⟨_, h.2⟩

lemma dropItem_spec (hd : (poolAddrs ps).Nodup) (hall : Allocated ps it) (hb : Busy b ps) :
    ∃ ps' q, dropItem it b ps = some (ps', q) ∧
      (∀ x, Allocated ps' x ↔ Allocated ps x ∧ x ≠ it) ∧ Busy b ps' ∧
      (∀ n, (∀ p ∈ ps, p.alloc.length = n) → ∀ p ∈ ps', p.alloc.length = n) ∧
      (poolAddrs ps').Sublist (poolAddrs ps) ∧
      (b = true → (poolAddrs ps').head? = (poolAddrs ps).head?) ∧
      (q = 0 ∧ poolAddrs ps' = poolAddrs ps ∨
        q = it.pool ∧ ∀ a, a ∈ poolAddrs ps' ↔ a ∈ poolAddrs ps ∧ a ≠ it.pool) := by
  induction ps generalizing b with
  | nil => simp [Allocated] at hall
  | cons p ps ih =>
    have hd' : p.addr ∉ poolAddrs ps ∧ (poolAddrs ps).Nodup := nodup_cons.mp hd
    unfold dropItem
    by_cases hp : p.addr = it.pool
    · rw [if_pos hp]
      by_cases hempty : true ∉ p.alloc.set it.slot false ∧ b = false
      · -- the pool is empty now and goes back to the heap
        refine ⟨ps, p.addr, if_pos hempty, fun x => ?_, ?_, fun _ hw => (forall_mem_cons.mp hw).2,
          sublist_cons_self _ _, ?_, .inr ⟨hp, fun a => ?_⟩⟩
        · rw [← allocated_clear hp hd'.1, allocated_of_empty hempty.1]
        · rw [hempty.2]
          exact hb.2
        · intro hbt
          simp [hempty.2] at hbt
        · have hcons : poolAddrs (p :: ps) = p.addr :: poolAddrs ps := rfl
          rw [← hp, hcons, mem_cons]
          constructor
          · intro ha
            exact ⟨.inr ha, fun he => hd'.1 (he ▸ ha)⟩
          · rintro ⟨ha | ha, hne⟩
            · exact (hne ha).elim
            · exact ha
      · refine ⟨_, 0, if_neg hempty, allocated_clear hp hd'.1, ⟨?_, hb.2⟩, fun n hw => ?_,
          Sublist.refl _, fun _ => rfl, .inl ⟨rfl, rfl⟩⟩
        · cases b with
          | true => exact .inl rfl
          | false => exact .inr (by_contra fun hh => hempty ⟨hh, rfl⟩)
        · obtain ⟨hlen, hps⟩ := forall_mem_cons.mp hw
          exact forall_mem_cons.mpr ⟨by simpa using hlen, hps⟩
    · rw [if_neg hp]
      have hal : Allocated ps it := by
        rw [allocated_cons] at hall
        exact hall.resolve_left (fun hh => hp hh.1)
      obtain ⟨ps', q, hrun, hcount, hbusy, hwidth, hsub, -, hq⟩ := ih hd'.2 hal hb.2
      refine ⟨p :: ps', q, by rw [hrun]; rfl, fun x => ?_, ⟨hb.1, hbusy⟩, fun n hw => ?_,
        hsub.cons_cons _, fun _ => rfl, ?_⟩
      · have hxi : p.addr = x.pool → x ≠ it := fun hx he => hp (by rw [hx, he])
        rw [allocated_cons, allocated_cons, hcount, or_and_right]
        refine or_congr_left ?_
        exact (and_iff_left_of_imp (fun h => hxi h.1)).symm
      · obtain ⟨hlen, hps⟩ := forall_mem_cons.mp hw
        exact forall_mem_cons.mpr ⟨hlen, hwidth n hps⟩
      · rcases hq with ⟨hq, hsame⟩ | ⟨hq, hmem⟩
        · exact .inl ⟨hq, congrArg (p.addr :: ·) hsame⟩
        · refine .inr ⟨hq, fun a => ?_⟩
          have hcons : ∀ qs, a ∈ poolAddrs (p :: qs) ↔ a = p.addr ∨ a ∈ poolAddrs qs :=
            fun _ => mem_cons
          rw [hcons, hcons, hmem, or_and_right]
          refine or_congr_left ?_
          refine (and_iff_left_of_imp ?_).symm
          rintro rfl
          exact hp

/-- The heap holds the blocks `rest` and the pools of the slab, owned by `pid`. -/
structure Backed (s : Slab) (pid : ℕ) (rest h : Heap) : Prop where
  blocks : ∀ b, b ∈ h ↔ b ∈ rest ∨ ∃ p ∈ s.pools, b = ⟨p.addr, pid, pid⟩
  apart : ∀ a ∈ poolAddrs s.pools, a ∉ addrs rest

lemma Backed.mem_iff (hb : Backed s pid rest h) (b : Block) :
    b ∈ h ↔ b ∈ rest ∨ ∃ a ∈ poolAddrs s.pools, b = ⟨a, pid, pid⟩ := by
  rw [hb.blocks]
  simp [poolAddrs]

lemma backed_of_mem_iff (hmem : ∀ b, b ∈ h ↔ b ∈ rest ∨ ∃ a ∈ poolAddrs s.pools, b = ⟨a, pid, pid⟩)
    (hapart : ∀ a ∈ poolAddrs s.pools, a ∉ addrs rest) : Backed s pid rest h := by
  refine ⟨fun b => ?_, hapart⟩
  rw [hmem]
  simp [poolAddrs]

section NewPool

variable {n : ℕ}

lemma poolAddrs_append_pool (ps : List Pool) (v : List Bool) :
    poolAddrs (ps ++ [⟨q, v⟩]) = poolAddrs ps ++ [q] := by
  simp [poolAddrs]

lemma Busy.append_pool (hb : Busy b ps) (v : List Bool) :
    Busy b (ps ++ [⟨q, true :: v⟩]) := by
  induction ps generalizing b with
  | nil => exact ⟨.inr mem_cons_self, trivial⟩
  | cons p ps ih => exact ⟨hb.1, ih hb.2⟩

lemma allocated_append_pool (x : Item) :
    Allocated (ps ++ [⟨q, true :: replicate n false⟩]) x ↔ Allocated ps x ∨ x = ⟨q, 0⟩ := by
  have hlast : (q = x.pool ∧ (true :: replicate n false)[x.slot]? = some true) ↔
      x = ⟨q, 0⟩ := by
    cases x with
    | mk pool slot =>
      cases slot with
      | zero => simp [eq_comm]
      | succ n => simp [getElem?_replicate]
  rw [← hlast]
  simp only [Allocated, mem_append, mem_singleton, or_and_right, exists_or, exists_eq_left]

lemma WellFormed.append_pool (hwf : WellFormed s) (hq : q ∉ poolAddrs s.pools) (hq0 : q ≠ 0) :
    WellFormed { s with
      pools := s.pools ++ [⟨q, true :: replicate (s.numItemsPerPool - 1) false⟩] } := by
  refine ⟨hwf.items_pos, by simp, ?_, ?_, ?_, hwf.busy.append_pool _⟩
  · rw [poolAddrs_append_pool]
    exact List.Nodup.append hwf.distinct (nodup_singleton q) (by simpa using hq)
  · rw [poolAddrs_append_pool, mem_append, mem_singleton, not_or]
    exact ⟨hwf.not_null, hq0.symm⟩
  · intro e he
    rcases mem_append.mp he with he | he
    · exact hwf.width e he
    · rw [mem_singleton.mp he, length_cons, length_replicate]
      exact Nat.sub_add_cancel hwf.items_pos

lemma Backed.append_pool (hb : Backed s pid rest h) (hq : q ∉ addrs rest) (hq0 : q ≠ 0)
    (v : List Bool) :
    Backed { s with pools := s.pools ++ [⟨q, v⟩] } pid rest (kerMalloc h q pid) := by
  apply backed_of_mem_iff
  · intro b
    simp only [poolAddrs_append_pool, kerMalloc, if_neg hq0, mem_cons, hb.mem_iff,
      mem_append, or_and_right, exists_or, exists_eq_left, not_mem_nil, or_false]
    exact or_comm.trans or_assoc
  · intro a ha
    rw [poolAddrs_append_pool, mem_append, mem_singleton] at ha
    rcases ha with ha | ha
    · exact hb.apart a ha
    · exact ha ▸ hq

end NewPool

lemma kerSlabAlloc_some (hwf : WellFormed s) (hq : q ∉ poolAddrs s.pools)
    (hrun : kerSlabAlloc s h q pid = (s', h', some it)) : WellFormed s' ∧ ¬ Allocated s.pools it ∧
    (∀ x, Allocated s'.pools x ↔ Allocated s.pools x ∨ x = it) ∧
    (poolAddrs s'.pools).head? = (poolAddrs s.pools).head? ∧
    ∀ rest, Backed s pid rest h → q ∉ addrs rest → Backed s' pid rest h' := by
  unfold kerSlabAlloc at hrun
  split at hrun
  next jt qs htake =>
    simp only [Prod.mk.injEq, Option.some.injEq] at hrun
    obtain ⟨hs, hh, hit⟩ := hrun
    subst hs hh hit
    obtain ⟨haddr, -, hnot, hall, hbusy, hwidth⟩ := takeItem_spec htake hwf.distinct
    refine ⟨⟨hwf.items_pos, ?_, ?_, ?_, hwidth _ hwf.width, hbusy true hwf.busy⟩,
      hnot, hall, by rw [haddr], ?_⟩
    · intro hnil
      have hnone : poolAddrs s.pools = [] := by
        rw [← haddr]
        exact congrArg poolAddrs hnil
      exact hwf.head_exists (by simpa [poolAddrs] using hnone)
    · rw [haddr]
      exact hwf.distinct
    · rw [haddr]
      exact hwf.not_null
    · intro rest hback _
      refine backed_of_mem_iff (fun b => ?_) (fun a ha => hback.apart a (haddr ▸ ha))
      rw [hback.mem_iff, haddr]
  next htake =>
    split at hrun
    · simp at hrun
    next hq0 =>
      simp only [Prod.mk.injEq, Option.some.injEq] at hrun
      obtain ⟨hs, hh, hit⟩ := hrun
      subst hs hh hit
      refine ⟨hwf.append_pool hq hq0, fun hal => hq hal.pool_mem, allocated_append_pool, ?_,
        fun rest hback hrest => hback.append_pool hrest hq0 _⟩
      cases hps : s.pools with
      | nil => exact (hwf.head_exists hps).elim
      | cons p ps => rfl

variable {a : ℕ}

lemma kerSlabAlloc_addrs (hrun : kerSlabAlloc s h q pid = (s', h', r))
    (ha : a ∈ addrs h) : a ∈ addrs h' := by
  unfold kerSlabAlloc at hrun
  split at hrun
  · cases hrun
    exact ha
  · split at hrun
    · cases hrun
      exact ha
    · cases hrun
      exact mem_addrs_kerMalloc ha _ _

lemma kerSlabAlloc_none (hrun : kerSlabAlloc s h q pid = (s', h', none)) :
    s' = s ∧ h' = h ∧ q = 0 := by
  unfold kerSlabAlloc at hrun
  split at hrun
  · simp at hrun
  · split at hrun
    next hq =>
      simp only [Prod.mk.injEq, and_true] at hrun
      exact ⟨hrun.1.symm, hrun.2.symm, hq⟩
    · simp at hrun

lemma kerSlabFree_spec (hwf : WellFormed s) (hall : Allocated s.pools it) :
    ∃ s' h', kerSlabFree s h (.slab it) = some (s', h') ∧ WellFormed s' ∧
      (∀ x, Allocated s'.pools x ↔ Allocated s.pools x ∧ x ≠ it) ∧
      (poolAddrs s'.pools).head? = (poolAddrs s.pools).head? ∧
      (poolAddrs s'.pools).Sublist (poolAddrs s.pools) ∧
      (∀ pid rest, Backed s pid rest h → Backed s' pid rest h') := by
  obtain ⟨ps', q, hrun, hcount, hbusy, hwidth, hsub, hhead, hq⟩ :=
    dropItem_spec hwf.distinct hall hwf.busy
  have hhead' := hhead rfl
  refine ⟨{ s with pools := ps' }, kerFree h q, by simp [kerSlabFree, hrun], ?_, hcount, hhead',
    hsub, ?_⟩
  · refine ⟨hwf.items_pos, ?_, hwf.distinct.sublist hsub, fun hz => hwf.not_null (hsub.subset hz),
      hwidth _ hwf.width, hbusy⟩
    intro hnil
    have hnil' : ps' = [] := hnil
    rw [hnil'] at hhead'
    cases hps : s.pools with
    | nil => exact hwf.head_exists hps
    | cons p ps => simp [hps, poolAddrs] at hhead'
  · intro pid rest hback
    refine backed_of_mem_iff (fun b => ?_) (fun a ha => hback.apart a (hsub.subset ha))
    rcases hq with ⟨hq, hsame⟩ | ⟨hq, hrest⟩
    · rw [hq, kerFree, if_pos rfl, hback.mem_iff, hsame]
    · have hpool := hall.pool_mem
      have hz : it.pool ≠ 0 := fun he => hwf.not_null (he ▸ hpool)
      rw [hq, mem_kerFree hz, hback.mem_iff]
      constructor
      · rintro ⟨hb | ⟨a, ha, hb⟩, hno⟩
        · exact .inl hb
        · refine .inr ⟨a, (hrest a).mpr ⟨ha, fun he => hno ?_⟩, hb⟩
          subst hb
          exact ⟨he, rfl⟩
      · rintro (hb | ⟨a, ha, hb⟩)
        · refine ⟨.inl hb, fun hh => hback.apart _ hpool ?_⟩
          exact hh.1 ▸ mem_map.mpr ⟨b, hb, rfl⟩
        · obtain ⟨ha', hne⟩ := (hrest a).mp ha
          refine ⟨.inr ⟨a, ha', hb⟩, fun hh => hne ?_⟩
          rw [← hh.1, hb]

lemma Busy.allocated (hb : Busy b ps) (ha : a ∈ poolAddrs ps) :
    (b = true ∧ (poolAddrs ps).head? = some a) ∨ ∃ i, Allocated ps ⟨a, i⟩ := by
  induction ps generalizing b with
  | nil => simp [poolAddrs] at ha
  | cons p ps ih =>
    have hfound : true ∈ p.alloc → ∃ i, Allocated (p :: ps) ⟨p.addr, i⟩ := by
      intro hmem
      obtain ⟨i, hi⟩ := mem_iff_getElem?.mp hmem
      exact ⟨i, p, by simp, rfl, hi⟩
    rcases mem_cons.mp ha with hap | ha
    · subst hap
      rcases hb.1 with hbt | hmem
      · exact .inl ⟨hbt, rfl⟩
      · exact .inr (hfound hmem)
    · rcases ih hb.2 ha with ⟨hf, -⟩ | ⟨i, hi⟩
      · simp at hf
      · exact .inr ⟨i, allocated_cons.mpr (.inr hi)⟩

lemma WellFormed.pools_determined (hwf : WellFormed s) (hwf' : WellFormed s')
    (hhead : (poolAddrs s'.pools).head? = (poolAddrs s.pools).head?)
    (hall : ∀ x, Allocated s'.pools x ↔ Allocated s.pools x) (a : ℕ) :
    a ∈ poolAddrs s'.pools ↔ a ∈ poolAddrs s.pools := by
  constructor
  · intro ha
    rcases hwf'.busy.allocated ha with ⟨-, hh⟩ | ⟨i, hi⟩
    · exact mem_of_head? (hhead ▸ hh)
    · exact ((hall _).mp hi).pool_mem
  · intro ha
    rcases hwf.busy.allocated ha with ⟨-, hh⟩ | ⟨i, hi⟩
    · exact mem_of_head? (hhead.trans hh)
    · exact ((hall _).mpr hi).pool_mem

section

variable (hb : Backed s pid rest h)
include hb

lemma Backed.same_blocks (hb' : Backed s' pid rest h')
    (hpools : ∀ a, a ∈ poolAddrs s'.pools ↔ a ∈ poolAddrs s.pools) (b : Block) :
    b ∈ h' ↔ b ∈ h := by
  rw [hb.mem_iff, hb'.mem_iff]
  simp only [hpools]

lemma Backed.pool_mem (ha : a ∈ poolAddrs s.pools) : a ∈ addrs h := by
  obtain ⟨p, hp, rfl⟩ := mem_map.mp ha
  exact mem_map.mpr ⟨⟨p.addr, pid, pid⟩, (hb.blocks _).mpr (.inr ⟨p, hp, rfl⟩), rfl⟩

lemma Backed.rest_mem (ha : a ∈ addrs rest) : a ∈ addrs h := by
  obtain ⟨b, hmem, rfl⟩ := mem_map.mp ha
  exact mem_map.mpr ⟨b, (hb.blocks b).mpr (.inl hmem), rfl⟩

lemma Backed.congr (hsame : ∀ b, b ∈ h' ↔ b ∈ h) : Backed s pid rest h' :=
  ⟨fun b => (hsame b).trans (hb.blocks b), hb.apart⟩

def EmptyPool (s s' : Slab) (a : ℕ) : Prop :=
  a ∈ poolAddrs s.pools ∧ ∀ i, ¬ Allocated s'.pools ⟨a, i⟩

lemma Backed.lost (hb' : Backed s' pid rest h')
    (hsub : (poolAddrs s'.pools).Sublist (poolAddrs s.pools)) :
    (∀ b ∈ h', b ∈ h) ∧ ∀ b ∈ h, b ∈ h' ∨ (b.owner = pid ∧ b.Intact ∧ EmptyPool s s' b.addr) := by
  constructor
  · intro b hmem
    rcases (hb'.blocks b).mp hmem with hrest | ⟨p, hp, rfl⟩
    · exact (hb.blocks b).mpr (.inl hrest)
    · obtain ⟨q, hq, haddr⟩ := mem_map.mp (hsub.subset (mem_map_of_mem hp))
      exact (hb.blocks _).mpr (.inr ⟨q, hq, by rw [haddr]⟩)
  · intro b hmem
    rcases (hb.blocks b).mp hmem with hrest | ⟨p, hp, rfl⟩
    · exact .inl ((hb'.blocks b).mpr (.inl hrest))
    · by_cases hstay : p.addr ∈ poolAddrs s'.pools
      · obtain ⟨q, hq, haddr⟩ := mem_map.mp hstay
        exact .inl ((hb'.blocks _).mpr (.inr ⟨q, hq, by rw [haddr]⟩))
      · refine .inr ⟨rfl, rfl, mem_map_of_mem hp, fun i hi => hstay ?_⟩
        exact hi.pool_mem

lemma Backed.shrink (hsub : ∀ b ∈ h', b ∈ h) (hpools : ∀ p ∈ s.pools, ⟨p.addr, pid, pid⟩ ∈ h') :
    Backed s pid (rest.filter (fun b => b ∈ h')) h' := by
  constructor
  · intro b
    rw [mem_filter, decide_eq_true_eq]
    constructor
    · intro hmem
      rcases (hb.blocks b).mp (hsub b hmem) with hrest | hpool
      · exact .inl ⟨hrest, hmem⟩
      · exact .inr hpool
    · rintro (⟨-, hmem⟩ | ⟨p, hp, rfl⟩)
      · exact hmem
      · exact hpools p hp
  · intro a ha hmem
    obtain ⟨b, hb', rfl⟩ := mem_map.mp hmem
    exact hb.apart b.addr ha (mem_map_of_mem (mem_of_mem_filter hb'))

end

section

variable (hb : Backed s pid rest h) (hq : q ∉ poolAddrs s.pools)
include hb hq

lemma Backed.malloc : Backed s pid (kerMalloc rest q owner) (kerMalloc h q owner) := by
  by_cases hz : q = 0
  · simpa only [kerMalloc, if_pos hz] using hb
  · simp only [kerMalloc, if_neg hz]
    constructor
    · intro b
      rw [mem_cons, mem_cons, hb.blocks, or_assoc]
    · intro a ha hmem
      rcases mem_cons.mp hmem with rfl | hmem
      · exact hq ha
      · exact hb.apart a ha hmem

lemma Backed.free : Backed s pid (kerFree rest q) (kerFree h q) := by
  by_cases hz : q = 0
  · simpa only [kerFree, if_pos hz] using hb
  · constructor
    · intro b
      rw [mem_kerFree hz, mem_kerFree hz, hb.blocks]
      constructor
      · rintro ⟨hrest | hpool, hno⟩
        · exact .inl ⟨hrest, hno⟩
        · exact .inr hpool
      · rintro (⟨hrest, hno⟩ | ⟨p, hp, rfl⟩)
        · exact ⟨.inl hrest, hno⟩
        · exact ⟨.inr ⟨p, hp, rfl⟩, fun hh => hq (hh.1 ▸ mem_map_of_mem hp)⟩
    · intro a ha hmem
      obtain ⟨b, hb', rfl⟩ := mem_map.mp hmem
      exact hb.apart b.addr ha (mem_map_of_mem (mem_of_kerFree hb'))

lemma Backed.changeOwn :
    Backed s pid (kerChangeOwn rest q owner) (kerChangeOwn h q owner) := by
  refine ⟨fun b => ?_, fun a ha => by rw [addrs_kerChangeOwn]; exact hb.apart a ha⟩
  have hpool : ∀ p ∈ s.pools, p.addr ≠ q := fun p hp heq => hq (heq ▸ mem_map_of_mem hp)
  unfold kerChangeOwn
  split
  · exact hb.blocks b
  · simp only [mem_map, hb.blocks]
    constructor
    · rintro ⟨b0, hrest | ⟨p, hp, rfl⟩, rfl⟩
      · exact .inl ⟨b0, hrest, rfl⟩
      · exact .inr ⟨p, hp, if_neg (fun hh => hpool p hp hh.1)⟩
    · rintro (⟨b0, hrest, rfl⟩ | ⟨p, hp, rfl⟩)
      · exact ⟨b0, .inl hrest, rfl⟩
      · exact ⟨_, .inr ⟨p, hp, rfl⟩, if_neg (fun hh => hpool p hp hh.1)⟩

end

def freeSlots (ps : List Pool) : ℕ := (ps.map (fun p => p.alloc.count false)).sum

lemma takeSlot_eq_none : takeSlot v = none ↔ false ∉ v := by
  induction v with
  | nil => simp [takeSlot]
  | cons b v ih =>
    cases b with
    | false => simp [takeSlot]
    | true => simp [takeSlot, ih]

lemma takeSlot_count (ht : takeSlot v = some (i, v')) : v.count false = v'.count false + 1 := by
  induction v generalizing i v' with
  | nil => cases ht
  | cons b v ih =>
    cases b with
    | false =>
      cases ht
      simp
    | true =>
      obtain ⟨⟨j, w⟩, hj, heq⟩ := Option.map_eq_some_iff.mp ht
      cases heq
      simpa using ih hj

lemma takeItem_freeSlots (ht : takeItem ps = some (it, ps')) :
    freeSlots ps = freeSlots ps' + 1 := by
  induction ps generalizing it ps' with
  | nil => cases ht
  | cons p ps ih =>
    simp only [takeItem] at ht
    split at ht
    next i v hslot =>
      cases ht
      simp only [freeSlots, map_cons, sum_cons, takeSlot_count hslot]
      omega
    · obtain ⟨⟨jt, qs⟩, hj, heq⟩ := Option.map_eq_some_iff.mp ht
      cases heq
      have hrest := ih hj
      simp only [freeSlots, map_cons, sum_cons] at hrest ⊢
      omega

lemma takeItem_eq_none : takeItem ps = none ↔ freeSlots ps = 0 := by
  induction ps with
  | nil => simp [takeItem, freeSlots]
  | cons p ps ih =>
    have hcons : freeSlots (p :: ps) = p.alloc.count false + freeSlots ps := by simp [freeSlots]
    rw [hcons, Nat.add_eq_zero_iff, count_eq_zero, ← takeSlot_eq_none, ← ih]
    cases hslot : takeSlot p.alloc with
    | none => simp [takeItem, hslot]
    | some r => simp [takeItem, hslot]

lemma kerSlabAlloc_frame (hd : (poolAddrs s.pools).Nodup)
    (hrun : kerSlabAlloc s h q pid = (s', h', r)) :
    s'.numItemsPerPool = s.numItemsPerPool ∧ (h' = h ∨ h' = kerMalloc h q pid) ∧
    ∀ a ∈ poolAddrs s'.pools, a ∈ poolAddrs s.pools ∨ (a = q ∧ q ≠ 0) := by
  unfold kerSlabAlloc at hrun
  split at hrun
  next jt qs htake =>
    cases hrun
    refine ⟨rfl, .inl rfl, fun a ha => .inl ?_⟩
    rwa [← (takeItem_spec htake hd).1]
  · split at hrun
    · cases hrun
      exact ⟨rfl, .inl rfl, fun a ha => .inl ha⟩
    next hz =>
      cases hrun
      refine ⟨rfl, .inr rfl, fun a ha => ?_⟩
      simpa [poolAddrs, hz] using ha

lemma kerSlabAlloc_free (hrun : kerSlabAlloc s h q pid = (s', h', r)) :
    match freeSlots s.pools with
    | n + 1 => r.isSome ∧ freeSlots s'.pools = n
    | 0 => (r.isSome ↔ q ≠ 0) ∧ (q ≠ 0 → freeSlots s'.pools = s.numItemsPerPool - 1) := by
  unfold kerSlabAlloc at hrun
  split at hrun
  next jt qs htake =>
    cases hrun
    rw [takeItem_freeSlots htake]
    exact ⟨rfl, rfl⟩
  next htake =>
    have hfull := takeItem_eq_none.mp htake
    rw [hfull]
    split at hrun
    next hz =>
      cases hrun
      exact ⟨by simp [hz], fun hq => absurd hz hq⟩
    next hz =>
      cases hrun
      refine ⟨by simp [hz], fun _ => ?_⟩
      simp only [freeSlots] at hfull
      simp [freeSlots, hfull]

end SlabPools
