import SosKernel.HeapRelease

/-! # The heap as the rest of the kernel sees it

A heap is the list of its allocated blocks: user pointer, owner and guard byte.
Where a new block lands is the allocator's choice, so an allocation takes the
returned pointer as an input (`0` for `NULL`). The second half shows that the
byte-level allocator does exactly this. -/
namespace HeapBlocks

open ByteMemory HeapLayout HeapAreas List

structure Block where
  addr : ℕ
  owner : ℕ
  guard : ℕ
  deriving DecidableEq, Repr

def Block.Intact (b : Block) : Prop := b.owner = b.guard
  deriving Decidable

abbrev Heap := List Block

def addrs (h : Heap) : List ℕ := h.map Block.addr

/-- `ker_malloc` and `malloc_longterm`, for the pointer `p` that the allocator returns. -/
def kerMalloc (h : Heap) (p pid : ℕ) : Heap := if p = 0 then h else ⟨p, pid, pid⟩ :: h

/-- `ker_free`: a block whose guard byte is wrong stays. -/
def kerFree (h : Heap) (p : ℕ) : Heap :=
  if p = 0 then h else h.filter (fun b => ¬ (b.addr = p ∧ b.Intact))

def kerChangeOwn (h : Heap) (p pid : ℕ) : Heap :=
  if pid = nullPid ∨ p = 0 then h
  else h.map (fun b => if b.addr = p ∧ b.Intact then { b with owner := pid, guard := pid } else b)

def memRemoveAll (h : Heap) (pid : ℕ) : Heap := h.filter (fun b => ¬ (b.owner = pid ∧ b.Intact))

variable {h : Heap} {p pid : ℕ} {b : Block} {c : MallocConf} {m m' : Mem} {L l1 l2 : List Area}
  {a : Area} {q size : ℕ} {L' : List Area} {h' : Heap}

lemma mem_kerFree (hp : p ≠ 0) : b ∈ kerFree h p ↔ b ∈ h ∧ ¬ (b.addr = p ∧ b.Intact) := by
  rw [kerFree, if_neg hp, mem_filter, decide_eq_true_eq]

lemma mem_memRemoveAll : b ∈ memRemoveAll h pid ↔ b ∈ h ∧ ¬ (b.owner = pid ∧ b.Intact) := by
  rw [memRemoveAll, mem_filter, decide_eq_true_eq]

lemma mem_kerFree_of_ne (hb : b ∈ h) (hne : b.addr ≠ p) : b ∈ kerFree h p := by
  by_cases hp : p = 0
  · rw [kerFree, if_pos hp]
    exact hb
  · apply (mem_kerFree hp).mpr
    exact ⟨hb, fun hh => hne hh.1⟩

lemma mem_addrs_kerFree (hq : q ∈ addrs h) (hne : q ≠ p) : q ∈ addrs (kerFree h p) := by
  obtain ⟨b, hb, haddr⟩ := mem_map.mp hq
  exact mem_map.mpr ⟨b, mem_kerFree_of_ne hb (haddr ▸ hne), haddr⟩

lemma mem_kerChangeOwn_of_ne (hb : b ∈ h) (hne : b.addr ≠ p) : b ∈ kerChangeOwn h p pid := by
  unfold kerChangeOwn
  split
  · exact hb
  · exact mem_map.mpr ⟨b, hb, if_neg (fun hp => hne hp.1)⟩

lemma addrs_kerChangeOwn (h : Heap) (p pid : ℕ) : addrs (kerChangeOwn h p pid) = addrs h := by
  unfold kerChangeOwn
  split
  · rfl
  · simp only [addrs, map_map]
    apply map_congr_left
    intro b _
    simp only [Function.comp_apply]
    split <;> rfl

lemma mem_kerFree_congr (hsame : ∀ b, b ∈ h' ↔ b ∈ h) (b : Block) :
    b ∈ kerFree h' p ↔ b ∈ kerFree h p := by
  by_cases hp : p = 0
  · simp only [kerFree, if_pos hp, hsame]
  · rw [mem_kerFree hp, mem_kerFree hp, hsame]

lemma addrs_kerMalloc {a owner : ℕ} (ha : a ∈ addrs (kerMalloc h q owner)) :
    a ∈ addrs h ∨ (a = q ∧ q ≠ 0) := by
  by_cases hq : q = 0
  · rw [kerMalloc, if_pos hq] at ha
    exact .inl ha
  · rw [kerMalloc, if_neg hq] at ha
    rcases mem_cons.mp ha with ha | ha
    · exact .inr ⟨ha, hq⟩
    · exact .inl ha

lemma mem_addrs_kerMalloc {a : ℕ} (ha : a ∈ addrs h) (p pid : ℕ) :
    a ∈ addrs (kerMalloc h p pid) := by
  rw [kerMalloc]
  split
  · exact ha
  · exact mem_cons_of_mem _ ha

lemma mem_of_kerFree (hb : b ∈ kerFree h p) : b ∈ h := by
  unfold kerFree at hb
  split at hb
  · exact hb
  · exact mem_of_mem_filter hb

section

variable (hintact : ∀ b ∈ h, b.Intact)
include hintact

lemma mem_addrs_kerFree_iff {a : ℕ} (hp : p ≠ 0) :
    a ∈ addrs (kerFree h p) ↔ a ∈ addrs h ∧ a ≠ p := by
  constructor
  · intro ha
    obtain ⟨b, hb, rfl⟩ := mem_map.mp ha
    obtain ⟨hmem, hno⟩ := (mem_kerFree hp).mp hb
    exact ⟨mem_map_of_mem hmem, fun heq => hno ⟨heq, hintact b hmem⟩⟩
  · rintro ⟨ha, hne⟩
    exact mem_addrs_kerFree ha hne

lemma intact_kerChangeOwn : ∀ b ∈ kerChangeOwn h p pid, b.Intact := by
  unfold kerChangeOwn
  split
  · exact hintact
  · intro b hb
    obtain ⟨b0, hb0, rfl⟩ := mem_map.mp hb
    split
    · rfl
    · exact hintact b0 hb0

lemma intact_kerMalloc : ∀ b ∈ kerMalloc h p pid, b.Intact := by
  unfold kerMalloc
  split
  · exact hintact
  · exact forall_mem_cons.mpr ⟨rfl, hintact⟩

end

lemma kerFree_kerMalloc (hfresh : p ∉ addrs h) : kerFree (kerMalloc h p pid) p = h := by
  by_cases hp : p = 0
  · simp [kerFree, kerMalloc, hp]
  · have hself : h.filter (fun b => ¬ (b.addr = p ∧ b.Intact)) = h := by
      refine filter_eq_self.mpr (fun b hb => ?_)
      have : b.addr ≠ p := fun he => hfresh (mem_map.mpr ⟨b, hb, he⟩)
      simp [this]
    simpa [kerFree, kerMalloc, hp, Block.Intact] using hself

def blockOf (c : MallocConf) (m : Mem) (a : Area) : Block :=
  ⟨userPart c (c.addr a.idx), c.get m (c.addr a.idx) .owner, (m (a.guard c)).toNat⟩

structure Abstracts (c : MallocConf) (m : Mem) (L : List Area) (h : Heap) : Prop where
  represents : Represents c m L
  blocks : ∀ b, b ∈ h ↔ ∃ a ∈ reservedAreas L, blockOf c m a = b

lemma blockOf_congr (hpos : 0 < a.len) (hk : ∀ x, a.Covers c x → m' x = m x) :
    blockOf c m' a = blockOf c m a := by
  have hg := guard_inside (c := c) hpos
  have hguard : m' (a.guard c) = m (a.guard c) := hk _ ⟨by omega, hg.2⟩
  simp only [blockOf, owner_congr hpos hk, hguard]

lemma intact_iff (h : Represents c m L) (ha : a ∈ L) :
    (blockOf c m a).Intact ↔ ¬ corrupted c m (c.addr a.idx) := by
  rw [h.corrupted_iff ha, not_not]
  rfl

lemma reserved_pos (h : Represents c m L) (ha : a ∈ reservedAreas L) : 0 < a.len :=
  (h.tiles.bounds (mem_reservedAreas.mp ha).1).2.2

variable {h : Heap} {id : ℕ}

section

variable (habs : Abstracts c m L h)
include habs

/-- The blocks that `keep` keeps are those of the areas left, and their bytes are kept. -/
lemma Abstracts.filter (keep : Block → Prop)
    (hrep' : Represents c m' L') (hh : ∀ b, b ∈ h' ↔ b ∈ h ∧ keep b)
    (hleft : ∀ e, e ∈ reservedAreas L' ↔ e ∈ reservedAreas L ∧ keep (blockOf c m e))
    (hkept : Keeps c (reservedAreas L') m m') : Abstracts c m' L' h' := by
  have hsame : ∀ e ∈ reservedAreas L', blockOf c m' e = blockOf c m e := fun e he =>
    blockOf_congr (reserved_pos hrep' he) (hkept e he)
  refine ⟨hrep', fun b => ?_⟩
  rw [hh, habs.blocks]
  constructor
  · rintro ⟨⟨e, he, rfl⟩, hk⟩
    have he' := (hleft e).mpr ⟨he, hk⟩
    exact ⟨e, he', hsame e he'⟩
  · rintro ⟨e, he', rfl⟩
    obtain ⟨he, hk⟩ := (hleft e).mp he'
    rw [hsame e he']
    exact ⟨⟨e, he, rfl⟩, hk⟩

lemma abstracts_evolves (hev : Evolves c m L m' L') : Abstracts c m' L' h :=
  habs.filter (fun _ => True) hev.represents (by simp) (by simp [hev.reserved])
    (hev.reserved ▸ hev.kept)

lemma Abstracts.mem_addrs : p ∈ addrs h ↔ ∃ a ∈ reservedAreas L, userPart c (c.addr a.idx) = p := by
  simp [addrs, habs.blocks, blockOf]

/-- The one reserved area behind a user pointer. -/
lemma Abstracts.area_of (hp : p ∈ addrs h) : ∃ l1 a l2, L = l1 ++ a :: l2 ∧
    a.reserved = true ∧ p = userPart c (c.addr a.idx) ∧ ∀ e ∈ reservedAreas L,
      ((blockOf c m e).addr = p ∧ (blockOf c m e).Intact ↔
        e = a ∧ ¬ corrupted c m (c.addr a.idx)) := by
  obtain ⟨a, ha, rfl⟩ := habs.mem_addrs.mp hp
  obtain ⟨hmem, hr⟩ := mem_reservedAreas.mp ha
  have hrep := habs.represents
  have hin := intact_iff hrep hmem
  obtain ⟨l1, l2, rfl⟩ := append_of_mem hmem
  refine ⟨l1, a, l2, rfl, hr, rfl, fun e he => ⟨fun hh => ?_, ?_⟩⟩
  · have hea := hrep.tiles.idx_inj (mem_reservedAreas.mp he).1 hmem (userPart_inj hh.1)
    subst hea
    exact ⟨rfl, hin.mp hh.2⟩
  · rintro ⟨rfl, hc⟩
    exact ⟨rfl, hin.mpr hc⟩

lemma abstracts_allocated (hid : id < 256) (hal : Allocated c m L m' L' a id) :
    userPart c (c.addr a.idx) ∉ addrs h ∧
    Abstracts c m' L' (kerMalloc h (userPart c (c.addr a.idx)) id) := by
  have hnew : blockOf c m' a = ⟨userPart c (c.addr a.idx), id, id⟩ := by
    have howner := hal.owned.owner
    have hguard := hal.owned.guard
    simp [blockOf, howner, hguard, Nat.mod_eq_of_lt hid]
  have hapos := reserved_pos hal.represents ((hal.reserved a).mpr (.inl rfl))
  constructor
  · intro hmem
    obtain ⟨e, he, hea⟩ := habs.mem_addrs.mp hmem
    have hidx : e.idx = a.idx := userPart_inj hea
    have := hal.apart e he
    have := reserved_pos habs.represents he
    omega
  · refine ⟨hal.represents, fun b => ?_⟩
    rw [kerMalloc, if_neg (userPart_ne_zero a.idx), mem_cons, habs.blocks]
    simp only [hal.reserved, or_and_right, exists_or, exists_eq_left, hnew]
    refine or_congr eq_comm (exists_congr (fun e => and_congr_right (fun he => ?_)))
    rw [blockOf_congr (reserved_pos habs.represents he) (hal.kept e he)]

lemma served_refines {run : Option (Mem × ℕ)} (hid : id < 256)
    (hserved : Served c m L size id run) :
    ∃ m' p L', run = some (m', p) ∧ p ∉ addrs h ∧ Abstracts c m' L' (kerMalloc h p id) := by
  obtain ⟨m', p, L', hrun, ⟨rfl, hev⟩ | ⟨a, rfl, hal, -⟩⟩ := hserved
  · refine ⟨m', 0, L', hrun, ?_, abstracts_evolves habs hev⟩
    intro hmem
    obtain ⟨e, -, hea⟩ := habs.mem_addrs.mp hmem
    exact userPart_ne_zero e.idx hea
  · exact ⟨m', _, L', hrun, abstracts_allocated habs hid hal⟩

lemma sosBlkMemFree_refines (hp : p ∈ addrs h) :
    ∃ m' L', sosBlkMemFree c m p = some m' ∧ Abstracts c m' L' (kerFree h p) := by
  obtain ⟨l1, a, l2, rfl, hr, rfl, hat⟩ := habs.area_of hp
  have hrep := habs.represents
  have hp0 : userPart c (c.addr a.idx) ≠ 0 := userPart_ne_zero a.idx
  obtain ⟨m', hrun, ⟨hc, rfl⟩ | ⟨hc, hrep', hkeep⟩⟩ := sosBlkMemFree_spec hrep hr
  · refine ⟨m', _, hrun, habs.filter _ hrep (fun _ => mem_kerFree hp0) (fun e => ?_) (.refl _ _)⟩
    exact ⟨fun he => ⟨he, fun hh => ((hat e he).mp hh).2 hc⟩, And.left⟩
  · have hfreed : reservedAreas (l1 ++ { a with reserved := false } :: l2) =
        reservedAreas (l1 ++ l2) := reservedAreas_without rfl
    refine ⟨m', _, hrun, habs.filter _ hrep' (fun _ => mem_kerFree hp0) (fun e => ?_)
      (hfreed ▸ hkeep)⟩
    rw [hfreed]
    constructor
    · intro he'
      have he : e ∈ reservedAreas (l1 ++ a :: l2) := (mem_reservedAreas_cons hr).mpr (.inr he')
      have hne := ne_of_apart hrep.tiles.pos
        (hrep.tiles.others_apart (mem_reservedAreas.mp he').1)
      exact ⟨he, fun hh => hne ((hat e he).mp hh).1⟩
    · rintro ⟨he, hno⟩
      exact mem_reservedAreas_others he (fun hea => hno ((hat e he).mpr ⟨hea, hc⟩))

lemma sosBlkMemChangeOwn_refines (hid : id < 256) (hp : p ∈ addrs h) :
    Abstracts c (sosBlkMemChangeOwn c m p id).1 L (kerChangeOwn h p id) := by
  obtain ⟨l1, a, l2, rfl, hr, rfl, hat⟩ := habs.area_of hp
  have hrep := habs.represents
  obtain ⟨hrep', hout, ⟨hskip, hsame⟩ | ⟨hdo, howned⟩⟩ := sosBlkMemChangeOwn_spec id hrep hr
  · have hnone : kerChangeOwn h (userPart c (c.addr a.idx)) id = h := by
      unfold kerChangeOwn
      split
      next => rfl
      next hn =>
        refine (map_congr_left fun b hb => ?_).trans (map_id h)
        obtain ⟨e, he, rfl⟩ := (habs.blocks b).mp hb
        exact if_neg (fun hh => hskip.elim (fun h0 => hn (.inl h0.symm)) ((hat e he).mp hh).2)
    rw [hsame, hnone]
    exact habs
  · obtain ⟨hnull, hc⟩ := not_or.mp hdo
    refine ⟨hrep', fun b => ?_⟩
    rw [kerChangeOwn, if_neg (not_or.mpr ⟨Ne.symm hnull, userPart_ne_zero a.idx⟩), mem_map]
    simp only [habs.blocks, exists_exists_and_eq_and]
    refine exists_congr (fun e => and_congr_right (fun he => ?_))
    by_cases hea : e = a
    · subst hea
      have howner := howned.owner
      have hguard := howned.guard
      rw [if_pos ((hat e he).mpr ⟨rfl, hc⟩)]
      simp [blockOf, howner, hguard, Nat.mod_eq_of_lt hid]
    · rw [if_neg (fun hh => hea ((hat e he).mp hh).1)]
      refine Eq.congr_left (blockOf_congr (reserved_pos hrep he) (fun x hx => ?_)).symm
      refine hout x (fun hax => ?_)
      rcases hrep.tiles.disjoint (mem_reservedAreas.mp he).1 (by simp) hea with hd | hd
      · exact addr_not_between hd hx.2 hax.1
      · exact addr_not_between hd hax.2 hx.1

lemma memRemoveAll_refines (id : ℕ) :
    ∃ m' L', HeapLayout.memRemoveAll c m id = some m' ∧
      Abstracts c m' L' (HeapBlocks.memRemoveAll h id) := by
  have hrep := habs.represents
  obtain ⟨m', hrun, hrep', hkeep⟩ := memRemoveAll_spec id hrep
  refine ⟨m', _, hrun, habs.filter _ hrep' (fun _ => mem_memRemoveAll) (fun e => ?_) hkeep⟩
  constructor
  · intro he'
    obtain ⟨hmem', hr⟩ := mem_reservedAreas.mp he'
    obtain ⟨d, hd, rfl⟩ := mem_map.mp hmem'
    have hsame := release_reserved hr
    rw [hsame] at hr ⊢
    refine ⟨mem_reservedAreas.mpr ⟨hd, hr⟩, fun hh => ?_⟩
    have hfreed : release c m id d = { d with reserved := false } :=
      if_pos ⟨hr, hh.1, (intact_iff hrep hd).mp hh.2⟩
    rw [← hsame, hfreed] at hr
    simp at hr
  · rintro ⟨he, hno⟩
    obtain ⟨hmem, hr⟩ := mem_reservedAreas.mp he
    have hsame : release c m id e = e :=
      if_neg (fun hh => hno ⟨hh.2.1, (intact_iff hrep hmem).mpr hh.2.2⟩)
    exact mem_reservedAreas.mpr ⟨mem_map.mpr ⟨e, hmem, hsame⟩, hr⟩

end

end HeapBlocks
