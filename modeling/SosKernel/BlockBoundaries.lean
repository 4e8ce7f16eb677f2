import SosKernel.GuardedRuns
import SosKernel.PointerChain

/-! # The block boundaries of the binary rewriter

`insert_blkbnd` and `find_block` of basicblock.c: a sorted list that ends in `NULL` on both
sides, with a pointer to either end. -/
namespace BlockBoundaries

open List Function GuardedRuns PointerChain

structure State (α : Type*) where
  blk1 : Option α
  blkn : Option α
  cnt : Int
  addr : α → UInt32
  prev : α → Option α
  next : α → Option α

variable {α : Type*} {s t u : State α} {l l1 l2 : List α} {b : α} {a : UInt32} {fuel : ℕ}
  {es : List (α × UInt32)}

/-- The list of blocks, from `blk_n` down to `blk_1`. -/
structure Listed (s : State α) (l : List α) : Prop where
  bwd : Chain s.prev s.blkn l
  fwd : Chain s.next s.blk1 l.reverse
  sorted : (l.map s.addr).Pairwise (· > ·)

/-- What calls that insert the addresses `as` do to a list. -/
structure Grown (s u : State α) (l l' : List α) (as : List UInt32) : Prop where
  listed : Listed u l'
  length : l'.length ≤ l.length + as.length
  keeps : ∀ b ∈ l, b ∈ l' ∧ u.addr b = s.addr b
  addrs : ∀ a, a ∈ l'.map u.addr ↔ a ∈ l.map s.addr ∨ a ∈ as

lemma Listed.grown (h : Listed s l) (hl : l = l1 ++ l2) (ha : s.addr b = a)
    (h1 : ∀ c ∈ l1, a < s.addr c) (h2 : ∀ c ∈ l2, s.addr c < a) (haddr : u.addr = s.addr)
    (hp : Chain u.prev u.blkn (l1 ++ b :: l2)) (hn : Chain u.next u.blk1 (l1 ++ b :: l2).reverse) :
    Grown s u l (l1 ++ b :: l2) [a] := by
  subst hl
  refine ⟨⟨hp, hn, ?_⟩, by grind, by grind, by grind⟩
  have hs := h.sorted
  simp only [haddr, map_append, map_cons, pairwise_append, pairwise_cons, forall_mem_map,
    forall_mem_cons, ha] at hs ⊢
  exact ⟨hs.1, ⟨h2, hs.2.1⟩, fun c hc => ⟨h1 c hc, hs.2.2 c hc⟩⟩

lemma Listed.nodup (h : Listed s l) : (l.map s.addr).Nodup := by
  refine h.sorted.imp ?_
  rintro y _ hlt rfl
  exact UInt32.lt_irrefl _ hlt

lemma Listed.find_eq (h : Listed s l) (hfuel : l.length ≤ fuel) (test : α → Bool) :
    find s.next test fuel s.blk1 = some (l.reverse.find? test) :=
  find_spec h.fwd (by rwa [length_reverse])

def findBlock (fuel : ℕ) (s : State α) (a : UInt32) : Option (Option α) :=
  find s.next (fun b => s.addr b = a) fuel s.blk1

lemma Listed.findBlock_iff (h : Listed s l) (hfuel : l.length ≤ fuel) :
    findBlock fuel s a = some (some b) ↔ b ∈ l ∧ s.addr b = a := by
  have hnodup : (l.reverse.map s.addr).Nodup := by
    rw [map_reverse, nodup_reverse]
    exact h.nodup
  rw [findBlock, h.find_eq hfuel, Option.some_inj, find_key_eq_some hnodup, mem_reverse]

variable [DecidableEq α]

/-- `none` is a dereferenced `NULL` or a loop that ran out of fuel. -/
def insertBlkbnd (fuel : ℕ) (m : State α) (newblk : α) (a : UInt32) : Option (State α) := do
  let s := { m with addr := update m.addr newblk a }
  if s.blk1 = none ∧ s.blkn = none then
    return { s with
      blk1 := some newblk, blkn := some newblk
      prev := update s.prev newblk none, next := update s.next newblk none }
  let last ← s.blkn
  match ← find s.prev (fun b => s.addr b ≤ a) fuel (some last) with
  | none =>
    let first ← s.blk1
    return { s with
      blk1 := some newblk, cnt := s.cnt + 1, next := update s.next newblk (some first)
      prev := update (update s.prev newblk none) first (some newblk) }
  | some currblk =>
    if s.addr currblk = a then return s
    if currblk = last then
      return { s with
        blkn := some newblk, cnt := s.cnt + 1, prev := update s.prev newblk (some last)
        next := update (update s.next last (some newblk)) newblk none }
    let n ← s.next currblk
    return { s with
      cnt := s.cnt + 1, next := update (update s.next newblk (some n)) currblk (some newblk)
      prev := update (update s.prev newblk (some currblk)) n (some newblk) }

/-- A call: the block that `malloc` returns, and the address. -/
def step (fuel : ℕ) (s : State α) (e : α × UInt32) : Option (State α) := insertBlkbnd fuel s e.1 e.2

/-- `malloc` does not return a block of the list. -/
abbrev Fresh (fuel : ℕ) (s : State α) (e : α × UInt32) : Prop :=
  find s.next (fun b => b = e.1) fuel s.blk1 = some none

lemma Listed.not_mem (h : Listed s l) (hfuel : l.length ≤ fuel) (hf : Fresh fuel s (b, a)) :
    b ∉ l := by
  rw [Fresh, h.find_eq hfuel, Option.some_inj, find?_eq_none] at hf
  exact fun hb => hf b (mem_reverse.mpr hb) (by simp)

lemma update_listed {β : Type*} {f : α → β} {v : β} (hb : b ∉ l) : ∀ c ∈ l, update f b v c = f c :=
  fun c hc => update_of_ne (fun he : c = b => hb (he ▸ hc)) ..

lemma Listed.insert (h : Listed s l) (hfuel : l.length ≤ fuel) (hb : b ∉ l) :
    ∃ u l', insertBlkbnd fuel s b a = some u ∧ Grown s u l l' [a] := by
  unfold insertBlkbnd
  -- the address is stored first, in a block that is not in the list
  extract_lets t
  have hkept : ∀ c ∈ l, t.addr c = s.addr c := update_listed hb
  have hmap := map_congr_left hkept
  have ht : Listed t l := ⟨h.bwd, h.fwd, hmap ▸ h.sorted⟩
  have ha : t.addr b = a := update_self ..
  suffices hs : ∃ u l', _ = some u ∧ Grown t u l l' [a] by
    obtain ⟨u, l', hrun, hg⟩ := hs
    refine ⟨u, l', hrun, hg.listed, hg.length, fun c hc => ?_, fun y => ?_⟩
    · exact (hg.keeps c hc).imp_right (·.trans (hkept c hc))
    · rw [hg.addrs, hmap]
  clear_value t
  have hd : (b :: l).Nodup := nodup_cons.mpr ⟨hb, ht.nodup.of_map⟩
  have hdr := ((reverse_perm l).cons b).nodup_iff.mpr hd
  have hbwd := ht.bwd
  have hfwd := ht.fwd
  have hfind : find t.prev (fun c => t.addr c ≤ a) fuel t.blkn = _ := find_spec hbwd hfuel
  cases hl : t.blkn with
  | none =>
    obtain rfl : l = [] := hbwd.unique hl
    have hf : t.blk1 = none := hfwd
    simp only [hf]
    refine ⟨_, _, rfl, ht.grown (show [] = [] ++ [] from rfl) ha (by simp) (by simp) rfl ?_ ?_⟩
    all_goals exact ⟨rfl, update_self ..⟩
  | some last =>
    rw [hl] at hfind hbwd
    simp only [reduceCtorEq, and_false, if_false, Option.bind_eq_bind, Option.bind_some, hfind]
    cases hf : l.find? (fun c => t.addr c ≤ a) with
    | none =>
      have h1 : ∀ c ∈ l, a < t.addr c := by simpa using hf
      rcases l.eq_nil_or_concat' with rfl | ⟨l, n, rfl⟩
      · cases hbwd
      rw [reverse_concat] at hfwd hdr
      have hn : t.prev n = none := hbwd.tail
      simp only [hfwd.1]
      refine ⟨_, _, rfl, ht.grown (append_nil _).symm ha h1 (by simp) rfl ?_ ?_⟩
      · simpa [hn] using hbwd.insert_after hd
      · rw [reverse_concat, reverse_concat]
        exact hfwd.push (by simp [hfwd.1]) (update_listed (nodup_cons.mp hdr).1)
    | some c =>
      obtain ⟨hle, l1, l2, rfl, hgt⟩ := find?_eq_some_iff_append.mp hf
      simp only [decide_eq_true_eq] at hle ⊢
      by_cases heq : t.addr c = a
      · rw [if_pos heq]
        exact ⟨_, _, rfl, ht, by simp, fun _ hc => ⟨hc, rfl⟩, by grind⟩
      have h1 : ∀ d ∈ l1, a < t.addr d := by simpa using hgt
      have hca : t.addr c < a := UInt32.lt_of_le_of_ne hle heq
      have h2 : ∀ d ∈ c :: l2, t.addr d < a := by
        have hs := ht.sorted
        simp only [map_append, map_cons, pairwise_append, pairwise_cons, forall_mem_map] at hs
        exact forall_mem_cons.mpr ⟨hca, fun d hm => UInt32.lt_trans (hs.2.1.1 d hm) hca⟩
      rw [if_neg heq]
      simp only [reverse_append, reverse_cons, append_assoc, singleton_append] at hfwd hdr
      have hafter := hfwd.insert_after hdr
      rcases l1.eq_nil_or_concat' with rfl | ⟨l1, n, rfl⟩
      · obtain rfl : last = c := Option.some.inj hbwd.1
        have hn : t.next last = none := hfwd.tail
        simp only [if_true]
        refine ⟨_, _, rfl, ht.grown rfl ha h1 h2 rfl ?_ ?_⟩
        · exact hbwd.push (by simp) (update_listed hb)
        · rw [update_comm (by grind)]
          simpa [hn] using hafter
      · simp only [append_assoc, singleton_append] at hbwd hd
        have hp : t.prev n = some c := hbwd.tail.1
        rw [reverse_concat] at hfwd
        have hn : t.next c = some n := hfwd.tail.1
        have hlast : c ≠ last := by
          rintro rfl
          obtain ⟨l', he⟩ := hbwd.eq_cons
          have hm : c ∈ l1 ++ [n] := by cases l1 <;> simp_all
          exact UInt32.lt_irrefl _ (UInt32.lt_trans (h1 c hm) hca)
        simp only [hlast, if_false, hn]
        refine ⟨_, _, rfl, ht.grown rfl ha h1 h2 rfl ?_ ?_⟩
        · simpa [hp] using hbwd.insert_after hd
        · simpa [hn] using hafter

lemma run_grown (h : Listed s l) (hv : ValidTrace (step fuel) (Fresh fuel) s es)
    (hfuel : l.length + es.length ≤ fuel) :
    ∃ u l', runTrace (step fuel) s es = some u ∧ Grown s u l l' (es.map Prod.snd) := by
  induction es generalizing s l with
  | nil => exact ⟨s, l, rfl, h, by simp, by simp, by simp⟩
  | cons e es ih =>
    rw [length_cons] at hfuel
    have hle : l.length ≤ fuel := by omega
    obtain ⟨v, l1, hrun, hg⟩ := h.insert (a := e.2) hle (h.not_mem hle hv.1)
    have hs : step fuel s e = some v := hrun
    have hlen : l1.length ≤ l.length + 1 := hg.length
    obtain ⟨u, l', hrun', hg'⟩ := ih hg.listed (by simpa [ValidTrace, hs] using hv.2) (by omega)
    refine ⟨u, l', by simp [runTrace, hs, hrun'], hg'.listed, ?_, fun b hb => ?_, fun a => ?_⟩
    · have := hg'.length
      simp only [map_cons, length_cons]
      omega
    · obtain ⟨hb1, ha1⟩ := hg.keeps b hb
      exact (hg'.keeps b hb1).imp_right (·.trans ha1)
    · rw [hg'.addrs, hg.addrs]
      simp [or_assoc]

/-- From any list, the empty one included, the calls lead to a list of the addresses there were and
those inserted. Each block there was stays, and `find_block` finds the blocks of the list. -/
theorem boundaries_over_runs (fuel : ℕ) (s : State α) (l : List α) (es : List (α × UInt32))
    (h : Listed s l) (hv : ValidTrace (step fuel) (Fresh fuel) s es)
    (hfuel : l.length + es.length ≤ fuel) :
    ∃ u l', runTrace (step fuel) s es = some u ∧ Grown s u l l' (es.map Prod.snd) ∧
      (∀ a b, findBlock fuel u a = some (some b) ↔ b ∈ l' ∧ u.addr b = a) ∧
      ∀ a, findBlock fuel u a = some none ↔ a ∉ l'.map u.addr := by
  obtain ⟨u, l', hrun, hg⟩ := run_grown h hv hfuel
  have hlen := hg.length
  rw [length_map] at hlen
  have hle : l'.length ≤ fuel := Nat.le_trans hlen hfuel
  refine ⟨u, l', hrun, hg, fun a b => hg.listed.findBlock_iff hle, fun a => ?_⟩
  rw [findBlock, hg.listed.find_eq hle]
  simp

def empty : State ℕ := ⟨none, none, 0, fun _ => 0, fun _ => none, fun _ => none⟩

theorem boundaries_of_four_calls :
    ∃ u l, runTrace (step 4) empty [(0, 6), (1, 2), (2, 6), (2, 4)] = some u ∧ Listed u l ∧
      ∀ a, a ∈ l.map u.addr ↔ a ∈ [6, 2, 6, 4] := by
  obtain ⟨u, l, hrun, hg, -⟩ := boundaries_over_runs 4 empty []
    [(0, 6), (1, 2), (2, 6), (2, 4)] ⟨rfl, rfl, .nil⟩ (by decide) (by decide)
  exact ⟨u, l, hrun, hg.listed, by simpa using hg.addrs⟩

end BlockBoundaries
