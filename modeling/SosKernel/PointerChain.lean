import Mathlib.Data.List.Nodup

/-! # Singly linked lists that end in `NULL`

`none` is the null pointer. The loops over such a list take fuel, and `none` as a
result means that it ran out; on a `Chain` the length of the list is enough. -/
namespace PointerChain

open List Option Function

variable {α : Type*} {nxt nxt' : α → Option α} {test : α → Bool} {p : Option α} {a : α}
  {l l1 l2 : List α} {fuel : ℕ} {prev : Option α} {q : α}

/-- From the pointer `p` the links meet exactly the nodes of the list. -/
def Chain (nxt : α → Option α) : Option α → List α → Prop
  | p, [] => p = none
  | p, a :: l => p = some a ∧ Chain nxt (nxt a) l

def collect (nxt : α → Option α) : ℕ → Option α → Option (List α)
  | _, none => some []
  | 0, some _ => none
  | fuel + 1, some a => (collect nxt fuel (nxt a)).map (a :: ·)

def find (nxt : α → Option α) (test : α → Bool) : ℕ → Option α → Option (Option α)
  | _, none => some none
  | 0, some _ => none
  | fuel + 1, some a => if test a then some (some a) else find nxt test fuel (nxt a)

def findPrev (nxt : α → Option α) (test : α → Bool) :
    ℕ → Option α → Option α → Option (Option α × Option α)
  | _, prev, none => some (prev, none)
  | 0, _, some _ => none
  | fuel + 1, prev, some a =>
    if test a then some (prev, some a) else findPrev nxt test fuel (some a) (nxt a)

lemma Chain.eq_cons (h : Chain nxt (some a) l) : ∃ l', l = a :: l' := by
  cases l with
  | nil => cases h
  | cons b l => exact ⟨l, by rw [some.inj h.1]⟩

lemma Chain.tail (h : Chain nxt p (l1 ++ a :: l2)) : Chain nxt (nxt a) l2 := by
  induction l1 generalizing p with
  | nil => exact h.2
  | cons b l1 ih => exact ih h.2

lemma chain_of_collect (h : collect nxt fuel p = some l) : Chain nxt p l := by
  induction fuel generalizing p l with
  | zero =>
    cases p with
    | none =>
      cases h
      rfl
    | some a => cases h
  | succ fuel ih =>
    cases p with
    | none =>
      cases h
      rfl
    | some a =>
      obtain ⟨rest, hrest, rfl⟩ := map_eq_some_iff.mp h
      exact ⟨rfl, ih hrest⟩

lemma findPrev_spec (h : Chain nxt p (l1 ++ a :: l2))
    (hno : ∀ b ∈ l1, test b = false) (ha : test a = true) (hfuel : l1.length < fuel) :
    findPrev nxt test fuel prev p = some (l1.getLast?.or prev, some a) := by
  induction l1 generalizing p prev fuel with
  | nil =>
    obtain ⟨fuel, rfl⟩ := Nat.exists_eq_add_of_lt hfuel
    rw [h.1]
    exact if_pos ha
  | cons b l1 ih =>
    cases fuel with
    | zero => simp at hfuel
    | succ fuel =>
      have hb := hno b (by simp)
      rw [h.1, findPrev, if_neg (by simp [hb]),
        ih h.2 (fun d hd => hno d (mem_cons_of_mem _ hd)) (by simpa using hfuel)]
      cases l1 with
      | nil => rfl
      | cons d l1 => simp [getLast?_cons]

section

variable (h : Chain nxt p l)
include h

lemma Chain.congr (hn : ∀ b ∈ l, nxt' b = nxt b) : Chain nxt' p l := by
  induction l generalizing p with
  | nil => exact h
  | cons a l ih =>
    refine ⟨h.1, ?_⟩
    rw [hn a (by simp)]
    exact ih h.2 (fun b hb => hn b (mem_cons_of_mem _ hb))

lemma Chain.unique (h' : Chain nxt p l1) : l = l1 := by
  induction l generalizing p l1 with
  | nil =>
    cases l1 with
    | nil => rfl
    | cons b l1 => cases h.symm.trans h'.1
  | cons a l ih =>
    cases l1 with
    | nil => cases h'.symm.trans h.1
    | cons b l1 =>
      have hab : a = b := some.inj (h.1.symm.trans h'.1)
      subst hab
      rw [ih h.2 h'.2]

lemma Chain.push (ha : nxt' a = p) (hn : ∀ b ∈ l, nxt' b = nxt b) :
    Chain nxt' (some a) (a :: l) :=
  ⟨rfl, ha ▸ h.congr hn⟩

lemma collect_spec (hfuel : l.length ≤ fuel) : collect nxt fuel p = some l := by
  induction l generalizing p fuel with
  | nil => rw [h]; cases fuel <;> rfl
  | cons a l ih =>
    cases fuel with
    | zero => simp at hfuel
    | succ fuel =>
      rw [h.1, collect, ih h.2 (by simpa using hfuel)]
      rfl

lemma find_spec (hfuel : l.length ≤ fuel) :
    find nxt test fuel p = some (l.find? test) := by
  induction l generalizing p fuel with
  | nil => rw [h]; cases fuel <;> rfl
  | cons a l ih =>
    cases fuel with
    | zero => simp at hfuel
    | succ fuel =>
      rw [h.1, find]
      by_cases ht : test a = true
      · rw [if_pos ht, find?_cons_of_pos ht]
      · rw [if_neg ht, find?_cons_of_neg ht]
        exact ih h.2 (by simpa using hfuel)

lemma findPrev_none (hno : ∀ b ∈ l, test b = false)
    (hfuel : l.length ≤ fuel) : ∃ q, findPrev nxt test fuel prev p = some (q, none) := by
  induction l generalizing p prev fuel with
  | nil => rw [h]; cases fuel <;> exact ⟨prev, rfl⟩
  | cons a l ih =>
    cases fuel with
    | zero => simp at hfuel
    | succ fuel =>
      rw [h.1, findPrev, if_neg (by simp [hno a (by simp)])]
      exact ih h.2 (fun b hb => hno b (mem_cons_of_mem _ hb)) (by simpa using hfuel)

/-- A search behind the node `b`: no node satisfies the test, or one does and the node before it,
perhaps `b` itself, is found with it. -/
lemma findPrev_behind {b : α} (hfuel : l.length ≤ fuel) :
    (∃ q, findPrev nxt test fuel (some b) p = some (q, none) ∧ ∀ a ∈ l, test a = false) ∨
      ∃ l0 q t l2, b :: l = l0 ++ q :: t :: l2 ∧ test t = true ∧
        findPrev nxt test fuel (some b) p = some (some q, some t) := by
  cases hf : l.find? test with
  | none =>
    have hno : ∀ a ∈ l, test a = false := by simpa using hf
    obtain ⟨q, hq⟩ := findPrev_none h hno hfuel
    exact .inl ⟨q, hq, hno⟩
  | some t =>
    obtain ⟨ht, l1, l2, rfl, hno⟩ := find?_eq_some_iff_append.mp hf
    have hlen : l1.length < fuel := by
      rw [length_append, length_cons] at hfuel
      omega
    have hstop : findPrev nxt test fuel (some b) p = some (l1.getLast?.or (some b), some t) :=
      findPrev_spec h (by simpa using hno) ht hlen
    -- the last of the nodes passed, `b` included
    obtain ⟨q, hq⟩ : ∃ q, (b :: l1).getLast? = some q := isSome_iff_exists.mp (by simp)
    have hlast : l1.getLast?.or (some b) = some q := by
      rw [← hq, getLast?_cons]
      cases l1.getLast? <;> rfl
    obtain ⟨l0, hl0⟩ := getLast?_eq_some_iff.mp hq
    refine .inr ⟨l0, q, t, l2, ?_, ht, by rw [hstop, hlast]⟩
    rw [← cons_append, hl0, append_assoc, singleton_append]

end

lemma Chain.unlink_head (h : Chain nxt p (a :: l)) : Chain nxt (nxt a) l := h.2

lemma Chain.unlink_after [DecidableEq α] (h : Chain nxt p (l1 ++ q :: a :: l2))
    (hd : (l1 ++ q :: a :: l2).Nodup) : Chain (update nxt q (nxt a)) p (l1 ++ q :: l2) := by
  induction l1 generalizing p with
  | nil =>
    refine ⟨h.1, ?_⟩
    rw [update_self]
    refine h.2.2.congr (fun b hb => update_of_ne ?_ _ _)
    rintro rfl
    simp [hb] at hd
  | cons b l1 ih =>
    have hb : b ≠ q := by
      rintro rfl
      simp at hd
    refine ⟨h.1, ?_⟩
    rw [update_of_ne hb]
    exact ih h.2 (nodup_cons.mp hd).2

lemma find_key_eq_some {β : Type*} [DecidableEq β] {f : α → β} (hnodup : (l.map f).Nodup) {b : β} :
    l.find? (fun x => f x = b) = some a ↔ a ∈ l ∧ f a = b := by
  constructor
  · intro hf
    exact ⟨mem_of_find?_eq_some hf, by simpa using find?_some hf⟩
  · rintro ⟨ha, hkey⟩
    cases hf : l.find? (fun x => f x = b) with
    | none =>
      have hnone := find?_eq_none.mp hf a ha
      simp [hkey] at hnone
    | some c =>
      have hc : f c = b := by simpa using find?_some hf
      have hmem := mem_of_find?_eq_some hf
      rw [inj_on_of_nodup_map hnodup hmem ha (hc.trans hkey.symm)]

lemma Chain.insert_after [DecidableEq α] (h : Chain nxt p (l1 ++ q :: l2))
    (hd : (a :: (l1 ++ q :: l2)).Nodup) :
    Chain (update (update nxt a (nxt q)) q (some a)) p (l1 ++ q :: a :: l2) := by
  induction l1 generalizing p with
  | nil =>
    refine ⟨h.1, by simp, ?_⟩
    rw [update_of_ne (by simp_all), update_self]
    refine h.2.congr (fun b hb => ?_)
    rw [update_of_ne, update_of_ne] <;> grind
  | cons b l1 ih =>
    refine ⟨h.1, ?_⟩
    rw [update_of_ne, update_of_ne]
    · exact ih h.2 (hd.sublist ((sublist_cons_self ..).cons_cons a))
    · grind
    · grind

lemma Chain.append_last [DecidableEq α] (h : Chain nxt p (l ++ [q]))
    (hd : (l ++ [q]).Nodup) (hnew : a ∉ l ++ [q]) (hend : nxt a = none) :
    Chain (update nxt q (some a)) p (l ++ [q] ++ [a]) := by
  have hnone : nxt q = none := h.tail
  rw [append_assoc]
  simpa [hnone, ← hend] using h.insert_after (nodup_cons.mpr ⟨hnew, hd⟩)

end PointerChain
