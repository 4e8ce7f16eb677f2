import SosKernel.PointerChain

/-! # Hash tables with chained bins

Each bin is a linked list of nodes, and a node's key decides its bin. No key is there twice. -/
namespace ChainedBins

open PointerChain List Function

variable {α κ ι : Type*} {hash : κ → ι} {key key' : α → κ} {nxt nxt' : α → Option α}
  {head head' : ι → Option α} {lists : ι → List α} {a b : α} {i j : ι} {k : κ} {l1 l2 : List α}

/-- From `head i` the links meet the nodes `lists i`, all of them with keys of the bin `i`. -/
structure Bins (hash : κ → ι) (key : α → κ) (nxt : α → Option α) (head : ι → Option α)
    (lists : ι → List α) : Prop where
  chain : ∀ i, Chain nxt (head i) (lists i)
  hashed : ∀ i, ∀ a ∈ lists i, hash (key a) = i
  unique : ∀ i, ((lists i).map key).Nodup

def lookup [DecidableEq κ] (hash : κ → ι) (key : α → κ) (lists : ι → List α) (k : κ) : Option α :=
  (lists (hash k)).find? (fun a => key a = k)

section

variable (h : Bins hash key nxt head lists)
include h

lemma Bins.nodup (i : ι) : (lists i).Nodup := List.Nodup.of_map key (h.unique i)

lemma Bins.bin_eq (hi : a ∈ lists i) (hj : a ∈ lists j) : i = j :=
  (h.hashed i a hi).symm.trans (h.hashed j a hj)

lemma Bins.eq_of_key (ha : a ∈ lists i) (hb : b ∈ lists i) (hkey : key a = key b) : a = b :=
  inj_on_of_nodup_map (h.unique i) ha hb hkey

lemma Bins.congr (hkey : ∀ i, ∀ a ∈ lists i, key' a = key a) : Bins hash key' nxt head lists := by
  refine ⟨h.chain, fun i a ha => ?_, fun i => ?_⟩
  · rw [hkey i a ha]
    exact h.hashed i a ha
  · rw [map_congr_left (hkey i)]
    exact h.unique i

end

section Lookup

variable [DecidableEq κ]

lemma Bins.lookup_eq_some (h : Bins hash key nxt head lists) :
    lookup hash key lists k = some a ↔ a ∈ lists (hash k) ∧ key a = k := by
  constructor
  · intro hfind
    have hkey := find?_some hfind
    exact ⟨mem_of_find?_eq_some hfind, of_decide_eq_true hkey⟩
  · rintro ⟨hmem, hkey⟩
    cases hfind : lookup hash key lists k with
    | none =>
      have hnone := find?_eq_none.mp hfind a hmem
      exact absurd (decide_eq_true hkey) hnone
    | some b =>
      have hb := mem_of_find?_eq_some hfind
      have htest := find?_some hfind
      have hkeyb : key b = k := of_decide_eq_true htest
      rw [h.eq_of_key hb hmem (hkeyb.trans hkey.symm)]

lemma lookup_eq_none : lookup hash key lists k = none ↔ ∀ a ∈ lists (hash k), key a ≠ k := by
  simp [lookup]

lemma lookup_congr (hkey : ∀ i, ∀ a ∈ lists i, key' a = key a) (k : κ) :
    lookup hash key' lists k = lookup hash key lists k := by
  have hfilter : (lists (hash k)).filter (fun a => key' a = k) =
      (lists (hash k)).filter (fun a => key a = k) := by
    apply filter_congr
    intro a ha
    rw [hkey _ a ha]
  simp only [lookup, ← head?_filter, hfilter]

variable [DecidableEq ι]

lemma Bins.push [DecidableEq α] (h : Bins hash key nxt head lists) (hnew : ∀ i, a ∉ lists i)
    (hk : lookup hash key lists k = none) (hself : key' a = k)
    (hkey : ∀ b, b ≠ a → key' b = key b) :
    Bins hash key' (update nxt a (head (hash k)))
      (update head (hash k) (some a))
      (update lists (hash k) (a :: lists (hash k))) := by
  have hne : ∀ i, ∀ b ∈ lists i, b ≠ a := fun i b hb => ne_of_mem_of_not_mem hb (hnew i)
  have hold := h.congr (fun i b hb => hkey b (hne i b hb))
  have hsame : ∀ i, ∀ b ∈ lists i, update nxt a (head (hash k)) b = nxt b :=
    fun i b hb => update_of_ne (hne i b hb) _ _
  refine ⟨fun i => ?_, fun i b hb => ?_, fun i => ?_⟩
  · by_cases hi : i = hash k
    · subst hi
      simp only [update_self]
      exact (h.chain _).push (update_self ..) (hsame _)
    · simp only [update_of_ne hi]
      exact (h.chain i).congr (hsame i)
  · by_cases hi : i = hash k
    · subst hi
      rw [update_self] at hb
      rcases mem_cons.mp hb with rfl | hb
      · rw [hself]
      · exact hold.hashed _ b hb
    · rw [update_of_ne hi] at hb
      exact hold.hashed i b hb
  · by_cases hi : i = hash k
    · subst hi
      rw [update_self, map_cons, hself]
      apply nodup_cons.mpr
      refine ⟨fun hmem => ?_, hold.unique _⟩
      obtain ⟨b, hb, hbk⟩ := mem_map.mp hmem
      rw [hkey b (hne _ b hb)] at hbk
      exact lookup_eq_none.mp hk b hb hbk
    · rw [update_of_ne hi]
      exact hold.unique i

lemma lookup_push [DecidableEq α] (hnew : ∀ i, a ∉ lists i) (hself : key' a = k)
    (hkey : ∀ b, b ≠ a → key' b = key b) (k' : κ) :
    lookup hash key' (update lists (hash k) (a :: lists (hash k))) k' =
      if k' = k then some a else lookup hash key lists k' := by
  have hold : ∀ i, ∀ b ∈ lists i, key' b = key b :=
    fun i b hb => hkey b (ne_of_mem_of_not_mem hb (hnew i))
  have hcongr : lookup hash key' lists k' = lookup hash key lists k' := lookup_congr hold k'
  by_cases heq : k' = k
  · subst heq
    simp [lookup, hself]
  · rw [if_neg heq, ← hcongr]
    by_cases hi : hash k' = hash k
    · have hne : key' a ≠ k' := fun hak => heq (hak.symm.trans hself)
      simp [lookup, hi, hne]
    · simp [lookup, update_of_ne hi]

omit [DecidableEq κ] in
lemma mem_push {i : ι} :
    (∃ j, b ∈ update lists i (a :: lists i) j) ↔ (∃ j, b ∈ lists j) ∨ b = a := by
  have hone : ∀ j, b ∈ update lists i (a :: lists i) j ↔ b ∈ lists j ∨ j = i ∧ b = a := by
    intro j
    by_cases hj : j = i
    · subst hj
      rw [update_self, mem_cons, or_comm, and_iff_right rfl]
    · simp [hj]
  simp only [hone, exists_or, exists_and_right, exists_eq, true_and]

def unlinkHead [DecidableEq α] (nxt : α → Option α) (head : ι → Option α) (i : ι) (a : α) :
    ι → Option α :=
  if head i = some a then update head i (nxt a) else head

def unlinkNext [DecidableEq α] (nxt : α → Option α) (head : ι → Option α) (i : ι) (prev a : α) :
    α → Option α :=
  if head i = some a then nxt else update nxt prev (nxt a)

omit [DecidableEq κ] in
lemma Bins.unlink [DecidableEq α] {prev : α} (h : Bins hash key nxt head lists)
    (hi : lists i = l1 ++ a :: l2) (hprev : l1 = [] ∨ l1.getLast? = some prev) :
    Bins hash key (unlinkNext nxt head i prev a) (unlinkHead nxt head i a)
      (update lists i (l1 ++ l2)) := by
  have hsub : (l1 ++ l2).Sublist (lists i) := by
    rw [hi]
    exact Sublist.append_left (sublist_cons_self a l2) l1
  have hchain := h.chain i
  have hnodup := h.nodup i
  rw [hi] at hchain hnodup
  refine ⟨fun j => ?_, fun j b hb => ?_, fun j => ?_⟩
  · rcases hprev with rfl | hlast
    · have hhead : head i = some a := hchain.1
      simp only [unlinkNext, unlinkHead, if_pos hhead]
      by_cases hj : j = i
      · subst hj
        simp only [update_self]
        exact hchain.2
      · simp only [update_of_ne hj]
        exact h.chain j
    · obtain ⟨l, rfl⟩ := getLast?_eq_some_iff.mp hlast
      rw [append_assoc, singleton_append] at hchain hnodup
      have hhead : head i ≠ some a := by
        intro heq
        cases l with
        | nil =>
          obtain rfl : prev = a := Option.some.inj (hchain.1.symm.trans heq)
          simp at hnodup
        | cons b l =>
          obtain rfl : b = a := Option.some.inj (hchain.1.symm.trans heq)
          simp at hnodup
      simp only [unlinkNext, unlinkHead, if_neg hhead]
      by_cases hj : j = i
      · subst hj
        simp only [update_self, append_assoc, singleton_append]
        exact hchain.unlink_after hnodup
      · simp only [update_of_ne hj]
        apply (h.chain j).congr
        intro b hb
        apply update_of_ne
        rintro rfl
        exact hj (h.bin_eq hb (show b ∈ lists i by simp [hi]))
  · by_cases hj : j = i
    · subst hj
      rw [update_self] at hb
      exact h.hashed j b (hsub.subset hb)
    · rw [update_of_ne hj] at hb
      exact h.hashed j b hb
  · by_cases hj : j = i
    · subst hj
      rw [update_self]
      exact (h.unique j).sublist (hsub.map key)
    · rw [update_of_ne hj]
      exact h.unique j

omit [DecidableEq κ] in
lemma Bins.mem_bin_unlink (h : Bins hash key nxt head lists) (hi : lists i = l1 ++ a :: l2)
    {j : ι} : b ∈ update lists i (l1 ++ l2) j ↔ b ∈ lists j ∧ b ≠ a := by
  by_cases hj : j = i
  · subst hj
    have hnodup := h.nodup j
    rw [hi] at hnodup
    have hnot : a ∉ l1 ++ l2 := (nodup_cons.mp (nodup_middle.mp hnodup)).1
    rw [update_self, hi, perm_middle.mem_iff, mem_cons]
    constructor
    · exact fun hb => ⟨.inr hb, ne_of_mem_of_not_mem hb hnot⟩
    · exact fun hb => hb.1.resolve_left hb.2
  · rw [update_of_ne hj]
    refine ⟨fun hb => ⟨hb, ?_⟩, And.left⟩
    rintro rfl
    exact hj (h.bin_eq hb (show b ∈ lists i by simp [hi]))

omit [DecidableEq κ] in
lemma Bins.mem_unlink (h : Bins hash key nxt head lists) (hi : lists i = l1 ++ a :: l2) :
    (∃ j, b ∈ update lists i (l1 ++ l2) j) ↔ (∃ j, b ∈ lists j) ∧ b ≠ a := by
  simp only [h.mem_bin_unlink hi, exists_and_right]

lemma lookup_unlink [DecidableEq α] {prev : α} (h : Bins hash key nxt head lists)
    (hi : lists i = l1 ++ a :: l2) (hprev : l1 = [] ∨ l1.getLast? = some prev) (k' : κ) :
    lookup hash key (update lists i (l1 ++ l2)) k' =
      if k' = key a then none else lookup hash key lists k' := by
  apply Option.ext
  intro b
  rw [(h.unlink hi hprev).lookup_eq_some, h.mem_bin_unlink hi]
  by_cases heq : k' = key a
  · subst heq
    have ha : a ∈ lists i := by simp [hi]
    rw [h.hashed i a ha]
    simp only [if_true, reduceCtorEq, iff_false]
    rintro ⟨⟨hb, hne⟩, hkey⟩
    exact hne (h.eq_of_key hb ha hkey)
  · rw [if_neg heq, h.lookup_eq_some]
    refine ⟨fun hb => ⟨hb.1.1, hb.2⟩, fun hb => ⟨⟨hb.1, ?_⟩, hb.2⟩⟩
    rintro rfl
    exact heq hb.2.symm

end Lookup

end ChainedBins
