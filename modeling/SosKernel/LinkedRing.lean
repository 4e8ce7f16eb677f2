import Mathlib.Data.List.Nodup

/-! # Circular doubly linked lists

A ring is threaded through two link functions and closed by a sentinel. -/
namespace LinkedRing

open List

variable {α : Type*} {nxt prv nxt' prv' : α → α} {x y b s : α} {l l1 l2 : List α} {n : α}

/-- The nodes `l` lie between `x` and `y`, and neighbours point at each other. -/
def Segment (nxt prv : α → α) : α → List α → α → Prop
  | x, [], y => nxt x = y ∧ prv y = x
  | x, a :: l, y => (nxt x = a ∧ prv a = x) ∧ Segment nxt prv a l y

def Ring (nxt prv : α → α) (s : α) (l : List α) : Prop := Segment nxt prv s l s

lemma segment_append : Segment nxt prv x (l1 ++ b :: l2) y ↔
    Segment nxt prv x l1 b ∧ Segment nxt prv b l2 y := by
  induction l1 generalizing x with
  | nil => simp [Segment]
  | cons a l1 ih => simp [Segment, ih, and_assoc]

section

variable (h : Segment nxt prv x l y)
include h

lemma Segment.congr (hn : ∀ z ∈ x :: l, nxt' z = nxt z)
    (hp : ∀ z ∈ l ++ [y], prv' z = prv z) : Segment nxt' prv' x l y := by
  induction l generalizing x with
  | nil => exact ⟨(hn x (by simp)).trans h.1, (hp y (by simp)).trans h.2⟩
  | cons a l ih =>
    refine ⟨⟨(hn x (by simp)).trans h.1.1, (hp a (by simp)).trans h.1.2⟩, ?_⟩
    exact ih h.2 (fun z hz => hn z (mem_cons_of_mem _ hz))
      (fun z hz => hp z (mem_cons_of_mem _ hz))

lemma Segment.prev_mem : prv y ∈ x :: l := by
  induction l generalizing x with
  | nil => simp [h.2]
  | cons a l ih => exact mem_cons_of_mem _ (ih h.2)

lemma Segment.next_eq : nxt x = l.headD y := by
  cases l with
  | nil => exact h.1
  | cons a l => exact h.1.1

lemma Segment.retarget (hd : (x :: l).Nodup)
    (hn : ∀ z ∈ x :: l, z ≠ prv y → nxt' z = nxt z) (hlast : nxt' (prv y) = n)
    (hp : ∀ z ∈ l, prv' z = prv z) (hend : prv' n = prv y) : Segment nxt' prv' x l n := by
  induction l generalizing x with
  | nil => exact ⟨h.2 ▸ hlast, hend.trans h.2⟩
  | cons a l ih =>
    have hne : x ≠ prv y := fun he => (nodup_cons.mp hd).1 (he ▸ Segment.prev_mem h.2)
    refine ⟨⟨(hn x (by simp) hne).trans h.1.1, (hp a (by simp)).trans h.1.2⟩, ?_⟩
    exact ih h.2 (nodup_cons.mp hd).2 (fun z hz => hn z (mem_cons_of_mem _ hz))
      (fun z hz => hp z (mem_cons_of_mem _ hz))

end

lemma Ring.next_eq (h : Ring nxt prv s (l1 ++ b :: l2)) : nxt b = l2.headD s :=
  (segment_append.mp h).2.next_eq

lemma Ring.prev_mem (h : Ring nxt prv s (l1 ++ b :: l2)) : prv b ∈ s :: l1 :=
  (segment_append.mp h).1.prev_mem

lemma nodup_front (hd : (s :: (l1 ++ l2)).Nodup) : (s :: l1).Nodup :=
  hd.sublist (Sublist.cons_cons s (sublist_append_left l1 l2))

lemma nodup_back {z : α} (hd : (s :: (l1 ++ n :: l2)).Nodup) :
    (z ∈ n :: l2 → z ∉ s :: l1) ∧ (z ∈ l2 ++ [s] → z ≠ n) ∧ (z ∈ l1 → z ≠ n) := by
  simp only [nodup_cons, mem_append, mem_cons, nodup_append, not_or] at hd
  obtain ⟨⟨hs1, hsn, hs2⟩, -, ⟨hn2, -⟩, happ⟩ := hd
  refine ⟨?_, ?_, fun hz => happ z hz n (.inl rfl)⟩
  · intro hz hm
    rcases mem_cons.mp hm with rfl | hm
    · rcases mem_cons.mp hz with he | hz
      · exact hsn he
      · exact hs2 hz
    · exact happ z hm z (mem_cons.mp hz) rfl
  · rintro hz rfl
    rcases mem_append.mp hz with hm | hm
    · exact hn2 hm
    · exact hsn (mem_singleton.mp hm).symm

/-- The front gets a new end `x`, and the back is as before. -/
lemma Segment.splice (hfst : Segment nxt prv s l1 y) (hsnd : Segment nxt prv n l2 s)
    (hd : (s :: (l1 ++ n :: l2)).Nodup)
    (hn : ∀ z ∈ s :: (l1 ++ n :: l2), z ≠ prv y → nxt' z = nxt z) (hn' : nxt' (prv y) = x)
    (hp : ∀ z ∈ s :: (l1 ++ n :: l2), z ≠ n → prv' z = prv z) (hx : prv' x = prv y) :
    Segment nxt' prv' s l1 x ∧ Segment nxt' prv' n l2 s := by
  have hfront : ∀ z ∈ s :: l1, z ∈ s :: (l1 ++ n :: l2) := fun z hz => mem_append_left _ hz
  refine ⟨hfst.retarget (nodup_front hd) (fun z hz => hn z (hfront z hz)) hn' ?_ hx,
    hsnd.congr ?_ ?_⟩
  · intro z hz
    exact hp z (hfront z (mem_cons_of_mem _ hz)) ((nodup_back hd).2.2 hz)
  · intro z hz
    refine hn z (mem_cons_of_mem _ (mem_append_right _ hz)) ?_
    rintro rfl; exact (nodup_back hd).1 hz hfst.prev_mem
  · intro z hz
    refine hp z ?_ ((nodup_back hd).2.1 hz)
    simp only [mem_append, mem_cons, not_mem_nil, or_false] at hz ⊢; tauto

lemma Ring.unlink (h : Ring nxt prv s (l1 ++ b :: l2)) (hd : (s :: (l1 ++ b :: l2)).Nodup)
    (hn : ∀ z ∈ s :: (l1 ++ l2), z ≠ prv b → nxt' z = nxt z) (hn' : nxt' (prv b) = nxt b)
    (hp : ∀ z ∈ s :: (l1 ++ l2), z ≠ nxt b → prv' z = prv z) (hp' : prv' (nxt b) = prv b) :
    Ring nxt' prv' s (l1 ++ l2) := by
  obtain ⟨hfst, hsnd⟩ := segment_append.mp h
  have hnxt := h.next_eq
  have hd' : (s :: (l1 ++ l2)).Nodup := by
    refine hd.sublist (Sublist.cons_cons s ?_)
    exact Sublist.append_left (sublist_cons_self b l2) l1
  cases l2 with
  | nil =>
    simp only [headD_nil] at hnxt
    simp only [append_nil] at hd' hn hp ⊢
    refine hfst.retarget hd' hn (hn'.trans hnxt) ?_ (hnxt ▸ hp')
    intro z hz
    refine hp z (mem_cons_of_mem _ hz) ?_
    rw [hnxt]; rintro rfl; exact (nodup_cons.mp hd').1 hz
  | cons n l2 =>
    simp only [headD_cons] at hnxt
    rw [hnxt] at hn' hp hp'
    exact segment_append.mpr (hfst.splice hsnd.2 hd' hn hn' hp hp')

lemma Ring.insert {p : α} (h : Ring nxt prv s (l1 ++ l2)) (hd : (s :: (l1 ++ l2)).Nodup)
    (hhead : l2.headD s = p) (hn : ∀ z ∈ s :: (l1 ++ l2), z ≠ prv p → nxt' z = nxt z)
    (hn' : nxt' (prv p) = b) (hp : ∀ z ∈ s :: (l1 ++ l2), z ≠ p → prv' z = prv z) (hp' : prv' p = b)
    (hnb : nxt' b = p) (hpb : prv' b = prv p) : Ring nxt' prv' s (l1 ++ b :: l2) := by
  cases l2 with
  | nil =>
    subst hhead
    simp only [append_nil] at h hd hn hp
    refine segment_append.mpr ⟨Segment.retarget h hd hn hn' ?_ hpb, hnb, hp'⟩
    intro z hz
    refine hp z (mem_cons_of_mem _ hz) ?_
    rintro rfl; exact (nodup_cons.mp hd).1 hz
  | cons n l2 =>
    subst hhead
    obtain ⟨hfst, hsnd⟩ := segment_append.mp h
    obtain ⟨hfst', hsnd'⟩ := hfst.splice hsnd hd hn hn' hp hpb
    exact segment_append.mpr ⟨hfst', ⟨hnb, hp'⟩, hsnd'⟩

end LinkedRing
