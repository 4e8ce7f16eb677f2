import Mathlib.Data.List.Basic
import SosKernel.DvmInterpreter

/-! # The buffers of scripts as byte sequences -/
namespace DvmBuffers

open DvmInterpreter List Function

/-- The bytes that can be read. -/
def contents (b : Buffer) : List (BitVec 8) := (range b.size).map b.entries

/-- The low byte is first. -/
def bytes (numBytes : ℕ) (var : BitVec 16) : List (BitVec 8) :=
  [var.setWidth 8, var.extractLsb' 8 8].take numBytes

def width (two : Bool) : ℕ := if two then 2 else 1

inductive Op where
  | append (k : ℕ) (two : Bool) (var : BitVec 16)
  | concatenate (dst src : ℕ) (var : BitVec 16)
  | set (k bufferOffset : ℕ) (val : BitVec 16)
  | clear (k : ℕ)
  | get (k : ℕ) (two : Bool) (bufferOffset : ℕ) (dest : BitVec 16)

def Op.exec : Op → Exec Unit
  | .append k two var => bufferAppend k (width two) var
  | .concatenate dst src var => bufferConcatenate dst src var
  | .set k bufferOffset val => bufferSet k bufferOffset val
  | .clear k => setSize k 0
  | .get k two bufferOffset dest => do let _ ← bufferGet k (width two) bufferOffset dest

/-- The buffer an operation writes. -/
def Op.target : Op → Option ℕ
  | .append k _ _ | .concatenate k _ _ | .set k _ _ | .clear k => some k
  | .get .. => none

def after (m : Machine) (ops : List Op) : Machine := ops.foldl (fun m op => (op.exec m).2) m

def Fits (m : Machine) : Prop := ∀ k, (m.shared.buffers k).size ≤ dvmBufLen

/-- What a byte sequence would do; `buffer_get` defines its destination if what was there before
does not matter. -/
def Op.Right (op : Op) (m : Machine) : Prop :=
  let b := m.shared.buffers
  let b' := (op.exec m).2.shared.buffers
  (∀ j, op.target ≠ some j → b' j = b j) ∧
  match op with
  | .append k two var => contents (b' k) =
      if (contents (b k) ++ bytes (width two) var).length ≤ dvmBufLen then
        contents (b k) ++ bytes (width two) var
      else contents (b k)
  | .concatenate dst src _ =>
    contents (b' dst) = (contents (b dst) ++ contents (b src)).take dvmBufLen
  | .set k off _ => (∀ i, i ≠ off → i ≠ off + 1 → (b' k).entries i = (b k).entries i) ∧
    (b k).size ≤ (b' k).size
  | .clear k => contents (b' k) = []
  | .get k two off _ => ∃ val, ∀ dest, (bufferGet k (width two) off dest m).1 = val

/-- `buffer_set` makes its bytes the last ones, and `buffer_get` skips what is not there. -/
def Op.Inside (op : Op) (m : Machine) : Prop :=
  match op with
  | .set k off _ => off + 2 ≤ dvmBufLen → (m.shared.buffers k).size ≤ off + 2
  | .get k two off _ => off + width two ≤ (m.shared.buffers k).size
  | _ => True

variable {m : Machine} {b : Buffer} {k n : ℕ}

lemma contents_length : (contents b).length = b.size := by simp [contents]

/-- All that changes in the buffers is buffer `k`. -/
def Sets (k : ℕ) (b : Buffer) (m m' : Machine) : Prop :=
  m'.shared.buffers = update m.shared.buffers k b

def Puts (k : ℕ) (f : Buffer → Buffer) (e : Exec Unit) : Prop :=
  ∀ m, Sets k (f (m.shared.buffers k)) m (e m).2

namespace Sets

variable {m' : Machine} (h : Sets k b m m')
include h

lemma here : m'.shared.buffers k = b := by rw [h, update_self]

lemma elsewhere (j : ℕ) (hj : some k ≠ some j) : m'.shared.buffers j = m.shared.buffers j := by
  rw [h, update_of_ne (hj <| congrArg _ ·.symm)]

lemma fits (hm : Fits m) (hb : b.size ≤ dvmBufLen) : Fits m' := by
  intro j
  rw [h, update_apply]
  split
  next => exact hb
  next => exact hm j

end Sets

lemma Puts.seq {f g : Buffer → Buffer} {e e' : Exec Unit} (h : Puts k f e) (h' : Puts k g e') :
    Puts k (g ∘ f) (do e; e') := fun m => by
  refine (h' (e m).2).trans ?_
  rw [h m, update_idem, update_self, comp]

lemma puts_pure : Puts k id (pure ()) := fun _ => (update_eq_self ..).symm

lemma puts_setSize (n : ℕ) : Puts k (fun b => { b with size := n }) (setSize k n) := fun _ => rfl

lemma puts_setEntry (i : ℕ) (v : BitVec 8) :
    Puts k (fun b => { b with entries := update b.entries i v }) (setEntry k i v) := fun _ => rfl

def appended (two : Bool) (var : BitVec 16) (b : Buffer) : Buffer :=
  if b.size + width two ≤ dvmBufLen then
    let entries := update b.entries b.size (var.setWidth 8)
    ⟨b.size + width two, if two then update entries (b.size + 1) (var.extractLsb' 8 8) else entries⟩
  else b

lemma puts_bufferAppend (two : Bool) (var : BitVec 16) :
    Puts k (appended two var) (bufferAppend k (width two) var) := by
  intro m
  show ((ite _ _ _ : Exec Unit) _).2.shared.buffers = _
  rw [appended]
  split
  next =>
    cases two with
    | false => exact ((puts_setEntry _ _).seq ((puts_setSize _).seq puts_pure)) _
    | true =>
      exact ((puts_setEntry _ _).seq ((puts_setSize _).seq ((puts_setEntry _ _).seq
        (puts_setSize _)))) _
  next => exact puts_pure _

def stored (bufferOffset : ℕ) (val : BitVec 16) (b : Buffer) : Buffer :=
  if bufferOffset + 2 ≤ dvmBufLen then
    ⟨bufferOffset + 2, update (update b.entries bufferOffset (val.setWidth 8)) (bufferOffset + 1)
      (val.extractLsb' 8 8)⟩
  else b

lemma puts_bufferSet (bufferOffset : ℕ) (val : BitVec 16) :
    Puts k (stored bufferOffset val) (bufferSet k bufferOffset val) := by
  intro m
  rw [bufferSet, stored]
  split
  next => exact ((puts_setSize _).seq ((puts_setEntry _ _).seq (puts_setEntry _ _))) m
  next => exact puts_pure m

def got (two : Bool) (bufferOffset : ℕ) (b : Buffer) : BitVec 16 :=
  if two then b.entries (bufferOffset + 1) ++ b.entries bufferOffset
  else (b.entries bufferOffset).setWidth 16

lemma bufferGet_eq (two : Bool) (off : ℕ) (dest : BitVec 16) :
    (bufferGet k (width two) off dest m).1 =
        (if off + width two ≤ (m.shared.buffers k).size then got two off (m.shared.buffers k)
        else dest) ∧ (bufferGet k (width two) off dest m).2.shared = m.shared := by
  show ((ite _ _ _ : Exec _) _).1 = _ ∧ ((ite _ _ _ : Exec _) _).2.shared = _
  split
  next => cases two <;> exact ⟨rfl, rfl⟩
  next => exact ⟨rfl, rfl⟩

lemma contents_appended (two : Bool) (var : BitVec 16) : contents (appended two var b) =
    if b.size + width two ≤ dvmBufLen then contents b ++ bytes (width two) var else contents b := by
  rw [appended]
  split
  next =>
    apply ext_getElem
    · cases two <;> simp [contents, bytes, width]
    · intro i hi hi'
      cases two <;> grind [contents, bytes, width, update_apply]
  next => rfl

lemma bytes_got {two : Bool} {off : ℕ} (h : off + width two ≤ b.size) :
    bytes (width two) (got two off b) = ((contents b).drop off).take (width two) := by
  apply ext_getElem
  · cases two <;> simp [contents, bytes, width] at * <;> omega
  · intro i hi hi'
    cases two <;> grind [contents, bytes, width, got]

lemma width_eq {n : ℕ} (h : 0 < n) : (if 2 ≤ n then 2 else n) = width (decide (2 ≤ n)) := by
  grind [width]

lemma source_round {dst src : ℕ} {s : List (BitVec 8)} {two : Bool} {var : BitVec 16}
    (hsrc : s <+: contents (m.shared.buffers src)) :
    s <+: contents (update m.shared.buffers dst (appended two var (m.shared.buffers dst)) src) := by
  by_cases h : src = dst
  · subst h
    rw [update_self, contents_appended]
    split
    next => exact hsrc.trans (prefix_append ..)
    next => exact hsrc
  · rwa [update_of_ne h]

section

variable {dst src i n : ℕ} {d s : List (BitVec 8)} {two : Bool} {var : BitVec 16}
  (hdst : contents (m.shared.buffers dst) = d ++ s.take i)
  (hsrc : s <+: contents (m.shared.buffers src))
include hdst hsrc

/-- One round; `d` and `s` are the contents at the start. -/
lemma contents_round (hi : i + width two ≤ s.length)
    (hfit : d.length + (i + width two) ≤ dvmBufLen) :
    contents (appended two (bufferGet src (width two) i var m).1 (m.shared.buffers dst)) =
      d ++ s.take (i + width two) := by
  have hsize : i + width two ≤ (m.shared.buffers src).size :=
    Nat.le_trans hi (contents_length ▸ hsrc.length_le)
  have hbytes : bytes (width two) (got two i (m.shared.buffers src)) =
      (s.drop i).take (width two) := by
    obtain ⟨t, ht⟩ := hsrc
    rw [bytes_got hsize, ← ht, drop_append_of_le_length (by omega),
      take_append_of_le_length (by rw [length_drop]; omega)]
  rw [contents_appended, (bufferGet_eq two i var).1, if_pos hsize, if_pos, hdst, hbytes,
    append_assoc, take_add]
  rw [← contents_length, hdst]
  simp
  omega

lemma concatenateFrom_contents (hn : n ≤ s.length) (hfit : d.length + n ≤ dvmBufLen) (fuel : ℕ)
    (var : BitVec 16) (hfuel : n ≤ i + fuel) (hi : i ≤ n) :
    ∃ b, Sets dst b m
        (concatenateFrom dst src d.length (d.length + n) fuel (d.length + i) var m).2 ∧
      contents b = d ++ s.take n := by
  induction fuel generalizing m i var with
  | zero => exact ⟨_, (update_eq_self ..).symm, hdst.trans (by rw [show i = n by omega])⟩
  | succ fuel ih =>
    rw [concatenateFrom]
    split
    next hlt =>
      rw [width_eq (by omega), Nat.add_sub_cancel_left]
      generalize htwo : decide (2 ≤ d.length + n - (d.length + i)) = two
      have hle : i + width two ≤ n := by grind [width]
      have hpos : 0 < width two := by cases two <;> decide
      have hput := puts_bufferAppend (k := dst) two (bufferGet src (width two) i var m).1
        (bufferGet src (width two) i var m).2
      rw [Sets, (bufferGet_eq two i var).2] at hput
      obtain ⟨b, hb, hc⟩ := ih
        (m := (bufferAppend dst (width two) (bufferGet src (width two) i var m).1
          (bufferGet src (width two) i var m).2).2)
        (by rw [hput, update_self, contents_round hdst hsrc (by omega) (by omega)])
        (by rw [hput]; exact source_round hsrc) _ (by omega) hle
      rw [Sets, hput, update_idem, ← Nat.add_assoc] at hb
      exact ⟨b, hb, hc⟩
    next hlt => exact ⟨_, (update_eq_self ..).symm, hdst.trans (by rw [show i = n by omega])⟩

end

lemma bufferConcatenate_contents (hm : Fits m) (dst src : ℕ) (var : BitVec 16) :
    ∃ b, Sets dst b m (bufferConcatenate dst src var m).2 ∧ contents b =
      (contents (m.shared.buffers dst) ++ contents (m.shared.buffers src)).take dvmBufLen := by
  have hd := hm dst
  have hs := hm src
  have hlast : min (((m.shared.buffers dst).size + (m.shared.buffers src).size) % 256) dvmBufLen =
      (m.shared.buffers dst).size +
        min (m.shared.buffers src).size (dvmBufLen - (m.shared.buffers dst).size) := by
    simp only [dvmBufLen] at *
    omega
  have hmin := Nat.min_le_left (m.shared.buffers src).size
    (dvmBufLen - (m.shared.buffers dst).size)
  rw [← contents_length] at hmin
  obtain ⟨b, hb, hc⟩ := concatenateFrom_contents
    (m := { m with accesses := m.accesses ++ [.buffer dst] ++ [.buffer src] })
    (show contents (m.shared.buffers dst) = _ ++ take 0 _ by rw [take_zero, append_nil])
    (prefix_refl (contents (m.shared.buffers src))) hmin (by rw [contents_length] at *; omega) _ var
    (Nat.le_add_left ..) (Nat.zero_le _)
  refine ⟨b, .trans ?_ hb, hc.trans ?_⟩
  · show (concatenateFrom _ _ _ (min _ _) (min _ _ - _) _ _ _).2.shared.buffers = _
    rw [hlast, contents_length, contents_length, Nat.add_sub_cancel_left]
    rfl
  · rw [take_append, contents_length (b := m.shared.buffers dst), Nat.min_comm, ← take_eq_take_min,
      take_of_length_le (l := contents (m.shared.buffers dst)) (contents_length ▸ hd)]

lemma fits_exec (hm : Fits m) (op : Op) : Fits (op.exec m).2 := by
  cases op with
  | append k two var => exact (puts_bufferAppend two var m).fits hm (by grind [appended, Fits])
  | concatenate dst src var =>
    obtain ⟨b, hb, hc⟩ := bufferConcatenate_contents hm dst src var
    exact hb.fits hm (by rw [← contents_length, hc]; exact length_take_le ..)
  | set k off val => exact (puts_bufferSet off val m).fits hm (by grind [stored, Fits])
  | clear k => exact (puts_setSize 0 m).fits hm (Nat.zero_le _)
  | get k two off dest =>
    have hshared : ((Op.get k two off dest).exec m).2.shared = m.shared := (bufferGet_eq ..).2
    intro j
    rw [hshared]
    exact hm j

lemma fits_after (hm : Fits m) (ops : List Op) : Fits (after m ops) := by
  induction ops generalizing m with
  | nil => exact hm
  | cons op ops ih => exact ih (fits_exec hm op)

lemma right_iff (hm : Fits m) (op : Op) : op.Right m ↔ op.Inside m := by
  cases op with
  | append k two var =>
    refine iff_of_true ⟨(puts_bufferAppend two var m).elsewhere, ?_⟩ trivial
    refine (congrArg contents (puts_bufferAppend two var m).here).trans ?_
    rw [contents_appended, length_append, contents_length]
    cases two <;> rfl
  | concatenate dst src var =>
    obtain ⟨b, hb, hc⟩ := bufferConcatenate_contents hm dst src var
    exact iff_of_true ⟨hb.elsewhere, (congrArg contents hb.here).trans hc⟩ trivial
  | set k off val =>
    have hset := puts_bufferSet (k := k) off val m
    simp only [Op.Right, Op.Inside, Op.exec, hset.here]
    refine (and_iff_right hset.elsewhere).trans ((and_iff_right ?_).trans ?_)
    · intro i hi hi'
      rw [stored]
      split
      next => exact (update_of_ne hi' ..).trans (update_of_ne hi ..)
      next => rfl
    · grind [stored]
  | clear k =>
    have hset := puts_setSize (k := k) 0 m
    exact iff_of_true ⟨hset.elsewhere, congrArg contents hset.here⟩ trivial
  | get k two off dest =>
    have hshared : ((Op.get k two off dest).exec m).2.shared = m.shared := (bufferGet_eq ..).2
    simp only [Op.Right, Op.Inside, bufferGet_eq, hshared, implies_true, true_and]
    constructor
    · rintro ⟨val, hval⟩
      by_contra hlt
      simp only [hlt, if_false] at hval
      exact absurd ((hval 0).trans (hval 1).symm) (by decide)
    · intro h
      exact ⟨_, fun dest => if_pos h⟩

theorem buffers_as_sequences_iff (hm : Fits m) (ops : List Op) (op : Op) :
    op.Right (after m ops) ↔ op.Inside (after m ops) :=
  right_iff (fits_after hm ops) op

def blank : Machine :=
  ⟨⟨0, 0, fun _ => ⟨0, 0⟩, fun _ => ⟨0, 0⟩⟩, ⟨fun _ => ⟨0, 0⟩, fun _ => ⟨0, fun _ => 0⟩, 0⟩, false,
    false, []⟩

theorem buffer_doubled : Op.Right (.concatenate 0 0 0) (after blank [.append 0 true 0x0201]) :=
  (buffers_as_sequences_iff (fun _ => Nat.zero_le _) _ _).mpr trivial

/-- Setting the first two of four bytes loses the others; reading an empty buffer gives what the
destination was. -/
theorem set_loses_bytes :
    ((after blank [.append 0 true 1, .append 0 true 2]).shared.buffers 0).size = 4 ∧
    ((after blank [.append 0 true 1, .append 0 true 2, .set 0 0 3]).shared.buffers 0).size = 2 ∧
    (bufferGet 0 2 0 7 blank).1 = 7 ∧ (bufferGet 0 2 0 8 blank).1 = 8 :=
  ⟨rfl, rfl, rfl, rfl⟩

end DvmBuffers
