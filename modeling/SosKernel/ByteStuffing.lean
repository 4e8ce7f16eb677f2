import Mathlib.Data.List.Flatten
import Mathlib.Logic.Basic

/-! # Byte stuffing

A byte that must not stand in a frame is sent as the escape byte and the byte itself under
a mask. The decoder reads one byte at a time and remembers whether an escape is pending. -/
namespace ByteStuffing

variable (special : UInt8 → Bool) (esc mask : UInt8)

def stuffByte (b : UInt8) : List UInt8 := if special b then [esc, mask ^^^ b] else [b]

def stuff (l : List UInt8) : List UInt8 := l.flatMap (stuffByte special esc mask)

structure Decoder where
  out : List UInt8
  pending : Bool

def Decoder.feed (d : Decoder) (b : UInt8) : Decoder :=
  if d.pending then ⟨d.out ++ [mask ^^^ b], false⟩
  else if b = esc then ⟨d.out, true⟩
  else ⟨d.out ++ [b], false⟩

def Decoder.feedAll (d : Decoder) (l : List UInt8) : Decoder := l.foldl (Decoder.feed esc mask) d

/-- `none` when the bytes end inside an escape. -/
def unstuff (l : List UInt8) : Option (List UInt8) :=
  let d := Decoder.feedAll esc mask ⟨[], false⟩ l
  if d.pending then none else some d.out

variable {special esc mask}

@[simp] lemma stuff_nil : stuff special esc mask [] = [] := rfl

@[simp] lemma stuff_cons (b : UInt8) (l : List UInt8) :
    stuff special esc mask (b :: l) = stuffByte special esc mask b ++ stuff special esc mask l :=
  rfl

lemma stuff_append (l1 l2 : List UInt8) :
    stuff special esc mask (l1 ++ l2) = stuff special esc mask l1 ++ stuff special esc mask l2 :=
  List.flatMap_append ..

@[simp] lemma feedAll_nil (d : Decoder) : Decoder.feedAll esc mask d [] = d := rfl

@[simp] lemma feedAll_cons (d : Decoder) (b : UInt8) (l : List UInt8) :
    Decoder.feedAll esc mask d (b :: l) = Decoder.feedAll esc mask (d.feed esc mask b) l :=
  rfl

lemma feedAll_append (d : Decoder) (l1 l2 : List UInt8) :
    Decoder.feedAll esc mask d (l1 ++ l2) =
      Decoder.feedAll esc mask (Decoder.feedAll esc mask d l1) l2 :=
  List.foldl_append ..

lemma feedAll_snoc (d : Decoder) (l : List UInt8) (b : UInt8) :
    Decoder.feedAll esc mask d (l ++ [b]) = (Decoder.feedAll esc mask d l).feed esc mask b :=
  feedAll_append d l [b]

lemma unstuff_of_feedAll {l out : List UInt8}
    (h : Decoder.feedAll esc mask ⟨[], false⟩ l = ⟨out, false⟩) :
    unstuff esc mask l = some out := by
  simp [unstuff, h]

lemma not_mem_stuff {f : UInt8} (hf : special f = true) (hne : f ≠ esc)
    (hmask : ∀ b, special b = true → mask ^^^ b ≠ f) (l : List UInt8) :
    f ∉ stuff special esc mask l := by
  intro hmem
  obtain ⟨b, -, hb⟩ := List.mem_flatMap.mp hmem
  by_cases hs : special b = true
  · simp only [stuffByte, hs, if_true, List.mem_cons, List.not_mem_nil, or_false] at hb
    rcases hb with rfl | rfl
    · exact hne rfl
    · exact hmask b hs rfl
  · simp only [stuffByte, hs, if_false, List.mem_singleton, Bool.false_eq_true] at hb
    subst hb
    exact hs hf

end ByteStuffing
