import Mathlib.Logic.Basic

/-! # Contracts of state programs

Pre- and postconditions for programs in the state monad. Most parts of a program keep one
invariant; `Keeps` is the contract for those, with a condition on the result. -/
namespace StatePrograms

variable {σ α β : Type} {P P' I : σ → Prop} {Q Q' : α → σ → Prop} {R R' : α → Prop} {m : StateM σ α}

/-- From a state with `P` the program ends with `Q`. -/
def Sat (P : σ → Prop) (m : StateM σ α) (Q : α → σ → Prop) : Prop := ∀ s, P s → Q (m s).1 (m s).2

/-- The program keeps `I`, and its result satisfies `R`. -/
def Keeps (I : σ → Prop) (m : StateM σ α) (R : α → Prop) : Prop := Sat I m (fun a s => R a ∧ I s)

lemma Sat.bind {f : α → StateM σ β} {T : β → σ → Prop} (hm : Sat P m Q)
    (hf : ∀ a, Sat (Q a) (f a) T) : Sat P (m >>= f) T := fun s hs => hf _ _ (hm s hs)

lemma Sat.conseq (h : Sat P m Q) (hpre : ∀ s, P' s → P s) (hpost : ∀ a s, Q a s → Q' a s) :
    Sat P' m Q' := fun s hs => hpost _ _ (h s (hpre s hs))

variable {m' : StateM σ α} {c : Prop}

lemma Sat.ite [Decidable c] (h : c → Sat P m Q)
    (h' : ¬ c → Sat P m' Q) : Sat P (if c then m else m') Q := by
  split
  · exact h ‹c›
  · exact h' ‹¬ c›

lemma Keeps.pure {a : α} (h : R a) : Keeps I (pure a) R := fun _ hs => ⟨h, hs⟩

lemma Keeps.bind {f : α → StateM σ β} {T : β → Prop} (hm : Keeps I m R)
    (hf : ∀ a, R a → Keeps I (f a) T) : Keeps I (m >>= f) T := by
  intro s hs
  obtain ⟨hr, hi⟩ := hm s hs
  exact hf _ hr _ hi

lemma Keeps.ite [Decidable c] (h : c → Keeps I m R)
    (h' : ¬ c → Keeps I m' R) : Keeps I (if c then m else m') R := Sat.ite h h'

lemma Keeps.read {f : σ → α} (h : ∀ s, I s → R (f s)) : Keeps I (do return f (← get)) R :=
  fun s hs => ⟨h s hs, hs⟩

lemma Keeps.modify {f : σ → σ} (h : ∀ s, I s → I (f s)) :
    Keeps I (modify f) (fun _ => True) := fun s hs => ⟨trivial, h s hs⟩

end StatePrograms
