import Mathlib.Data.Int.Basic

/-! # AVR instruction words, `avrinstr.h`

Instructions are told apart by the mask of their type. `BRBC` and `BRBS` cover the branches of
type 8. Positions and addresses count words. -/
namespace AvrCode

abbrev Word := BitVec 16

def fits (ops : List (Word × Word)) (w : Word) : Bool := ops.any (fun op => w &&& op.1 = op.2)

section

variable (w : Word)

def isJmp : Bool := fits [(0xFE0E, 0x940C)] w
def isCall : Bool := fits [(0xFE0E, 0x940E)] w
def isLds : Bool := fits [(0xFE0F, 0x9000)] w
def isSts : Bool := fits [(0xFE0F, 0x9200)] w

def isTwoWord : Bool := isJmp w || isCall w || isLds w || isSts w

/-- `ST` through `X`, `Y` and `Z`: plain, with increment and with decrement. -/
def isSt : Bool :=
  fits ([0x920C, 0x8208, 0x8200, 0x920D, 0x9209, 0x9201, 0x920E, 0x920A, 0x9202].map (0xFE0F, ·)) w

def isStd : Bool := fits [(0xD208, 0x8208), (0xD208, 0x8200)] w

end

def opRet : Word := 0x9508
def opReti : Word := 0x9518
def opIcall : Word := 0x9509
def opIjmp : Word := 0x9409

def isSkip (w : Word) : Bool :=
  fits [(0xFC00, 0x1000), (0xFE08, 0xFC00), (0xFE08, 0xFE00), (0xFF00, 0x9900), (0xFF00, 0x9B00)] w

def isBranch (w : Word) : Bool := fits [(0xFC00, 0xF400), (0xFC00, 0xF000)] w
def isRjmp (w : Word) : Bool := fits [(0xF000, 0xC000)] w
def isRcall (w : Word) : Bool := fits [(0xF000, 0xD000)] w

variable {w : Word}

/-- Two opcodes that fit one word agree where both masks have ones. -/
lemma mask_meet {m m' a a' : Word} (h : w &&& m = a) (h' : w &&& m' = a') :
    a &&& m' = a' &&& m := by
  rw [← h, ← h', BitVec.and_assoc, BitVec.and_assoc, BitVec.and_comm m]

def apart (ops ops' : List (Word × Word)) : Bool :=
  ops.all fun p => ops'.all fun q => p.2 &&& q.1 != q.2 &&& p.1

lemma fits_disjoint {ops ops' : List (Word × Word)} (hd : apart ops ops' = true)
    (h : fits ops w = true) : fits ops' w = false := by
  obtain ⟨p, hp, hw⟩ := List.any_eq_true.mp h
  refine List.any_eq_false.mpr fun q hq hw' => ?_
  have hne := List.all_eq_true.mp (List.all_eq_true.mp hd p hp) q hq
  exact bne_iff_ne.mp hne (mask_meet (of_decide_eq_true hw) (of_decide_eq_true hw'))

def getK7 (w : Word) : ℤ := (w.extractLsb' 3 7).toInt
def getK12 (w : Word) : ℤ := (w.extractLsb' 0 12).toInt

def size (w : Word) : ℕ := if isTwoWord w then 2 else 1

/-- Where instructions start when the words are decoded one after the other. -/
inductive Boundary : List Word → ℕ → Prop
  | head {w : Word} {ws : List Word} : Boundary (w :: ws) 0
  | one {w : Word} {ws : List Word} {i : ℕ} (hw : isTwoWord w = false) (h : Boundary ws i) :
      Boundary (w :: ws) (i + 1)
  | two {w v : Word} {ws : List Word} {i : ℕ} (hw : isTwoWord w = true) (h : Boundary ws i) :
      Boundary (w :: v :: ws) (i + 2)

def Stores (w : Word) : Prop := isSt w ∨ isStd w ∨ isSts w
  deriving Decidable

def Unsafe (w : Word) : Prop := Stores w ∨ w = opRet ∨ w = opIcall
  deriving Decidable

lemma not_unsafe {ops : List (Word × Word)} (h : fits ops w = true)
    (hd : apart ops ([0x920C, 0x8208, 0x8200, 0x920D, 0x9209, 0x9201, 0x920E, 0x920A, 0x9202,
      0x9200].map (0xFE0F, ·) ++ [(0xD208, 0x8208), (0xD208, 0x8200), (0xFFFF, 0x9508),
      (0xFFFF, 0x9509)]) = true) : ¬ Unsafe w := by
  have hn := fits_disjoint hd h
  rintro ((hs | hs | hs) | rfl | rfl)
  all_goals
    simp_all [fits, isSt, isStd, isSts, opRet, opIcall]

end AvrCode
