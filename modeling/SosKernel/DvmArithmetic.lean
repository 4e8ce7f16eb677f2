import Mathlib.Data.Int.Notation
import SosKernel.DvmInterpreter

/-! # Arithmetic on an integer and a fixed-point number

A fixed-point number is a count of hundredths and takes two slots of the stack. `execute` has a
formula of its own for each combination of operand types. -/
namespace DvmArithmetic

open DvmInterpreter

inductive Operand where
  | int (v : BitVec 16)
  | fixed (v : BitVec 32)

def Operand.push : Operand → Exec Unit
  | .int v => pushValue v typeInteger
  | .fixed v => pushFloat v

/-- The operand as a fixed-point number. -/
def Operand.toFixed : Operand → BitVec 32
  | .int v => scaled v
  | .fixed v => v

def Mixed : Operand → Operand → Prop
  | .int _, .fixed _ | .fixed _, .int _ => True
  | _, _ => False

/-- The script pushes `b` and then `a` and executes `a op b`. -/
def calculate (code : ℕ → ℕ) (ans : Answer) (op : Arith) (a b : Operand) : Exec Unit := do
  b.push
  a.push
  run code ans true (.arith op)

/-- The stack pointer and the two slots below it, where a fixed-point result is pushed. -/
def result (m : Machine) : ℕ × Slot × Slot :=
  (m.frame.sp, m.frame.stack (m.frame.sp - 2), m.frame.stack (m.frame.sp - 1))

/-- Some value on the way to `a op b` of fixed-point numbers does not fit in 32 bits. -/
def overflows : Arith → BitVec 32 → BitVec 32 → Bool
  | .add, a, b => a.saddOverflow b
  | .sub, a, b => a.ssubOverflow b
  | .mul, a, b => a.smulOverflow b
  | .div, a, _ => a.smulOverflow floatPrecision

/-- With the integer first, products are a hundred times too large and quotients a hundred times
too small. -/
def Coherent : Arith → Operand → Operand → Prop
  | .mul, .int a, .fixed b => a = 0 ∨ b = 0
  | .div, .int a, .fixed b => 10000 * a.toInt.natAbs < b.toInt.natAbs
  | _, _, _ => True

variable {code : ℕ → ℕ} {ans : Answer} {op : Arith} {m : Machine} {x a b : BitVec 32}
  {i : BitVec 16}

def pushed (m : Machine) (r : BitVec 32) : ℕ × Slot × Slot :=
  (m.frame.sp + 2, ⟨typeFloatDec, r.setWidth 16⟩, ⟨typeFloat, r.extractLsb' 16 16⟩)

lemma convertToFloat_halves (r : BitVec 32) :
    convertToFloat (r.extractLsb' 16 16) (r.setWidth 16) = r := by
  apply BitVec.eq_of_getLsbD_eq
  intro j hj
  rw [convertToFloat, BitVec.getLsbD_append]
  by_cases hlow : j < 16
  · simp [hlow]
  · simp [hlow, show j - 16 < 16 by omega, show 16 + (j - 16) = j by omega]

lemma pushed_inj {r r' : BitVec 32} : pushed m r = pushed m r' ↔ r = r' := by
  refine ⟨fun h => ?_, fun h => h ▸ rfl⟩
  simp only [pushed, Prod.mk.injEq, Slot.mk.injEq, true_and] at h
  rw [← convertToFloat_halves r, ← convertToFloat_halves r', h.1, h.2]

section

variable (hsp : m.frame.sp + 4 ≤ dvmOpdepth)
include hsp

lemma calculate_fixed_fixed : result (calculate code ans op (.fixed a) (.fixed b) m).2 =
    pushed m (floatFloat ans.undefined op a b) := by
  conv => rhs; rw [← convertToFloat_halves a, ← convertToFloat_halves b]
  obtain ⟨⟨_, sp, _, _⟩, _, _, _, _⟩ := m
  match sp, hsp with
  | 0, _ | 1, _ | 2, _ | 3, _ | 4, _ => rfl

lemma calculate_fixed_int : result (calculate code ans op (.fixed a) (.int i) m).2 =
    pushed m (floatInt ans.undefined op a i) := by
  conv => rhs; rw [← convertToFloat_halves a]
  obtain ⟨⟨_, sp, _, _⟩, _, _, _, _⟩ := m
  match sp, hsp with
  | 0, _ | 1, _ | 2, _ | 3, _ | 4, _ => rfl

lemma calculate_int_fixed : result (calculate code ans op (.int i) (.fixed b) m).2 =
    pushed m (intFloat ans.undefined op i b) := by
  conv => rhs; rw [← convertToFloat_halves b]
  obtain ⟨⟨_, sp, _, _⟩, _, _, _, _⟩ := m
  match sp, hsp with
  | 0, _ | 1, _ | 2, _ | 3, _ | 4, _ => rfl

end

lemma floatPrecision_toInt : floatPrecision.toInt = 100 := rfl

lemma ne_zero_iff {w : ℕ} {a : BitVec w} : a ≠ 0 ↔ a.toInt ≠ 0 := by simp [← BitVec.toInt_inj]

lemma mul_toInt {w : ℕ} {a b : BitVec w} (h : a.smulOverflow b = false) :
    (a * b).toInt = a.toInt * b.toInt :=
  BitVec.toInt_mul_of_not_smulOverflow (by simp [h])

lemma scaled_toInt : (scaled i).toInt = i.toInt * 100 := by
  have hi : (i.signExtend 32).toInt = i.toInt := BitVec.toInt_signExtend_of_le (by decide)
  have hlow := BitVec.le_toInt i
  have hhigh : i.toInt < 2 ^ (16 - 1) := BitVec.toInt_lt
  have hno : (i.signExtend 32).smulOverflow floatPrecision = false := by
    simp only [BitVec.smulOverflow, hi, floatPrecision_toInt, Bool.or_eq_false_iff,
      decide_eq_false_iff_not]
    omega
  rw [scaled, mul_toInt hno, hi, floatPrecision_toInt]

lemma divide_toInt (hb : b ≠ 0) (h : a ≠ BitVec.intMin 32 ∨ b ≠ -1#32) :
    (divide a b x).toInt = a.toInt.tdiv b.toInt := by
  rw [divide, if_neg hb, BitVec.toInt_sdiv_of_ne_or_ne a b h]

lemma ne_intMin (h : a.smulOverflow floatPrecision = false) : a ≠ BitVec.intMin 32 := by
  rintro rfl
  exact absurd h (by decide)

/-- No multiple of a hundred is the smallest number. -/
lemma hundredfold_ne_intMin (h : a.smulOverflow floatPrecision = false) :
    a * floatPrecision ≠ BitVec.intMin 32 := by
  intro he
  have hm := mul_toInt h
  rw [he, floatPrecision_toInt, show (BitVec.intMin 32).toInt = -2147483648 from rfl] at hm
  omega

lemma divide_hundred_toInt : (divide a floatPrecision x).toInt = a.toInt.tdiv 100 :=
  divide_toInt (by decide) (.inr (by decide))

lemma divide_hundredfold_toInt (hb : b ≠ 0) (h : a.smulOverflow floatPrecision = false) :
    (divide (a * floatPrecision) b x).toInt = (a.toInt * 100).tdiv b.toInt := by
  rw [divide_toInt hb (.inl (hundredfold_ne_intMin h)), mul_toInt h, floatPrecision_toInt]

lemma floatInt_coherent (hdiv : op = .div → i ≠ 0) (hno : overflows op a (scaled i) = false) :
    floatInt x op a i = floatFloat x op a (scaled i) := by
  have hi : (i.signExtend 32).toInt = i.toInt := BitVec.toInt_signExtend_of_le (by decide)
  cases op with
  | add | sub => rfl
  | mul =>
    have hprod := mul_toInt hno
    have hless : a.smulOverflow (i.signExtend 32) = false := by
      simp only [overflows, BitVec.smulOverflow, Bool.or_eq_false_iff, decide_eq_false_iff_not,
        scaled_toInt, hi, ← Int.mul_assoc] at hno ⊢
      omega
    apply BitVec.eq_of_toInt_eq
    simp only [floatInt, floatFloat, divide_hundred_toInt]
    rw [hprod, scaled_toInt, mul_toInt hless, hi, ← Int.mul_assoc,
      Int.mul_tdiv_cancel _ (by decide)]
  | div =>
    have hi0 : i.toInt ≠ 0 := ne_zero_iff.mp (hdiv rfl)
    have hs0 : scaled i ≠ 0 := ne_zero_iff.mpr (by rw [scaled_toInt]; omega)
    apply BitVec.eq_of_toInt_eq
    simp only [floatInt, floatFloat]
    rw [divide_hundredfold_toInt hs0 hno, scaled_toInt,
      divide_toInt (ne_zero_iff.mpr (hi ▸ hi0)) (.inl (ne_intMin hno)), hi,
      Int.mul_tdiv_mul_of_pos_left _ _ (by decide)]

lemma div_eq_hundredfold_iff (n : ℕ) {d : ℕ} (hd : 0 < d) : n / d = n * 100 / d ↔ n * 100 < d := by
  constructor
  · intro h
    by_contra hge
    have hone : 1 ≤ n * 100 / d := (Nat.one_le_div_iff hd).mpr (Nat.not_lt.mp hge)
    have hmany : n / d * 100 ≤ n * 100 / d := by
      rw [Nat.le_div_iff_mul_le hd, Nat.mul_right_comm]
      exact Nat.mul_le_mul_right 100 (Nat.div_mul_le_self n d)
    omega
  · intro h
    rw [Nat.div_eq_of_lt h, Nat.div_eq_of_lt (by omega)]

lemma tdiv_eq_hundredfold_iff (z : ℤ) {y : ℤ} (hy : y ≠ 0) :
    z.tdiv y = (z * 100).tdiv y ↔ z.natAbs * 100 < y.natAbs := by
  rw [← div_eq_hundredfold_iff _ (Int.natAbs_pos.mpr hy)]
  constructor
  · intro h
    have habs := congrArg Int.natAbs h
    rwa [Int.natAbs_tdiv, Int.natAbs_tdiv, Int.natAbs_mul] at habs
  · intro h
    have hz := (div_eq_hundredfold_iff _ (Int.natAbs_pos.mpr hy)).mp h
    have hzero : ∀ u : ℤ, u.natAbs < y.natAbs → u.tdiv y = 0 := fun u hu =>
      Int.natAbs_eq_zero.mp ((Int.natAbs_tdiv u y).trans (Nat.div_eq_of_lt hu))
    rw [hzero z (by omega), hzero (z * 100) (by omega)]

lemma intFloat_coherent_iff (hdiv : op = .div → b ≠ 0) (hno : overflows op (scaled i) b = false) :
    intFloat x op i b = floatFloat x op (scaled i) b ↔ Coherent op (.int i) (.fixed b) := by
  cases op with
  | add | sub => exact iff_of_true rfl trivial
  | mul =>
    simp only [intFloat, floatFloat, Coherent]
    rw [← BitVec.toInt_inj, divide_hundred_toInt]
    have hzero : scaled i * b = 0 ↔ i = 0 ∨ b = 0 := by
      simp only [← BitVec.toInt_inj, mul_toInt hno, scaled_toInt, BitVec.ofNat_eq_ofNat,
        BitVec.toInt_zero, Int.mul_eq_zero]
      omega
    rw [← hzero, ← BitVec.toInt_inj]
    have habs : ((scaled i * b).toInt.tdiv 100).natAbs = (scaled i * b).toInt.natAbs / 100 :=
      Int.natAbs_tdiv _ 100
    simp only [BitVec.ofNat_eq_ofNat, BitVec.toInt_zero]
    omega
  | div =>
    have hb : b ≠ 0 := hdiv rfl
    simp only [intFloat, floatFloat, Coherent]
    rw [← BitVec.toInt_inj, divide_toInt hb (.inl (ne_intMin hno)), divide_hundredfold_toInt hb hno,
      tdiv_eq_hundredfold_iff _ (ne_zero_iff.mp hb), scaled_toInt]
    omega

/-- Fixed point first is coherent always, and integer first for sums and differences. -/
theorem mixed_arithmetic_coherent_iff {a b : Operand} (hmix : Mixed a b)
    (hsp : m.frame.sp + 4 ≤ dvmOpdepth) (hdiv : op = .div → b.toFixed ≠ 0)
    (hno : overflows op a.toFixed b.toFixed = false) :
    result (calculate code ans op a b m).2 =
      result (calculate code ans op (.fixed a.toFixed) (.fixed b.toFixed) m).2 ↔
        Coherent op a b := by
  rw [calculate_fixed_fixed hsp]
  match a, b, hmix with
  | .fixed a, .int i, _ =>
    rw [calculate_fixed_int hsp, pushed_inj]
    refine iff_of_true (floatInt_coherent (fun h hi => hdiv h ?_) hno) (by cases op <;> trivial)
    rw [hi]
    rfl
  | .int i, .fixed b, _ =>
    rw [calculate_int_fixed hsp, pushed_inj]
    exact intFloat_coherent_iff hdiv hno

def emptyMachine : Machine :=
  ⟨⟨0, 0, fun _ => ⟨0, 0⟩, fun _ => ⟨0, 0⟩⟩, ⟨fun _ => ⟨0, 0⟩, fun _ => ⟨0, fun _ => 0⟩, 0⟩, false,
    false, []⟩

def noAnswer : Answer := ⟨0, 0, ⟨0, 0⟩, ⟨0, fun _ => 0⟩⟩

/-- 2.50 divided by -3. -/
theorem fixed_by_integer_coherent :
    result (calculate (fun _ => 0) noAnswer .div (.fixed 250) (.int (-3)) emptyMachine).2 =
      result (calculate (fun _ => 0) noAnswer .div (.fixed 250) (.fixed (-300)) emptyMachine).2 :=
  (mixed_arithmetic_coherent_iff (show Mixed (.fixed 250) (.int (-3)) from trivial) (by decide)
    (by decide) (by decide)).mpr trivial

/-- One times 1.00 gives 100.00, and one divided by 1.00 gives 0.01. -/
theorem integer_first_off_by_hundred : overflows .mul 100 100 = false ∧
    overflows .div 100 100 = false ∧
    result (calculate (fun _ => 0) noAnswer .mul (.int 1) (.fixed 100) emptyMachine).2 =
      pushed emptyMachine 10000 ∧
    result (calculate (fun _ => 0) noAnswer .mul (.fixed 100) (.fixed 100) emptyMachine).2 =
      pushed emptyMachine 100 ∧
    result (calculate (fun _ => 0) noAnswer .div (.int 1) (.fixed 100) emptyMachine).2 =
      pushed emptyMachine 1 ∧
    result (calculate (fun _ => 0) noAnswer .div (.fixed 100) (.fixed 100) emptyMachine).2 =
      pushed emptyMachine 100 := by
  decide

end DvmArithmetic
