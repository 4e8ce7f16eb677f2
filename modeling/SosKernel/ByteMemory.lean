import Mathlib.Tactic.Ring

/-! # Byte-addressed memory with little-endian words

Memory is a total map from addresses to bytes. Words are runs of bytes, least
significant first. The frame rules speak of address ranges, never of objects. -/
namespace ByteMemory

abbrev Mem := ℕ → UInt8

def store (m : Mem) (a : ℕ) (b : UInt8) : Mem := Function.update m a b

def load (m : Mem) : ℕ → ℕ → ℕ
  | 0, _ => 0
  | n + 1, a => (m a).toNat + 256 * load m n (a + 1)

/-- Store the low `n` bytes of `v` at address `a`. -/
def storeWord (m : Mem) : ℕ → ℕ → ℕ → Mem
  | 0, _, _ => m
  | n + 1, a, v => storeWord (store m a (UInt8.ofNat v)) n (a + 1) (v / 256)

def copy (m : Mem) (dst src : ℕ) : ℕ → Mem
  | 0 => m
  | n + 1 => store (copy m dst src n) (dst + n) (copy m dst src n (src + n))

@[simp] lemma store_self (m : Mem) (a : ℕ) (b : UInt8) : store m a b a = b := by simp [store]

variable {a x n v k b dst src : ℕ}

lemma store_other (m : Mem) (b : UInt8) (h : x ≠ a) : store m a b x = m x := by simp [store, h]

lemma load_congr {m m' : Mem} (h : ∀ x, a ≤ x → x < a + n → m' x = m x) :
    load m' n a = load m n a := by
  induction n generalizing a with
  | zero => rfl
  | succ n ih =>
    simp only [load]
    rw [h a (le_refl a) (by omega), ih (fun x hl hu => h x (by omega) (by omega))]

lemma storeWord_outside (m : Mem) (h : x < a ∨ a + n ≤ x) : storeWord m n a v x = m x := by
  induction n generalizing m a v with
  | zero => rfl
  | succ n ih =>
    simp only [storeWord]
    rw [ih _ (by omega), store_other _ _ (by omega)]

lemma load_storeWord_self (m : Mem) (n a v : ℕ) : load (storeWord m n a v) n a = v % 256 ^ n := by
  induction n generalizing m a v with
  | zero => simp [load, Nat.mod_one]
  | succ n ih =>
    have hb : (UInt8.ofNat v).toNat = v % 256 := by simp
    simp only [load, storeWord]
    rw [ih, storeWord_outside _ (.inl (by omega)), store_self, hb, Nat.pow_succ,
      Nat.mul_comm (256 ^ n) 256, Nat.mod_mul]

lemma load_storeWord_apart (m : Mem) (h : a + n ≤ b ∨ b + k ≤ a) :
    load (storeWord m n a v) k b = load m k b :=
  load_congr (fun _ hl hu => storeWord_outside m (by omega))

lemma load_store_apart (m : Mem) (v : UInt8) (h : a < b ∨ b + k ≤ a) :
    load (store m a v) k b = load m k b :=
  load_congr (fun _ hl hu => store_other m v (by omega))

lemma copy_outside (m : Mem) (h : x < dst ∨ dst + n ≤ x) : copy m dst src n x = m x := by
  induction n with
  | zero => rfl
  | succ n ih =>
    simp only [copy]
    rw [store_other _ _ (by omega), ih (by omega)]

lemma copy_apart (m : Mem) (h : dst + n ≤ src ∨ src + n ≤ dst) (hk : k < n) :
    copy m dst src n (dst + k) = m (src + k) := by
  induction n with
  | zero => omega
  | succ n ih =>
    simp only [copy]
    rcases Nat.lt_succ_iff_lt_or_eq.mp hk with hlt | rfl
    · rw [store_other _ _ (by omega), ih (by omega) hlt]
    · rw [store_self, copy_outside m (by omega)]

end ByteMemory
