import SosKernel.MiniElfFiles
import Mathlib.Tactic.IntervalCases

/-! # Relocation, `melfloader.c` and `avr_melfloader.c` -/
namespace MiniElfLoader

open MiniElfFiles (Byte Word shtSymtab shtRela)

structure Sym where
  value : Word
  info : Byte

/-- `Melf_Sword` is an unsigned type. -/
structure Rela where
  offset : Word
  symbol : Word
  addend : Word
  type : Byte

/-- The code memory behind the handle of the module. -/
abbrev Image := Word → Byte

/-- The byte address of the image, and the word addresses that `ker_fntable_get_dfunc_addr`
finds, which are 0 where no module provides the function. -/
structure Env where
  baseAddr : BitVec 32
  dfuncAddr : Byte → Byte → Word

/-- The buffer `instr`. -/
@[ext] structure Instr where
  b0 : Byte
  b1 : Byte
  b2 : Byte
  b3 : Byte

/-- What a record type does; `ldi` is the twelve `LDI` types. -/
inductive Reloc where
  | pcrel7
  | pcrel13
  | abs16
  | pm16
  | ldi (shift : ℕ) (neg : Bool)
  | call

def relocOf (type : Byte) : Option Reloc :=
  match type.toNat with
  | 2 => some .pcrel7
  | 3 => some .pcrel13
  | 4 => some .abs16
  | 5 => some .pm16
  | 6 => some (.ldi 0 false)
  | 7 => some (.ldi 8 false)
  | 8 => some (.ldi 16 false)
  | 9 => some (.ldi 0 true)
  | 10 => some (.ldi 8 true)
  | 11 => some (.ldi 16 true)
  | 12 => some (.ldi 1 false)
  | 13 => some (.ldi 9 false)
  | 14 => some (.ldi 17 false)
  | 15 => some (.ldi 1 true)
  | 16 => some (.ldi 9 true)
  | 17 => some (.ldi 17 true)
  | 18 => some .call
  | _ => none

def writeLdi (i : Instr) (byte : Byte) : Instr :=
  { i with b0 := (i.b0 &&& 0xf0#8) ||| (byte &&& 0x0f#8), b1 := (i.b1 &&& 0xf0#8) ||| (byte >>> 4) }

def displacement (rela : Rela) (sym : Sym) : Word :=
  ((sym.value.setWidth 32 + rela.addend.setWidth 32) >>> 1).setWidth 16 - rela.offset >>> 1 - 1#16

/-- The switch on `r_type`. -/
def patch (k : Word) (addr : BitVec 32) (i : Instr) : Reloc → Instr
  | .pcrel7 => { i with
      b0 := i.b0 ||| ((k <<< 3) &&& 0xf8#16).setWidth 8
      b1 := i.b1 ||| ((k.sshiftRight 5) &&& 0x03#16).setWidth 8 }
  | .pcrel13 => { i with
      b0 := k.setWidth 8, b1 := (i.b1 &&& 0xf0#8) ||| ((k.sshiftRight 8) &&& 0x0f#16).setWidth 8 }
  | .abs16 => { i with b0 := addr.setWidth 8, b1 := (addr >>> 8).setWidth 8 }
  | .pm16 => { i with b0 := (addr >>> 1).setWidth 8, b1 := (addr >>> 1 >>> 8).setWidth 8 }
  | .ldi shift neg => writeLdi i (((if neg then -addr else addr) >>> shift).setWidth 8)
  | .call => { i with b2 := (addr >>> 1).setWidth 8, b3 := (addr >>> 1 >>> 8).setWidth 8 }

def width : Reloc → ℕ
  | .call => 4
  | _ => 2

def instrAt (image : Image) (off : Word) : Instr :=
  ⟨image off, image (off + 1), image (off + 2), image (off + 3)⟩

def Instr.byte (i : Instr) : ℕ → Byte
  | 0 => i.b0
  | 1 => i.b1
  | 2 => i.b2
  | _ => i.b3

def codememWrite (image : Image) (i : Instr) (nbytes : ℕ) (off : Word) : Image := fun o =>
  if (o - off).toNat < nbytes then i.byte (o - off).toNat else image o

def sttSosDfunc : Byte := 5

def IsDfunc (sym : Sym) : Prop := sym.info &&& 0x0f#8 = sttSosDfunc
  deriving Decidable

def dfuncOf (env : Env) (sym : Sym) : Word :=
  env.dfuncAddr ((sym.value >>> 8).setWidth 8) (sym.value.setWidth 8)

/-- `base_addr + sh_offset + st_value + r_addend`. -/
def symbolAddr (env : Env) (prog : Word) (rela : Rela) (sym : Sym) : BitVec 32 :=
  env.baseAddr + prog.setWidth 32 + sym.value.setWidth 32 + rela.addend.setWidth 32

def relocAddr (env : Env) (prog : Word) (rela : Rela) (sym : Sym) : BitVec 32 :=
  if IsDfunc sym then (dfuncOf env sym).setWidth 32 else symbolAddr env prog rela sym

def melfArchRelocate (env : Env) (prog : Word) (rela : Rela) (sym : Sym) (image : Image) :
    Int × Image :=
  if IsDfunc sym ∧ dfuncOf env sym = 0 then (-1, image)
  else match relocOf rela.type with
    | none => (0, image)
    | some r =>
      let off := prog + rela.offset
      (0, codememWrite image (patch (displacement rela sym) (relocAddr env prog rela sym)
        (instrAt image off) r) (width r) off)

def word (high low : Byte) : Word := high.setWidth 16 <<< 8 ||| low.setWidth 16

/-- The upper bits in the first word of a `CALL`. -/
def callHigh (i : Instr) : BitVec 6 :=
  (i.b1 &&& 0x01#8).setWidth 6 <<< 5 ||| (i.b0 >>> 4).setWidth 6 <<< 1 |||
    (i.b0 &&& 0x01#8).setWidth 6

/-- The instruction at byte address `pc` refers to the byte address `addr`. -/
def Denotes (pc addr : BitVec 32) (i : Instr) : Reloc → Prop
  | .pcrel7 => pc + (2#32 + 2#32 * ((word i.b1 i.b0 >>> 3).setWidth 7).signExtend 32) = addr
  | .pcrel13 => pc + (2#32 + 2#32 * ((word i.b1 i.b0).setWidth 12).signExtend 32) = addr
  | .abs16 => (word i.b1 i.b0).setWidth 32 = addr
  | .pm16 => (word i.b1 i.b0).setWidth 32 = addr >>> 1
  | .ldi shift neg => i.b1 <<< 4 ||| (i.b0 &&& 0x0f#8) =
      ((if neg then -addr else addr) >>> shift).setWidth 8
  | .call => (callHigh i).setWidth 32 <<< 16 ||| (word i.b3 i.b2).setWidth 32 = addr >>> 1

/-- `i'` has the bits of `i` outside the field of the record type. -/
def SameOutside (i i' : Instr) : Reloc → Prop
  | .pcrel7 => i'.b0 &&& 0x07#8 = i.b0 &&& 0x07#8 ∧ i'.b1 &&& 0xfc#8 = i.b1 &&& 0xfc#8 ∧
      i'.b2 = i.b2 ∧ i'.b3 = i.b3
  | .pcrel13 => i'.b1 &&& 0xf0#8 = i.b1 &&& 0xf0#8 ∧ i'.b2 = i.b2 ∧ i'.b3 = i.b3
  | .abs16 | .pm16 => i'.b2 = i.b2 ∧ i'.b3 = i.b3
  | .ldi _ _ => i'.b0 &&& 0xf0#8 = i.b0 &&& 0xf0#8 ∧ i'.b1 &&& 0xf0#8 = i.b1 &&& 0xf0#8 ∧
      i'.b2 = i.b2 ∧ i'.b3 = i.b3
  | .call => i'.b0 = i.b0 ∧ i'.b1 = i.b1

/-- The loader ors the displacement of a branch into its field. -/
def FieldZero (i : Instr) : Reloc → Prop
  | .pcrel7 => i.b0 &&& 0x07#8 = i.b0 ∧ i.b1 &&& 0xfc#8 = i.b1
  | _ => True

variable {x : BitVec 32} {h : BitVec 6} {a b : Byte}

lemma bytes_of_word
    (hx : h.setWidth 32 <<< 16 ||| (word a b).setWidth 32 = x) :
    x.setWidth 8 = b ∧ (x >>> 8).setWidth 8 = a := by
  subst hx
  constructor <;> ext j hj <;> interval_cases j <;> simp [word]

lemma zero_high (hx : (word a b).setWidth 32 = x) :
    (0#6).setWidth 32 <<< 16 ||| (word a b).setWidth 32 = x := by
  simpa using hx

variable {env : Env} {prog : Word} {rela : Rela} {sym : Sym} {image : Image} {i i' : Instr}
  {r : Reloc}

def instrAddr (env : Env) (prog : Word) (rela : Rela) : BitVec 32 :=
  env.baseAddr + prog.setWidth 32 + rela.offset.setWidth 32

/-- The byte address that the record resolves to. -/
def target (env : Env) (prog : Word) (rela : Rela) (sym : Sym) : BitVec 32 :=
  if IsDfunc sym then (dfuncOf env sym).setWidth 32 <<< 1 else symbolAddr env prog rela sym

/-- `i'` is the instruction `i` as the record should leave it. -/
structure Relocated (env : Env) (prog : Word) (rela : Rela) (sym : Sym) (r : Reloc)
    (i i' : Instr) : Prop where
  outside : SameOutside i i' r
  denotes : Denotes (instrAddr env prog rela) (target env prog rela sym) i' r

/-- What the loader writes for the word address `w` of a function is right: the byte of an
immediate is the same for `w` and for the byte address, or `st_value` lies as far from the
branch as the function. -/
def Coincides (pc : BitVec 32) (k : Word) (w : BitVec 32) : Reloc → Prop
  | .pcrel7 => pc + (2#32 + 2#32 * (k.setWidth 7).signExtend 32) = w <<< 1
  | .pcrel13 => pc + (2#32 + 2#32 * (k.setWidth 12).signExtend 32) = w <<< 1
  | .ldi shift neg => ((if neg then -w else w) >>> shift).setWidth 8 =
      ((if neg then -(w <<< 1) else w <<< 1) >>> shift).setWidth 8
  | _ => False

def Suits (env : Env) (prog : Word) (rela : Rela) (sym : Sym) (r : Reloc) : Prop :=
  IsDfunc sym → Coincides (instrAddr env prog rela) (displacement rela sym)
    ((dfuncOf env sym).setWidth 32) r

section

variable {w : ℕ} {d d' : BitVec w}

lemma setWidth_signExtend (hw : w ≤ 16) : (d.signExtend 16).setWidth w = d := by
  ext j hj
  simp [BitVec.getElem_signExtend, hj, show j < 16 by omega]

lemma branch_iff {y : BitVec 32} (hw : w ≤ 16) (h : x + (2#32 + 2#32 * d.signExtend 32) = y) :
    d' = d ↔ x + (2#32 + 2#32 * d'.signExtend 32) = y := by
  refine ⟨fun hd => hd ▸ h, fun h' => ?_⟩
  rw [← h, BitVec.add_right_inj, BitVec.add_right_inj] at h'
  have hnat := congrArg BitVec.toNat h'
  rw [← setWidth_signExtend (d := d) hw, ← setWidth_signExtend (d := d') hw]
  congr 1
  apply BitVec.eq_of_toNat_eq
  simp only [BitVec.signExtend, BitVec.toNat_mul, BitVec.toNat_ofInt, BitVec.toNat_ofNat] at hnat ⊢
  omega

lemma displacement_eq (hw : w ≤ 16) (h : instrAddr env prog rela + (2#32 + 2#32 * d.signExtend 32) =
      symbolAddr env prog rela sym) :
    (displacement rela sym).setWidth w = d := by
  rw [instrAddr, symbolAddr, BitVec.add_assoc _ (rela.offset.setWidth 32),
    BitVec.add_assoc _ (sym.value.setWidth 32), BitVec.add_right_inj] at h
  have hnat := congrArg BitVec.toNat h
  rw [← setWidth_signExtend (d := d) hw]
  congr 1
  apply BitVec.eq_of_toNat_eq
  simp only [BitVec.signExtend, BitVec.toNat_add, BitVec.toNat_mul, BitVec.toNat_setWidth,
    BitVec.toNat_ofInt, displacement, BitVec.toNat_sub, BitVec.toNat_ushiftRight,
    Nat.shiftRight_eq_div_pow, BitVec.toNat_ofNat] at hnat ⊢
  have h1 := rela.offset.isLt
  have h2 := rela.addend.isLt
  have h3 := sym.value.isLt
  omega

end

/-- What the patched field holds. -/
def Holds (k : Word) (addr : BitVec 32) (i : Instr) : Reloc → Prop
  | .pcrel7 => k.setWidth 7 = (word i.b1 i.b0 >>> 3).setWidth 7
  | .pcrel13 => k.setWidth 12 = (word i.b1 i.b0).setWidth 12
  | .abs16 => addr.setWidth 8 = i.b0 ∧ (addr >>> 8).setWidth 8 = i.b1
  | .pm16 => (addr >>> 1).setWidth 8 = i.b0 ∧ (addr >>> 1 >>> 8).setWidth 8 = i.b1
  | .ldi shift neg => ((if neg then -addr else addr) >>> shift).setWidth 8 =
      i.b1 <<< 4 ||| (i.b0 &&& 0x0f#8)
  | .call => (addr >>> 1).setWidth 8 = i.b2 ∧ (addr >>> 1 >>> 8).setWidth 8 = i.b3

lemma patch_eq_iff {k : Word} {addr : BitVec 32} (hsame : SameOutside i i' r)
    (hzero : FieldZero i r) : patch k addr i r = i' ↔ Holds k addr i' r := by
  cases r with
  | pcrel7 =>
    obtain ⟨h0, h1, h2, h3⟩ := hsame
    constructor
    · rintro rfl
      simp only [Holds, patch]
      rw [← hzero.1, ← hzero.2]
      ext j hj
      interval_cases j <;> simp [word, BitVec.getElem_sshiftRight]
    · intro hk
      have hbit : ∀ j (_ : j < 7), k[j] = (word i'.b1 i'.b0)[3 + j] := fun j hj => by
        rw [← BitVec.getLsbD_eq_getElem, ← BitVec.getLsbD_eq_getElem]
        simpa [hj] using BitVec.eq_of_getElem_eq_iff.mp hk j hj
      rw [patch, ← hzero.1, ← hzero.2, ← h0, ← h1, ← h2, ← h3]
      ext j hj : 2
      · interval_cases j <;> simp [hbit, word]
      · interval_cases j <;> simp [hbit, word, BitVec.getElem_sshiftRight]
      · rfl
      · rfl
  | pcrel13 =>
    obtain ⟨h1, h2, h3⟩ := hsame
    constructor
    · rintro rfl
      ext j hj
      interval_cases j <;> simp [patch, word, BitVec.getElem_sshiftRight]
    · intro hk
      have hbit : ∀ j (_ : j < 12), k[j] = (word i'.b1 i'.b0)[j] := fun j hj => by
        rw [← BitVec.getLsbD_eq_getElem, ← BitVec.getLsbD_eq_getElem]
        simpa [hj] using BitVec.eq_of_getElem_eq_iff.mp hk j hj
      rw [patch, ← h1, ← h2, ← h3]
      ext j hj : 2
      · interval_cases j <;> simp [hbit, word]
      · interval_cases j <;> simp [hbit, word, BitVec.getElem_sshiftRight]
      · rfl
      · rfl
  | abs16 => simp [patch, Holds, Instr.ext_iff, hsame.1, hsame.2]
  | pm16 => simp [patch, Holds, Instr.ext_iff, hsame.1, hsame.2]
  | ldi shift neg =>
    obtain ⟨h0, h1, h2, h3⟩ := hsame
    constructor
    · rintro rfl
      ext j hj
      interval_cases j <;> simp [patch, writeLdi]
    · intro hk
      rw [patch, hk, writeLdi, ← h0, ← h1, ← h2, ← h3]
      ext j hj : 2
      · interval_cases j <;> simp
      · interval_cases j <;> simp
      · rfl
      · rfl
  | call => simp [patch, Holds, Instr.ext_iff, hsame.1, hsame.2]


lemma holds_of_denotes
    (hden : Denotes (instrAddr env prog rela) (symbolAddr env prog rela sym) i' r) :
    Holds (displacement rela sym) (symbolAddr env prog rela sym) i' r := by
  cases r with
  | pcrel7 => exact displacement_eq (by decide) hden
  | pcrel13 => exact displacement_eq (by decide) hden
  | abs16 => exact bytes_of_word (zero_high hden)
  | pm16 => exact bytes_of_word (zero_high hden)
  | ldi shift neg => exact hden.symm
  | call => exact bytes_of_word hden

/-- The lower bytes of a number tell it from its half. -/
lemma half_ne {y z : BitVec 32} (hz : z.toNat = y.toNat / 2 ∧ y.toNat < 65536 ∧ 0 < y.toNat)
    (hy : y.setWidth 8 = b ∧ (y >>> 8).setWidth 8 = a) :
    ¬ (z.setWidth 8 = b ∧ (z >>> 8).setWidth 8 = a) := by
  obtain ⟨rfl, rfl⟩ := hy
  rintro ⟨h0, h1⟩
  have h0 := congrArg BitVec.toNat h0
  have h1 := congrArg BitVec.toNat h1
  simp only [BitVec.toNat_setWidth, BitVec.toNat_ushiftRight, Nat.shiftRight_eq_div_pow] at h0 h1
  omega

lemma holds_dfunc_iff {pc : BitVec 32} {k w : Word} (hw : w ≠ 0)
    (hden : Denotes pc (w.setWidth 32 <<< 1) i' r) :
    Holds k (w.setWidth 32) i' r ↔ Coincides pc k (w.setWidth 32) r := by
  replace hw : w.toNat ≠ 0 := fun h => hw (BitVec.eq_of_toNat_eq h)
  have hlt := w.isLt
  have hword : (w.setWidth 32 >>> 1).toNat = (w.setWidth 32 <<< 1 >>> 1).toNat / 2 ∧
      (w.setWidth 32 <<< 1 >>> 1).toNat < 65536 ∧ 0 < (w.setWidth 32 <<< 1 >>> 1).toNat := by
    simp only [BitVec.toNat_ushiftRight, BitVec.toNat_setWidth, BitVec.toNat_shiftLeft,
      Nat.shiftLeft_eq, Nat.shiftRight_eq_div_pow]
    omega
  cases r with
  | pcrel7 => exact branch_iff (by decide) hden
  | pcrel13 => exact branch_iff (by decide) hden
  | abs16 =>
    refine iff_false_intro (half_ne ?_ (bytes_of_word (zero_high hden)))
    have hfit : (w.setWidth 32 <<< 1).toNat < 65536 := hden ▸ by simp; omega
    simp only [BitVec.toNat_setWidth, BitVec.toNat_shiftLeft, Nat.shiftLeft_eq] at hfit ⊢
    omega
  | pm16 => exact iff_false_intro (half_ne hword (bytes_of_word (zero_high hden)))
  | ldi shift neg => exact ⟨fun h => h.trans hden, fun h => h.trans hden.symm⟩
  | call => exact iff_false_intro (half_ne hword (bytes_of_word hden))

lemma instrAt_codememWrite {k off : Word} {addr : BitVec 32} :
    instrAt (codememWrite image (patch k addr (instrAt image off) r) (width r) off) off =
      patch k addr (instrAt image off) r := by
  have hsub : ∀ d : Word, off + d - off = d := fun d => by
    rw [BitVec.add_comm, BitVec.add_sub_cancel]
  ext1 <;> cases r <;>
    simp [instrAt, codememWrite, -BitVec.toNat_sub, hsub, Instr.byte, width, patch, writeLdi]

lemma melfArchRelocate_eq (hr : relocOf rela.type = some r)
    (hsym : IsDfunc sym → dfuncOf env sym ≠ 0) :
    melfArchRelocate env prog rela sym image = (0, codememWrite image
      (patch (displacement rela sym) (relocAddr env prog rela sym)
        (instrAt image (prog + rela.offset)) r) (width r) (prog + rela.offset)) := by
  rw [melfArchRelocate, if_neg (fun h => hsym h.1 h.2), hr]

lemma relocated_iff (hr : relocOf rela.type = some r) (hfound : IsDfunc sym → dfuncOf env sym ≠ 0)
    (hzero : FieldZero (instrAt image (prog + rela.offset)) r)
    (h : Relocated env prog rela sym r (instrAt image (prog + rela.offset)) i') :
    instrAt (melfArchRelocate env prog rela sym image).2 (prog + rela.offset) = i' ↔
      Suits env prog rela sym r := by
  have hden := h.denotes
  rw [melfArchRelocate_eq hr hfound, instrAt_codememWrite, patch_eq_iff h.outside hzero, relocAddr]
  unfold target at hden
  split at hden
  · rename_i hsym
    rw [if_pos hsym, holds_dfunc_iff (hfound hsym) hden]
    exact ⟨fun h _ => h, fun h => h hsym⟩
  · rename_i hsym
    rw [if_neg hsym]
    exact ⟨fun _ h => absurd h hsym, fun _ => holds_of_denotes hden⟩

/-- A record of an ordinary symbol is patched as it should be, and one of a linked function
only by coincidence. -/
theorem relocation_is_right (env : Env) (prog : Word) (rela : Rela) (sym : Sym) (image : Image)
    (r : Reloc) (i' : Instr) (hr : relocOf rela.type = some r)
    (hfound : IsDfunc sym → dfuncOf env sym ≠ 0)
    (hzero : FieldZero (instrAt image (prog + rela.offset)) r)
    (hright : Relocated env prog rela sym r (instrAt image (prog + rela.offset)) i') :
    (instrAt (melfArchRelocate env prog rela sym image).2 (prog + rela.offset) = i' ↔
      Suits env prog rela sym r) ∧
    ∀ o, width r ≤ (o - (prog + rela.offset)).toNat →
      (melfArchRelocate env prog rela sym image).2 o = image o := by
  refine ⟨relocated_iff hr hfound hzero hright, fun o ho => ?_⟩
  rw [melfArchRelocate_eq hr hfound]
  exact if_neg (Nat.not_lt_of_le ho)

def callImage : Image := fun o => [0x0e, 0x94].getD o.toNat 0

/-- A `CALL` of a function at word address `0x100` is patched to call `0x80`. -/
theorem linked_call_halved :
    instrAt (melfArchRelocate ⟨0, fun _ _ => 0x100⟩ 0 ⟨0, 0, 0, 18⟩ ⟨0x0501, sttSosDfunc⟩
      callImage).2 0 = ⟨0x0e, 0x94, 0x80, 0x00⟩ ∧
    Denotes 0 0x200 ⟨0x0e, 0x94, 0x00, 0x01⟩ .call := by
  constructor <;> rfl

theorem local_call_patched :
    instrAt (melfArchRelocate ⟨0, fun _ _ => 0⟩ 0 ⟨0, 0, 0, 18⟩ ⟨0x200, 0⟩ callImage).2 0 =
      ⟨0x0e, 0x94, 0x00, 0x01⟩ :=
  (relocation_is_right ⟨0, fun _ _ => 0⟩ 0 ⟨0, 0, 0, 18⟩ ⟨0x200, 0⟩ callImage .call
    ⟨0x0e, 0x94, 0x00, 0x01⟩ rfl nofun trivial ⟨⟨rfl, rfl⟩, rfl⟩).1.mpr nofun

structure Shdr where
  type : Byte
  offset : Word
  size : Word

def wordAt (image : Image) (o : Word) : Word := word (image (o + 1)) (image o)

def melfReadShdrNdx (image : Image) (shndx : ℕ) : Shdr :=
  let o := BitVec.ofNat 16 (shndx * 8 + 4)
  ⟨image (o + 1), wordAt image (o + 2), wordAt image (o + 4)⟩

def melfReadSymbol (image : Image) (symshdr : Shdr) (symndx : Word) : Sym :=
  let o := symshdr.offset + symndx * 4
  ⟨wordAt image o, image (o + 2)⟩

def melfReadRela (image : Image) (relashdr : Shdr) (relandx : ℕ) : Rela :=
  let o := relashdr.offset + BitVec.ofNat 16 relandx * 8
  ⟨wordAt image o, wordAt image (o + 2), wordAt image (o + 4), image (o + 6)⟩

/-- The section headers on the stack of `melf_load_module`. -/
structure Headers where
  symshdr : Shdr
  progshdr : Shdr
  relashdr : Shdr

def shtProgbits : Byte := 1

def Headers.store (hs : Headers) (h : Shdr) : Headers :=
  if h.type = shtSymtab then { hs with symshdr := h }
  else if h.type = shtProgbits then { hs with progshdr := h }
  else if h.type = shtRela then { hs with relashdr := h }
  else hs

def shnum (image : Image) : ℕ := (image 2).toNat

/-- The image after the first relocation records. -/
def melfRelocate (env : Env) (hs : Headers) (image : Image) : ℕ → Image
  | 0 => image
  | n + 1 =>
    let image' := melfRelocate env hs image n
    let rela := melfReadRela image' hs.relashdr n
    let sym := melfReadSymbol image' hs.symshdr rela.symbol
    (melfArchRelocate env hs.progshdr.offset rela sym image').2

def numRela (hs : Headers) : ℕ := hs.relashdr.size.toNat / 8
def HasSection (image : Image) (type : Byte) : Prop :=
  ∃ i < shnum image, (melfReadShdrNdx image i).type = type

section

variable (env : Env) (hs : Headers) (image : Image) (n : ℕ)

def relaAt : Rela := melfReadRela (melfRelocate env hs image n) hs.relashdr n

def symAt : Sym :=
  melfReadSymbol (melfRelocate env hs image n) hs.symshdr (relaAt env hs image n).symbol

/-- The bytes that the record relocates, after the first `m` records. -/
def fieldAt (m : ℕ) : Instr :=
  instrAt (melfRelocate env hs image m) (hs.progshdr.offset + (relaAt env hs image n).offset)

/-- The record's field is patched with the address it resolves to. -/
def Patched : Prop :=
  let rela := relaAt env hs image n
  let sym := symAt env hs image n
  ∃ r, relocOf rela.type = some r ∧ (IsDfunc sym → dfuncOf env sym ≠ 0) ∧
    Relocated env hs.progshdr.offset rela sym r (fieldAt env hs image n n)
      (fieldAt env hs image n (n + 1))

/-- Every function that a symbol names is provided. -/
def Provided : Prop :=
  ∀ j < hs.symshdr.size.toNat / 4, IsDfunc (melfReadSymbol image hs.symshdr (.ofNat 16 j)) →
    dfuncOf env (melfReadSymbol image hs.symshdr (.ofNat 16 j)) ≠ 0

structure Linked : Prop where
  prog : HasSection image shtProgbits
  sym : HasSection image shtSymtab
  rela : HasSection image shtRela
  patched : ∀ n < numRela hs, Patched env hs image n
  provided : Provided env hs image

end

end MiniElfLoader
