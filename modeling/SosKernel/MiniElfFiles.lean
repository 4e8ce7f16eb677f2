import Mathlib.Algebra.Ring.Nat

/-! # Mini-ELF files, `minielflib.c`

`melf_write` lays out a header, the section headers and the data of the sections, and
`_readMelf` reads them back. Words are little endian in a file, whatever the host is. -/
namespace MiniElfFiles

open List Option

abbrev Byte := BitVec 8
abbrev Word := BitVec 16

/-- The host is built with `LLITTLE_ENDIAN` or with `BBIG_ENDIAN`. -/
inductive Endian where
  | little
  | big

def wordBytes : Endian → Word → List Byte
  | .little, w => [w.extractLsb' 0 8, w.extractLsb' 8 8]
  | .big, w => [w.extractLsb' 8 8, w.extractLsb' 0 8]

def bytesWord : Endian → Byte → Byte → Word
  | .little, a, b => b ++ a
  | .big, a, b => a ++ b

def ehtons : Endian → Word → Word
  | .little, w => w
  | .big, w => w.extractLsb' 0 8 ++ w.extractLsb' 8 8

/-- A macro of its own on a little endian host; on the other one it is `ehtons`. -/
def entohs : Endian → Word → Word
  | .little, w => w
  | .big, w => ehtons .big w

structure Mhdr where
  modhdrndx : Word
  shnum : Byte
  pad : Byte

structure Shdr where
  id : Byte
  type : Byte
  offset : Word
  size : Word
  link : Byte
  info : Byte

section

variable (o : Endian)

def ehtonMhdr (h : Mhdr) : Mhdr := { h with modhdrndx := ehtons o h.modhdrndx }

def entohMhdr (h : Mhdr) : Mhdr := { h with modhdrndx := entohs o h.modhdrndx }

def ehtonShdr (h : Shdr) : Shdr := { h with offset := ehtons o h.offset, size := ehtons o h.size }

def entohShdr (h : Shdr) : Shdr := { h with offset := entohs o h.offset, size := entohs o h.size }

def mhdrBytes (h : Mhdr) : List Byte := wordBytes o h.modhdrndx ++ [h.shnum, h.pad]

def shdrBytes (h : Shdr) : List Byte :=
  [h.id, h.type] ++ wordBytes o h.offset ++ wordBytes o h.size ++ [h.link, h.info]

end

structure Scn where
  shdr : Shdr
  data : List Byte

structure Melf where
  mhdr : Mhdr
  scns : List Scn

def ehtonBytes (o : Endian) (a b : Byte) : List Byte := wordBytes o (ehtons o (bytesWord o a b))

def entohBytes (o : Endian) (a b : Byte) : List Byte := wordBytes o (entohs o (bytesWord o a b))

def ehtonSymboltable (o : Endian) : List Byte → List Byte
  | a :: b :: info :: shid :: rest => ehtonBytes o a b ++ info :: shid :: ehtonSymboltable o rest
  | tail => tail

def entohSymboltable (o : Endian) : List Byte → List Byte
  | a :: b :: info :: shid :: rest => entohBytes o a b ++ info :: shid :: entohSymboltable o rest
  | tail => tail

def ehtonRelatable (o : Endian) : List Byte → List Byte
  | a :: b :: c :: d :: e :: f :: type :: pad :: rest =>
    ehtonBytes o a b ++ ehtonBytes o c d ++ ehtonBytes o e f ++
      type :: pad :: ehtonRelatable o rest
  | tail => tail

def entohRelatable (o : Endian) : List Byte → List Byte
  | a :: b :: c :: d :: e :: f :: type :: pad :: rest =>
    entohBytes o a b ++ entohBytes o c d ++ entohBytes o e f ++
      type :: pad :: entohRelatable o rest
  | tail => tail

def shtSymtab : Byte := 2
def shtRela : Byte := 4

def ehtonData (o : Endian) (type : Byte) (data : List Byte) : List Byte :=
  if type = shtSymtab then ehtonSymboltable o data
  else if type = shtRela then ehtonRelatable o data
  else data

def entohData (o : Endian) (type : Byte) (data : List Byte) : List Byte :=
  if type = shtSymtab then entohSymboltable o data
  else if type = shtRela then entohRelatable o data
  else data

def setOffsets (curroffset : Word) : List Scn → List Scn
  | [] => []
  | s :: rest => { s with shdr := { s.shdr with offset := curroffset } } ::
      setOffsets (curroffset + s.shdr.size) rest

def melfSetScnOffsets (m : Melf) : Melf :=
  { m with scns := setOffsets (4 + 8 * m.mhdr.shnum.setWidth 16) m.scns }

def dataBytes (o : Endian) (s : Scn) : List Byte :=
  if s.shdr.size = 0 then [] else (ehtonData o s.shdr.type s.data).take s.shdr.size.toNat

def melfWrite (o : Endian) (m : Melf) : List Byte :=
  mhdrBytes o (ehtonMhdr o m.mhdr) ++ m.scns.flatMap (fun s => shdrBytes o (ehtonShdr o s.shdr)) ++
    m.scns.flatMap (dataBytes o)

def readMhdr (o : Endian) : List Byte → Option (Mhdr × List Byte)
  | a :: b :: shnum :: pad :: rest => some (entohMhdr o ⟨bytesWord o a b, shnum, pad⟩, rest)
  | _ => none

def readShdr (o : Endian) : List Byte → Option (Shdr × List Byte)
  | id :: type :: a :: b :: c :: d :: link :: info :: rest =>
    some (entohShdr o ⟨id, type, bytesWord o a b, bytesWord o c d, link, info⟩, rest)
  | _ => none

def readShdrs (o : Endian) : ℕ → List Byte → Option (List Shdr)
  | 0, _ => some []
  | n + 1, file => do
    let (h, rest) ← readShdr o file
    let hs ← readShdrs o n rest
    return h :: hs

def readData (o : Endian) (file : List Byte) (h : Shdr) : Option Scn :=
  if h.size = 0 then some ⟨h, []⟩
  else if h.offset.toNat + h.size.toNat ≤ file.length then
    some ⟨h, entohData o h.type ((file.drop h.offset.toNat).take h.size.toNat)⟩
  else none

def readMelf (o : Endian) (file : List Byte) : Option Melf := do
  let (mhdr, rest) ← readMhdr o file
  let hs ← readShdrs o mhdr.shnum.toNat rest
  let scns ← hs.mapM (readData o file)
  return ⟨mhdr, scns⟩

lemma bytes_append (w : Word) : w.extractLsb' 8 8 ++ w.extractLsb' 0 8 = w := by
  rw [BitVec.extractLsb'_append_extractLsb'_eq_extractLsb' (by decide)]
  exact BitVec.extractLsb'_eq_self

@[simp] lemma low_append (a b : Byte) : (a ++ b).extractLsb' 0 8 = b := by
  ext i hi
  rw [BitVec.getElem_extractLsb', BitVec.getLsbD_append]
  simp [hi]

@[simp] lemma high_append (a b : Byte) : (a ++ b).extractLsb' 8 8 = a := by
  ext i hi
  rw [BitVec.getElem_extractLsb', BitVec.getLsbD_append]
  simp [hi]

section

variable (o : Endian)

@[simp] lemma entohs_ehtons (w : Word) : entohs o (ehtons o w) = w := by
  cases o with
  | little => rfl
  | big => simp [entohs, ehtons, bytes_append]

lemma readMhdr_append (h : Mhdr) (rest : List Byte) :
    readMhdr o (mhdrBytes o (ehtonMhdr o h) ++ rest) = some (h, rest) := by
  cases o <;> simp [readMhdr, mhdrBytes, wordBytes, bytesWord, bytes_append, ehtonMhdr, entohMhdr]

lemma readShdr_append (h : Shdr) (rest : List Byte) :
    readShdr o (shdrBytes o (ehtonShdr o h) ++ rest) = some (h, rest) := by
  cases o <;> simp [readShdr, shdrBytes, wordBytes, bytesWord, bytes_append, ehtonShdr, entohShdr]

lemma readShdrs_append (scns : List Scn) (rest : List Byte) :
    readShdrs o scns.length (scns.flatMap (fun s => shdrBytes o (ehtonShdr o s.shdr)) ++ rest) =
      some (scns.map Scn.shdr) := by
  induction scns with
  | nil => rfl
  | cons s scns ih => simp [readShdrs, readShdr_append, ih]

lemma ehtonBytes_eq (a b : Byte) :
    ehtonBytes o a b = match o with | .little => [a, b] | .big => [b, a] := by
  cases o <;> simp [ehtonBytes, wordBytes, ehtons, bytesWord]

lemma entohBytes_eq (a b : Byte) :
    entohBytes o a b = match o with | .little => [a, b] | .big => [b, a] := by
  cases o <;> simp [entohBytes, wordBytes, entohs, ehtons, bytesWord]

lemma entohSymboltable_ehton (data : List Byte) :
    entohSymboltable o (ehtonSymboltable o data) = data ∧
    (ehtonSymboltable o data).length = data.length := by
  fun_induction ehtonSymboltable o data with
  | case1 a b info shid rest ih =>
    cases o <;> simp [entohSymboltable, ehtonBytes_eq, entohBytes_eq, ih]
  | case2 tail htail => exact ⟨by rw [entohSymboltable.eq_2 _ _ htail], rfl⟩

lemma entohRelatable_ehton (data : List Byte) :
    entohRelatable o (ehtonRelatable o data) = data ∧
    (ehtonRelatable o data).length = data.length := by
  fun_induction ehtonRelatable o data with
  | case1 a b c d e f type pad rest ih =>
    cases o <;> simp [entohRelatable, ehtonBytes_eq, entohBytes_eq, ih]
  | case2 tail htail => exact ⟨by rw [entohRelatable.eq_2 _ _ htail], rfl⟩

lemma entohData_ehton (type : Byte) (data : List Byte) :
    entohData o type (ehtonData o type data) = data ∧
    (ehtonData o type data).length = data.length := by
  unfold entohData ehtonData
  split
  · exact entohSymboltable_ehton o data
  · split
    · exact entohRelatable_ehton o data
    · exact ⟨rfl, rfl⟩

end

/-- The header counts the sections, `sh_size` is the size of the data, and the file fits. -/
structure WellFormed (m : Melf) : Prop where
  shnum : m.mhdr.shnum.toNat = m.scns.length
  size : ∀ s ∈ m.scns, s.data.length = s.shdr.size.toNat
  fits : 4 + 8 * m.scns.length + (m.scns.map (fun s => s.shdr.size.toNat)).sum < 2 ^ 16

lemma dataBytes_eq {o : Endian} {s : Scn} (hs : s.data.length = s.shdr.size.toNat) :
    dataBytes o s = ehtonData o s.shdr.type s.data := by
  have hback := entohData_ehton o s.shdr.type s.data
  unfold dataBytes
  split
  · rename_i hzero
    rw [hzero] at hs
    exact (eq_nil_of_length_eq_zero (hback.2.trans hs)).symm
  · exact take_of_length_le (by omega)

lemma readData_append (o : Endian) (s : Scn) (before rest : List Byte)
    (hs : s.data.length = s.shdr.size.toNat) (hoff : before.length = s.shdr.offset.toNat) :
    readData o (before ++ (dataBytes o s ++ rest)) s.shdr = some s := by
  have hback := entohData_ehton o s.shdr.type s.data
  rw [dataBytes_eq hs]
  unfold readData
  split
  · rename_i hzero
    rw [hzero] at hs
    rw [← eq_nil_of_length_eq_zero hs]
  · have htake : (ehtonData o s.shdr.type s.data ++ rest).take s.shdr.size.toNat =
        ehtonData o s.shdr.type s.data := take_left' (by omega)
    rw [if_pos (by simp; omega), drop_left' hoff, htake, hback.1]

lemma readData_setOffsets {o : Endian} (scns : List Scn) (curroffset : Word) (before : List Byte)
    (hs : ∀ s ∈ scns, s.data.length = s.shdr.size.toNat) (hoff : before.length = curroffset.toNat)
    (hfits : before.length + (scns.map (fun s => s.shdr.size.toNat)).sum < 2 ^ 16) :
    ((setOffsets curroffset scns).map Scn.shdr).mapM
      (readData o (before ++ (setOffsets curroffset scns).flatMap (dataBytes o))) =
        some (setOffsets curroffset scns) := by
  induction scns generalizing curroffset before with
  | nil => rfl
  | cons s scns ih =>
    obtain ⟨hsize, hs⟩ := forall_mem_cons.mp hs
    rw [map_cons, sum_cons] at hfits
    have hnext : (curroffset + s.shdr.size).toNat = curroffset.toNat + s.shdr.size.toNat := by
      rw [BitVec.toNat_add, Nat.mod_eq_of_lt (by omega)]
    -- the data of `s` ends where the data of the next section starts
    have hlen : (dataBytes o s).length = s.shdr.size.toNat := by
      rw [dataBytes_eq hsize, (entohData_ehton _ _ _).2, hsize]
    have hrest := ih (curroffset + s.shdr.size) (before ++ dataBytes o s) hs
      (by rw [length_append, hlen, hnext, hoff])
      (by rw [length_append]; omega)
    have hhead := readData_append o { s with shdr := { s.shdr with offset := curroffset } } before
      ((setOffsets (curroffset + s.shdr.size) scns).flatMap (dataBytes o)) hsize hoff
    rw [append_assoc] at hrest
    simp only [setOffsets, map_cons, flatMap_cons, mapM_cons]
    exact (congrArg (Option.bind · _) hhead).trans (congrArg (Option.bind · _) hrest)

def Scn.withoutOffset (s : Scn) : Scn := { s with shdr := { s.shdr with offset := 0 } }

lemma setOffsets_withoutOffset (scns : List Scn) (curroffset : Word) :
    (setOffsets curroffset scns).map Scn.withoutOffset = scns.map Scn.withoutOffset := by
  induction scns generalizing curroffset with
  | nil => rfl
  | cons s scns ih => exact congrArg (s.withoutOffset :: ·) (ih _)

lemma setOffsets_length (scns : List Scn) (curroffset : Word) :
    (setOffsets curroffset scns).length = scns.length := by
  simpa using congrArg length (setOffsets_withoutOffset scns curroffset)

lemma setOffsets_offset (scns : List Scn) (curroffset : Word) (i : ℕ) (s : Scn)
    (hfits : curroffset.toNat + (scns.map (fun s => s.shdr.size.toNat)).sum < 2 ^ 16)
    (hs : (setOffsets curroffset scns)[i]? = some s) :
    s.shdr.offset.toNat =
      curroffset.toNat + ((scns.take i).map (fun s => s.shdr.size.toNat)).sum := by
  induction scns generalizing curroffset i with
  | nil => simp [setOffsets] at hs
  | cons s0 scns ih =>
    rw [map_cons, sum_cons] at hfits
    cases i with
    | zero =>
      simp only [setOffsets, getElem?_cons_zero, some.injEq] at hs
      simp [← hs]
    | succ i =>
      have hnext : (curroffset + s0.shdr.size).toNat = curroffset.toNat + s0.shdr.size.toNat := by
        rw [BitVec.toNat_add, Nat.mod_eq_of_lt (by omega)]
      have hrest := ih (curroffset + s0.shdr.size) i (by omega) (by simpa [setOffsets] using hs)
      rw [take_succ_cons, map_cons, sum_cons, hrest, hnext, Nat.add_assoc]

lemma headers_length (o : Endian) (h : Mhdr) (scns : List Scn) :
    (mhdrBytes o (ehtonMhdr o h) ++
      scns.flatMap (fun s => shdrBytes o (ehtonShdr o s.shdr))).length = 4 + 8 * scns.length := by
  have hshdr : ∀ h, (shdrBytes o h).length = 8 := fun h => by cases o <;> rfl
  have hmhdr : (mhdrBytes o (ehtonMhdr o h)).length = 4 := by cases o <;> rfl
  simp [hshdr, hmhdr, length_flatMap, map_const', Nat.mul_comm]

/-- The header and the sections of `m`, each section behind the data of those before it. -/
structure Carries (m m' : Melf) : Prop where
  mhdr : m'.mhdr = m.mhdr
  scns : m'.scns.map Scn.withoutOffset = m.scns.map Scn.withoutOffset
  offset : ∀ i s, m'.scns[i]? = some s → s.shdr.offset.toNat =
    4 + 8 * m.scns.length + ((m.scns.take i).map (fun s => s.shdr.size.toNat)).sum

theorem written_file_reads_back (o : Endian) (m : Melf) (hm : WellFormed m) :
    ∃ m', readMelf o (melfWrite o (melfSetScnOffsets m)) = some m' ∧
      m' = melfSetScnOffsets m ∧ Carries m m' := by
  have hfits := hm.fits
  have hstart : (4 + 8 * m.mhdr.shnum.setWidth 16 : Word).toNat = 4 + 8 * m.scns.length := by
    have hshnum := hm.shnum
    simp
    omega
  have hcarries : Carries m (melfSetScnOffsets m) := by
    refine ⟨rfl, setOffsets_withoutOffset _ _, fun i s hs => ?_⟩
    rw [setOffsets_offset m.scns _ i s (hstart ▸ hfits) hs, hstart]
  refine ⟨_, ?_, rfl, hcarries⟩
  have hlen := headers_length o m.mhdr (melfSetScnOffsets m).scns
  have hlength : (melfSetScnOffsets m).scns.length = m.scns.length := setOffsets_length _ _
  rw [hlength] at hlen
  have hdata := readData_setOffsets (o := o) m.scns (4 + 8 * m.mhdr.shnum.setWidth 16) _ hm.size
    (hlen.trans hstart.symm) (hlen ▸ hfits)
  unfold readMelf melfWrite
  rw [append_assoc, show (melfSetScnOffsets m).mhdr = m.mhdr from rfl, readMhdr_append]
  simp only [bind_eq_bind, bind_some]
  rw [hm.shnum, ← hlength, readShdrs_append, ← append_assoc]
  exact congrArg (Option.bind · _) hdata

def symbolFile : Melf where
  mhdr := ⟨0, 2, 0⟩
  scns := [⟨⟨0, 1, 0, 2, 0, 0⟩, [0x95, 0x08]⟩, ⟨⟨1, shtSymtab, 0, 4, 0, 0⟩, [0x12, 0x34, 1, 0]⟩]

theorem symbolFile_reads_back : WellFormed symbolFile ∧
    ∃ m', readMelf .big (melfWrite .big (melfSetScnOffsets symbolFile)) = some m' ∧
      m' = melfSetScnOffsets symbolFile ∧ Carries symbolFile m' :=
  have h : WellFormed symbolFile := ⟨rfl, by decide, by decide⟩
  ⟨h, written_file_reads_back .big symbolFile h⟩

end MiniElfFiles
