import Mathlib.Data.List.Basic
import Mathlib.Tactic.NormNum
import SosKernel.CodeMemory
import SosKernel.GuardedRuns

/-! # Allocation of flash pages

`Sound` relates the bitmap to the handle list: each handle owns a run of pages inside the code
memory, no two own one page, and the bitmap is their union. -/
namespace CodeMemoryAllocation

open ByteMemory CodeMemory GuardedRuns List Option

variable {c : Config} {s s' : State} {bits : List Bool} {hdr : CodememHdr} {size n i : ℕ}
  {page : Option Mem} {blocks p first : ℕ}

def FreeRun (bits : List Bool) (blocks p : ℕ) : Prop :=
  p + blocks ≤ bits.length ∧ ∀ i < blocks, bits[p + i]? = some false

lemma length_setRun (val : Bool) (n i : ℕ) (bits : List Bool) :
    (setRun val n i bits).length = bits.length := by
  induction n generalizing i bits with
  | zero => rfl
  | succ n ih => rw [setRun, ih, length_set]

lemma getElem?_setRun (val : Bool) (n i q : ℕ) (bits : List Bool) :
    (setRun val n i bits)[q]? =
      if i ≤ q ∧ q < i + n then bits[q]?.map (fun _ => val) else bits[q]? := by
  induction n generalizing i bits with
  | zero =>
    rw [if_neg (by omega)]
    rfl
  | succ n ih =>
    rw [setRun, ih]
    by_cases hq : q = i
    · subst hq
      by_cases hlt : q < bits.length
      · simp [hlt]
      · simp [hlt]
    · rw [getElem?_set_ne (Ne.symm hq)]
      by_cases hin : i + 1 ≤ q ∧ q < i + 1 + n
      · rw [if_pos hin, if_pos (by omega)]
      · rw [if_neg hin, if_neg (by omega)]

lemma firstFit_from (hle : blocks ≤ 255) (suf : List Bool) (i free : ℕ)
    (hsuf : bits.drop i = suf) (hi : i ≤ bits.length) (hfree : free < blocks) (hfi : free ≤ i)
    (hrun : ∀ q, i - free ≤ q → q < i → bits[q]? = some false)
    (hlow : ∀ p, FreeRun bits blocks p → i - free ≤ p) :
    match firstFit blocks suf i free with
    | none => ∀ p, ¬ FreeRun bits blocks p
    | some e => blocks ≤ e + 1 ∧ FreeRun bits blocks (e + 1 - blocks) ∧
      ∀ p, FreeRun bits blocks p → e + 1 - blocks ≤ p := by
  induction suf generalizing i free with
  | nil =>
    intro p hp
    have hlen : bits.length ≤ i := drop_eq_nil_iff.mp hsuf
    have := hlow p hp
    have := hp.1
    omega
  | cons b suf ih =>
    have hlt : i < bits.length := by
      by_contra hno
      rw [drop_eq_nil_of_le (by omega)] at hsuf
      cases hsuf
    have hbit : bits[i]? = some b := by
      rw [← head?_drop, hsuf]
      rfl
    have hsuf' : bits.drop (i + 1) = suf := by
      rw [← tail_drop, hsuf]
      rfl
    cases b with
    | true =>
      simp only [firstFit, if_true]
      rw [if_neg (by omega)]
      apply ih (i + 1) 0 hsuf' (by omega) (by omega) (by omega)
      · omega
      · intro p hp
        have hge := hlow p hp
        by_contra hsmall
        -- the run would reach over the allocated bit
        have hin := hp.2 (i - p) (by omega)
        have hsum : p + (i - p) = i := by omega
        rw [hsum, hbit] at hin
        cases hin
    | false =>
      have hmod : (free + 1) % 256 = free + 1 := Nat.mod_eq_of_lt (by omega)
      simp only [firstFit, Bool.false_eq_true, if_false, hmod]
      have hrun' : ∀ q, i - free ≤ q → q < i + 1 → bits[q]? = some false := by
        intro q hq hq'
        by_cases hqi : q = i
        · rw [hqi, hbit]
        · exact hrun q hq (by omega)
      by_cases hdone : free + 1 = blocks
      · rw [if_pos hdone]
        refine ⟨by omega, ⟨by omega, fun d hd => hrun' _ (by omega) (by omega)⟩, fun p hp => ?_⟩
        have := hlow p hp
        omega
      · rw [if_neg hdone]
        apply ih (i + 1) (free + 1) hsuf' (by omega) (by omega) (by omega)
        · intro q hq hq'
          exact hrun' q (by omega) hq'
        · intro p hp
          have := hlow p hp
          omega

lemma firstFit_some {e : ℕ} (hpos : 0 < blocks) (hle : blocks ≤ 255)
    (h : firstFit blocks bits 0 0 = some e) :
    blocks ≤ e + 1 ∧ FreeRun bits blocks (e + 1 - blocks) ∧
      ∀ p, FreeRun bits blocks p → e + 1 - blocks ≤ p := by
  have hspec := firstFit_from hle bits 0 0 rfl (Nat.zero_le _) hpos (Nat.le_refl _)
    (fun q _ hq => absurd hq (by omega)) (fun p _ => Nat.zero_le p)
  rwa [h] at hspec

lemma flashSetbitmap_eq {start length : ℕ} (val : Bool) (hfit : start + length ≤ bits.length)
    (hpos : 0 < length) (hsmall : bits.length ≤ 2040) :
    flashSetbitmap bits start length val = some (setRun val length start bits) := by
  have hfirst : start / 8 % 256 * 8 + start % 8 = start := by omega
  simp only [flashSetbitmap, hfirst]
  rw [if_neg (by omega), if_neg (by omega)]

def pagesFor (c : Config) (size : ℕ) : ℕ := (size + (c.flashmemPageSize - 1)) / c.flashmemPageSize

def firstPage (c : Config) (hdr : CodememHdr) : ℕ :=
  (hdr.startAddr - c.flashStartPageAddr) / c.flashmemPageSize

def Owns (c : Config) (hdr : CodememHdr) (p : ℕ) : Prop :=
  firstPage c hdr ≤ p ∧ p < firstPage c hdr + pagesFor c hdr.size

structure Region (c : Config) (hdr : CodememHdr) : Prop where
  start : hdr.startAddr = c.flashStartPageAddr + firstPage c hdr * c.flashmemPageSize
  inside : firstPage c hdr + pagesFor c hdr.size ≤ c.flashNumPages

def Live (s : State) (i : ℕ) (hdr : CodememHdr) : Prop := s.codememHandleList[i]? = some (some hdr)

structure Sound (c : Config) (s : State) : Prop where
  region : ∀ i hdr, Live s i hdr → Region c hdr
  disjoint : ∀ i j hdr hdr', Live s i hdr → Live s j hdr' → i ≠ j →
    ∀ p, Owns c hdr p → ¬ Owns c hdr' p
  bitmap : ∀ p, s.flashAllocBitmap[p]? = some true ↔ ∃ i hdr, Live s i hdr ∧ Owns c hdr p

structure Inv (c : Config) (s : State) : Prop extends Sound c s where
  bits : s.flashAllocBitmap.length = 8 * c.flashBitmapLength
  slots : s.codememHandleList.length = codememMaxLoadableModules
  counted : ∀ i hdr, Live s i hdr → numBlocks c hdr.size = pagesFor c hdr.size ∧
    0 < pagesFor c hdr.size ∧
    firstPage c hdr + pagesFor c hdr.size ≤ s.flashAllocBitmap.length

lemma bits_small (h : s.flashAllocBitmap.length = 8 * c.flashBitmapLength) :
    s.flashAllocBitmap.length ≤ 2040 := by
  have hlt : c.flashBitmapLength < 256 := Nat.mod_lt _ (by decide)
  omega

lemma pagesFor_pos (h : 1 ≤ size) : 0 < pagesFor c size := by
  apply Nat.div_pos
  · omega
  · exact c.page_pos

lemma numBlocks_eq (hwrap : size + (c.flashmemPageSize - 1) < c.intMod)
    (hcount : pagesFor c size ≤ 255) : numBlocks c size = pagesFor c size := by
  rw [numBlocks, Nat.mod_eq_of_lt hwrap]
  exact Nat.mod_eq_of_lt (by unfold pagesFor at hcount; omega)

lemma pageOffset_eq {page : ℕ} (h : 2 * (page * c.flashmemPageSize) < c.intMod) :
    pageOffset c page = page * c.flashmemPageSize := by
  apply Int.bmod_eq_of_le
  · omega
  · omega

inductive Call where
  | alloc (size : ℕ) (hdrMem : Bool) (page : Option Mem)
  | free (cm : ℕ)

def step (c : Config) (s : State) : Call → Option State
  | .alloc size hdrMem page => (kerCodememAlloc c s size hdrMem page).map Prod.fst
  | .free cm => (kerCodememFree c s cm).map Prod.fst

/-- The lowest free run of the rounded-up bitmap, if any, ends inside the code memory, at an
offset that an `int` can hold. -/
def RunInside (c : Config) (bits : List Bool) (blocks : ℕ) : Prop :=
  (∃ p, FreeRun bits blocks p) → ∃ p, FreeRun bits blocks p ∧ p + blocks ≤ c.flashNumPages ∧
    2 * (p * c.flashmemPageSize) < c.intMod

@[mk_iff] structure AllocFits (c : Config) (s : State) (size : ℕ) (page : Option Mem) : Prop where
  ram : s.flashCachePage.isSome ∨ page.isSome
  wrap : size + (c.flashmemPageSize - 1) < c.intMod
  count : pagesFor c size ≤ 255
  inside : RunInside c s.flashAllocBitmap (pagesFor c size)

def Legal (c : Config) (s : State) : Call → Prop
  | .alloc size hdrMem page => 1 ≤ size ∧ size ≤ 65535 ∧
    (none ∈ s.codememHandleList → hdrMem = true → AllocFits c s size page)
  | .free cm => cm % 256 ≠ codememMaxLoadableModules

instance (bits : List Bool) (blocks p : ℕ) : Decidable (FreeRun bits blocks p) :=
  inferInstanceAs (Decidable (_ ∧ _))

lemma exists_freeRun_iff {q : ℕ → Prop} :
    (∃ p, FreeRun bits blocks p ∧ q p) ↔ ∃ p < bits.length + 1, FreeRun bits blocks p ∧ q p := by
  constructor
  · rintro ⟨p, hfree, hq⟩
    have := hfree.1
    exact ⟨p, by omega, hfree, hq⟩
  · rintro ⟨p, -, h⟩
    exact ⟨p, h⟩

instance (c : Config) (bits : List Bool) (blocks : ℕ) : Decidable (RunInside c bits blocks) :=
  decidable_of_iff
    ((∃ p < bits.length + 1, FreeRun bits blocks p ∧ True) →
      ∃ p < bits.length + 1, FreeRun bits blocks p ∧ p + blocks ≤ c.flashNumPages ∧
        2 * (p * c.flashmemPageSize) < c.intMod)
    (by rw [← exists_freeRun_iff, ← exists_freeRun_iff]; simp only [and_true]; rfl)

instance (c : Config) (s : State) (size : ℕ) (page : Option Mem) :
    Decidable (AllocFits c s size page) :=
  decidable_of_iff' _ (allocFits_iff c s size page)

instance (c : Config) (s : State) (e : Call) : Decidable (Legal c s e) := by
  cases e <;> (dsimp only [Legal]; infer_instance)

lemma Inv.congr (h : Inv c s) (hb : s'.flashAllocBitmap = s.flashAllocBitmap)
    (hl : s'.codememHandleList = s.codememHandleList) : Inv c s' := by
  have hlive : ∀ i hdr, Live s' i hdr ↔ Live s i hdr := by
    intro i hdr
    rw [Live, Live, hl]
  refine ⟨⟨?_, ?_, ?_⟩, by rw [hb]; exact h.bits, by rw [hl]; exact h.slots, ?_⟩
  · intro i hdr hi
    exact h.region i hdr ((hlive i hdr).mp hi)
  · intro i j hdr hdr' hi hj
    exact h.disjoint i j hdr hdr' ((hlive i hdr).mp hi) ((hlive j hdr').mp hj)
  · intro p
    simp only [hb, hlive]
    exact h.bitmap p
  · intro i hdr hi
    rw [hb]
    exact h.counted i hdr ((hlive i hdr).mp hi)

lemma setRun_true_iff (hfit : i + n ≤ bits.length) :
    (setRun true n i bits)[p]? = some true ↔ (i ≤ p ∧ p < i + n) ∨ bits[p]? = some true := by
  rw [getElem?_setRun]
  by_cases hin : i ≤ p ∧ p < i + n
  · have hp : p < bits.length := by omega
    simp [hin, hp]
  · simp [hin]

lemma setRun_false_iff :
    (setRun false n i bits)[p]? = some true ↔ ¬ (i ≤ p ∧ p < i + n) ∧ bits[p]? = some true := by
  rw [getElem?_setRun]
  by_cases hin : i ≤ p ∧ p < i + n
  · simp [hin]
  · simp [hin]

lemma Inv.add (hdr : CodememHdr) {i : ℕ} (h : Inv c s) (hslot : s.codememHandleList[i]? = some none)
    (hregion : Region c hdr) (hcount : numBlocks c hdr.size = pagesFor c hdr.size)
    (hpos : 0 < pagesFor c hdr.size)
    (hfree : FreeRun s.flashAllocBitmap (pagesFor c hdr.size) (firstPage c hdr))
    (hb : s'.flashAllocBitmap =
      setRun true (pagesFor c hdr.size) (firstPage c hdr) s.flashAllocBitmap)
    (hl : s'.codememHandleList = s.codememHandleList.set i (some hdr)) : Inv c s' := by
  have hi : i < s.codememHandleList.length := (List.getElem?_eq_some_iff.mp hslot).1
  have hlive : ∀ j hdr', Live s' j hdr' ↔ (j = i ∧ hdr' = hdr) ∨ Live s j hdr' := by
    intro j hdr'
    rw [Live, Live, hl]
    by_cases hj : j = i
    · subst hj
      rw [getElem?_set_self hi, hslot]
      simp [eq_comm]
    · simp [getElem?_set_ne (Ne.symm hj), hj]
  have hlen : s'.flashAllocBitmap.length = s.flashAllocBitmap.length := by rw [hb, length_setRun]
  -- a page of the new run is free, so no other handle owns it
  have hnew : ∀ j hdr', Live s j hdr' → ∀ p, Owns c hdr p → ¬ Owns c hdr' p := by
    intro j hdr' hj p hp hp'
    have htrue := (h.bitmap p).mpr ⟨j, hdr', hj, hp'⟩
    obtain ⟨hlow, hhigh⟩ := hp
    have hfalse := hfree.2 (p - firstPage c hdr) (by omega)
    have hsum : firstPage c hdr + (p - firstPage c hdr) = p := by omega
    rw [hsum, htrue] at hfalse
    cases hfalse
  refine ⟨⟨?_, ?_, ?_⟩, hlen.trans h.bits, by rw [hl, length_set]; exact h.slots, ?_⟩
  · intro j hdr' hj
    rcases (hlive j hdr').mp hj with ⟨-, heq⟩ | hj
    · rw [heq]
      exact hregion
    · exact h.region j hdr' hj
  · intro j d hdr1 hdr2 hj hd hne p hp hp'
    rcases (hlive j hdr1).mp hj with ⟨hji, h1⟩ | hj
    · rcases (hlive d hdr2).mp hd with ⟨hdi, -⟩ | hd
      · exact hne (hji.trans hdi.symm)
      · exact hnew d hdr2 hd p (h1 ▸ hp) hp'
    · rcases (hlive d hdr2).mp hd with ⟨-, h2⟩ | hd
      · exact hnew j hdr1 hj p (h2 ▸ hp') hp
      · exact h.disjoint j d hdr1 hdr2 hj hd hne p hp hp'
  · intro p
    rw [hb, setRun_true_iff hfree.1, h.bitmap]
    constructor
    · rintro (hown | ⟨j, hdr', hj, hown⟩)
      · exact ⟨i, hdr, (hlive i hdr).mpr (.inl ⟨rfl, rfl⟩), hown⟩
      · exact ⟨j, hdr', (hlive j hdr').mpr (.inr hj), hown⟩
    · rintro ⟨j, hdr', hj, hown⟩
      rcases (hlive j hdr').mp hj with ⟨-, heq⟩ | hj
      · exact .inl (heq ▸ hown)
      · exact .inr ⟨j, hdr', hj, hown⟩
  · intro j hdr' hj
    rw [hlen]
    rcases (hlive j hdr').mp hj with ⟨-, heq⟩ | hj
    · rw [heq]
      exact ⟨hcount, hpos, hfree.1⟩
    · exact h.counted j hdr' hj

lemma Inv.remove {i : ℕ} (h : Inv c s) (hi : Live s i hdr) (hb : s'.flashAllocBitmap =
      setRun false (pagesFor c hdr.size) (firstPage c hdr) s.flashAllocBitmap)
    (hl : s'.codememHandleList = s.codememHandleList.set i none) : Inv c s' := by
  have hlt : i < s.codememHandleList.length := (List.getElem?_eq_some_iff.mp hi).1
  have hlive : ∀ j hdr', Live s' j hdr' ↔ j ≠ i ∧ Live s j hdr' := by
    intro j hdr'
    rw [Live, Live, hl]
    by_cases hj : j = i
    · subst hj
      simp [hlt]
    · simp [getElem?_set_ne (Ne.symm hj), hj]
  have hlen : s'.flashAllocBitmap.length = s.flashAllocBitmap.length := by rw [hb, length_setRun]
  refine ⟨⟨?_, ?_, ?_⟩, hlen.trans h.bits, by rw [hl, length_set]; exact h.slots, ?_⟩
  · intro j hdr' hj
    exact h.region j hdr' ((hlive j hdr').mp hj).2
  · intro j d hdr1 hdr2 hj hd
    exact h.disjoint j d hdr1 hdr2 ((hlive j hdr1).mp hj).2 ((hlive d hdr2).mp hd).2
  · intro p
    rw [hb, setRun_false_iff, h.bitmap]
    constructor
    · rintro ⟨hno, j, hdr', hj, hown⟩
      refine ⟨j, hdr', (hlive j hdr').mpr ⟨fun hji => ?_, hj⟩, hown⟩
      subst hji
      have heq : hdr' = hdr := some.inj (some.inj (hj.symm.trans hi))
      exact hno (heq ▸ hown)
    · rintro ⟨j, hdr', hj, hown⟩
      obtain ⟨hji, hj⟩ := (hlive j hdr').mp hj
      exact ⟨fun hin => h.disjoint j i hdr' hdr hj hi hji p hown hin, j, hdr', hj, hown⟩
  · intro j hdr' hj
    rw [hlen]
    exact h.counted j hdr' ((hlive j hdr').mp hj).2

lemma codememCacheAlloc_control (hram : s.flashCachePage.isSome ∨ page.isSome) :
    ∃ s1, codememCacheAlloc s page = some s1 ∧ s1.flashAllocBitmap = s.flashAllocBitmap ∧
      s1.codememHandleList = s.codememHandleList := by
  unfold codememCacheAlloc
  split
  · exact ⟨s, rfl, rfl, rfl⟩
  next hnone =>
    rw [hnone] at hram
    obtain ⟨p, hp⟩ := isSome_iff_exists.mp (hram.resolve_left (by simp))
    rw [hp]
    exact ⟨_, rfl, rfl, rfl⟩

lemma page_lt {page : ℕ} (h : page < c.startPage + c.flashNumPages) :
    page * c.flashmemPageSize < 2 ^ 32 := by
  calc page * c.flashmemPageSize
      < (c.startPage + c.flashNumPages) * c.flashmemPageSize :=
        Nat.mul_lt_mul_of_pos_right h c.page_pos
    _ ≤ 2 ^ 32 := c.addr_fits

lemma page_address (hin : first + n ≤ c.flashNumPages) (hn : 0 < n)
    (hint : 2 * (first * c.flashmemPageSize) < c.intMod) :
    ((c.flashStartPageAddr + pageOffset c first) % 2 ^ 32).toNat =
      c.flashStartPageAddr + first * c.flashmemPageSize := by
  have hlt : (c.startPage + first) * c.flashmemPageSize < 2 ^ 32 := page_lt (by omega)
  rw [Nat.add_mul] at hlt
  unfold Config.flashStartPageAddr
  rw [pageOffset_eq hint]
  have hcast : ((c.startPage * c.flashmemPageSize : ℕ) : ℤ) + (first : ℤ) * c.flashmemPageSize =
      ((c.startPage * c.flashmemPageSize + first * c.flashmemPageSize : ℕ) : ℤ) := by
    push_cast
    ring
  rw [hcast, Int.emod_eq_of_lt (Int.natCast_nonneg _) (by exact_mod_cast hlt), Int.toNat_natCast]

lemma firstPage_eq {salt : ℕ} :
    firstPage c ⟨c.flashStartPageAddr + first * c.flashmemPageSize, size, salt⟩ = first := by
  unfold firstPage
  rw [Nat.add_sub_cancel_left, Nat.mul_div_cancel _ c.page_pos]

lemma flashAlloc_spec (h : Inv c s) (hsize : 1 ≤ size) (hfits : AllocFits c s size page) :
    ∃ s1 addr, flashAlloc c s size page = some (s1, addr) ∧
      s1.codememHandleList = s.codememHandleList ∧
      ((addr = 0 ∧ s1.flashAllocBitmap = s.flashAllocBitmap) ∨
        ∃ first, addr = c.flashStartPageAddr + first * c.flashmemPageSize ∧ addr ≠ 0 ∧
          first + pagesFor c size ≤ c.flashNumPages ∧
          FreeRun s.flashAllocBitmap (pagesFor c size) first ∧
          s1.flashAllocBitmap = setRun true (pagesFor c size) first s.flashAllocBitmap) := by
  have hpos : 0 < pagesFor c size := pagesFor_pos hsize
  have hblocks := numBlocks_eq hfits.wrap hfits.count
  obtain ⟨s1, halloc, hb1, hl1⟩ := codememCacheAlloc_control hfits.ram
  unfold flashAlloc
  rw [halloc]
  simp only [hblocks, hb1]
  cases hfit : firstFit (pagesFor c size) s.flashAllocBitmap 0 0 with
  | none => exact ⟨s1, 0, rfl, hl1, .inl ⟨rfl, hb1⟩⟩
  | some e =>
    obtain ⟨-, hfree, hmin⟩ := firstFit_some hpos hfits.count hfit
    set first := e + 1 - pagesFor c size with hfirst
    -- the scan stops at the lowest run, which lies at or below the one that is inside
    obtain ⟨p, hp, hpin, hpint⟩ := hfits.inside ⟨first, hfree⟩
    have hle := hmin p hp
    have hint : 2 * (first * c.flashmemPageSize) < c.intMod := by
      have := Nat.mul_le_mul_right c.flashmemPageSize hle
      omega
    have hin : first + pagesFor c size ≤ c.flashNumPages := by omega
    have hbits := flashSetbitmap_eq true hfree.1 hpos (bits_small h.bits)
    have hstart := Nat.mul_pos c.start_pos c.page_pos
    set bits' := setRun true (pagesFor c size) first s.flashAllocBitmap
    refine ⟨{ s1 with flashAllocBitmap := bits' },
      c.flashStartPageAddr + first * c.flashmemPageSize, ?_, hl1,
      .inr ⟨first, rfl, ?_, hin, hfree, rfl⟩⟩
    · simp only [← hfirst, hbits, map_some, page_address hin hpos hint]
    · unfold Config.flashStartPageAddr
      omega

lemma slot_free (hne : s.codememHandleList.findIdx Option.isNone ≠ s.codememHandleList.length) :
    s.codememHandleList[s.codememHandleList.findIdx Option.isNone]? = some none := by
  have hlt : s.codememHandleList.findIdx Option.isNone < s.codememHandleList.length :=
    lt_of_le_of_ne findIdx_le_length hne
  rw [getElem?_eq_getElem hlt]
  congr 1
  apply isNone_iff_eq_none.mp
  exact findIdx_getElem

lemma kerCodememAlloc_spec {hdrMem : Bool} (h : Inv c s)
    (hlegal : Legal c s (.alloc size hdrMem page)) :
    ∃ s' ret, kerCodememAlloc c s size hdrMem page = some (s', ret) ∧ Inv c s' ∧
      (ret = codememInvalid ∨ ∃ hdr, liveHdr s' ret = some hdr ∧ hdr.size = size) := by
  obtain ⟨hsize, -, hfits⟩ := hlegal
  unfold kerCodememAlloc
  simp only
  split
  · exact ⟨s, _, rfl, h, .inl rfl⟩
  next hslot =>
    have hnone := slot_free hslot
    set i := s.codememHandleList.findIdx Option.isNone with hi
    have hlt : i < s.codememHandleList.length := (List.getElem?_eq_some_iff.mp hnone).1
    split
    · exact ⟨s, _, rfl, h, .inl rfl⟩
    next hmem =>
      have hfit := hfits (mem_of_getElem? hnone) (by simpa using hmem)
      obtain ⟨s1, addr, hrun, hl1, hcase⟩ := flashAlloc_spec h hsize hfit
      rw [hrun, map_some]
      rcases hcase with ⟨hzero, hb⟩ | ⟨first, haddr, hne, hin, hfree, hb⟩
      · rw [if_pos hzero]
        exact ⟨s1, _, rfl, h.congr hb hl1, .inl rfl⟩
      · rw [if_neg hne]
        set salt := (s1.codememSalt + 1) % 256 with hsalt
        have hfirst : firstPage c ⟨addr, size, salt⟩ = first := by
          rw [haddr]
          exact firstPage_eq
        refine ⟨_, _, rfl, ?_, .inr ⟨⟨addr, size, salt⟩, ?_, rfl⟩⟩
        · apply Inv.add (⟨addr, size, salt⟩ : CodememHdr) h hnone
          · exact ⟨by rw [hfirst]; exact haddr, by rw [hfirst]; exact hin⟩
          · exact numBlocks_eq hfit.wrap hfit.count
          · exact pagesFor_pos hsize
          · rw [hfirst]
            exact hfree
          · rw [hfirst]
            exact hb
          · rw [hl1]
        · have hslots := h.slots
          simp only [codememMaxLoadableModules] at hslots
          have hidx : (i + salt * 256) % 256 = i := by omega
          have hs : (i + salt * 256) / 256 % 256 = salt := by omega
          simp only [liveHdr, checkCodememT, hidx, hs, codememMaxLoadableModules, hl1]
          rw [if_neg (by omega), getElem?_set_self hlt]
          simp

lemma flashFree_eq (h : Inv c s) (hi : Live s i hdr) :
    flashFree c s hdr.startAddr hdr.size = some { s with
      flashAllocBitmap := setRun false (pagesFor c hdr.size) (firstPage c hdr) s.flashAllocBitmap
      flash := flashErase s.flash hdr.startAddr hdr.size } := by
  obtain ⟨hcount, hpos, hfit⟩ := h.counted i hdr hi
  have hregion := h.region i hdr hi
  have hsmall := bits_small h.bits
  have hpage := c.page_pos
  have hin := hregion.inside
  have hle : firstPage c hdr * c.flashmemPageSize < 2 ^ 32 := page_lt (by omega)
  have hb : (hdr.startAddr + 2 ^ 32 - c.flashStartPageAddr) % 2 ^ 32 / c.flashmemPageSize % 65536 =
      firstPage c hdr := by
    have hsub : hdr.startAddr + 2 ^ 32 - c.flashStartPageAddr =
        firstPage c hdr * c.flashmemPageSize + 2 ^ 32 := by
      have := hregion.start
      omega
    rw [hsub, Nat.add_mod_right, Nat.mod_eq_of_lt hle, Nat.mul_div_cancel _ hpage]
    omega
  unfold flashFree
  simp only [hb, hcount]
  rw [flashSetbitmap_eq false hfit hpos hsmall, map_some]

lemma kerCodememFree_spec {cm : ℕ} (h : Inv c s) (hlegal : Legal c s (.free cm)) :
    ∃ s' code, kerCodememFree c s cm = some (s', code) ∧ Inv c s' := by
  have hslots := h.slots
  unfold kerCodememFree checkCodememT
  simp only
  split
  · exact ⟨s, _, rfl, h⟩
  next hle =>
    have hlt : cm % 256 < s.codememHandleList.length := by
      have hne : cm % 256 ≠ codememMaxLoadableModules := hlegal
      omega
    obtain ⟨entry, hentry⟩ : ∃ entry, s.codememHandleList[cm % 256]? = some entry :=
      ⟨_, getElem?_eq_getElem hlt⟩
    rw [hentry, map_some, bind_some]
    cases hf : entry.filter (fun hdr => decide (hdr.salt = cm / 256 % 256)) with
    | none => exact ⟨s, _, rfl, h⟩
    | some hdr =>
      obtain ⟨hsome, -⟩ := filter_eq_some_iff.mp hf
      have hi : Live s (cm % 256) hdr := by rw [Live, hentry, hsome]
      simp only [flashFree_eq h hi, map_some]
      exact ⟨_, _, rfl, h.remove hi rfl rfl⟩

lemma step_preserves_invariant (s : State) (e : Call) (h : Inv c s) (hlegal : Legal c s e) :
    ∃ s', step c s e = some s' ∧ Inv c s' := by
  cases e with
  | alloc size hdrMem page =>
    obtain ⟨s', ret, hrun, hinv, -⟩ := kerCodememAlloc_spec h hlegal
    exact ⟨s', by rw [step, hrun]; rfl, hinv⟩
  | free cm =>
    obtain ⟨s', code, hrun, hinv⟩ := kerCodememFree_spec h hlegal
    exact ⟨s', by rw [step, hrun]; rfl, hinv⟩

lemma inv_codememInit (flash : Mem) : Inv c (codememInit c flash) := by
  have hno : ∀ i hdr, ¬ Live (codememInit c flash) i hdr := by
    intro i hdr hi
    have hmem := mem_of_getElem? hi
    simp [codememInit] at hmem
  refine ⟨⟨?_, ?_, ?_⟩, by simp [codememInit], by simp [codememInit], ?_⟩
  · intro i hdr hi
    exact absurd hi (hno i hdr)
  · intro i j hdr hdr' hi
    exact absurd hi (hno i hdr)
  · intro p
    constructor
    · intro hp
      have hmem := mem_of_getElem? hp
      simp [codememInit] at hmem
    · rintro ⟨i, hdr, hi, -⟩
      exact absurd hi (hno i hdr)
  · intro i hdr hi
    exact absurd hi (hno i hdr)

/-- Over every run whose allocations fit, handles own disjoint runs of whole pages inside the
code memory, the bitmap is their union, and a handle that is returned is live. -/
theorem allocation_sound_over_runs (flash : Mem) {calls : List Call}
    (hvalid : ValidTrace (step c) (Legal c) (codememInit c flash) calls) :
    ∃ s, runTrace (step c) (codememInit c flash) calls = some s ∧ Sound c s ∧
      ∀ size hdrMem page, Legal c s (.alloc size hdrMem page) →
        ∃ s' ret, kerCodememAlloc c s size hdrMem page = some (s', ret) ∧ Sound c s' ∧
          (ret = codememInvalid ∨ ∃ hdr, liveHdr s' ret = some hdr ∧ hdr.size = size) := by
  obtain ⟨s, hrun, hinv⟩ := run_invariant step_preserves_invariant (inv_codememInit flash) hvalid
  refine ⟨s, hrun, hinv.toSound, fun size hdrMem page hlegal => ?_⟩
  obtain ⟨s', ret, hcall, hinv', hret⟩ := kerCodememAlloc_spec hinv hlegal
  exact ⟨s', ret, hcall, hinv'.toSound, hret⟩

def sampleConfig : Config := ⟨256, 80, 16, 65536, by decide, by decide, by decide⟩

def sampleStart : State := codememInit sampleConfig (fun _ => 0xff)

def sampleCalls : List Call := [.alloc 600 true (some fun _ => 0), .free 0x100]

lemma sampleCalls_valid :
    ValidTrace (step sampleConfig) (Legal sampleConfig) sampleStart sampleCalls := by
  decide +kernel

theorem allocation_sound_sample :
    ValidTrace (step sampleConfig) (Legal sampleConfig) sampleStart sampleCalls ∧
      ∃ s, runTrace (step sampleConfig) sampleStart sampleCalls = some s ∧ Sound sampleConfig s ∧
        ∀ size hdrMem page, Legal sampleConfig s (.alloc size hdrMem page) →
          ∃ s' ret, kerCodememAlloc sampleConfig s size hdrMem page = some (s', ret) ∧
            Sound sampleConfig s' ∧
            (ret = codememInvalid ∨ ∃ hdr, liveHdr s' ret = some hdr ∧ hdr.size = size) :=
  ⟨sampleCalls_valid, allocation_sound_over_runs _ sampleCalls_valid⟩

/-- Without memory for the page in RAM, `-ENOMEM` is taken for an address. -/
theorem no_ram_page_unsound :
    ∃ s', kerCodememAlloc sampleConfig sampleStart 100 true none = some (s', 0x100) ∧
      ¬ Sound sampleConfig s' := by
  refine ⟨_, rfl, fun hsound => ?_⟩
  have hregion := hsound.region 0 ⟨2 ^ 32 - 12, 100, 1⟩ rfl
  exact absurd hregion.inside (by decide)

end CodeMemoryAllocation
