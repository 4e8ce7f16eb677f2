import Mathlib.Data.List.Basic
import Mathlib.Data.Nat.Find

/-! # The memory map, `memmap.c`

Every block of eight bytes has a record of its owner, and a byte of the table holds several. A
`Memmap` goes on behind the table: after the last record of a byte the loops read the next one and
write it back. Sizes are those of the AVR. -/
namespace MemoryMap

inductive NumDomains where
  | two | eight

namespace NumDomains

/-- `MEMMAP_REC_BITS`: the number of a domain and a bit for the first block of a segment. -/
def recBits : NumDomains → ℕ
  | two => 2
  | eight => 4

def recPerByte (d : NumDomains) : ℕ := 8 / d.recBits

def recMask (d : NumDomains) : BitVec 8 := ~~~(0xFF#8 <<< d.recBits)

def tableNdx (d : NumDomains) (blk : ℕ) : ℕ := blk / d.recPerByte

def byteOffset (d : NumDomains) (blk : ℕ) : ℕ := blk % d.recPerByte * d.recBits

end NumDomains

open NumDomains Function

/-- The value of a record. -/
instance {d : NumDomains} : CoeOut (BitVec d.recBits) (BitVec 8) := ⟨BitVec.setWidth 8⟩

def blockSize : ℕ := 8
def regionSize : ℕ := 4096

/-- `MEMMAP_BLK_OFFSET`; unlike the other masks it is not cut to a byte. -/
def blkOffset : BitVec 16 := ~~~(0xFF#16 <<< 3)

abbrev Memmap := ℕ → BitVec 8

/-- `MEMMAP_GET_PERMS`. -/
def getPerms (d : NumDomains) (m : Memmap) (blk : ℕ) : BitVec 8 :=
  m (d.tableNdx blk) >>> d.byteOffset blk &&& d.recMask

def replace (perms bm val : BitVec 8) : BitVec 8 := perms &&& ~~~bm ||| val

/-- `MEMMAP_SET_PERMS`. -/
def setPerms (d : NumDomains) (perms : BitVec 8) (m : Memmap) (blk : ℕ) : Memmap :=
  update m (d.tableNdx blk)
    (replace (m (d.tableNdx blk)) (d.recMask <<< d.byteOffset blk) (perms <<< d.byteOffset blk))

/-- The loop of `memmap_set_perms`, by `blocksleft`. -/
def setLoop (d : NumDomains) (segPerms : BitVec 8) :
    ℕ → Memmap → ℕ → BitVec 8 → BitVec 8 → BitVec 8 → Memmap
  | 0, m, i, perms, _, _ => update m i perms
  | left + 1, m, i, perms, bm, setVal =>
    let perms := replace perms bm setVal
    let bm := bm <<< d.recBits
    if bm = 0 then
      let m := update m i perms
      setLoop d segPerms left m (i + 1) (m (i + 1)) d.recMask segPerms
    else setLoop d segPerms left m i perms bm (setVal <<< d.recBits)

def memmapSetPerms (d : NumDomains) (m : Memmap) (baseaddr length : BitVec 16)
    (segPerms : BitVec 8) : Memmap :=
  if length = 0 then m
  else if length &&& blkOffset ≠ 0 then m
  else
    let blknum := baseaddr.toNat / blockSize
    let i := d.tableNdx blknum
    let offset := d.byteOffset blknum
    setLoop d segPerms (length.toNat / blockSize) m i (m i) (d.recMask <<< offset)
      (segPerms <<< offset)

/-- The loop of `memmap_change_perms`; it ends at the first record that does not match. -/
def changeLoop (d : NumDomains) (mask check val : BitVec 8) :
    ℕ → Memmap → ℕ → BitVec 8 → BitVec 8 → BitVec 8 → BitVec 8 → BitVec 8 → ℕ →
      Option (Memmap × ℕ)
  | 0, _, _, _, _, _, _, _, _ => none
  | fuel + 1, m, i, perms, lmask, lcheck, lval, bm, nblocks =>
    if perms &&& lmask = lcheck then
      let perms := replace perms bm lval
      let nblocks := (nblocks + 1) % 65536
      let bm := bm <<< d.recBits
      if bm = 0 then
        let m := update m i perms
        changeLoop d mask check val fuel m (i + 1) (m (i + 1)) mask check val d.recMask nblocks
      else
        changeLoop d mask check val fuel m i perms (lmask <<< d.recBits) (lcheck <<< d.recBits)
          (lval <<< d.recBits) bm nblocks
    else some (update m i perms, nblocks)

def memmapChangePerms (d : NumDomains) (fuel : ℕ) (m : Memmap) (baseaddr : BitVec 16)
    (permMask permCheckVal permSetVal : BitVec 8) : Option (Memmap × ℕ) :=
  let blknum := baseaddr.toNat / blockSize
  let i := d.tableNdx blknum
  let offset := d.byteOffset blknum
  changeLoop d permMask permCheckVal permSetVal fuel m i (m i) (permMask <<< offset)
    (permCheckVal <<< offset) (permSetVal <<< offset) (d.recMask <<< offset) 0

variable {d : NumDomains} {m : Memmap} {x : BitVec 8} {v : BitVec d.recBits} {length : BitVec 16}

lemma recMask_getLsbD (i : ℕ) : d.recMask.getLsbD i = decide (i < d.recBits) := by
  have hd : d.recBits ≤ 8 := by cases d <;> decide
  rw [recMask, show 0xFF#8 = BitVec.allOnes 8 from rfl, BitVec.getLsbD_not,
    BitVec.getLsbD_shiftLeft, BitVec.getLsbD_allOnes]
  grind

lemma byte_record (j k : ℕ) (hj : j < d.recPerByte) (hk : k < d.recPerByte) :
    replace x (d.recMask <<< (k * d.recBits)) ((v : BitVec 8) <<< (k * d.recBits)) >>>
        (j * d.recBits) &&& d.recMask =
      if j = k then (v : BitVec 8) else x >>> (j * d.recBits) &&& d.recMask := by
  apply BitVec.eq_of_getLsbD_eq
  intro i hi
  have hv : d.recBits ≤ i → v.getLsbD i = false := BitVec.getLsbD_of_ge v i
  cases d <;> grind [replace, recMask_getLsbD, recBits, recPerByte]

lemma byte_matches {mask check : BitVec d.recBits} {j : ℕ} (hj : j < d.recPerByte) :
    x &&& (mask : BitVec 8) <<< (j * d.recBits) = (check : BitVec 8) <<< (j * d.recBits) ↔
      x >>> (j * d.recBits) &&& d.recMask &&& mask = check := by
  constructor
  · intro h
    apply BitVec.eq_of_getLsbD_eq
    intro i hi
    have hbit := congrArg (BitVec.getLsbD · (j * d.recBits + i)) h
    cases d <;> grind [recMask_getLsbD, recBits, recPerByte]
  · intro h
    apply BitVec.eq_of_getLsbD_eq
    intro i hi
    have hbit := congrArg (BitVec.getLsbD · (i - j * d.recBits)) h
    cases d <;> grind [recMask_getLsbD, recBits, recPerByte]

lemma mask_gone_iff (d : NumDomains) :
    ∀ j < d.recPerByte, d.recMask <<< (j * d.recBits) <<< d.recBits = 0 ↔ j + 1 = d.recPerByte := by
  cases d <;> decide

lemma mod_lt (blk : ℕ) : blk % d.recPerByte < d.recPerByte := Nat.mod_lt _ (by cases d <;> decide)

/-- Where the loops go from a block: to the next byte when its mask is shifted out. -/
lemma next_block (d : NumDomains) (blk : ℕ) :
    (d.recMask <<< d.byteOffset blk <<< d.recBits = 0 →
      d.tableNdx (blk + 1) = d.tableNdx blk + 1 ∧ d.byteOffset (blk + 1) = 0) ∧
    (d.recMask <<< d.byteOffset blk <<< d.recBits ≠ 0 → d.tableNdx (blk + 1) = d.tableNdx blk ∧
      d.byteOffset (blk + 1) = d.byteOffset blk + d.recBits) := by
  simp only [byteOffset, ne_eq, mask_gone_iff d _ (mod_lt blk), tableNdx]
  cases d <;> simp only [recPerByte, recBits, Nat.reduceDiv] <;> omega

lemma getPerms_setPerms (blk b : ℕ) : getPerms d (setPerms d v m blk) b =
    if b = blk then (v : BitVec 8) else getPerms d m b := by
  have hbyte := byte_record (x := m (d.tableNdx blk)) (v := v) _ _ (mod_lt b) (mod_lt blk)
  by_cases hi : d.tableNdx b = d.tableNdx blk
  · have hb : b = blk ↔ b % d.recPerByte = blk % d.recPerByte := by
      refine ⟨congrArg (· % d.recPerByte), fun h => ?_⟩
      rw [← Nat.div_add_mod b d.recPerByte, ← Nat.div_add_mod blk d.recPerByte, h]
      exact congrArg (d.recPerByte * · + _) hi
    rw [getPerms, setPerms, hi, update_self, byteOffset, byteOffset, hbyte, getPerms, hi]
    simp only [hb, byteOffset]
  · rw [getPerms, setPerms, update_of_ne hi, if_neg (hi <| congrArg _ ·), getPerms]

/-- The record of every block from `blk` on is set, for a number of blocks. -/
def setFrom (d : NumDomains) (perms : BitVec 8) : ℕ → ℕ → Memmap → Memmap
  | 0, _, m => m
  | n + 1, blk, m => setFrom d perms n (blk + 1) (setPerms d perms m blk)

lemma getPerms_setFrom (n blk b : ℕ) : getPerms d (setFrom d v n blk m) b =
    if blk ≤ b ∧ b < blk + n then (v : BitVec 8) else getPerms d m b := by
  induction n generalizing m blk with
  | zero => rw [setFrom, if_neg (by omega)]
  | succ n ih => grind [setFrom, getPerms_setPerms]

lemma setPerms_update (perms val : BitVec 8) (blk : ℕ) :
    setPerms d val (update m (d.tableNdx blk) perms) blk = update m (d.tableNdx blk)
      (replace perms (d.recMask <<< d.byteOffset blk) (val <<< d.byteOffset blk)) := by
  rw [setPerms, update_self, update_idem]

-- The table of the induction has the byte in its place that the loop still holds.
lemma setLoop_eq (val : BitVec 8) (n blk : ℕ) (perms : BitVec 8) :
    setLoop d val n m (d.tableNdx blk) perms (d.recMask <<< d.byteOffset blk)
        (val <<< d.byteOffset blk) = setFrom d val n blk (update m (d.tableNdx blk) perms) := by
  induction n generalizing m blk perms with
  | zero => rfl
  | succ n ih =>
    have hnext := next_block d blk
    rw [setLoop, setFrom, setPerms_update]
    generalize replace perms _ _ = p
    split
    next h =>
      have hnext := hnext.1 h
      generalize update m _ p = m'
      have hloop := ih (m := m') (blk + 1) (m' (d.tableNdx (blk + 1)))
      rwa [update_eq_self, hnext.1, hnext.2, BitVec.shiftLeft_zero, BitVec.shiftLeft_zero] at hloop
    next h =>
      have hloop := ih (m := m) (blk + 1) p
      rwa [(hnext.2 h).1, (hnext.2 h).2, BitVec.shiftLeft_add, BitVec.shiftLeft_add] at hloop

def Matches (d : NumDomains) (mask check : BitVec d.recBits) (m : Memmap) (blk : ℕ) : Prop :=
  getPerms d m blk &&& mask = check
  deriving Decidable

variable {mask check : BitVec d.recBits}

lemma head_matches (perms : BitVec 8) (blk : ℕ) :
    perms &&& (mask : BitVec 8) <<< d.byteOffset blk = (check : BitVec 8) <<< d.byteOffset blk ↔
      Matches d mask check (update m (d.tableNdx blk) perms) blk := by
  rw [Matches, getPerms, update_self]
  exact byte_matches (mod_lt blk)

/-- The run of matching records that starts at `blk`. -/
def MaximalRun (d : NumDomains) (mask check : BitVec d.recBits) (m : Memmap) (blk n : ℕ) : Prop :=
  (∀ j < n, Matches d mask check m (blk + j)) ∧ ¬Matches d mask check m (blk + n)

lemma MaximalRun.tail {blk n : ℕ} (h : MaximalRun d mask check m blk (n + 1)) :
    MaximalRun d mask check (setPerms d v m blk) (blk + 1) n := by
  have hkept (j : ℕ) : Matches d mask check (setPerms d v m blk) (blk + 1 + j) ↔
      Matches d mask check m (blk + (j + 1)) := by
    rw [Matches, getPerms_setPerms, if_neg (by omega), Nat.add_right_comm, Nat.add_assoc, Matches]
  exact ⟨fun j hj => (hkept j).mpr (h.1 _ (by omega)), fun hn => h.2 ((hkept n).mp hn)⟩

lemma changeLoop_eq {n fuel : ℕ} (blk : ℕ) (perms : BitVec 8) (count : ℕ) (hfuel : n < fuel)
    (hcount : count + n < 65536)
    (hrun : MaximalRun d mask check (update m (d.tableNdx blk) perms) blk n) :
    changeLoop d mask check v fuel m (d.tableNdx blk) perms
        ((mask : BitVec 8) <<< d.byteOffset blk) ((check : BitVec 8) <<< d.byteOffset blk)
        ((v : BitVec 8) <<< d.byteOffset blk) (d.recMask <<< d.byteOffset blk) count =
      some (setFrom d v n blk (update m (d.tableNdx blk) perms), count + n) := by
  induction n generalizing fuel m blk perms count with
  | zero =>
    obtain ⟨fuel, rfl⟩ := Nat.exists_eq_succ_of_ne_zero (Nat.ne_zero_of_lt hfuel)
    rw [changeLoop, if_neg (fun h => hrun.2 ((head_matches perms blk).mp h))]
    rfl
  | succ n ih =>
    obtain ⟨fuel, rfl⟩ := Nat.exists_eq_succ_of_ne_zero (Nat.ne_zero_of_lt hfuel)
    have hnext := next_block d blk
    have htail := hrun.tail (v := v)
    rw [changeLoop, if_pos ((head_matches perms blk).mpr (hrun.1 0 (Nat.succ_pos n))), setFrom,
      Nat.mod_eq_of_lt (show count + 1 < 65536 by omega), Nat.add_comm n, ← Nat.add_assoc]
    rw [setPerms_update] at htail ⊢
    generalize replace perms _ _ = p at *
    dsimp only
    split
    next h =>
      have hnext := hnext.1 h
      generalize update m _ p = m' at *
      have hloop := ih (m := m') (blk + 1) (m' (d.tableNdx (blk + 1))) (count + 1)
        (Nat.lt_of_succ_lt_succ hfuel) (by omega)
      rw [update_eq_self, hnext.1, hnext.2] at hloop
      simpa using hloop htail
    next h =>
      have hloop := ih (m := m) (blk + 1) p (count + 1) (Nat.lt_of_succ_lt_succ hfuel) (by omega)
      rw [(hnext.2 h).1, (hnext.2 h).2] at hloop
      simp only [BitVec.shiftLeft_add] at hloop
      exact hloop htail

/-- The upper bits of `MEMMAP_BLK_OFFSET` make half of the region too long. -/
lemma accepted_iff (h : blockSize ∣ length.toNat)
    (hle : length.toNat ≤ regionSize) : length &&& blkOffset = 0 ↔ length.toNat < 2048 := by
  obtain ⟨k, hk⟩ := h
  have hlength : BitVec.ofNat 16 (8 * k) = length := by
    rw [← show length.toNat = 8 * k from hk, BitVec.ofNat_toNat, BitVec.setWidth_eq]
  have hall : ∀ k < 513, (BitVec.ofNat 16 (8 * k) &&& blkOffset = 0 ↔ 8 * k < 2048) := by
    decide +kernel
  have hk' := hall k (by simp only [blockSize, regionSize] at hk hle; omega)
  rwa [hlength, ← show length.toNat = 8 * k from hk] at hk'

/-- The blocks of a segment. -/
def Covered (baseaddr length : BitVec 16) (b : ℕ) : Prop :=
  baseaddr.toNat ≤ blockSize * b ∧ blockSize * b < baseaddr.toNat + length.toNat

/-- Exactly the records in `blocks` are set. -/
def SetsExactly (d : NumDomains) (blocks : ℕ → Prop) (perms : BitVec 8) (m m' : Memmap) : Prop :=
  ∀ b, (blocks b → getPerms d m' b = perms) ∧ (¬blocks b → getPerms d m' b = getPerms d m b)

lemma setFrom_exact (n blk : ℕ) : SetsExactly d (fun b => blk ≤ b ∧ b < blk + n) v m
    (setFrom d v n blk m) := fun b =>
  ⟨fun h => (getPerms_setFrom n blk b).trans (if_pos h),
    fun h => (getPerms_setFrom n blk b).trans (if_neg h)⟩

lemma setPerms_exact {base : BitVec 16} (hbase : blockSize ∣ base.toNat)
    (h : blockSize ∣ length.toNat) (hlt : length.toNat < 2048) :
    SetsExactly d (Covered base length) v m (memmapSetPerms d m base length v) := by
  have hblocks : Covered base length = fun b => base.toNat / blockSize ≤ b ∧
      b < base.toNat / blockSize + length.toNat / blockSize := by
    funext b
    simp only [Covered, blockSize] at *
    exact propext (by omega)
  rw [hblocks, memmapSetPerms]
  split
  next h0 =>
    subst h0
    exact setFrom_exact 0 _
  next =>
    rw [if_neg (not_not.mpr ((accepted_iff h (by simp only [regionSize]; omega)).mpr hlt))]
    simp only [setLoop_eq, update_eq_self]
    exact setFrom_exact _ _

/-- `memmap_set_perms` is right for segments of less than half of the region, and
`memmap_change_perms` for runs that end in the table. -/
theorem packed_operations_iff (d : NumDomains) (m : Memmap) (base : BitVec 16)
    (hbase : blockSize ∣ base.toNat) :
    (∀ (length : BitVec 16) (v : BitVec d.recBits), blockSize ∣ length.toNat →
      base.toNat + length.toNat ≤ regionSize →
      (SetsExactly d (Covered base length) v m (memmapSetPerms d m base length v) ↔
        length.toNat < 2048 ∨ ∀ b, Covered base length b → getPerms d m b = v)) ∧
    ∀ mask check v : BitVec d.recBits,
      (∃ b, base.toNat ≤ blockSize * b ∧ blockSize * b < regionSize ∧ ¬Matches d mask check m b) →
      ∃ n m', MaximalRun d mask check m (base.toNat / blockSize) n ∧
        (∀ fuel > n, memmapChangePerms d fuel m base mask check v = some (m', n)) ∧
        SetsExactly d (fun b => base.toNat / blockSize ≤ b ∧ b < base.toNat / blockSize + n) v
          m m' := by
  classical
  refine ⟨fun length v h hle => ?_, fun mask check v ⟨b, hb, hin, hno⟩ => ?_⟩
  · by_cases hlt : length.toNat < 2048
    · exact iff_of_true (setPerms_exact hbase h hlt) (.inl hlt)
    · have hm : memmapSetPerms d m base length v = m := by
        rw [memmapSetPerms, if_pos (mt (accepted_iff h (by omega)).mp hlt), ite_self]
      rw [hm, or_iff_right hlt]
      exact ⟨fun hs b => (hs b).1, fun hs b => ⟨hs b, fun _ => rfl⟩⟩
  · have hblk : b = base.toNat / blockSize + (b - base.toNat / blockSize) :=
      (Nat.add_sub_cancel' (Nat.div_le_of_le_mul hb)).symm
    rw [hblk] at hno
    have hex : ∃ n, ¬Matches d mask check m (base.toNat / blockSize + n) := ⟨_, hno⟩
    have hn : Nat.find hex ≤ b - base.toNat / blockSize := Nat.find_min' hex hno
    have hrun : MaximalRun d mask check m (base.toNat / blockSize) (Nat.find hex) :=
      ⟨fun j hj => not_not.mp (Nat.find_min hex hj), Nat.find_spec hex⟩
    refine ⟨_, setFrom d v (Nat.find hex) _ m, hrun, fun fuel hfuel => ?_, setFrom_exact _ _⟩
    have hloop := changeLoop_eq (v := v) _ (m (d.tableNdx (base.toNat / blockSize))) 0 hfuel
      (by simp only [blockSize, regionSize] at *; omega) (by rwa [update_eq_self])
    rwa [update_eq_self, Nat.zero_add] at hloop

def segment : Memmap := memmapSetPerms .two (fun _ => 0xFF) 1016 24 0

/-- Three blocks whose records lie in two bytes are set, and then changed as a run. -/
theorem segment_across_bytes :
    SetsExactly .two (Covered 1016 24) 0 (fun _ => 0xFF) segment ∧
    ∃ m', (∀ fuel > 3, memmapChangePerms .two fuel segment 1016 3 0 1 = some (m', 3)) ∧
      SetsExactly .two (fun b => 127 ≤ b ∧ b < 130) 1 segment m' := by
  obtain ⟨n, m', ⟨hall, hend⟩, hchange, hsets⟩ := (packed_operations_iff .two segment 1016
    (by decide)).2 3 0 1 ⟨130, by decide, by decide, by decide⟩
  have hn : n = 3 := by
    match n with
    | 0 | 1 | 2 => exact absurd hend (by decide)
    | 3 => rfl
    | n + 4 => exact absurd (hall 3 (by omega)) (by decide)
  subst hn
  exact ⟨((packed_operations_iff .two _ 1016 (by decide)).1 24 0 (by decide) (by decide)).mpr
    (.inl (by decide)), m', hchange, hsets⟩

/-- A heap of 2048 bytes is not marked. -/
theorem half_of_region_not_set :
    getPerms .two (memmapSetPerms .two (fun _ => 0xFF) 1024 2048 0) 128 = 3 := by
  decide

end MemoryMap
