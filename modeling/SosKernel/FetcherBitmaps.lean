import SosKernel.CodeMemoryCoherence
import SosKernel.Fetcher

/-! # Bitmap accesses of the fetcher

`Fetcher` keeps a bitmap as a list of bits and stops at an index outside of it. The source
does not stop. Here a bitmap is what its pointer shows, a size and a byte at every index,
and the handlers go on with what they find. Each index that they use is logged. -/
namespace FetcherBitmaps

open ByteMemory CodeMemory CodeMemoryCoherence List Option
open Fetcher hiding State checkMap clearBit handleOverheardFragment storeFragment handleData
  headerAvailable maskMissing handleRequest

/-- A `fetcher_bitmap_t` seen through its pointer. Behind the first `bitmapSize` bytes lies
whatever follows in memory. -/
structure Bitmap where
  key : ℕ
  bitmapSize : UInt8
  bitmap : ℕ → UInt8

def bitMask (i : ℕ) : UInt8 := UInt8.ofNat (1 <<< (i % 8))

namespace Bitmap

def size (b : Bitmap) : ℕ := b.bitmapSize.toNat

def bit (b : Bitmap) (i : ℕ) : Bool := b.bitmap (i / 8) &&& bitMask i ≠ 0

def setByte (b : Bitmap) (i : ℕ) (v : UInt8) : Bitmap :=
  { b with bitmap := Function.update b.bitmap i v }

def clearBit (b : Bitmap) (i : ℕ) : Bitmap := b.setByte (i / 8) (b.bitmap (i / 8) &&& ~~~bitMask i)

section

variable (b : Bitmap) (i : ℕ) {n : ℕ}

lemma setByte_bitmap (k : ℕ) (v : UInt8) :
    (b.setByte i v).bitmap k = if k = i then v else b.bitmap k :=
  Function.update_apply ..

@[simp] lemma setByte_size (v : UInt8) : (b.setByte i v).size = b.size := rfl

end

end Bitmap

lemma getLsbD_bitMask {k : ℕ} (i : ℕ) (hk : k < 8) :
    (bitMask i).toBitVec.getLsbD k = decide (k = i % 8) := by
  have hk' : decide (k < 8) = true := decide_eq_true hk
  rw [bitMask, UInt8.toBitVec_ofNat', BitVec.getLsbD_ofNat, Nat.one_shiftLeft,
    Nat.testBit_two_pow, hk', Bool.true_and, decide_eq_decide]
  exact eq_comm

lemma and_bitMask_ne_zero (v : UInt8) (i : ℕ) :
    v &&& bitMask i ≠ 0 ↔ v.toBitVec.getLsbD (i % 8) = true := by
  have hi : i % 8 < 8 := Nat.mod_lt _ (by decide)
  rw [← not_iff_not, not_not, ← UInt8.toBitVec_inj, BitVec.eq_of_getLsbD_eq_iff]
  constructor
  · intro h
    simpa [getLsbD_bitMask i hi] using h (i % 8) hi
  · intro h k hk
    by_cases hki : k = i % 8
    · subst hki
      simp [h]
    · simp [getLsbD_bitMask i hk, hki]

namespace Bitmap

variable (b : Bitmap)

lemma bit_eq (i : ℕ) : b.bit i = (b.bitmap (i / 8)).toBitVec.getLsbD (i % 8) := by
  rw [Bool.eq_iff_iff, ← and_bitMask_ne_zero, bit, decide_eq_true_iff]

lemma bit_setByte (i j : ℕ) (v : UInt8) :
    (b.setByte i v).bit j = if j / 8 = i then v.toBitVec.getLsbD (j % 8) else b.bit j := by
  rw [bit_eq, bit_eq, setByte_bitmap]
  split_ifs <;> rfl

lemma bit_clearBit (i j : ℕ) : (b.clearBit i).bit j = (b.bit j && decide (j ≠ i)) := by
  have hj : j % 8 < 8 := Nat.mod_lt _ (by decide)
  rw [clearBit, bit_setByte]
  split_ifs with hsame
  · have hne : j % 8 ≠ i % 8 ↔ j ≠ i := by omega
    simp only [UInt8.toBitVec_and, UInt8.toBitVec_not, BitVec.getLsbD_and, BitVec.getLsbD_not,
      getLsbD_bitMask i hj, decide_eq_true hj, Bool.true_and, ← hsame, ← b.bit_eq]
    congr 1
    rw [← decide_not, decide_eq_decide]
    exact hne
  · have hne : j ≠ i := fun h => hsame (by rw [h])
    rw [decide_eq_true hne, Bool.and_true]

end Bitmap

inductive Which where
  | fetch | send | payload
  deriving DecidableEq, Repr

structure Access where
  which : Which
  size : ℕ
  index : ℕ
  deriving DecidableEq, Repr

def Bitmap.access (b : Bitmap) (which : Which) (i : ℕ) : Access := ⟨which, b.size, i⟩

def Access.InBounds (a : Access) : Prop := a.index < a.size
  deriving Decidable

structure CodeWrite where
  offset : ℕ
  nbytes : ℕ
  deriving DecidableEq, Repr

structure Log where
  accesses : List Access
  writes : List CodeWrite
  deriving DecidableEq, Repr

def Log.after (l : Log) (reads : List Access) : Log := { l with accesses := reads ++ l.accesses }

/-- The fetch state at `fst` with the `num_fragments` that it was requested for. The code keeps
that number only as the size of the bitmap and the cut of its last byte. -/
structure Fetch where
  map : Bitmap
  numFragments : ℕ
  size_eq : map.size = (numFragments + 7) / 8
  cut : ∀ i < 8 * map.size, map.bit i = true → i < numFragments

/-- The bitmap that `fetcher_request` makes for `n` fragments: all bits, with the last byte cut.
`behind` is what the block has behind it. -/
def requested (key n : ℕ) (behind : ℕ → UInt8) : Bitmap where
  key := key
  bitmapSize := UInt8.ofNat ((n + 7) / 8)
  bitmap i :=
    if (n + 7) / 8 % 256 ≤ i then behind i
    else if n % 8 ≠ 0 ∧ i + 1 = (n + 7) / 8 % 256 then UInt8.ofNat (1 <<< (n % 8) - 1)
    else 0xff

lemma getLsbD_lowBits (r k : ℕ) :
    (UInt8.ofNat (1 <<< r - 1)).toBitVec.getLsbD k = true → k < r := by
  rw [UInt8.toBitVec_ofNat', BitVec.getLsbD_ofNat, Nat.one_shiftLeft, Nat.testBit_two_pow_sub_one,
    Bool.and_eq_true, decide_eq_true_iff, decide_eq_true_iff]
  exact And.right

lemma requested_size (key : ℕ) {n : ℕ} (behind : ℕ → UInt8) (hn : n ≤ 1024) :
    (requested key n behind).size = (n + 7) / 8 := by
  simp only [Bitmap.size, requested, UInt8.toNat_ofNat']
  omega

/-- The fetch that `fetcher_request` starts. -/
def Fetch.ofRequest (key n : ℕ) (behind : ℕ → UInt8) (hn : n ≤ 1024) : Fetch where
  map := requested key n behind
  numFragments := n
  size_eq := requested_size key behind hn
  cut i hi hbit := by
    rw [requested_size key behind hn] at hi
    rw [Bitmap.bit_eq] at hbit
    simp only [requested] at hbit
    rw [if_neg (by omega)] at hbit
    split at hbit
    · have hlow := getLsbD_lowBits _ _ hbit
      omega
    · omega

def Fetch.clear (p : Fetch) (i : ℕ) : Fetch where
  map := p.map.clearBit i
  numFragments := p.numFragments
  size_eq := p.size_eq
  cut j hj hbit := p.cut j hj (by
    rw [Bitmap.bit_clearBit, Bool.and_eq_true] at hbit
    exact hbit.1)

structure State where
  fst : Option Fetch
  sendMap : Option Bitmap
  cams : ℕ → Option FetcherCam
  codemem : CodeMemory.State

def State.current (s : State) (key : ℕ) : Option Fetch := s.fst.filter (fun p => p.map.key = key)

variable (c : Config) {s : State} {f : FetcherFragment} {p : Fetch} {l : List Access}

def handleOverheardFragment (s : State) (f : FetcherFragment) : State × List Access :=
  match s.sendMap with
  | none => (s, [])
  | some m =>
    if m.key ≠ f.key then (s, [])
    else ({ s with sendMap := some (m.clearBit f.fragId) }, [m.access .send (f.fragId / 8)])

def checkMapFrom (b : Bitmap) : ℕ → ℕ → Bool × List Access
  | 0, _ => (true, [])
  | n + 1, i =>
    if b.bitmap i ≠ 0 then (false, [b.access .fetch i])
    else
      let r := checkMapFrom b n (i + 1)
      (r.1, b.access .fetch i :: r.2)

def checkMap (b : Bitmap) : Bool × List Access := checkMapFrom b b.size 0

/-- The part of `handle_data` behind its checks, up to `check_map`. -/
def storeFragment (s : State) (p : Fetch) (cam : FetcherCam) (f : FetcherFragment)
    (page : Option Mem) : Option State × Log :=
  let offset := fetcherFragmentSize * f.fragId % 65536
  match kerCodememWrite c s.codemem cam.cm f.fragment offset page with
  | none => (none, ⟨[], []⟩)
  | some (codemem, code) =>
    if code ≠ 0 then (some { s with codemem := codemem }, ⟨[], []⟩)
    else
      let p' := p.clear f.fragId
      (some { s with codemem := codemem, fst := some p' },
        ⟨p.map.access .fetch (f.fragId / 8) :: (checkMap p'.map).2,
          [⟨offset, f.fragment.length⟩]⟩)

def handleData (s : State) (p : Fetch) (f : FetcherFragment) (page : Option Mem) :
    Option State × Log :=
  if f.key ≠ p.map.key then (some s, ⟨[], []⟩)
  else
    match s.cams f.key with
    | none => (some s, ⟨[], []⟩)
    | some cam =>
      let here := p.map.access .fetch (f.fragId / 8)
      if p.map.bit f.fragId = false then (some s, ⟨[here], []⟩)
      else
        -- the first byte is looked at for a later fragment only
        let reads := if f.fragId ≠ 0 then [here, p.map.access .fetch 0] else [here]
        if f.fragId ≠ 0 ∧ p.map.bit 0 = true ∧ cam.fetchtype = .module then
          (some s, ⟨reads, []⟩)
        else
          let r := storeFragment c s p cam f page
          (r.1, r.2.after reads)

/-- `set_num_funcs_in_send_state`: whether the header of the module can be read. -/
def headerAvailable (s : State) (key sizeofModHeader : ℕ) : Option Bool × List Access :=
  match s.cams key with
  | none => (some false, [])
  | some cam =>
    if cam.fetchtype ≠ .module then (some true, [])
    else
      let reads := (s.current key).toList.map (fun p => p.map.access .fetch 0)
      if (s.current key).any (fun p => p.map.bit 0) then (some false, reads)
      else ((kerCodememRead c s.codemem cam.cm sizeofModHeader 0).map
        (fun r : List UInt8 × ℤ => decide (r.2 = 0)), reads)

def mergeFrom (b : Bitmap) : ℕ → ℕ → Bitmap → Bitmap × List Access
  | 0, _, m => (m, [])
  | n + 1, i, m =>
    let r := mergeFrom b n (i + 1) (m.setByte i (m.bitmap i ||| b.bitmap i))
    (r.1, b.access .payload i :: m.access .send i :: r.2)

/-- The loop that takes out what is missing here. Its bound is the size of the map to be sent. -/
def maskFrom (fetch : Bitmap) : ℕ → ℕ → Bitmap → Bitmap × List Access
  | 0, _, m => (m, [])
  | n + 1, i, m =>
    let tmp := m.bitmap i &&& fetch.bitmap i
    let r := maskFrom fetch n (i + 1) (m.setByte i (m.bitmap i &&& ~~~tmp))
    (r.1, m.access .send i :: fetch.access .fetch i :: r.2)

def maskMissing (s : State) (m : Bitmap) : State × List Access :=
  match s.current m.key with
  | none => ({ s with sendMap := some m }, [])
  | some p =>
    let r := maskFrom p.map m.size 0 m
    ({ s with sendMap := some r.1 }, r.2)

/-- `handle_request`; the payload belongs to the message, so taking it gives the payload. -/
def handleRequest (s : State) (b : Bitmap) (sizeofModHeader : ℕ) (timerOk : Bool) :
    Option State × Log :=
  match s.sendMap with
  | none =>
    let r := headerAvailable c s b.key sizeofModHeader
    match r.1 with
    | none => (none, ⟨r.2, []⟩)
    | some ok =>
      if ok && timerOk then
        let u := maskMissing s b
        (some u.1, ⟨r.2 ++ u.2, []⟩)
      else (some s, ⟨r.2, []⟩)
  | some m =>
    if m.key = b.key then
      let r := mergeFrom b (min m.size b.size) 0 m
      let u := maskMissing s r.1
      (some u.1, ⟨r.2 ++ u.2, []⟩)
    else
      let u := maskMissing s m
      (some u.1, ⟨u.2, []⟩)

inductive Packet where
  | fragment (f : FetcherFragment) (page : Option Mem)
  | request (b : Bitmap) (forUs : Bool) (sizeofModHeader : ℕ) (timerOk : Bool)

def fetcherHandler (s : State) : Packet → Option State × Log
  | .fragment f page =>
    let r := handleOverheardFragment s f
    match r.1.fst with
    | none => (some r.1, ⟨r.2, []⟩)
    | some p =>
      let u := handleData c r.1 p f page
      (u.1, u.2.after r.2)
  | .request b forUs sizeofModHeader timerOk =>
    if forUs then handleRequest c s b sizeofModHeader timerOk else (some s, ⟨[], []⟩)

def Bounded (l : List Access) : Prop := ∀ a ∈ l, a.InBounds

/-- No index is outside its bitmap, and nothing is written behind `n` fragments. -/
def Log.Confined (l : Log) (n : ℕ) : Prop :=
  Bounded l.accesses ∧ ∀ w ∈ l.writes, w.offset + w.nbytes ≤ n * fetcherFragmentSize

def State.numFragments (s : State) : ℕ := s.fst.elim 0 Fetch.numFragments

/-- A fragment for the map being sent has a byte there, and one that is fetched has one in the
map of the fetch. -/
def FragmentFits (s : State) (f : FetcherFragment) : Prop :=
  (∀ m ∈ s.sendMap, m.key = f.key → f.fragId / 8 < m.size) ∧
    ∀ p ∈ s.fst, p.map.key = f.key → (s.cams f.key).isSome → f.fragId / 8 < p.map.size

/-- The map to be sent is no longer than that of the fetch with its key. For a new one this matters
once it is taken, and for a module the map of the fetch must not be empty. -/
def RequestFits (s : State) (b : Bitmap) (sizeofModHeader : ℕ) (timerOk : Bool) : Prop :=
  match s.sendMap with
  | some m => ∀ p ∈ s.current m.key, m.size ≤ p.map.size
  | none => ∀ p ∈ s.current b.key, ∀ cam ∈ s.cams b.key,
    if cam.fetchtype = .module then
      0 < p.map.size ∧ (p.map.bit 0 = false → timerOk = true →
        (kerCodememRead c s.codemem cam.cm sizeofModHeader 0).any (fun r => r.2 = 0) →
          b.size ≤ p.map.size)
    else timerOk = true → b.size ≤ p.map.size

def Fits (s : State) : Packet → Prop
  | .fragment f _ => FragmentFits s f
  | .request b forUs sizeofModHeader timerOk =>
    forUs = true → RequestFits c s b sizeofModHeader timerOk

variable {c}

lemma Bounded.nil : Bounded [] := fun _ ha => absurd ha not_mem_nil

lemma bounded_cons {a : Access} : Bounded (a :: l) ↔ a.InBounds ∧ Bounded l := forall_mem_cons

lemma bounded_append {l' : List Access} : Bounded (l ++ l') ↔ Bounded l ∧ Bounded l' :=
  forall_mem_append

lemma confined_reads : (⟨l, []⟩ : Log).Confined n ↔ Bounded l :=
  ⟨And.left, fun h => ⟨h, fun _ hw => absurd hw not_mem_nil⟩⟩

lemma confined_after {log : Log} :
    (log.after l).Confined n ↔ Bounded l ∧ log.Confined n := by
  rw [Log.Confined, Log.Confined, ← and_assoc, ← bounded_append]
  rfl

lemma overheard_bounded_iff :
    Bounded (handleOverheardFragment s f).2 ↔
      ∀ m ∈ s.sendMap, m.key = f.key → f.fragId / 8 < m.size := by
  cases hm : s.sendMap with
  | none => simp [handleOverheardFragment, hm, Bounded.nil]
  | some m =>
    by_cases hkey : m.key = f.key
    · simp [handleOverheardFragment, hm, hkey, bounded_cons, Bounded.nil, Access.InBounds,
        Bitmap.access]
    · simp [handleOverheardFragment, hm, hkey, Bounded.nil]

lemma overheard_frame (s : State) (f : FetcherFragment) :
    (handleOverheardFragment s f).1.fst = s.fst ∧
      (handleOverheardFragment s f).1.cams = s.cams := by
  rw [handleOverheardFragment]
  split
  · exact ⟨rfl, rfl⟩
  · split <;> exact ⟨rfl, rfl⟩

lemma checkMapFrom_bounded (b : Bitmap) (n i : ℕ) (h : i + n ≤ b.size) :
    Bounded (checkMapFrom b n i).2 := by
  induction n generalizing i with
  | zero => exact Bounded.nil
  | succ n ih =>
    have hi : (b.access .fetch i).InBounds := show i < b.size by omega
    rw [checkMapFrom]
    split
    · exact bounded_cons.mpr ⟨hi, Bounded.nil⟩
    · exact bounded_cons.mpr ⟨hi, ih (i + 1) (by omega)⟩

lemma storeFragment_confined (cam : FetcherCam) (page : Option Mem)
    (hin : f.fragId / 8 < p.map.size) (hbit : p.map.bit f.fragId = true) :
    (storeFragment c s p cam f page).2.Confined p.numFragments := by
  simp only [storeFragment]
  split
  · exact confined_reads.mpr Bounded.nil
  · split
    · exact confined_reads.mpr Bounded.nil
    · refine ⟨bounded_cons.mpr ⟨hin, checkMapFrom_bounded _ _ _ (by omega)⟩, fun w hw => ?_⟩
      rw [mem_singleton] at hw
      subst hw
      have hfrag := p.cut f.fragId (by omega) hbit
      have hwrap := Nat.mod_le (fetcherFragmentSize * f.fragId) 65536
      simp only [f.size, fetcherFragmentSize] at hwrap ⊢
      omega

lemma handleData_reads {cam : FetcherCam} (page : Option Mem) (hkey : p.map.key = f.key)
    (hcam : s.cams f.key = some cam) :
    p.map.access .fetch (f.fragId / 8) ∈ (handleData c s p f page).2.accesses := by
  simp only [handleData, hcam, if_neg (not_not.mpr hkey.symm), Log.after]
  split_ifs <;> simp

lemma handleData_confined (page : Option Mem)
    (h : p.map.key = f.key → (s.cams f.key).isSome → f.fragId / 8 < p.map.size) :
    (handleData c s p f page).2.Confined p.numFragments := by
  rw [handleData]
  split
  · exact confined_reads.mpr Bounded.nil
  next hkey =>
    cases hcam : s.cams f.key with
    | none => exact confined_reads.mpr Bounded.nil
    | some cam =>
      have hin := h (not_not.mp hkey).symm (by rw [hcam]; rfl)
      have hhere : (p.map.access .fetch (f.fragId / 8)).InBounds := hin
      have hfirst : (p.map.access .fetch 0).InBounds := show 0 < p.map.size by omega
      have hreads : Bounded (if f.fragId ≠ 0 then
          [p.map.access .fetch (f.fragId / 8), p.map.access .fetch 0]
          else [p.map.access .fetch (f.fragId / 8)]) := by
        split_ifs <;> simp only [bounded_cons, hhere, hfirst, Bounded.nil, and_self]
      simp only
      split
      · exact confined_reads.mpr (bounded_cons.mpr ⟨hhere, Bounded.nil⟩)
      next hbit =>
        split
        · exact confined_reads.mpr hreads
        · rw [Bool.not_eq_false] at hbit
          exact confined_after.mpr ⟨hreads, storeFragment_confined cam page hin hbit⟩

lemma handleData_confined_iff (page : Option Mem) :
    (handleData c s p f page).2.Confined p.numFragments ↔
      (p.map.key = f.key → (s.cams f.key).isSome → f.fragId / 8 < p.map.size) := by
  refine ⟨fun h hkey hcam => ?_, handleData_confined page⟩
  obtain ⟨cam, hcam⟩ := isSome_iff_exists.mp hcam
  exact h.1 _ (handleData_reads page hkey hcam)

lemma mergeFrom_bounded (b : Bitmap) (n i : ℕ) (m : Bitmap) (hb : i + n ≤ b.size)
    (hm : i + n ≤ m.size) : Bounded (mergeFrom b n i m).2 := by
  induction n generalizing i m with
  | zero => exact Bounded.nil
  | succ n ih =>
    refine bounded_cons.mpr ⟨show i < b.size by omega, bounded_cons.mpr
      ⟨show i < m.size by omega, ih (i + 1) _ (by omega) ?_⟩⟩
    rw [Bitmap.setByte_size]
    omega

lemma maskFrom_bounded_iff (fetch : Bitmap) (n i : ℕ) (m : Bitmap) (hm : i + n ≤ m.size) :
    Bounded (maskFrom fetch n i m).2 ↔ n = 0 ∨ i + n ≤ fetch.size := by
  induction n generalizing i m with
  | zero => exact iff_of_true Bounded.nil (.inl rfl)
  | succ n ih =>
    have hrest := ih (i + 1) (m.setByte i (m.bitmap i &&& ~~~(m.bitmap i &&& fetch.bitmap i)))
      (by rw [Bitmap.setByte_size]; omega)
    simp only [maskFrom, bounded_cons, hrest, Access.InBounds, Bitmap.access]
    omega

lemma mergeFrom_key_size (b : Bitmap) (n i : ℕ) (m : Bitmap) :
    (mergeFrom b n i m).1.key = m.key ∧ (mergeFrom b n i m).1.size = m.size := by
  induction n generalizing i m with
  | zero => exact ⟨rfl, rfl⟩
  | succ n ih => exact ih (i + 1) _

lemma maskMissing_bounded_iff (m : Bitmap) :
    Bounded (maskMissing s m).2 ↔ ∀ p ∈ s.current m.key, m.size ≤ p.map.size := by
  rw [maskMissing]
  cases s.current m.key with
  | none => simp [Bounded.nil]
  | some p =>
    have hiff := maskFrom_bounded_iff p.map m.size 0 m (by omega)
    simp only [hiff, mem_some_iff, forall_eq']
    omega

lemma headerAvailable_bounded_iff (key sizeofModHeader : ℕ) :
    Bounded (headerAvailable c s key sizeofModHeader).2 ↔
      ∀ p ∈ s.current key, ∀ cam ∈ s.cams key, cam.fetchtype = .module → 0 < p.map.size := by
  cases hcam : s.cams key with
  | none => simp [headerAvailable, hcam, Bounded.nil]
  | some cam =>
    by_cases hmod : cam.fetchtype = .module
    · simp only [headerAvailable, hcam, hmod, ne_eq, not_true_eq_false, if_false]
      have hreads : Bounded ((s.current key).toList.map (fun p => p.map.access .fetch 0)) ↔
          ∀ p ∈ s.current key, 0 < p.map.size := by
        simp [Bounded, Access.InBounds, Bitmap.access]
      split <;> simp [hreads, hmod]
    · simp [headerAvailable, hcam, hmod, Bounded.nil]

lemma headerAvailable_iff {key sizeofModHeader : ℕ} (hp : s.current key = some p) :
    (headerAvailable c s key sizeofModHeader).1 = some true ↔
      ∃ cam, s.cams key = some cam ∧ (cam.fetchtype = .module → p.map.bit 0 = false ∧
        (kerCodememRead c s.codemem cam.cm sizeofModHeader 0).any (fun r => r.2 = 0)) := by
  cases hcam : s.cams key with
  | none => simp [headerAvailable, hcam]
  | some cam =>
    by_cases hmod : cam.fetchtype = .module
    · cases hbit : p.map.bit 0 <;>
        simp [headerAvailable, hcam, hmod, hp, hbit, Option.any_eq_true]
    · simp [headerAvailable, hcam, hmod]

lemma handleRequest_confined_iff (b : Bitmap) (sizeofModHeader n : ℕ) (timerOk : Bool) :
    (handleRequest c s b sizeofModHeader timerOk).2.Confined n ↔
      RequestFits c s b sizeofModHeader timerOk := by
  cases hs : s.sendMap with
  | some m =>
    simp only [handleRequest, RequestFits, hs]
    split
    · obtain ⟨hkey, hsize⟩ := mergeFrom_key_size b (min m.size b.size) 0 m
      rw [confined_reads, bounded_append, maskMissing_bounded_iff, hkey, hsize]
      exact and_iff_right (mergeFrom_bounded b _ 0 m (by omega) (by omega))
    · rw [confined_reads, maskMissing_bounded_iff]
  | none =>
    have hlog : (handleRequest c s b sizeofModHeader timerOk).2.Confined n ↔
        Bounded (headerAvailable c s b.key sizeofModHeader).2 ∧
          ((headerAvailable c s b.key sizeofModHeader).1 = some true → timerOk = true →
            ∀ p ∈ s.current b.key, b.size ≤ p.map.size) := by
      simp only [handleRequest, hs, ← maskMissing_bounded_iff]
      rcases (headerAvailable c s b.key sizeofModHeader).1 with _ | _ | _ <;>
        cases timerOk <;> simp [confined_reads, bounded_append]
    rw [hlog, headerAvailable_bounded_iff]
    simp only [RequestFits, hs]
    cases hp : s.current b.key with
    | none => simp
    | some p =>
      rw [headerAvailable_iff hp]
      cases s.cams b.key with
      | none => simp
      | some cam => by_cases hmod : cam.fetchtype = .module <;> simp [hmod]; tauto

/-- For every fetcher state and packet, the indices used are inside their bitmaps and code memory is
written inside the image if and only if the ids and sizes of the packet fit the maps. -/
theorem packets_confined_iff (c : Config) (s : State) (pkt : Packet) :
    (fetcherHandler c s pkt).2.Confined s.numFragments ↔ Fits c s pkt := by
  cases pkt with
  | fragment f page =>
    obtain ⟨hfst, hcams⟩ := overheard_frame s f
    simp only [fetcherHandler, Fits, FragmentFits, hfst]
    cases hp : s.fst with
    | none => simp [confined_reads, overheard_bounded_iff]
    | some p =>
      have hdata := handleData_confined_iff (c := c) (s := (handleOverheardFragment s f).1)
        (p := p) (f := f) page
      rw [hcams] at hdata
      simp only [confined_after, overheard_bounded_iff, State.numFragments, hp, elim_some,
        hdata, mem_some_iff, forall_eq']
  | request b forUs sizeofModHeader timerOk =>
    cases forUs with
    | false => simp [fetcherHandler, Fits, confined_reads, Bounded.nil]
    | true => simp [fetcherHandler, Fits, handleRequest_confined_iff]

lemma sampleFragment_size : (replicate 64 (0 : UInt8)).length = fetcherFragmentSize := by
  decide

def strayFragment : FetcherFragment := ⟨9, 5, replicate 64 0, sampleFragment_size⟩

def sampleMap : Bitmap := ⟨5, 1, fun _ => 0xff⟩

def sampleNode : State where
  fst := some ((Fetch.ofRequest 5 8 (fun _ => 0xff) (by decide)).clear 0)
  sendMap := some sampleMap
  cams key := if key = 5 then some ⟨0x100, .module, .started⟩ else none
  codemem := CodeMemoryCoherence.sampleState

/-- The stray fragment clears a bit behind both bitmaps and is stored behind the image, and a
request with a size of 200 makes the node look at 200 bytes of its map of one byte. -/
theorem packets_leave_bitmaps :
    (fetcherHandler sampleConfig sampleNode (.fragment strayFragment (some fun _ => 0))).2 =
        ⟨[⟨.send, 1, 1⟩, ⟨.fetch, 1, 1⟩, ⟨.fetch, 1, 0⟩, ⟨.fetch, 1, 1⟩, ⟨.fetch, 1, 0⟩],
          [⟨576, 64⟩]⟩ ∧
      sampleNode.numFragments * fetcherFragmentSize = 512 ∧
      ⟨.fetch, 1, 199⟩ ∈ (fetcherHandler sampleConfig { sampleNode with sendMap := none }
        (.request ⟨5, 200, fun _ => 0xff⟩ true 12 true)).2.accesses := by
  decide +kernel

end FetcherBitmaps
