import Mathlib.Data.List.Basic
import SosKernel.CodeMemory
import SosKernel.GuardedRuns

/-! # What reads of code memory return

`view` is the memory that flash and the page in RAM make up together. Writes and flushes act on
it as on plain memory. -/
namespace CodeMemoryCoherence

open ByteMemory CodeMemory GuardedRuns List Option

variable {c : Config} {s s' : State} {m : Mem} {addr n : ℕ} {buf : List UInt8} {start cm offset : ℕ}
  {hdr : CodememHdr}

def overlay (c : Config) (flash : Mem) (start : ℕ) (page : Mem) : Mem :=
  if start = 0 then flash else writePage c flash start page

def view (c : Config) (s : State) : Mem :=
  s.flashCachePage.elim s.flash (overlay c s.flash s.flashCacheAddr)

structure Holds (c : Config) (s : State) (m : Mem) : Prop where
  aligned : c.flashmemPageSize ∣ s.flashCacheAddr
  idle : s.flashCachePage = none → s.flashCacheAddr = 0
  agrees : ∀ a, c.flashmemPageSize ≤ a → view c s a = m a

structure SameControl (s s' : State) : Prop where
  bitmap : s'.flashAllocBitmap = s.flashAllocBitmap
  handles : s'.codememHandleList = s.codememHandleList
  salt : s'.codememSalt = s.codememSalt

lemma SameControl.trans {s'' : State} (h : SameControl s s') (h' : SameControl s' s'') :
    SameControl s s'' :=
  ⟨h'.bitmap.trans h.bitmap, h'.handles.trans h.handles, h'.salt.trans h.salt⟩

lemma blit_apply (m : Mem) (a : ℕ) (buf : List UInt8) (x : ℕ) :
    blit m a buf x = if a ≤ x ∧ x < a + buf.length then buf.getD (x - a) 0 else m x := by
  induction buf generalizing m a with
  | nil =>
    rw [if_neg (by simp)]
    rfl
  | cons b buf ih =>
    rw [blit, ih]
    by_cases hx : x = a
    · subst hx
      simp
    · by_cases hin : a + 1 ≤ x ∧ x < a + 1 + buf.length
      · rw [if_pos hin, if_pos (by simp only [length_cons]; omega)]
        obtain ⟨d, hd⟩ : ∃ d, x - a = d + 1 := ⟨x - a - 1, by omega⟩
        have hd' : x - (a + 1) = d := by omega
        rw [hd, hd', getD_cons_succ]
      · rw [if_neg hin, if_neg (by simp only [length_cons]; omega), store_other _ _ hx]

lemma blit_append (m : Mem) (a : ℕ) (buf1 buf2 : List UInt8) :
    blit m a (buf1 ++ buf2) = blit (blit m a buf1) (a + buf1.length) buf2 := by
  induction buf1 generalizing m a with
  | nil => rfl
  | cons b buf1 ih =>
    rw [cons_append, blit, ih, length_cons]
    congr 1
    omega

lemma flashRead_congr {m m' : Mem} (h : ∀ i < n, m (addr + i) = m' (addr + i)) :
    flashRead m addr n = flashRead m' addr n := by
  apply map_congr_left
  intro i hi
  exact h i (mem_range.mp hi)

lemma flashRead_append (m : Mem) (addr k n : ℕ) :
    flashRead m addr k ++ flashRead m (addr + k) n = flashRead m addr (k + n) := by
  simp [flashRead, range_add, Nat.add_assoc]

lemma pageAddr_add (c : Config) (addr : ℕ) :
    pageAddr c addr + addr % c.flashmemPageSize = addr := by
  have := Nat.mod_le addr c.flashmemPageSize
  unfold pageAddr
  omega

lemma pageAddr_dvd (c : Config) (addr : ℕ) : c.flashmemPageSize ∣ pageAddr c addr :=
  Nat.dvd_sub_mod addr

lemma pageAddr_pos (h : c.flashmemPageSize ≤ addr) : c.flashmemPageSize ≤ pageAddr c addr := by
  have hsum := pageAddr_add c addr
  have hmod := Nat.mod_lt addr c.page_pos
  apply Nat.le_of_dvd
  · omega
  · exact pageAddr_dvd c addr

lemma pageAddr_eq (hdvd : c.flashmemPageSize ∣ start) (hle : start ≤ addr)
    (hlt : addr < start + c.flashmemPageSize) : pageAddr c addr = start := by
  obtain ⟨d, hd⟩ := hdvd
  have hsplit : addr = addr - start + c.flashmemPageSize * d := by omega
  have hmod : addr % c.flashmemPageSize = addr - start := by
    rw [hsplit, Nat.add_mul_mod_self_left, Nat.mod_eq_of_lt (by omega), ← hsplit]
  unfold pageAddr
  omega

lemma overlay_of_ne {flash page : Mem} {a : ℕ} (h : start ≠ 0) :
    overlay c flash start page a = if start ≤ a ∧ a < start + c.flashmemPageSize
      then page (a - start) else flash a := by
  rw [overlay, if_neg h]
  rfl

def ReadClear (s : State) (addr n : ℕ) : Prop :=
  s.flashCacheAddr ≤ addr ∨ addr + n ≤ s.flashCacheAddr
  deriving Decidable

section

variable (h : Holds c s m)
include h

lemma loadPage_holds {page : Mem}
    (hpage : s.flashCachePage = some page) (hdvd : c.flashmemPageSize ∣ start)
    (hstart : start ≠ 0) :
    ∃ p, (loadPage c s page start).flashCachePage = some p ∧
      (loadPage c s page start).flashCacheAddr = start ∧
      Holds c (loadPage c s page start) m ∧ SameControl s (loadPage c s page start) := by
  unfold loadPage
  by_cases heq : s.flashCacheAddr = start
  · rw [if_pos heq]
    exact ⟨page, hpage, heq, h, rfl, rfl, rfl⟩
  · rw [if_neg heq]
    set flash := if s.flashCacheAddr ≠ 0 then writePage c s.flash s.flashCacheAddr page else s.flash
      with hflash
    have hview : view c s = flash := by
      rw [view, hpage, elim_some, overlay]
      split <;> simp_all
    refine ⟨_, rfl, rfl, ⟨hdvd, fun hno => (by cases hno), fun a ha => ?_⟩, rfl, rfl, rfl⟩
    rw [← h.agrees a ha, hview, view, elim_some, overlay_of_ne hstart]
    split
    next hin =>
      have hsum : start + (a - start) = a := by omega
      simp only [hsum]
    · rfl

lemma codememCacheWrite_holds (hpage : s.flashCachePage.isSome) (haddr : c.flashmemPageSize ≤ addr)
    (hfit : addr % c.flashmemPageSize + buf.length ≤ c.flashmemPageSize) :
    ∃ s', codememCacheWrite c s addr buf = some s' ∧ Holds c s' (blit m addr buf) ∧
      s'.flashCachePage.isSome ∧ SameControl s s' := by
  obtain ⟨page, hpage⟩ := isSome_iff_exists.mp hpage
  have hlow := pageAddr_pos haddr
  have hpos := c.page_pos
  have hstart : pageAddr c addr ≠ 0 := by omega
  obtain ⟨p, hp, hat, hload, hsame⟩ := loadPage_holds h hpage (pageAddr_dvd c addr) hstart
  set s1 := loadPage c s page (pageAddr c addr) with hs1
  refine ⟨{ s1 with flashCachePage := some (blit p (addr % c.flashmemPageSize) buf) },
    ?_, ⟨?_, ?_, ?_⟩, rfl, hsame.bitmap, hsame.handles, hsame.salt⟩
  · rw [codememCacheWrite, hpage, bind_some, ← hs1]
    simp only [hp, map_some]
  · exact hload.aligned
  · intro hno
    cases hno
  · intro a ha
    have hsum := pageAddr_add c addr
    have hold := hload.agrees a ha
    rw [view, hp, elim_some, hat, overlay_of_ne hstart] at hold
    rw [view, elim_some, hat, overlay_of_ne hstart, blit_apply, blit_apply, ← hold]
    by_cases hin : pageAddr c addr ≤ a ∧ a < pageAddr c addr + c.flashmemPageSize
    · rw [if_pos hin, if_pos hin]
      by_cases hbuf : addr ≤ a ∧ a < addr + buf.length
      · have hidx : a - pageAddr c addr - addr % c.flashmemPageSize = a - addr := by omega
        rw [if_pos hbuf, if_pos (by omega), hidx]
      · rw [if_neg hbuf, if_neg (by omega)]
    · rw [if_neg hin, if_neg hin, if_neg (by omega)]

lemma codememCacheAlloc_holds {page : Option Mem} (hrun : codememCacheAlloc s page = some s') :
    Holds c s' m ∧ s'.flashCachePage.isSome ∧ SameControl s s' := by
  unfold codememCacheAlloc at hrun
  split at hrun
  next p hp =>
    cases hrun
    exact ⟨h, by rw [hp]; rfl, rfl, rfl, rfl⟩
  next hnone =>
    obtain ⟨p, -, rfl⟩ := map_eq_some_iff.mp hrun
    refine ⟨⟨dvd_zero _, fun _ => rfl, fun a ha => ?_⟩, rfl, rfl, rfl, rfl⟩
    have hold := h.agrees a ha
    rwa [view, hnone] at hold

lemma codememCacheFlush_holds :
    Holds c (codememCacheFlush c s) m ∧ SameControl s (codememCacheFlush c s) := by
  unfold codememCacheFlush
  split
  next page hpage =>
    refine ⟨⟨dvd_zero _, fun _ => rfl, fun a ha => ?_⟩, rfl, rfl, rfl⟩
    rw [← h.agrees a ha, view, view, hpage, elim_none, elim_some, overlay]
    split
    next hzero =>
      -- with no page held the flush overwrites the boot page, below every allocation
      simp only [hzero, writePage]
      rw [if_neg (by omega)]
    · rfl
  · exact ⟨h, rfl, rfl, rfl⟩

lemma codememCacheRead_holds (haddr : c.flashmemPageSize ≤ addr)
    (hclear : ReadClear s addr n) : codememCacheRead c s addr n = some (flashRead m addr n) := by
  have hsum := pageAddr_add c addr
  have hmod := Nat.mod_lt addr c.page_pos
  have hstart : pageAddr c addr ≠ 0 := by omega
  unfold codememCacheRead
  by_cases heq : s.flashCacheAddr = pageAddr c addr
  · rw [if_pos heq]
    obtain ⟨page, hpage⟩ : ∃ page, s.flashCachePage = some page := by
      apply ne_none_iff_exists'.mp
      intro hnone
      rw [h.idle hnone] at heq
      exact hstart heq.symm
    have hview : ∀ a, c.flashmemPageSize ≤ a → (if pageAddr c addr ≤ a ∧
        a < pageAddr c addr + c.flashmemPageSize then page (a - pageAddr c addr)
        else s.flash a) = m a := by
      intro a ha
      rw [← h.agrees a ha, view, hpage, elim_some, heq, overlay_of_ne hstart]
    simp only [hpage, map_some]
    set k := min (c.flashmemPageSize - addr % c.flashmemPageSize) n with hk
    have hfirst : flashRead page (addr % c.flashmemPageSize) k = flashRead m addr k := by
      apply map_congr_left
      intro i hi
      have hik := mem_range.mp hi
      rw [← hview (addr + i) (by omega), if_pos (by omega)]
      congr 1
      omega
    have hrest : flashRead s.flash (addr + k) (n - k) = flashRead m (addr + k) (n - k) := by
      apply flashRead_congr
      intro i hi
      rw [← hview (addr + k + i) (by omega), if_neg (by omega)]
    have hwhole : flashRead m addr k ++ flashRead m (addr + k) (n - k) = flashRead m addr n := by
      rw [flashRead_append]
      congr 1
      omega
    split
    next hzero =>
      have hn : n = 0 := by omega
      subst hn
      rfl
    · rw [hfirst, hrest, hwhole]
  · rw [if_neg heq]
    congr 1
    apply flashRead_congr
    intro i hi
    rw [← h.agrees (addr + i) (by omega), view]
    cases hpage : s.flashCachePage with
    | none => rfl
    | some page =>
      rw [elim_some]
      by_cases hzero : s.flashCacheAddr = 0
      · rw [overlay, if_pos hzero]
      · rw [overlay_of_ne hzero, if_neg]
        intro hin
        -- a held page at or below the start of the range would be its first page
        apply heq
        symm
        apply pageAddr_eq h.aligned
        · rcases hclear with hle | hge
          · exact hle
          · omega
        · omega

end

lemma writePages_holds (fuel : ℕ) (h : Holds c s m) (hpage : s.flashCachePage.isSome)
    (haddr : c.flashmemPageSize ≤ addr) (hfit : addr % c.flashmemPageSize = 0 ∨
      addr % c.flashmemPageSize + buf.length ≤ c.flashmemPageSize)
    (hfuel : buf.length < fuel) :
    ∃ s', writePages c fuel s addr buf = some s' ∧ Holds c s' (blit m addr buf) ∧
      SameControl s s' := by
  induction fuel generalizing s m addr buf with
  | zero => omega
  | succ fuel ih =>
    have hpos := c.page_pos
    rw [writePages]
    by_cases hlong : c.flashmemPageSize < buf.length
    · have halign : addr % c.flashmemPageSize = 0 := by omega
      have htake : (buf.take c.flashmemPageSize).length = c.flashmemPageSize := by
        rw [length_take]
        omega
      obtain ⟨s1, hrun, hh, hp, hsame⟩ :=
        codememCacheWrite_holds h hpage haddr
          (by rw [htake]; omega : addr % c.flashmemPageSize +
            (buf.take c.flashmemPageSize).length ≤ c.flashmemPageSize)
      obtain ⟨s2, hrest, hh2, hsame2⟩ :=
        ih hh hp (by omega : c.flashmemPageSize ≤ addr + c.flashmemPageSize)
          (.inl (by rw [Nat.add_mod_right]; exact halign))
          (by rw [length_drop]; omega : (buf.drop c.flashmemPageSize).length < fuel)
      refine ⟨s2, ?_, ?_, hsame.trans hsame2⟩
      · rw [if_pos hlong, hrun]
        exact hrest
      · have hsplit := blit_append m addr (buf.take c.flashmemPageSize)
          (buf.drop c.flashmemPageSize)
        rw [take_append_drop, htake] at hsplit
        rw [hsplit]
        exact hh2
    · rw [if_neg hlong]
      by_cases hzero : buf.length = 0
      · have hnil : buf = [] := length_eq_zero_iff.mp hzero
        subst hnil
        exact ⟨s, rfl, h, rfl, rfl, rfl⟩
      · rw [if_pos hzero]
        have hin : addr % c.flashmemPageSize + buf.length ≤ c.flashmemPageSize := by omega
        obtain ⟨s1, hrun, hh, -, hsame⟩ := codememCacheWrite_holds h hpage haddr hin
        exact ⟨s1, hrun, hh, hsame⟩

lemma kerCodememDirectWrite_holds {startAddr : ℕ} (buf : List UInt8) (offset : ℕ)
    (page : Option Mem) (h : Holds c s m) (hstart : c.flashmemPageSize ≤ startAddr) :
    ∃ s' code, kerCodememDirectWrite c s startAddr buf offset page = some (s', code) ∧
      SameControl s s' ∧
      ((code = 0 ∧ Holds c s' (blit m (startAddr + offset) buf)) ∨ (code = -enomem ∧ s' = s)) := by
  unfold kerCodememDirectWrite
  split
  · exact ⟨s, -enomem, rfl, ⟨rfl, rfl, rfl⟩, .inr ⟨rfl, rfl⟩⟩
  next s1 halloc =>
    obtain ⟨h1, hpage, hsame⟩ := codememCacheAlloc_holds h halloc
    set addr := startAddr + offset
    have haddr : c.flashmemPageSize ≤ addr := by omega
    have hmod := Nat.mod_lt addr c.page_pos
    simp only
    split
    next hlong =>
      set first := c.flashmemPageSize - addr % c.flashmemPageSize with hfirst
      have htake : (buf.take first).length = first := by
        rw [length_take]
        omega
      have hfit : addr % c.flashmemPageSize + (buf.take first).length ≤ c.flashmemPageSize := by
        omega
      obtain ⟨s2, hrun, h2, hp2, hsame2⟩ := codememCacheWrite_holds h1 hpage haddr hfit
      have halign : (addr + first) % c.flashmemPageSize = 0 := by
        have hsum : addr + first = pageAddr c addr + c.flashmemPageSize := by
          have := pageAddr_add c addr
          omega
        rw [hsum, Nat.add_mod_right]
        exact Nat.mod_eq_zero_of_dvd (pageAddr_dvd c addr)
      have hfuel : (buf.drop first).length < buf.length := by
        rw [length_drop]
        omega
      obtain ⟨s3, hrest, h3, hsame3⟩ := writePages_holds buf.length h2 hp2
        (by omega : c.flashmemPageSize ≤ addr + first) (.inl halign) hfuel
      refine ⟨s3, 0, ?_, hsame.trans (hsame2.trans hsame3), .inl ⟨rfl, ?_⟩⟩
      · rw [hrun, bind_some, hrest]
        rfl
      · have hsplit := blit_append m addr (buf.take first) (buf.drop first)
        rw [take_append_drop, htake] at hsplit
        rw [hsplit]
        exact h3
    next hshort =>
      obtain ⟨s2, hrun, h2, hsame2⟩ := writePages_holds (buf.length + 1) h1 hpage haddr
        (.inr (by omega : addr % c.flashmemPageSize + buf.length ≤ c.flashmemPageSize))
        (Nat.lt_succ_self _)
      exact ⟨s2, 0, by rw [hrun]; rfl, hsame.trans hsame2, .inl ⟨rfl, h2⟩⟩

structure World where
  code : State
  mem : Mem

inductive Call where
  | write (cm : ℕ) (buf : List UInt8) (offset : ℕ) (page : Option Mem)
  | read (cm n offset : ℕ)
  | flush

def expected (w : World) (cm : ℕ) (buf : List UInt8) (offset : ℕ) (code : ℤ) : Mem :=
  (liveHdr w.code cm).elim w.mem (fun hdr =>
    if code = 0 then blit w.mem (hdr.startAddr + offset) buf else w.mem)

def step (c : Config) (w : World) : Call → Option World
  | .write cm buf offset page => (kerCodememWrite c w.code cm buf offset page).map (fun r =>
    ⟨r.1, expected w cm buf offset r.2⟩)
  | .read cm n offset => (kerCodememRead c w.code cm n offset).map (fun _ => w)
  | .flush => some ⟨(kerCodememFlush c w.code).1, w.mem⟩

def InRegion (c : Config) (s : State) (cm offset n : ℕ) : Prop :=
  (liveHdr s cm).elim False (fun hdr => offset + n ≤
    (hdr.size + c.flashmemPageSize - 1) / c.flashmemPageSize * c.flashmemPageSize)
  deriving Decidable

def Legal (c : Config) (w : World) : Call → Prop
  | .write cm buf offset _ => InRegion c w.code cm offset buf.length
  | .read cm n offset => InRegion c w.code cm offset n ∧
    (liveHdr w.code cm).elim True (fun hdr => ReadClear w.code (hdr.startAddr + offset) n)
  | .flush => True

instance (c : Config) (w : World) (e : Call) : Decidable (Legal c w e) := by
  cases e <;> (dsimp only [Legal]; infer_instance)

lemma InRegion.live (h : InRegion c s cm offset n) : ∃ hdr, liveHdr s cm = some hdr := by
  unfold InRegion at h
  cases hlive : liveHdr s cm with
  | none =>
    rw [hlive] at h
    exact h.elim
  | some hdr => exact ⟨hdr, rfl⟩

def RegionsAbove (c : Config) (s : State) : Prop :=
  ∀ hdr, some hdr ∈ s.codememHandleList → c.flashStartPageAddr ≤ hdr.startAddr

structure Inv (c : Config) (w : World) : Prop where
  holds : Holds c w.code w.mem
  above : RegionsAbove c w.code

lemma checkCodememT_of_live (h : liveHdr s cm = some hdr) :
    checkCodememT s cm = some (some hdr) ∧ some hdr ∈ s.codememHandleList := by
  have hcheck : checkCodememT s cm = some (some hdr) := join_eq_some_iff.mp h
  refine ⟨hcheck, ?_⟩
  simp only [checkCodememT] at hcheck
  split at hcheck
  · cases hcheck
  · obtain ⟨entry, hentry, hfilter⟩ := map_eq_some_iff.mp hcheck
    obtain ⟨hsome, -⟩ := filter_eq_some_iff.mp hfilter
    rw [hsome] at hentry
    exact mem_of_getElem? hentry

lemma page_le_start (h : RegionsAbove c s)
    (hmem : some hdr ∈ s.codememHandleList) : c.flashmemPageSize ≤ hdr.startAddr := by
  have hpos := Nat.mul_le_mul_right c.flashmemPageSize c.start_pos
  have habove := h hdr hmem
  unfold Config.flashStartPageAddr at habove
  omega

lemma kerCodememRead_eq {w : World} {n : ℕ} (hinv : Inv c w)
    (hlegal : Legal c w (.read cm n offset)) :
    ∃ hdr, liveHdr w.code cm = some hdr ∧ kerCodememRead c w.code cm n offset =
        some (flashRead w.mem (hdr.startAddr + offset) n, 0) := by
  obtain ⟨hregion, hclear⟩ := hlegal
  obtain ⟨hdr, hlive⟩ := hregion.live
  obtain ⟨hcheck, hmem⟩ := checkCodememT_of_live hlive
  have hstart := page_le_start hinv.above hmem
  rw [hlive] at hclear
  refine ⟨hdr, hlive, ?_⟩
  have hread := codememCacheRead_holds hinv.holds (by omega) hclear
  rw [kerCodememRead, hcheck, bind_some]
  simp only [hread, map_some]

lemma step_preserves_invariant (w : World) (e : Call) (hinv : Inv c w) (hlegal : Legal c w e) :
    ∃ w', step c w e = some w' ∧ Inv c w' := by
  cases e with
  | write cm buf offset page =>
    obtain ⟨hdr, hlive⟩ := hlegal.live
    obtain ⟨hcheck, hmem⟩ := checkCodememT_of_live hlive
    obtain ⟨s', code, hrun, hsame, hcase⟩ :=
      kerCodememDirectWrite_holds buf offset page hinv.holds (page_le_start hinv.above hmem)
    refine ⟨⟨s', expected w cm buf offset code⟩, ?_, ?_, ?_⟩
    · rw [step, kerCodememWrite, hcheck, bind_some]
      simp only [hrun, map_some]
    · rw [expected, hlive, elim_some]
      rcases hcase with ⟨hcode, hh⟩ | ⟨hcode, hs⟩
      · rw [if_pos hcode]
        exact hh
      · rw [if_neg (by rw [hcode]; decide), hs]
        exact hinv.holds
    · intro hdr' hmem'
      exact hinv.above hdr' (hsame.handles ▸ hmem')
  | read cm n offset =>
    obtain ⟨hdr, -, hread⟩ := kerCodememRead_eq hinv hlegal
    exact ⟨w, by rw [step, hread]; rfl, hinv⟩
  | flush =>
    obtain ⟨hh, hsame⟩ := codememCacheFlush_holds hinv.holds
    exact ⟨_, rfl, hh, fun hdr hmem => hinv.above hdr (hsame.handles ▸ hmem)⟩

/-- In every run in which no read meets the page in RAM behind its first page, each read
returns the bytes last written, or those of flash at the start. -/
theorem read_after_write_over_runs (hidle : s.flashCacheAddr = 0) (habove : RegionsAbove c s)
    {calls : List Call} (hvalid : ValidTrace (step c) (Legal c) ⟨s, s.flash⟩ calls) :
    ∃ w, runTrace (step c) ⟨s, s.flash⟩ calls = some w ∧
      ∀ cm n offset, Legal c w (.read cm n offset) → ∃ hdr, liveHdr w.code cm = some hdr ∧
        kerCodememRead c w.code cm n offset =
          some (flashRead w.mem (hdr.startAddr + offset) n, 0) := by
  have hholds : Holds c s s.flash := by
    refine ⟨by rw [hidle]; exact dvd_zero _, fun _ => hidle, fun a _ => ?_⟩
    rw [view, hidle]
    cases s.flashCachePage <;> rfl
  obtain ⟨w, hrun, hinv⟩ := run_invariant step_preserves_invariant ⟨hholds, habove⟩ hvalid
  exact ⟨w, hrun, fun cm n offset hlegal => kerCodememRead_eq hinv hlegal⟩

lemma samplePage_pos : 0 < 256 := by decide

lemma sampleStart_pos : 0 < 80 := by decide

def sampleConfig : Config := ⟨256, 80, 400, 65536, samplePage_pos, sampleStart_pos, by decide⟩

def sampleState : State where
  flash _ := 0xff
  flashCachePage := none
  flashCacheAddr := 0
  flashAllocBitmap := replicate 400 false
  codememHandleList := some ⟨80 * 256, 512, 1⟩ :: replicate 15 none
  codememSalt := 1

lemma sampleState_above : RegionsAbove sampleConfig sampleState := by
  intro hdr hmem
  simp only [sampleState, mem_cons, some.injEq, mem_replicate, reduceCtorEq,
    and_false, or_false] at hmem
  rw [hmem]
  decide

def sampleCalls : List Call :=
  [.write 0x100 [1, 2, 3] 255 (some fun _ => 0), .read 0x100 2 256, .flush, .read 0x100 300 0]

theorem read_after_write_sample :
    ValidTrace (step sampleConfig) (Legal sampleConfig) ⟨sampleState, sampleState.flash⟩
        sampleCalls ∧
      ∃ w, runTrace (step sampleConfig) ⟨sampleState, sampleState.flash⟩ sampleCalls = some w ∧
        ∀ cm n offset, Legal sampleConfig w (.read cm n offset) →
          ∃ hdr, liveHdr w.code cm = some hdr ∧ kerCodememRead sampleConfig w.code cm n offset =
            some (flashRead w.mem (hdr.startAddr + offset) n, 0) := by
  have hvalid : ValidTrace (step sampleConfig) (Legal sampleConfig)
      ⟨sampleState, sampleState.flash⟩ sampleCalls := by decide +kernel
  exact ⟨hvalid, read_after_write_over_runs rfl sampleState_above hvalid⟩

/-- A byte is written at the start of the second page. A read that begins in the first page
returns the old byte of flash for it. -/
theorem stale_read_across_pages :
    ∃ w, runTrace (step sampleConfig) ⟨sampleState, sampleState.flash⟩
        [.write 0x100 [7] 256 (some fun _ => 0)] = some w ∧
      InRegion sampleConfig w.code 0x100 255 2 ∧
      kerCodememRead sampleConfig w.code 0x100 2 255 = some ([0xff, 0xff], 0) ∧
      flashRead w.mem (80 * 256 + 255) 2 = [0xff, 7] := by
  refine ⟨_, rfl, ?_, ?_, ?_⟩ <;> decide +kernel

end CodeMemoryCoherence
