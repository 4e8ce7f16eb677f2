import SosKernel.CodeMemoryAllocation
import SosKernel.CodeMemoryCoherence

/-! # Which flash pages the calls touch

`touches` lists the pages to which a call applies `flash_erase` or `flash_write`; what lies
outside them keeps its bytes. -/
namespace CodeMemoryTouches

open ByteMemory CodeMemory GuardedRuns List Option
open CodeMemoryAllocation (pagesFor firstPage Owns Region sampleConfig)
open CodeMemoryCoherence (Holds pageAddr_eq)

section Touches

variable (c : Config) {hdrMem : Bool} {size : ℕ}

def loadTouches (s : State) (start : ℕ) : List ℕ :=
  if s.flashCacheAddr = start ∨ s.flashCacheAddr = 0 then [] else [s.flashCacheAddr]

def writePagesTouches : ℕ → State → ℕ → List UInt8 → List ℕ
  | 0, _, _, _ => []
  | fuel + 1, s, addr, buf =>
    if c.flashmemPageSize < buf.length then
      loadTouches s (pageAddr c addr) ++
        (codememCacheWrite c s addr (buf.take c.flashmemPageSize)).elim [] (fun s' =>
          writePagesTouches fuel s' (addr + c.flashmemPageSize) (buf.drop c.flashmemPageSize))
    else if buf.length ≠ 0 then loadTouches s (pageAddr c addr)
    else []

def directWriteTouches (s : State) (startAddr : ℕ) (buf : List UInt8) (offset : ℕ)
    (page : Option Mem) : List ℕ :=
  (codememCacheAlloc s page).elim [] (fun s1 =>
    let addr := startAddr + offset
    let remaining := c.flashmemPageSize - addr % c.flashmemPageSize
    if remaining < buf.length then
      loadTouches s1 (pageAddr c addr) ++
        (codememCacheWrite c s1 addr (buf.take remaining)).elim [] (fun s2 =>
          writePagesTouches c buf.length s2 (addr + remaining) (buf.drop remaining))
    else writePagesTouches c (buf.length + 1) s1 addr buf)

/-- `codemem_cache_flush` writes the page back whatever its address is. -/
def flushTouches (s : State) : List ℕ := s.flashCachePage.elim [] (fun _ => [s.flashCacheAddr])

def eraseTouches (addr size : ℕ) : List ℕ :=
  (List.range (pagesFor c size)).map (fun k => addr + k * c.flashmemPageSize)

end Touches

inductive Call where
  | alloc (size : ℕ) (hdrMem : Bool) (page : Option Mem)
  | write (cm : ℕ) (buf : List UInt8) (offset : ℕ) (page : Option Mem)
  | flush
  | free (cm : ℕ)

def perform (c : Config) (s : State) : Call → Option State
  | .alloc size hdrMem page => (kerCodememAlloc c s size hdrMem page).map Prod.fst
  | .write cm buf offset page => (kerCodememWrite c s cm buf offset page).map Prod.fst
  | .flush => some (kerCodememFlush c s).1
  | .free cm => (kerCodememFree c s cm).map Prod.fst

/-- The pages to which the call applies `flash_erase` or `flash_write`. -/
def touches (c : Config) (s : State) : Call → List ℕ
  | .alloc _ _ _ => []
  | .write cm buf offset page => (liveHdr s cm).elim [] (fun hdr =>
    directWriteTouches c s hdr.startAddr buf offset page)
  | .flush => flushTouches s
  | .free cm => (liveHdr s cm).elim [] (fun hdr => eraseTouches c hdr.startAddr hdr.size)

/-- The live handle that the call writes or frees. A write of no bytes, or one that finds no
page of RAM, does not count. -/
def entered (s : State) : Call → List CodememHdr
  | .write cm buf _ page =>
    if buf = [] ∨ (codememCacheAlloc s page).isNone then [] else (liveHdr s cm).toList
  | .free cm => (liveHdr s cm).toList
  | _ => []

structure World where
  code : State
  active : List CodememHdr

def activeAfter (hdrs : List CodememHdr) : Call → List CodememHdr
  | .flush => []
  | _ => hdrs

def step (c : Config) (w : World) (e : Call) : Option World :=
  (perform c w.code e).map (fun s => ⟨s, activeAfter (w.active ++ entered w.code e) e⟩)

/-- Allocations are those for which allocation is sound, writes stay inside their handle, and
no flush meets a page of RAM that holds no page of flash. -/
def Legal (c : Config) (w : World) : Call → Prop
  | .alloc size hdrMem page => CodeMemoryAllocation.Legal c w.code (.alloc size hdrMem page)
  | .write cm buf offset _ => cm % 256 ≠ codememMaxLoadableModules ∧
    (liveHdr w.code cm).elim True (fun hdr =>
      offset + buf.length ≤ pagesFor c hdr.size * c.flashmemPageSize)
  | .flush => w.code.flashCachePage.isSome → w.code.flashCacheAddr ≠ 0
  | .free cm => CodeMemoryAllocation.Legal c w.code (.free cm)

instance (c : Config) (w : World) (e : Call) : Decidable (Legal c w e) := by
  cases e <;> (dsimp only [Legal]; infer_instance)

def PageOf (c : Config) (hdr : CodememHdr) (q : ℕ) : Prop :=
  ∃ p, Owns c hdr p ∧ q = c.flashStartPageAddr + p * c.flashmemPageSize

def InPage (c : Config) (q a : ℕ) : Prop := q ≤ a ∧ a < q + c.flashmemPageSize

variable {c : Config} {s s' : State} {addr n q offset cm : ℕ} {buf : List UInt8} {hdr : CodememHdr}
  {t : List ℕ} {page : Option Mem} {w : World}

def InRange (c : Config) (addr n q : ℕ) : Prop := ∃ x, addr ≤ x ∧ x < addr + n ∧ q = pageAddr c x

lemma InRange.mono {addr' n' : ℕ} (h : InRange c addr n q) (hlow : addr' ≤ addr)
    (hhigh : addr + n ≤ addr' + n') : InRange c addr' n' q := by
  obtain ⟨x, hx, hx', hq⟩ := h
  exact ⟨x, by omega, by omega, hq⟩

structure Writes (c : Config) (s s' : State) (addr n : ℕ) (touched : List ℕ) : Prop where
  frame : ∀ a, (∀ q ∈ touched, ¬ InPage c q a) → s'.flash a = s.flash a
  touched : ∀ q ∈ touched, q ≠ 0 ∧ (q = s.flashCacheAddr ∨ InRange c addr n q)
  cached : s'.flashCacheAddr = s.flashCacheAddr ∨ InRange c addr n s'.flashCacheAddr

lemma Writes.trans {s'' : State} {m : ℕ} {t' : List ℕ} (h : Writes c s s' addr n t)
    (h' : Writes c s' s'' (addr + n) m t') : Writes c s s'' addr (n + m) (t ++ t') := by
  have hleft : ∀ q, InRange c addr n q → InRange c addr (n + m) q :=
    fun q hq => hq.mono (Nat.le_refl _) (by omega)
  have hright : ∀ q, InRange c (addr + n) m q → InRange c addr (n + m) q :=
    fun q hq => hq.mono (by omega) (by omega)
  have hold : s'.flashCacheAddr = s.flashCacheAddr ∨ InRange c addr (n + m) s'.flashCacheAddr :=
    h.cached.imp_right (hleft _)
  constructor
  · intro a ha
    have h1 := h.frame a (fun q hq => ha q (mem_append_left _ hq))
    have h2 := h'.frame a (fun q hq => ha q (mem_append_right _ hq))
    exact h2.trans h1
  · intro q hq
    rcases mem_append.mp hq with hq | hq
    · exact (h.touched q hq).imp_right (Or.imp_right (hleft q))
    · obtain ⟨hne, hcase⟩ := h'.touched q hq
      refine ⟨hne, ?_⟩
      rcases hcase with heq | hin
      · rw [heq]
        exact hold
      · exact .inr (hright q hin)
  · rcases h'.cached with heq | hin
    · rw [heq]
      exact hold
    · exact .inr (hright _ hin)

lemma mem_loadTouches {start : ℕ} :
    q ∈ loadTouches s start ↔ q = s.flashCacheAddr ∧ q ≠ start ∧ q ≠ 0 := by
  unfold loadTouches
  split
  next h =>
    constructor
    · intro hq
      cases hq
    · rintro ⟨rfl, hne, hne'⟩
      exact (h.elim hne hne').elim
  next h =>
    rw [mem_singleton]
    constructor
    · rintro rfl
      exact ⟨rfl, fun heq => h (.inl heq), fun heq => h (.inr heq)⟩
    · exact fun hq => hq.1

lemma loadPage_addr (page : Mem) (start : ℕ) :
    (loadPage c s page start).flashCacheAddr = start := by
  unfold loadPage
  split
  next h => exact h
  · rfl

lemma loadPage_frame (page : Mem) (start a : ℕ) (h : ∀ q ∈ loadTouches s start, ¬ InPage c q a) :
    (loadPage c s page start).flash a = s.flash a := by
  unfold loadPage
  split
  · rfl
  next hne =>
    by_cases hzero : s.flashCacheAddr = 0
    · simp only [hzero, ne_eq, not_true_eq_false, if_false]
    · have hout := h _ (mem_loadTouches.mpr ⟨rfl, hne, hzero⟩)
      simp only [ne_eq, hzero, not_false_eq_true, if_true]
      exact if_neg hout

lemma codememCacheWrite_writes (hrun : codememCacheWrite c s addr buf = some s')
    (hpos : 0 < buf.length) : Writes c s s' addr buf.length (loadTouches s (pageAddr c addr)) := by
  obtain ⟨page, -, hload⟩ := bind_eq_some_iff.mp hrun
  obtain ⟨p, -, rfl⟩ := map_eq_some_iff.mp hload
  constructor
  · intro a ha
    exact loadPage_frame page _ a ha
  · intro q hq
    obtain ⟨heq, -, hne⟩ := mem_loadTouches.mp hq
    exact ⟨hne, .inl heq⟩
  · exact .inr ⟨addr, Nat.le_refl _, by omega, loadPage_addr page _⟩

lemma writePages_writes (fuel : ℕ) (hrun : writePages c fuel s addr buf = some s') :
    Writes c s s' addr buf.length (writePagesTouches c fuel s addr buf) := by
  -- induction on the passes of the loop
  induction fuel generalizing s addr buf with
  | zero => cases hrun
  | succ fuel ih =>
    rw [writePages] at hrun
    rw [writePagesTouches]
    by_cases hlong : c.flashmemPageSize < buf.length
    · rw [if_pos hlong] at hrun ⊢
      obtain ⟨s1, hfirst, hrest⟩ := bind_eq_some_iff.mp hrun
      have htake : (buf.take c.flashmemPageSize).length = c.flashmemPageSize := by
        rw [length_take]
        omega
      have hw := codememCacheWrite_writes hfirst (by rw [htake]; exact c.page_pos)
      rw [htake] at hw
      have hw' := hw.trans (ih hrest)
      have hsum : c.flashmemPageSize + (buf.drop c.flashmemPageSize).length = buf.length := by
        rw [length_drop]
        omega
      rw [hsum] at hw'
      rw [hfirst]
      exact hw'
    · rw [if_neg hlong] at hrun ⊢
      by_cases hzero : buf.length = 0
      · rw [if_neg (by simp [hzero])] at hrun ⊢
        cases hrun
        exact ⟨fun _ _ => rfl, fun q hq => absurd hq (by simp), .inl rfl⟩
      · rw [if_pos hzero] at hrun ⊢
        exact codememCacheWrite_writes hrun (by omega)

lemma Writes.of_start {s1 : State} (h : Writes c s1 s' addr n t) (hflash : s1.flash = s.flash)
    (haddr : s1.flashCacheAddr = s.flashCacheAddr) : Writes c s s' addr n t := by
  constructor
  · intro a ha
    rw [h.frame a ha, hflash]
  · rw [← haddr]
    exact h.touched
  · rw [← haddr]
    exact h.cached

section

variable (hidle : s.flashCachePage = none → s.flashCacheAddr = 0)
include hidle

lemma codememCacheAlloc_keeps
    (hrun : codememCacheAlloc s page = some s') :
    s'.flash = s.flash ∧ s'.flashCacheAddr = s.flashCacheAddr ∧ s'.flashCachePage.isSome := by
  unfold codememCacheAlloc at hrun
  split at hrun
  next p hp =>
    cases hrun
    exact ⟨rfl, rfl, by rw [hp]; rfl⟩
  next hnone =>
    obtain ⟨p, -, rfl⟩ := map_eq_some_iff.mp hrun
    exact ⟨rfl, (hidle hnone).symm, rfl⟩

lemma kerCodememDirectWrite_writes {startAddr : ℕ} {code : ℤ}
    (hrun : kerCodememDirectWrite c s startAddr buf offset page = some (s', code)) :
    Writes c s s' (startAddr + offset) buf.length
      (directWriteTouches c s startAddr buf offset page) := by
  unfold kerCodememDirectWrite at hrun
  unfold directWriteTouches
  cases halloc : codememCacheAlloc s page with
  | none =>
    rw [halloc] at hrun
    cases hrun
    exact ⟨fun _ _ => rfl, fun q hq => absurd hq (by simp), .inl rfl⟩
  | some s1 =>
    rw [halloc] at hrun
    obtain ⟨hflash, haddr, -⟩ := codememCacheAlloc_keeps hidle halloc
    rw [elim_some]
    refine Writes.of_start ?_ hflash haddr
    obtain ⟨s2, hwrite, heq⟩ := map_eq_some_iff.mp hrun
    cases heq
    set start := startAddr + offset
    set remaining := c.flashmemPageSize - start % c.flashmemPageSize with hrem
    have hmod := Nat.mod_lt start c.page_pos
    by_cases hlong : remaining < buf.length
    · rw [if_pos hlong] at hwrite ⊢
      obtain ⟨s3, hfirst, hrest⟩ := bind_eq_some_iff.mp hwrite
      have htake : (buf.take remaining).length = remaining := by
        rw [length_take]
        omega
      have hw := codememCacheWrite_writes hfirst (by omega)
      rw [htake] at hw
      have hw' := hw.trans (writePages_writes _ hrest)
      have hsum : remaining + (buf.drop remaining).length = buf.length := by
        rw [length_drop]
        omega
      rw [hsum] at hw'
      rw [hfirst]
      exact hw'
    · rw [if_neg hlong] at hwrite ⊢
      exact writePages_writes _ hwrite

end

lemma page_dvd_start (c : Config) (p : ℕ) :
    c.flashmemPageSize ∣ c.flashStartPageAddr + p * c.flashmemPageSize :=
  Nat.dvd_add (Nat.dvd_mul_left _ _) (Nat.dvd_mul_left _ _)

lemma PageOf.dvd (h : PageOf c hdr q) : c.flashmemPageSize ∣ q := by
  obtain ⟨p, -, rfl⟩ := h
  exact page_dvd_start c p

lemma pageOf_byte {k : ℕ} (hregion : Region c hdr)
    (hk : k < pagesFor c hdr.size * c.flashmemPageSize) :
    PageOf c hdr (pageAddr c (hdr.startAddr + k)) := by
  have hdiv : k / c.flashmemPageSize < pagesFor c hdr.size :=
    Nat.div_lt_of_lt_mul (by rw [Nat.mul_comm]; exact hk)
  have hsplit := Nat.div_add_mod' k c.flashmemPageSize
  have hmod := Nat.mod_lt k c.page_pos
  refine ⟨firstPage c hdr + k / c.flashmemPageSize, ⟨Nat.le_add_right _ _, by omega⟩, ?_⟩
  have hstart := hregion.start
  have hsum := Nat.add_mul (firstPage c hdr) (k / c.flashmemPageSize) c.flashmemPageSize
  apply pageAddr_eq (page_dvd_start c _)
  · omega
  · omega

lemma pageOf_inRange (hregion : Region c hdr)
    (hfit : offset + n ≤ pagesFor c hdr.size * c.flashmemPageSize)
    (h : InRange c (hdr.startAddr + offset) n q) : PageOf c hdr q := by
  obtain ⟨x, hlow, hhigh, rfl⟩ := h
  obtain ⟨k, rfl⟩ : ∃ k, x = hdr.startAddr + k := ⟨x - hdr.startAddr, by omega⟩
  exact pageOf_byte hregion (by omega)

lemma pageOf_eraseTouches (hregion : Region c hdr)
    (hq : q ∈ eraseTouches c hdr.startAddr hdr.size) : PageOf c hdr q := by
  obtain ⟨k, hk, rfl⟩ := mem_map.mp hq
  have hk' := mem_range.mp hk
  refine ⟨firstPage c hdr + k, ⟨Nat.le_add_right _ _, by omega⟩, ?_⟩
  rw [hregion.start, Nat.add_mul]
  omega

lemma flashErase_frame {flash : Mem} {a : ℕ} (h : ∀ q ∈ eraseTouches c addr size, ¬ InPage c q a) :
    flashErase flash addr size a = flash a := by
  unfold flashErase
  rw [if_neg]
  rintro ⟨hlow, hhigh⟩
  have hsplit := Nat.div_add_mod' (a - addr) c.flashmemPageSize
  have hmod := Nat.mod_lt (a - addr) c.page_pos
  set k := (a - addr) / c.flashmemPageSize
  have hcount : k < pagesFor c size := by
    apply Nat.lt_of_lt_of_le (Nat.lt_succ_self k)
    unfold pagesFor
    rw [Nat.le_div_iff_mul_le c.page_pos, Nat.succ_mul]
    omega
  have hmem : addr + k * c.flashmemPageSize ∈ eraseTouches c addr size :=
    mem_map.mpr ⟨k, mem_range.mpr hcount, rfl⟩
  apply h _ hmem
  constructor
  · omega
  · omega

structure Inv (c : Config) (w : World) : Prop where
  alloc : CodeMemoryAllocation.Inv c w.code
  idle : w.code.flashCachePage = none → w.code.flashCacheAddr = 0
  cached : w.code.flashCacheAddr ≠ 0 → ∃ hdr ∈ w.active, PageOf c hdr w.code.flashCacheAddr

/-- A call returns, touches pages of handles active during it only, and changes no other. -/
structure Accounted (c : Config) (w : World) (e : Call) (w' : World) : Prop where
  returns : step c w e = some w'
  touched : ∀ q ∈ touches c w.code e, ∃ hdr ∈ w.active ++ entered w.code e, PageOf c hdr q
  frame : ∀ a, w'.code.flash a ≠ w.code.flash a → ∃ q ∈ touches c w.code e, InPage c q a

lemma Inv.holds (h : Inv c w) : Holds c w.code (CodeMemoryCoherence.view c w.code) := by
  refine ⟨?_, h.idle, fun _ _ => rfl⟩
  by_cases hzero : w.code.flashCacheAddr = 0
  · rw [hzero]
    exact dvd_zero _
  · obtain ⟨hdr, -, hpage⟩ := h.cached hzero
    exact hpage.dvd

lemma frame_of_outside {flash flash' : Mem}
    (h : ∀ a, (∀ q ∈ t, ¬ InPage c q a) → flash' a = flash a) (a : ℕ) (hne : flash' a ≠ flash a) :
    ∃ q ∈ t, InPage c q a := by
  by_contra hno
  apply hne
  apply h
  intro q hq hin
  exact hno ⟨q, hq, hin⟩

lemma kerCodememAlloc_keeps {ret : ℕ} (hidle : s.flashCachePage = none → s.flashCacheAddr = 0)
    (hrun : kerCodememAlloc c s size hdrMem page = some (s', ret)) :
    s'.flash = s.flash ∧ s'.flashCacheAddr = s.flashCacheAddr ∧
      (s'.flashCachePage = none → s'.flashCacheAddr = 0) := by
  have halloc : ∀ s1 addr, flashAlloc c s size page = some (s1, addr) →
      s1.flash = s.flash ∧ s1.flashCacheAddr = s.flashCacheAddr ∧
        (s1.flashCachePage = none → s1.flashCacheAddr = 0) := by
    intro s1 addr h
    unfold flashAlloc at h
    split at h
    · cases h
      exact ⟨rfl, rfl, hidle⟩
    next s2 hcache =>
      obtain ⟨hflash, haddr, hsome⟩ := codememCacheAlloc_keeps hidle hcache
      have hno : s2.flashCachePage = none → s2.flashCacheAddr = 0 := by
        intro hnone
        rw [hnone] at hsome
        cases hsome
      split at h
      · cases h
        exact ⟨hflash, haddr, hno⟩
      · obtain ⟨bits, -, heq⟩ := map_eq_some_iff.mp h
        cases heq
        exact ⟨hflash, haddr, hno⟩
  unfold kerCodememAlloc at hrun
  simp only at hrun
  split at hrun
  · cases hrun
    exact ⟨rfl, rfl, hidle⟩
  · split at hrun
    · cases hrun
      exact ⟨rfl, rfl, hidle⟩
    · obtain ⟨r, hr, heq⟩ := map_eq_some_iff.mp hrun
      obtain ⟨hflash, haddr, hno⟩ := halloc r.1 r.2 hr
      split at heq
      · cases heq
        exact ⟨hflash, haddr, hno⟩
      · cases heq
        exact ⟨hflash, haddr, hno⟩

lemma step_alloc (h : Inv c w) (hlegal : Legal c w (.alloc size hdrMem page)) :
    ∃ w', Accounted c w (.alloc size hdrMem page) w' ∧ Inv c w' := by
  obtain ⟨s', ret, hrun, hinv, -⟩ := CodeMemoryAllocation.kerCodememAlloc_spec h.alloc hlegal
  obtain ⟨hflash, haddr, hno⟩ := kerCodememAlloc_keeps h.idle hrun
  refine ⟨⟨s', w.active ++ []⟩, ⟨?_, ?_, ?_⟩, hinv, hno, ?_⟩
  · rw [step, perform, hrun]
    rfl
  · intro q hq
    cases hq
  · intro a hne
    exact absurd (congrFun hflash a) hne
  · rw [haddr, append_nil]
    exact h.cached

lemma checkCodememT_of_dead (h : CodeMemoryAllocation.Inv c s)
    (hcm : cm % 256 ≠ codememMaxLoadableModules) (hdead : liveHdr s cm = none) :
    checkCodememT s cm = some none := by
  cases hcheck : checkCodememT s cm with
  | none =>
    simp only [checkCodememT] at hcheck
    split at hcheck
    · cases hcheck
    next hle =>
      have hslots := h.slots
      have hout := getElem?_eq_none_iff.mp (map_eq_none_iff.mp hcheck)
      omega
  | some r =>
    rw [liveHdr, hcheck] at hdead
    rw [← hdead]
    rfl

lemma step_refused {e : Call} (h : Inv c w) (hrun : perform c w.code e = some w.code)
    (htouches : touches c w.code e = []) (hentered : entered w.code e = [])
    (hkeeps : activeAfter w.active e = w.active) : ∃ w', Accounted c w e w' ∧ Inv c w' := by
  refine ⟨w, ⟨?_, ?_, ?_⟩, h⟩
  · rw [step, hrun, hentered, append_nil, hkeeps]
    rfl
  · intro q hq
    rw [htouches] at hq
    cases hq
  · intro a hne
    exact absurd rfl hne

lemma start_pos_of_region (h : Region c hdr) : c.flashmemPageSize ≤ hdr.startAddr := by
  have hpos := Nat.mul_le_mul_right c.flashmemPageSize c.start_pos
  have hsum := h.start
  unfold Config.flashStartPageAddr at hsum
  omega

section

variable (h : Inv c w) (hlive : liveHdr w.code cm = some hdr) (hregion : Region c hdr)
    (hfit : offset + buf.length ≤ pagesFor c hdr.size * c.flashmemPageSize)
    (halloc : (codememCacheAlloc w.code page).isSome)
include h hlive hregion hfit halloc

lemma pageOf_active (hne : q ≠ 0)
    (hq : q = w.code.flashCacheAddr ∨ InRange c (hdr.startAddr + offset) buf.length q) :
    ∃ d ∈ w.active ++ entered w.code (.write cm buf offset page), PageOf c d q := by
  rcases hq with heq | hin
  · subst heq
    obtain ⟨d, hd, hpage⟩ := h.cached hne
    exact ⟨d, mem_append_left _ hd, hpage⟩
  · have hbuf : buf ≠ [] := by
      rintro rfl
      obtain ⟨x, hlow, hhigh, -⟩ := hin
      simp only [length_nil] at hhigh
      omega
    have hentered : entered w.code (.write cm buf offset page) = [hdr] := by
      rw [entered, if_neg (by simp [hbuf, isSome_iff_ne_none.mp halloc]), hlive]
      rfl
    rw [hentered]
    exact ⟨hdr, mem_append_right _ (mem_singleton_self _), pageOf_inRange hregion hfit hin⟩

lemma step_write_live : ∃ w', Accounted c w (.write cm buf offset page) w' ∧ Inv c w' := by
  obtain ⟨hcheck, -⟩ := CodeMemoryCoherence.checkCodememT_of_live hlive
  have hpage := fun q => pageOf_active (q := q) h hlive hregion hfit halloc
  obtain ⟨s', code, hrun, hsame, hcase⟩ :=
    CodeMemoryCoherence.kerCodememDirectWrite_holds buf offset page h.holds
      (start_pos_of_region hregion)
  have hw := kerCodememDirectWrite_writes h.idle hrun
  have htouches : touches c w.code (.write cm buf offset page) =
      directWriteTouches c w.code hdr.startAddr buf offset page := by
    rw [touches, hlive]
    rfl
  refine ⟨⟨s', w.active ++ entered w.code (.write cm buf offset page)⟩, ⟨?_, ?_, ?_⟩, ?_, ?_, ?_⟩
  · rw [step, perform, kerCodememWrite, hcheck]
    simp only [bind_some, hrun]
    rfl
  · intro q hq
    rw [htouches] at hq
    obtain ⟨hne, hq⟩ := hw.touched q hq
    exact hpage q hne hq
  · rw [htouches]
    exact frame_of_outside hw.frame
  · exact h.alloc.congr hsame.bitmap hsame.handles
  · rcases hcase with ⟨-, hh⟩ | ⟨-, hs⟩
    · exact hh.idle
    · rw [hs]
      exact h.idle
  · intro hne
    exact hpage _ hne hw.cached

end

lemma step_write (h : Inv c w) (hlegal : Legal c w (.write cm buf offset page)) :
    ∃ w', Accounted c w (.write cm buf offset page) w' ∧ Inv c w' := by
  obtain ⟨hcm, hfit⟩ := hlegal
  cases hlive : liveHdr w.code cm with
  | none =>
    have hcheck := checkCodememT_of_dead h.alloc hcm hlive
    apply step_refused h
    · rw [perform, kerCodememWrite, hcheck]
      rfl
    · rw [touches, hlive]
      rfl
    · rw [entered, hlive]
      exact ite_self _
    · rfl
  | some hdr =>
    rw [hlive] at hfit
    obtain ⟨hcheck, hmem⟩ := CodeMemoryCoherence.checkCodememT_of_live hlive
    obtain ⟨i, hi⟩ := List.mem_iff_getElem?.mp hmem
    cases halloc : codememCacheAlloc w.code page with
    | none =>
      apply step_refused h
      · rw [perform, kerCodememWrite, hcheck]
        simp only [kerCodememDirectWrite, halloc]
        rfl
      · rw [touches, hlive, elim_some, directWriteTouches, halloc]
        rfl
      · rw [entered, halloc]
        exact if_pos (.inr rfl)
      · rfl
    | some s1 => exact step_write_live h hlive (h.alloc.region i hdr hi) hfit (by rw [halloc]; rfl)

lemma step_flush (h : Inv c w) (hlegal : Legal c w .flush) :
    ∃ w', Accounted c w .flush w' ∧ Inv c w' := by
  have hsame := (CodeMemoryCoherence.codememCacheFlush_holds h.holds).2
  have hidle : (codememCacheFlush c w.code).flashCacheAddr = 0 := by
    unfold codememCacheFlush
    split
    · rfl
    next hnone => exact h.idle hnone
  refine ⟨⟨codememCacheFlush c w.code, []⟩, ⟨rfl, ?_, ?_⟩,
    h.alloc.congr hsame.bitmap hsame.handles, fun _ => hidle, fun hne => absurd hidle hne⟩
  · intro q hq
    cases hpage : w.code.flashCachePage with
    | none =>
      rw [touches, flushTouches, hpage] at hq
      cases hq
    | some page =>
      rw [touches, flushTouches, hpage, elim_some, mem_singleton] at hq
      subst hq
      obtain ⟨hdr, hmem, hown⟩ := h.cached (hlegal (by rw [hpage]; rfl))
      exact ⟨hdr, mem_append_left _ hmem, hown⟩
  · apply frame_of_outside
    intro a ha
    unfold codememCacheFlush
    split
    next page hpage =>
      refine if_neg (ha w.code.flashCacheAddr ?_)
      rw [touches, flushTouches, hpage]
      exact mem_singleton_self _
    · rfl

lemma step_free (h : Inv c w) (hlegal : Legal c w (.free cm)) :
    ∃ w', Accounted c w (.free cm) w' ∧ Inv c w' := by
  cases hlive : liveHdr w.code cm with
  | none =>
    have hcheck := checkCodememT_of_dead h.alloc hlegal hlive
    apply step_refused h
    · rw [perform, kerCodememFree, hcheck]
      rfl
    · rw [touches, hlive]
      rfl
    · rw [entered, hlive]
      rfl
    · rfl
  | some hdr =>
    obtain ⟨hcheck, hmem⟩ := CodeMemoryCoherence.checkCodememT_of_live hlive
    obtain ⟨i, hi⟩ := List.mem_iff_getElem?.mp hmem
    have hregion := h.alloc.region i hdr hi
    have hfree := CodeMemoryAllocation.flashFree_eq h.alloc hi
    obtain ⟨s', code, hrun, hinv⟩ := CodeMemoryAllocation.kerCodememFree_spec h.alloc hlegal
    have hentered : entered w.code (.free cm) = [hdr] := by
      rw [entered, hlive]
      rfl
    have htouches : touches c w.code (.free cm) = eraseTouches c hdr.startAddr hdr.size := by
      rw [touches, hlive]
      rfl
    obtain ⟨hflash, hcache, haddr⟩ :
        s'.flash = flashErase w.code.flash hdr.startAddr hdr.size ∧
          s'.flashCachePage = w.code.flashCachePage ∧
          s'.flashCacheAddr = w.code.flashCacheAddr := by
      rw [kerCodememFree, hcheck, bind_some] at hrun
      simp only [hfree, map_some] at hrun
      cases hrun
      exact ⟨rfl, rfl, rfl⟩
    refine ⟨⟨s', w.active ++ entered w.code (.free cm)⟩, ⟨?_, ?_, ?_⟩, hinv, ?_, ?_⟩
    · rw [step, perform, hrun]
      rfl
    · intro q hq
      rw [htouches] at hq
      rw [hentered]
      exact ⟨hdr, mem_append_right _ (mem_singleton_self _), pageOf_eraseTouches hregion hq⟩
    · rw [htouches, hflash]
      exact frame_of_outside (fun a ha => flashErase_frame ha)
    · rw [hcache, haddr]
      exact h.idle
    · rw [haddr]
      intro hne
      obtain ⟨d, hd, hpage⟩ := h.cached hne
      exact ⟨d, mem_append_left _ hd, hpage⟩

lemma step_accounted (w : World) (e : Call) (h : Inv c w) (hlegal : Legal c w e) :
    ∃ w', Accounted c w e w' ∧ Inv c w' := by
  cases e with
  | alloc size hdrMem page => exact step_alloc h hlegal
  | write cm buf offset page => exact step_write h hlegal
  | flush => exact step_flush h hlegal
  | free cm => exact step_free h hlegal

lemma step_preserves_invariant (w : World) (e : Call) (h : Inv c w) (hlegal : Legal c w e) :
    ∃ w', step c w e = some w' ∧ Inv c w' := by
  obtain ⟨w', hacc, hinv⟩ := step_accounted w e h hlegal
  exact ⟨w', hacc.returns, hinv⟩

def start (c : Config) (flash : Mem) : World := ⟨codememInit c flash, []⟩

lemma inv_start (flash : Mem) : Inv c (start c flash) :=
  ⟨CodeMemoryAllocation.inv_codememInit flash, fun _ => rfl, fun hne => absurd rfl hne⟩

/-- In every run without a flush of an empty page of RAM, each page that the next call erases
or writes belongs to a handle written or freed since the last flush, and no byte outside
these pages changes. -/
theorem touched_pages_active_over_runs (flash : Mem) {calls : List Call}
    (hvalid : ValidTrace (step c) (Legal c) (start c flash) calls) :
    ∃ w, runTrace (step c) (start c flash) calls = some w ∧
      ∀ e, Legal c w e → ∃ w', step c w e = some w' ∧
        (∀ q ∈ touches c w.code e, ∃ hdr ∈ w.active ++ entered w.code e, PageOf c hdr q) ∧
        ∀ a, w'.code.flash a ≠ w.code.flash a → ∃ q ∈ touches c w.code e, InPage c q a := by
  obtain ⟨w, hrun, hinv⟩ := run_invariant step_preserves_invariant (inv_start flash) hvalid
  refine ⟨w, hrun, fun e hlegal => ?_⟩
  obtain ⟨w', hacc, -⟩ := step_accounted w e hinv hlegal
  exact ⟨w', hacc.returns, hacc.touched, hacc.frame⟩

def sampleWorld : World := start sampleConfig (fun _ => 0xff)

def sampleRun : List Call :=
  [.alloc 600 true (some fun _ => 0), .write 0x100 [1, 2, 3] 255 none, .flush, .free 0x100]

theorem touched_pages_active_sample :
    ValidTrace (step sampleConfig) (Legal sampleConfig) sampleWorld sampleRun ∧
      ∃ w, runTrace (step sampleConfig) sampleWorld sampleRun = some w ∧
        ∀ e, Legal sampleConfig w e → ∃ w', step sampleConfig w e = some w' ∧
          (∀ q ∈ touches sampleConfig w.code e,
            ∃ hdr ∈ w.active ++ entered w.code e, PageOf sampleConfig hdr q) ∧
          ∀ a, w'.code.flash a ≠ w.code.flash a →
            ∃ q ∈ touches sampleConfig w.code e, InPage sampleConfig q a := by
  have hvalid : ValidTrace (step sampleConfig) (Legal sampleConfig) sampleWorld sampleRun := by
    decide +kernel
  exact ⟨hvalid, touched_pages_active_over_runs _ hvalid⟩

/-- A handle is allocated, which takes the page of RAM, and the flush that follows writes this
page over flash page zero. No handle was written or freed. -/
theorem flush_overwrites_boot_page :
    ∃ w w', runTrace (step sampleConfig) sampleWorld
        [.alloc 100 true (some fun _ => 0)] = some w ∧
      step sampleConfig w .flush = some w' ∧ touches sampleConfig w.code .flush = [0] ∧
      w.active ++ entered w.code .flush = [] ∧
      w.code.flash 0 = 0xff ∧ w'.code.flash 0 = 0 :=
  ⟨_, _, rfl, rfl, rfl, rfl, rfl, rfl⟩

end CodeMemoryTouches
