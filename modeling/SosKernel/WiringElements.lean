import SosKernel.CodeMemoryCoherence
import SosKernel.WiringScan

/-! # The table of elements

The end of a configuration writes the marked elements to flash, behind a count that was never
reset. A later configuration reads them back, to deregister them or to keep them. -/
namespace WiringElements

open ByteMemory WiringEngine WiringScan GuardedRuns List Option Function
open CodeMemory (blit)
open CodeMemoryCoherence (blit_apply)

variable {P : Platform} {m : Mem} {off pid hdr : ℕ} {x : Element} {l : List Element} {e e' : Engine}
  {cfg : Config} {rows : List (Row × Answer)} {s s' : Scan} {row : Row} {ans : Answer}

structure Typed (x : Element) : Prop where
  cid : x.cid < 65536
  instanceId : x.instanceId < 256
  pid : x.pid < 256

lemma readElement_blit (h : Typed x) :
    readElement (blit m off (elementBytes x)) off = unmark x := by
  have hcid := h.cid
  have hinst := h.instanceId
  have hpid := h.pid
  simp only [readElement, unmark, blit_apply, elementBytes, length_cons, length_nil,
    Element.mk.injEq]
  simp
  omega

lemma readElement_congr {m' : Mem} (h : ∀ i < 4, m' (off + i) = m (off + i)) :
    readElement m' off = readElement m off := by
  have h0 := h 0 (by decide)
  rw [Nat.add_zero] at h0
  rw [readElement, readElement, h0, h 1 (by decide), h 2 (by decide), h 3 (by decide)]

lemma writeElementsFrom_before (hfit : off + 4 * (l.filter Element.marked).length < 65536)
    {a : ℕ} (ha : a < off) : writeElementsFrom m off l a = m a := by
  induction l generalizing m off with
  | nil => rfl
  | cons x l ih =>
    rw [writeElementsFrom]
    by_cases hx : x.marked
    · rw [filter_cons_of_pos hx, length_cons] at hfit
      rw [if_pos hx, Nat.mod_eq_of_lt (by omega), ih (by omega) (by omega), blit_apply,
        if_neg (by omega)]
    · rw [filter_cons_of_neg hx] at hfit
      rw [if_neg hx, ih hfit ha]

lemma readElement_writeElementsFrom (htyped : ∀ x ∈ l, Typed x)
    (hfit : off + 4 * (l.filter Element.marked).length < 65536) :
    (List.range (l.filter Element.marked).length).map
        (fun i => readElement (writeElementsFrom m off l) (off + 4 * i)) =
      (l.filter Element.marked).map unmark := by
  induction l generalizing m off with
  | nil => rfl
  | cons x l ih =>
    obtain ⟨hx, hl⟩ := forall_mem_cons.mp htyped
    rw [writeElementsFrom]
    by_cases hmark : x.marked
    · rw [filter_cons_of_pos hmark, length_cons] at hfit ⊢
      rw [if_pos hmark, Nat.mod_eq_of_lt (by omega), range_succ_eq_map, map_cons,
        map_cons, List.map_map]
      congr 1
      · -- the later records leave the first one alone
        rw [← readElement_blit hx]
        exact readElement_congr (fun i hi => writeElementsFrom_before (by omega) (by omega))
      · have hrest : off + 4 + 4 * (l.filter Element.marked).length < 65536 := by omega
        rw [← ih hl hrest]
        refine map_congr_left (fun i _ => ?_)
        rw [comp_apply, Nat.succ_eq_add_one, Nat.mul_add, Nat.add_comm (4 * i),
          ← Nat.add_assoc, Nat.mul_one]
    · rw [filter_cons_of_neg hmark] at hfit ⊢
      rw [if_neg hmark]
      exact ih hl hfit

lemma tableRecords_length (m : Mem) :
    (tableRecords m).length = if 128 ≤ (m 0).toNat then 0 else (m 0).toNat := by
  unfold tableRecords
  split
  · rfl
  · rw [length_map, length_range]

lemma writeElements_count (hfit : 4 * (markedElements e).length < 65535) :
    ((writeElements e).elementsTable 0).toNat =
      (e.numElements + (markedElements e).length) % 256 := by
  have hbyte : (writeElements e).elementsTable 0 =
      UInt8.ofNat ((e.numElements + (markedElements e).length) % 65536) := by
    refine (writeElementsFrom_before ?_ Nat.one_pos).trans ?_
    · unfold markedElements at hfit
      omega
    · rfl
  rw [hbyte]
  simp

lemma tableRecords_writeElements (htyped : ∀ x ∈ e.moduleTable, Typed x)
    (hfew : (markedElements e).length < 128) (hcount : e.numElements % 256 = 0) :
    tableRecords (writeElements e).elementsTable = (markedElements e).map unmark := by
  have hbyte : ((writeElements e).elementsTable 0).toNat = (markedElements e).length := by
    rw [writeElements_count (by omega)]
    omega
  rw [tableRecords, hbyte, if_neg (by omega)]
  refine readElement_writeElementsFrom htyped ?_
  unfold markedElements at hfew
  unfold elementsTableSkipOffset
  omega

lemma count_of_tableRecords (hfew : (markedElements e).length < 128)
    (h : (tableRecords (writeElements e).elementsTable).length = (markedElements e).length) :
    e.numElements % 256 = 0 ∨ markedElements e = [] ∧ 128 ≤ e.numElements % 256 := by
  rw [tableRecords_length, writeElements_count (by omega)] at h
  rw [← length_eq_zero_iff]
  split at h <;> omega

structure SameTable (e e' : Engine) : Prop where
  allocated : e'.allocated = e.allocated
  elementsTable : e'.elementsTable = e.elementsTable
  numElements : e'.numElements = e.numElements

lemma SameTable.refl (e : Engine) : SameTable e e := ⟨rfl, rfl, rfl⟩

lemma SameTable.trans {e'' : Engine} (h : SameTable e e') (h' : SameTable e' e'') :
    SameTable e e'' :=
  ⟨h'.allocated.trans h.allocated, h'.elementsTable.trans h.elementsTable,
    h'.numElements.trans h.numElements⟩

lemma Processed.sameTable (h : Processed e row ans e' pid hdr) : SameTable e e' := by
  cases h <;> exact ⟨rfl, rfl, rfl⟩

lemma Scanned.sameTable (h : Scanned P s row ans s') : SameTable s.engine s'.engine := by
  obtain ⟨_, _, _, hproc, _, _, _, heq⟩ := h.engine
  exact (Processed.sameTable hproc).trans (by rw [heq]; exact ⟨rfl, rfl, rfl⟩)

lemma scanRows_sameTable (hrun : scanRows P s rows = some (.ok s')) :
    SameTable s.engine s'.engine :=
  scanRows_keeps (I := fun u => SameTable s.engine u.engine)
    (fun _ _ _ _ h hrow => h.trans (Scanned.sameTable hrow)) hrun (SameTable.refl _)

def TypedRow (x : Row × Answer) : Prop := x.1.cid < 65536 ∧ x.1.instanceId < 256 ∧ x.2.spawned < 256

structure Fresh (e : Engine) : Prop where
  names : (e.moduleTable.map nameOf).Nodup
  marked : ∀ x ∈ e.moduleTable, x.marked = true
  running : ∀ x ∈ e.moduleTable, (e.header x.pid).isSome = true
  typed : ∀ x ∈ e.moduleTable, Typed x

variable {l' : List Element}

lemma forall_of_unmark {Q : Element → Prop} (hQ : ∀ x, Q (unmark x) ↔ Q x)
    (h : l'.map unmark = l.map unmark) (hl : ∀ x ∈ l, Q x) : ∀ x ∈ l', Q x := by
  intro x hx
  have hmem : unmark x ∈ l.map unmark := h ▸ mem_map_of_mem hx
  obtain ⟨y, hy, heq⟩ := mem_map.mp hmem
  exact (hQ x).mp (heq ▸ (hQ y).mpr (hl y hy))

lemma names_of_unmark (h : l'.map unmark = l.map unmark) :
    l'.map nameOf = l.map nameOf := by
  have hcomp : ∀ l : List Element, l.map nameOf = (l.map unmark).map nameOf := by
    intro l
    rw [List.map_map]
    rfl
  rw [hcomp l', h, ← hcomp]

lemma Processed.fresh (h : Processed e row ans e' pid hdr) (hrow : TypedRow (row, ans))
    (he : Fresh e) : Fresh e' := by
  cases h with
  | found _ _ hunmark hmarked =>
    refine ⟨?_, hmarked he.marked, ?_, ?_⟩
    · rw [names_of_unmark hunmark]
      exact he.names
    · exact forall_of_unmark (fun _ => Iff.rfl) hunmark he.running
    · exact forall_of_unmark (fun _ => ⟨fun h => ⟨h.1, h.2, h.3⟩, fun h => ⟨h.1, h.2, h.3⟩⟩)
        hunmark he.typed
  | spawned hnone _ =>
    have hrunning : ∀ p, p = ans.spawned ∨ (e.header p).isSome = true →
        (update e.header ans.spawned (some hdr) p).isSome = true := by
      intro p hp
      by_cases heq : p = ans.spawned
      · rw [heq, update_self]
        rfl
      · rw [update_of_ne heq]
        exact hp.resolve_left heq
    refine ⟨?_, ?_, ?_, ?_⟩
    · rw [map_append, nodup_append]
      refine ⟨he.names, pairwise_singleton .., ?_⟩
      intro name hmem new hnew
      obtain ⟨x, hx, rfl⟩ := mem_map.mp hmem
      rw [mem_singleton.mp hnew]
      exact nameOf_ne_of_pidOf hnone x hx
    · exact forall_mem_append.mpr ⟨he.marked, forall_mem_singleton.mpr rfl⟩
    · exact forall_mem_append.mpr ⟨fun x hx => hrunning _ (.inr (he.running x hx)),
        forall_mem_singleton.mpr (hrunning _ (.inl rfl))⟩
    · exact forall_mem_append.mpr
        ⟨he.typed, forall_mem_singleton.mpr ⟨hrow.1, hrow.2.1, hrow.2.2⟩⟩

lemma Scanned.fresh {x : Row × Answer} (h : Scanned P s x.1 x.2 s') (hrow : TypedRow x)
    (hs : Fresh s.engine) : Fresh s'.engine := by
  obtain ⟨_, _, _, hproc, _, _, _, heq⟩ := h.engine
  have hfresh := Processed.fresh hproc hrow hs
  rw [heq]
  exact ⟨hfresh.names, hfresh.marked, hfresh.running, hfresh.typed⟩

lemma scanRows_fresh (hrows : ∀ x ∈ rows, TypedRow x) (hs : Fresh s.engine)
    (hrun : scanRows P s rows = some (.ok s')) : Fresh s'.engine :=
  scanRows_keeps (fun _ x hx _ h hrow => Scanned.fresh hrow (hrows x hx) h) hrun hs

lemma Processed.length_le (h : Processed e row ans e' pid hdr) :
    e'.moduleTable.length ≤ e.moduleTable.length + 1 := by
  cases h with
  | found _ _ hunmark =>
    have hlen := congrArg List.length hunmark
    rw [length_map, length_map] at hlen
    exact hlen.trans_le (Nat.le_succ _)
  | spawned => exact (length_append ..).le

lemma Scanned.length_le (h : Scanned P s row ans s') :
    s'.engine.moduleTable.length ≤ s.engine.moduleTable.length + 1 := by
  obtain ⟨_, _, _, hproc, _, _, _, heq⟩ := h.engine
  have hlen := Processed.length_le hproc
  rw [heq]
  exact hlen

lemma scanRows_length_le (hrun : scanRows P s rows = some (.ok s')) :
    s'.engine.moduleTable.length ≤ s.engine.moduleTable.length + rows.length := by
  induction rows generalizing s with
  | nil => cases hrun
  | cons x rows ih =>
    rw [length_cons]
    rcases scanRows_cons hrun with ⟨s1, hrow, hrest⟩ | ⟨-, rfl⟩
    · have hlen := Scanned.length_le hrow
      have hind := ih hrest
      omega
    · omega

lemma deregisterEach_frame {pids : List ℕ} (h : deregisterEach P e pids = some e') :
    e' = { e with header := e'.header, gid := e'.gid, deregistered := e'.deregistered } := by
  induction pids generalizing e with
  | nil =>
    cases h
    rfl
  | cons pid pids ih =>
    obtain ⟨e1, hfirst, hrest⟩ := bind_eq_some_iff.mp h
    obtain ⟨hdr, -, rfl⟩ := map_eq_some_iff.mp hfirst
    have hframe := ih hrest
    exact hframe

inductive Loaded (P : Platform) (e : Engine) (cfg : Config) : Engine → Prop
  | diff {e' : Engine} (hdiff : cfg.updateDiff = true) (hsame : SameTable e e') : Loaded P e cfg e'
  | installed {e1 : Engine} {s : Scan} (hdiff : cfg.updateDiff = false) (hsame : SameTable e e1)
      (hempty : e1.moduleTable = []) (hscan : scanRows P ⟨e1, 0, 0, none⟩ cfg.rows = some (.ok s)) :
      Loaded P e cfg (writeElements s.engine)
  | swapped {e1 e' : Engine} {s : Scan} (hdiff : cfg.updateDiff = false) (hsame : SameTable e e1)
      (htable : e1.moduleTable = tableRecords e.elementsTable) (hne : e1.moduleTable ≠ [])
      (hscan : scanRows P ⟨e1, 0, 0, none⟩ cfg.rows = some (.ok s))
      (hsame' : SameTable (writeElements s.engine) e')
      (hmodules : e'.moduleTable = s.engine.moduleTable) : Loaded P e cfg e'

lemma abandon_fails {r : Engine × Bool} (h : abandon P e = some r) : r.2 = false := by
  obtain ⟨e1, -, rfl⟩ := map_eq_some_iff.mp h
  rfl

lemma installNewConfiguration_ok (h : installNewConfiguration P e cfg = some (e', true)) :
    Loaded P e cfg e' := by
  obtain ⟨e1, hderegister, h⟩ := bind_eq_some_iff.mp h
  have hframe := deregisterEach_frame hderegister
  have hsame : SameTable e e1 := by
    rw [hframe]
    exact ⟨rfl, rfl, rfl⟩
  have hempty : e1.moduleTable = [] := by rw [hframe]
  split at h
  · cases h
  split at h
  next hdiff =>
    cases h
    exact .diff hdiff hsame
  next hdiff =>
    obtain ⟨r, hinterpret, h⟩ := bind_eq_some_iff.mp h
    cases r with
    | error e => exact absurd (abandon_fails h) Bool.noConfusion
    | ok e =>
      cases h
      obtain ⟨s, hscan, rfl⟩ := interpretWiringConfig_ok hinterpret
      exact .installed (Bool.not_eq_true _ ▸ hdiff) hsame hempty hscan

def unmarkedPids (e : Engine) : List ℕ :=
  (e.moduleTable.filter (fun x => x.marked = false)).map Element.pid

def loadElementsTable (e : Engine) : Engine :=
  { e with moduleTable := tableRecords e.elementsTable }

structure Swapped (P : Platform) (e : Engine) (cfg : Config) (e1 e2 : Engine) : Prop where
  loaded : (loadElementsTable e).moduleTable ≠ []
  scanned : cfg.updateDiff = true ∧ e1 = loadElementsTable e ∨
    cfg.updateDiff = false ∧ interpretWiringConfig P (loadElementsTable e) cfg = some (.ok e1)
  deregistered : deregisterEach P e1 (unmarkedPids e1) = some e2

lemma Swapped.modules {e1 e2 : Engine} (h : Swapped P e cfg e1 e2) :
    e2.moduleTable = e1.moduleTable := by
  rw [deregisterEach_frame h.deregistered]

lemma swapConfiguration_cases (h : swapConfiguration P e cfg = some (e', true)) :
    ∃ e1 e2, Swapped P e cfg e1 e2 ∧ e' =
      { e2 with busyBitMask := resetElementBusyMask e2.busyBitMask (unmarkedPids e1) } := by
  simp only [swapConfiguration] at h
  generalize hloaded : (if cfg.loadMem then tableRecords e.elementsTable else []) = table at h
  split at h
  · cases h
  split at h
  · cases h
  next hne _ =>
    obtain rfl : table = tableRecords e.elementsTable := by
      split at hloaded
      · exact hloaded.symm
      · exact absurd hloaded.symm hne
    obtain ⟨r, hinterpret, h⟩ := bind_eq_some_iff.mp h
    cases r with
    | error e => exact absurd (abandon_fails h) Bool.noConfusion
    | ok e1 =>
      obtain ⟨e2, hderegister, heq⟩ := map_eq_some_iff.mp h
      obtain ⟨rfl, -⟩ := Prod.mk.inj heq
      refine ⟨e1, e2, ⟨hne, ?_, hderegister⟩, rfl⟩
      split at hinterpret
      next hdiff =>
        cases hinterpret
        exact .inl ⟨hdiff, rfl⟩
      next hdiff => exact .inr ⟨Bool.not_eq_true _ ▸ hdiff, hinterpret⟩

lemma swapConfiguration_ok (h : swapConfiguration P e cfg = some (e', true)) :
    Loaded P e cfg e' := by
  obtain ⟨e1, e2, hswap, rfl⟩ := swapConfiguration_cases h
  have hframe := deregisterEach_frame hswap.deregistered
  rcases hswap.scanned with ⟨hdiff, rfl⟩ | ⟨hdiff, hinterpret⟩
  · refine .diff hdiff ?_
    rw [hframe]
    exact ⟨rfl, rfl, rfl⟩
  · obtain ⟨s, hscan, rfl⟩ := interpretWiringConfig_ok hinterpret
    have hsame : SameTable e (loadElementsTable e) := ⟨rfl, rfl, rfl⟩
    refine .swapped hdiff hsame rfl hswap.loaded hscan ?_ ?_
    · rw [hframe]
      exact ⟨rfl, rfl, rfl⟩
    · rw [hframe]
      rfl

lemma loaderDataAvailable_ok {hotSwap : Bool}
    (h : loaderDataAvailable P e hotSwap cfg = some (e', true)) :
    Loaded P (allocatePages e cfg) cfg e' := by
  obtain ⟨r, hr, heq⟩ := map_eq_some_iff.mp h
  split at heq
  next hok =>
    cases heq
    cases hotSwap with
    | false => exact installNewConfiguration_ok hr
    | true =>
      rw [if_pos rfl, hotSwapConfiguration] at hr
      split at hr
      · exact installNewConfiguration_ok hr
      · exact swapConfiguration_ok hr
  · cases heq

structure Readable (cfg : Config) : Prop where
  length : cfg.rows.length < 16000
  typed : ∀ x ∈ cfg.rows, TypedRow x

def load (P : Platform) (e : Engine) (ev : Bool × Config) : Option Engine :=
  (loaderDataAvailable P e ev.1 ev.2).map Prod.fst

structure Counted (e : Engine) : Prop where
  flash : e.allocated = true → (e.elementsTable 0).toNat = e.numElements % 256
  reset : e.allocated = false → e.numElements = 0

lemma Counted.allocatePages (h : Counted e) (cfg : Config) :
    ((allocatePages e cfg).elementsTable 0).toNat = e.numElements % 256 ∧
      (allocatePages e cfg).numElements = e.numElements ∧
      (allocatePages e cfg).allocated = true := by
  unfold WiringEngine.allocatePages
  split
  next halloc => exact ⟨h.flash halloc, rfl, halloc⟩
  next halloc =>
    have hzero : e.numElements = 0 := h.reset (Bool.not_eq_true _ ▸ halloc)
    rw [hzero]
    exact ⟨rfl, rfl, rfl⟩

lemma writeElements_counted (hfit : e.moduleTable.length < 16200) (halloc : e.allocated = true) :
    Counted (writeElements e) := by
  have hlen : (markedElements e).length ≤ e.moduleTable.length := length_filter_le ..
  constructor
  · intro _
    rw [writeElements_count (by omega)]
    exact (Nat.mod_mod_of_dvd _ (by decide)).symm
  · intro hfalse
    exact absurd (halloc.symm.trans hfalse) Bool.noConfusion

lemma Loaded.counted (h : Loaded P e cfg e') (hread : Readable cfg)
    (he : e.allocated = true ∧ (e.elementsTable 0).toNat = e.numElements % 256) : Counted e' := by
  have hrows := hread.length
  cases h with
  | diff _ hsame =>
    refine ⟨fun _ => ?_, fun hfalse => ?_⟩
    · rw [hsame.elementsTable, hsame.numElements]
      exact he.2
    · exact absurd ((hsame.allocated.trans he.1).symm.trans hfalse) Bool.noConfusion
  | installed _ hsame hempty hscan =>
    have hlen := scanRows_length_le hscan
    rw [hempty, length_nil] at hlen
    exact writeElements_counted (by omega)
      (((scanRows_sameTable hscan).allocated.trans hsame.allocated).trans he.1)
  | swapped _ hsame htable _ hscan hsame' =>
    have hlen := scanRows_length_le hscan
    have hfew := tableRecords_length e.elementsTable
    rw [htable] at hlen
    have hcounted := writeElements_counted (by split at hfew <;> omega)
      (((scanRows_sameTable hscan).allocated.trans hsame.allocated).trans he.1)
    refine ⟨fun halloc => ?_, fun halloc => ?_⟩
    · rw [hsame'.elementsTable, hsame'.numElements]
      exact hcounted.flash (hsame'.allocated.symm.trans halloc)
    · rw [hsame'.numElements]
      exact hcounted.reset (hsame'.allocated.symm.trans halloc)

lemma load_counted {ev : Bool × Config} (he : Counted e) (hread : Readable ev.2)
    (h : load P e ev = some e') : Counted e' := by
  obtain ⟨⟨e1, ok⟩, hload, rfl⟩ := map_eq_some_iff.mp h
  obtain ⟨hflash, hnum, halloc⟩ := he.allocatePages ev.2
  cases ok with
  | true => exact (loaderDataAvailable_ok hload).counted hread ⟨halloc, hnum ▸ hflash⟩
  | false =>
    obtain ⟨r, -, heq⟩ := map_eq_some_iff.mp hload
    split at heq
    next hok => exact absurd (heq ▸ hok) Bool.noConfusion
    · obtain ⟨rfl, -⟩ := Prod.mk.inj heq
      exact ⟨fun halloc => absurd halloc Bool.noConfusion, fun _ => rfl⟩

lemma run_counted {rt et : Mem} {gid : ℕ → ℕ → ℕ} {evs : List (Bool × Config)}
    (hread : ∀ ev ∈ evs, Readable ev.2)
    (hrun : runTrace (load P) (initial rt et gid) evs = some e) : Counted e := by
  have hstep : ∀ e ev e', Counted e → Readable ev.2 → load P e ev = some e' → Counted e' :=
    fun _ _ _ he hread h => load_counted he hread h
  have hinitial : Counted (initial rt et gid) :=
    ⟨fun halloc => absurd halloc Bool.noConfusion, fun _ => rfl⟩
  exact run_invariant_of_some hstep hinitial (validTrace_of_forall hread _) hrun

structure RoundTrip (e : Engine) : Prop where
  records : tableRecords e.elementsTable = (markedElements e).map unmark
  names : ((markedElements e).map nameOf).Nodup
  running : ∀ x ∈ markedElements e, (e.header x.pid).isSome = true

lemma RoundTrip.count (h : RoundTrip e') (hsame : SameTable (writeElements e) e')
    (hmodules : e'.moduleTable = e.moduleTable) (hfew : (markedElements e').length < 128) :
    e.numElements % 256 = 0 ∨ markedElements e' = [] ∧ 128 ≤ e.numElements % 256 := by
  have hmarked : markedElements e' = markedElements e := congrArg (List.filter _) hmodules
  have hlen := congrArg List.length h.records
  rw [length_map, hsame.elementsTable, hmarked] at hlen
  rw [hmarked] at hfew ⊢
  exact count_of_tableRecords hfew hlen

lemma Fresh.roundTrip (h : Fresh e) (hfew : (markedElements e).length < 128)
    (hcount : e.numElements % 256 = 0) : RoundTrip (writeElements e) :=
  ⟨tableRecords_writeElements h.typed hfew hcount, (filter_sublist.map nameOf).nodup h.names,
    fun x hx => h.running x (mem_of_mem_filter hx)⟩

lemma roundTrip_of_empty (hnone : markedElements e = []) (hcount : 128 ≤ e.numElements % 256) :
    RoundTrip (writeElements e) := by
  have hmarked : markedElements (writeElements e) = [] := hnone
  have hbyte : ((writeElements e).elementsTable 0).toNat = e.numElements % 256 := by
    rw [writeElements_count (by rw [hnone]; decide), hnone]
    rfl
  refine ⟨?_, ?_, ?_⟩
  · rw [tableRecords, if_pos (hbyte ▸ hcount), hmarked]
    rfl
  · rw [hmarked]
    exact List.Pairwise.nil
  · rw [hmarked]
    exact forall_mem_nil _

/-- In every run, what a successful configuration leaves in flash yields its elements exactly if
the count of elements was zero before it, or by accident if there are no elements. -/
theorem elements_round_trip_iff (P : Platform) (rt et : Mem) (gid : ℕ → ℕ → ℕ)
    (evs : List (Bool × Config)) (hotSwap : Bool) (cfg : Config) (e e' : Engine)
    (hread : ∀ ev ∈ (hotSwap, cfg) :: evs, Readable ev.2)
    (hrun : runTrace (load P) (initial rt et gid) evs = some e)
    (hload : loaderDataAvailable P e hotSwap cfg = some (e', true))
    (hfull : cfg.updateDiff = false) (hfew : (markedElements e').length < 128) :
    RoundTrip e' ↔
      e.numElements % 256 = 0 ∨ markedElements e' = [] ∧ 128 ≤ e.numElements % 256 := by
  obtain ⟨hcfg, hevs⟩ := forall_mem_cons.mp hread
  obtain ⟨hflash, hnum, -⟩ := (run_counted hevs hrun).allocatePages cfg
  cases loaderDataAvailable_ok hload with
  | diff hdiff => exact absurd (hdiff.symm.trans hfull) Bool.noConfusion
  | @installed e1 s _ hsame hempty hscan =>
    have hcount : s.engine.numElements = e.numElements :=
      ((scanRows_sameTable hscan).numElements.trans hsame.numElements).trans hnum
    have hfresh : Fresh s.engine := by
      refine scanRows_fresh hcfg.typed ?_ hscan
      constructor <;> simp [hempty]
    rw [← hcount]
    constructor
    · exact fun h => h.count (SameTable.refl _) rfl hfew
    · rintro (hzero | ⟨hnone, hnegative⟩)
      · exact hfresh.roundTrip hfew hzero
      · exact roundTrip_of_empty hnone hnegative
  | @swapped e1 _ s _ hsame htable hne hscan hsame' hmodules =>
    have hcount : s.engine.numElements = e.numElements :=
      ((scanRows_sameTable hscan).numElements.trans hsame.numElements).trans hnum
    rw [← hcount]
    constructor
    · exact fun h => h.count hsame' hmodules hfew
    · -- elements were loaded, so that the count in flash was neither zero nor negative
      have hlen := tableRecords_length (allocatePages e cfg).elementsTable
      rw [← htable] at hlen
      have hpos := length_pos_of_ne_nil hne
      split at hlen <;> omega

def pair : Config :=
  { rows := [(⟨outputRecord, 6, 0, 0, 0⟩, ⟨20, 0, true, true, 7⟩),
      (⟨inputRecord, 7, 0, 0, endRecord⟩, ⟨21, 0, true, true, 7⟩),
      (⟨endTable, 0, 0, 0, 0⟩, ⟨0, 0, true, true, 0⟩)]
    beginsWiring := true, updateDiff := false, savedMem := true, loadMem := true
    pages := fun _ => 0 }

def board : Platform := ⟨256, 2, (· + 100), fun _ => 1⟩

lemma pair_readable : Readable pair := ⟨by decide, by unfold TypedRow; decide⟩

theorem elements_round_trip_sample :
    ∃ e',
      loaderDataAvailable board (initial (fun _ => 0) (fun _ => 0) (fun _ _ => 255)) false pair =
        some (e', true) ∧ RoundTrip e' ∧
      tableRecords e'.elementsTable = [⟨6, 0, 20, false⟩, ⟨7, 0, 21, false⟩] := by
  obtain ⟨e', hload, htwo, hrecords⟩ :
      ∃ e', loaderDataAvailable board (initial (fun _ => 0) (fun _ => 0) (fun _ _ => 255)) false
          pair = some (e', true) ∧ (markedElements e').length = 2 ∧
        tableRecords e'.elementsTable = [⟨6, 0, 20, false⟩, ⟨7, 0, 21, false⟩] := by
    decide +kernel
  have hfew : (markedElements e').length < 128 := by
    rw [htwo]
    decide
  exact ⟨e', hload, (elements_round_trip_iff board _ _ _ [] false pair _ e'
    (forall_mem_singleton.mpr pair_readable) rfl hload rfl hfew).mpr (.inl rfl), hrecords⟩

/-- The same configuration once more: the table has two elements and counts four, and the next
configuration deregisters a module that does not exist. -/
theorem second_configuration_counts_twice :
    ∃ e e', load board (initial (fun _ => 0) (fun _ => 0) (fun _ _ => 255)) (false, pair) = some e ∧
      loaderDataAvailable board e false pair = some (e', true) ∧
      (markedElements e').length = 2 ∧ (tableRecords e'.elementsTable).length = 4 ∧
      ¬ RoundTrip e' ∧ load board e' (false, pair) = none := by
  obtain ⟨e, hfirst, e', hload, htwo, hfour, hnone⟩ :
      ∃ e, load board (initial (fun _ => 0) (fun _ => 0) (fun _ _ => 255)) (false, pair) = some e ∧
        ∃ e', loaderDataAvailable board e false pair = some (e', true) ∧
          (markedElements e').length = 2 ∧ (tableRecords e'.elementsTable).length = 4 ∧
          (load board e' (false, pair)).isNone = true := by decide +kernel
  refine ⟨e, e', hfirst, hload, htwo, hfour, fun h => ?_, isNone_iff_eq_none.mp hnone⟩
  have hlen := congrArg List.length h.records
  rw [length_map, htwo, hfour] at hlen
  exact absurd hlen (by decide)

end WiringElements
