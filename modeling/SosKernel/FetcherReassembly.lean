import SosKernel.CodeMemoryCoherence
import SosKernel.Fetcher

/-! # Reassembly of an image from its fragments

One key is fetched while fragments arrive in any order, get lost or come twice, the request timer
fires and requests of other nodes are overheard. -/
namespace FetcherReassembly

open ByteMemory HeapBlocks CodeMemoryCoherence Fetcher GuardedRuns List Option Function
open CodeMemory hiding State

variable {c : Config} {key n base : ℕ} {image mem : Mem} {s s' : State} {p : ℕ}
  {i d size old : ℕ} {buf : List UInt8}

def Slice (base : ℕ) (image mem : Mem) (i : ℕ) : Prop :=
  ∀ j < fetcherFragmentSize,
    mem (base + fetcherFragmentSize * i + j) = image (fetcherFragmentSize * i + j)

structure FetchOk (key n base : ℕ) (image mem : Mem) (f : FetcherState) : Prop where
  alone : f.next = none
  key_eq : f.map.key = key
  covers : n ≤ f.map.bitmap.length
  held : ∀ i < n, f.map.bitmap[i]? = some false → Slice base image mem i

/-- The first `old` completions lie before the request. -/
structure Inv (c : Config) (key n base : ℕ) (image : Mem) (old : ℕ) (s : State) :
    Prop where
  quiet : s.sendMap = none
  cam : ∃ cam hdr, s.cams key = some cam ∧ liveHdr s.codemem cam.cm = some hdr ∧
    hdr.startAddr = base
  code : ∃ mem, Holds c s.codemem mem ∧
    (∀ p, s.fst = some p → FetchOk key n base image mem (s.states p)) ∧
    ∀ f ∈ s.done.drop old, FetchOk key n base image mem f
  retry : s.noMemRetry = true → s.fst.isSome

lemma FetchOk.congr {f f' : FetcherState} (h : FetchOk key n base image mem f)
    (hnext : f'.next = f.next) (hmap : f'.map = f.map) : FetchOk key n base image mem f' := by
  constructor
  · rw [hnext]
    exact h.alone
  · rw [hmap]
    exact h.key_eq
  · rw [hmap]
    exact h.covers
  · rw [hmap]
    exact h.held

lemma liveHdr_congr {s s' : CodeMemory.State} (h : s'.codememHandleList = s.codememHandleList)
    (cm : ℕ) : liveHdr s' cm = liveHdr s cm := by
  simp only [liveHdr, checkCodememT, h]

lemma Slice.blit (hlen : buf.length = fetcherFragmentSize)
    (hbuf : ∀ j < fetcherFragmentSize, buf.getD j 0 = image (fetcherFragmentSize * d + j))
    (h : i ≠ d → Slice base image mem i) :
    Slice base image (blit mem (base + fetcherFragmentSize * d) buf) i := by
  intro j hj
  simp only [fetcherFragmentSize] at hj hlen hbuf h ⊢
  rw [blit_apply]
  by_cases hid : i = d
  · subst hid
    have hsub : base + 64 * i + j - (base + 64 * i) = j := by omega
    rw [if_pos (by omega), hsub]
    exact hbuf j hj
  · rw [if_neg (by omega)]
    exact h hid j hj

lemma FetchOk.kept {f : FetcherState}
    (h : FetchOk key n base image mem f) (hlen : buf.length = fetcherFragmentSize)
    (hbuf : ∀ j < fetcherFragmentSize, buf.getD j 0 = image (fetcherFragmentSize * d + j)) :
    FetchOk key n base image (blit mem (base + fetcherFragmentSize * d) buf) f :=
  ⟨h.alone, h.key_eq, h.covers, fun i hi hbit => Slice.blit hlen hbuf fun _ => h.held i hi hbit⟩

lemma FetchOk.store {f : FetcherState}
    (h : FetchOk key n base image mem f) (hlen : buf.length = fetcherFragmentSize)
    (hbuf : ∀ j < fetcherFragmentSize, buf.getD j 0 = image (fetcherFragmentSize * d + j)) :
    FetchOk key n base image (blit mem (base + fetcherFragmentSize * d) buf)
      { f with map := { f.map with bitmap := f.map.bitmap.set d false } } := by
  refine ⟨h.alone, h.key_eq, by simpa using h.covers, fun i hi hbit => ?_⟩
  apply Slice.blit hlen hbuf
  intro hid
  apply h.held i hi
  rwa [getElem?_set_ne (Ne.symm hid)] at hbit

lemma sendFetcherDone_inv (env : Env) (h : Inv c key n base image old s) (hp : s.fst = some p) :
    ∃ s', sendFetcherDone s env = some s' ∧ Inv c key n base image old s' := by
  obtain ⟨cam, hdr, hcam, hlive, hbase⟩ := h.cam
  obtain ⟨mem, hholds, hfetch, hdone⟩ := h.code
  have hok := hfetch p hp
  unfold sendFetcherDone
  rw [hp, bind_some]
  by_cases hm : env.msgHeader = true
  · rw [if_pos hm]
    simp only [hok.key_eq, setStatus, hcam, map_some, bind_some, startNewFetch,
      State.next, hok.alone]
    refine ⟨_, rfl, h.quiet, ⟨_, hdr, update_self .., hlive, hbase⟩, ?_, ?_⟩
    · refine ⟨mem, hholds, fun q hq => (by cases hq), fun f hf => ?_⟩
      rw [drop_append] at hf
      rcases mem_append.mp hf with hf | hf
      · exact hdone f hf
      · rw [mem_singleton.mp (mem_of_mem_drop hf)]
        exact hok
    · intro hno
      cases hno
  · rw [if_neg hm]
    refine ⟨_, rfl, h.quiet, ⟨cam, hdr, hcam, hlive, hbase⟩, ?_, ?_⟩
    · refine ⟨mem, hholds, fun q hq => ?_, hdone⟩
      have hqp : q = p := some.inj (hq.symm.trans hp)
      subst hqp
      simp only [State.setState, update_self]
      exact hok.congr rfl rfl
    · intro _
      exact isSome_iff_exists.mpr ⟨p, hp⟩

lemma setRetx_inv (r : ℕ) (h : Inv c key n base image old s) (hp : s.fst = some p) :
    Inv c key n base image old (s.setState p { s.states p with retx := r }) := by
  obtain ⟨mem, hholds, hfetch, hdone⟩ := h.code
  refine ⟨h.quiet, h.cam, ⟨mem, hholds, fun q hq => ?_, hdone⟩, h.retry⟩
  have hqp : q = p := some.inj (hq.symm.trans hp)
  subst hqp
  simp only [State.setState, update_self]
  exact (hfetch q hp).congr rfl rfl

lemma checkMapAndPost_inv (env : Env) (h : Inv c key n base image old s) :
    ∃ s', checkMapAndPost s env = some s' ∧ Inv c key n base image old s' := by
  unfold checkMapAndPost
  cases hp : s.fst with
  | none => exact ⟨s, rfl, h⟩
  | some p =>
    simp only
    split
    · exact sendFetcherDone_inv env (setRetx_inv 0 h hp) hp
    · exact ⟨s, rfl, h⟩

def Authentic (key n : ℕ) (image : Mem) (f : FetcherFragment) : Prop :=
  f.key = key → f.fragId < n ∧
    ∀ j < fetcherFragmentSize, f.fragment.getD j 0 = image (fetcherFragmentSize * f.fragId + j)

section

variable (env : Env) (hn : n ≤ 1024) (hbase : c.flashmemPageSize ≤ base)
    (h : Inv c key n base image old s) (hp : s.fst = some p)
include env hn hbase h hp

lemma storeFragment_inv {cam : FetcherCam} {f : FetcherFragment}
    (hcam : s.cams key = some cam) (hkey : f.key = key) (hf : Authentic key n image f) :
    ∃ s', storeFragment c s p cam f env = some s' ∧ Inv c key n base image old s' := by
  obtain ⟨cam', hdr, hcam', hlive, hstart⟩ := h.cam
  have hcc : cam' = cam := some.inj (hcam'.symm.trans hcam)
  subst hcc
  obtain ⟨mem, hholds, hfetch, hdone⟩ := h.code
  have hok := hfetch p hp
  obtain ⟨hid, hslice⟩ := hf hkey
  have hoff : fetcherFragmentSize * f.fragId % 65536 = fetcherFragmentSize * f.fragId := by
    simp only [fetcherFragmentSize]
    omega
  obtain ⟨m', code, hrun, hsame, hcase⟩ := kerCodememDirectWrite_holds f.fragment
    (fetcherFragmentSize * f.fragId) env.page hholds (hstart.symm ▸ hbase)
  have hwrite : kerCodememWrite c s.codemem cam'.cm f.fragment
      (fetcherFragmentSize * f.fragId) env.page = some (m', code) := by
    rw [kerCodememWrite, (checkCodememT_of_live hlive).1]
    exact hrun
  have hlive' : liveHdr m' cam'.cm = some hdr := by
    rw [liveHdr_congr hsame.handles]
    exact hlive
  rw [storeFragment, hoff, hwrite, bind_some]
  rcases hcase with ⟨hcode, hholds'⟩ | ⟨hcode, hs⟩
  · -- the bit is cleared only now that the bytes are in code memory
    subst hcode
    have hlt : f.fragId < (s.states p).map.bitmap.length := lt_of_lt_of_le hid hok.covers
    simp only [ne_eq, not_true_eq_false, if_false, clearBit, getElem?_eq_getElem hlt,
      map_some, bind_some]
    apply checkMapAndPost_inv
    refine ⟨h.quiet, ⟨cam', hdr, hcam, hlive', hstart⟩,
      ⟨_, hholds', fun q hq => ?_, fun g hg => ?_⟩, h.retry⟩
    · have hqp : q = p := some.inj (hq.symm.trans hp)
      subst hqp
      simp only [State.setState, update_self, hstart]
      exact hok.store f.size hslice
    · rw [hstart]
      exact (hdone g hg).kept f.size hslice
  · have hne : code ≠ 0 := by
      rw [hcode]
      decide
    simp only [ne_eq, hne, not_false_eq_true, if_true, hs]
    exact ⟨s, rfl, h⟩

lemma handleData_inv {f : FetcherFragment} (hf : Authentic key n image f) :
    ∃ s', handleData c s p f env = some s' ∧ Inv c key n base image old s' := by
  obtain ⟨mem, -, hfetch, -⟩ := h.code
  have hok := hfetch p hp
  obtain ⟨cam, -, hcam, -⟩ := h.cam
  simp only [handleData, hok.key_eq]
  by_cases hkey : f.key = key
  · have hlt : f.fragId < (s.states p).map.bitmap.length := lt_of_lt_of_le (hf hkey).1 hok.covers
    simp only [hkey, ne_eq, not_true_eq_false, if_false, hcam, getElem?_eq_getElem hlt,
      bind_some]
    split
    · exact ⟨s, rfl, h⟩
    · split
      · exact ⟨s, rfl, h⟩
      · exact storeFragment_inv env hn hbase h hp hcam hkey hf
  · rw [if_pos hkey]
    exact ⟨s, rfl, h⟩

end

/-- Receptions and timeouts after the request; fragments of the key are authentic. -/
def Legal (key n : ℕ) (image : Mem) : Event → Prop
  | .fragment f _ => Authentic key n image f
  | .overheard => True
  | .requestTimer _ => True
  | _ => False

lemma step_preserves_invariant (hn : n ≤ 1024) (hbase : c.flashmemPageSize ≤ base)
    (s : State) (e : Event) (h : Inv c key n base image old s) (hlegal : Legal key n image e) :
    ∃ s', Fetcher.step c s e = some s' ∧ Inv c key n base image old s' := by
  cases e with
  | fragment f env =>
    simp only [Fetcher.step, handleFragment, handleOverheardFragment, h.quiet, bind_some]
    cases hp : s.fst with
    | none => exact ⟨s, rfl, h⟩
    | some p => exact handleData_inv env hn hbase (setRetx_inv 0 h hp) hp hlegal
  | overheard =>
    refine ⟨_, rfl, ?_⟩
    unfold handleOverheardRequest
    cases hp : s.fst with
    | none => exact h
    | some p => exact setRetx_inv 0 h hp
  | requestTimer env =>
    simp only [Fetcher.step, handleRequestTimer]
    split
    next hretry =>
      obtain ⟨p, hp⟩ := isSome_iff_exists.mp (h.retry hretry)
      exact sendFetcherDone_inv env h hp
    · unfold handleRequestTimeout
      cases hp : s.fst with
      | none => exact ⟨s, rfl, h⟩
      | some p =>
        simp only
        split
        · exact ⟨_, rfl, setRetx_inv _ h hp⟩
        · exact sendFetcherDone_inv env (setRetx_inv _ h hp) hp
  | request reqId key size src p => exact hlegal.elim
  | cancel key => exact hlegal.elim
  | restart p src => exact hlegal.elim
  | serve msg saddr sizeofModHeader timerOk => exact hlegal.elim
  | transmitTimer pktMem postOk => exact hlegal.elim
  | sendDone => exact hlegal.elim

lemma numFragments_le (hsize : size ≤ 65535) : numFragments c size ≤ 1024 := by
  have hmod := Nat.mod_le (size + (fetcherFragmentSize - 1)) c.intMod
  simp only [numFragments, fetcherFragmentSize] at hmod ⊢
  omega

lemma length_initialBitmap (hn : n ≤ 1024) : n ≤ (initialBitmap n).length := by
  simp only [initialBitmap, length_map, length_range]
  omega

lemma initialBitmap_missing (hn : n ≤ 1024) (hi : i < n) : (initialBitmap n)[i]? = some true := by
  have hlt : i < 8 * ((n + 7) / 8 % 256) := by omega
  simp only [initialBitmap, getElem?_map, getElem?_range hlt, map_some]
  split
  next hlast =>
    congr 1
    apply decide_eq_true
    omega
  · rfl

structure Ready (c : Config) (key base : ℕ) (s : State) : Prop where
  idle : s.fst = none
  quiet : s.sendMap = none
  retry : s.noMemRetry = false
  cam : ∃ cam hdr, s.cams key = some cam ∧ liveHdr s.codemem cam.cm = some hdr ∧
    hdr.startAddr = base
  code : ∃ mem, Holds c s.codemem mem

lemma fetcherRequest_inv (reqId src : ℕ) (image : Mem) (hsize : size ≤ 65535)
    (hp : p ≠ 0) (h : Ready c key base s) :
    ∃ s', fetcherRequest c s reqId key size src p = some (s', 0) ∧
      Inv c key (numFragments c size) base image s.done.length s' := by
  obtain ⟨cam, hdr, hcam, hlive, hbase⟩ := h.cam
  obtain ⟨mem, hholds⟩ := h.code
  have hn : numFragments c size ≤ 1024 := numFragments_le hsize
  simp only [fetcherRequest, hcam, isNone_some, Bool.false_eq_true, if_false, hp, enqueue,
    State.setState, h.idle, setStatus, map_some]
  refine ⟨_, rfl, h.quiet, ⟨_, hdr, update_self .., hlive, hbase⟩, ?_, ?_⟩
  · refine ⟨mem, hholds, fun q hq => ?_, by simp⟩
    have hqp : p = q := some.inj hq
    subst hqp
    simp only [update_self]
    refine ⟨rfl, rfl, length_initialBitmap hn, fun i hi hbit => ?_⟩
    rw [initialBitmap_missing hn hi] at hbit
    cases hbit
  · intro hretry
    rw [h.retry] at hretry
    cases hretry

/-- The fetch in progress, or one that was completed and posted after the first `old`. -/
def Fetched (old : ℕ) (s : State) (f : FetcherState) : Prop :=
  (∃ p, s.fst = some p ∧ s.states p = f) ∨ f ∈ s.done.drop old

structure Reassembled (c : Config) (n base : ℕ) (image : Mem) (old : ℕ) (s : State) :
    Prop where
  slices : ∀ f, Fetched old s f → ∀ i < n, f.map.bitmap[i]? = some false →
    Slice base image (view c s.codemem) i
  complete : ∀ f, Fetched old s f → checkMap f.map = true →
    ∀ x < n * fetcherFragmentSize, view c s.codemem (base + x) = image x

lemma reassembled_of_inv (hbase : c.flashmemPageSize ≤ base) (h : Inv c key n base image old s) :
    Reassembled c n base image old s := by
  obtain ⟨mem, hholds, hfetch, hdone⟩ := h.code
  have hok : ∀ f, Fetched old s f → FetchOk key n base image mem f := by
    rintro f (⟨p, hp, rfl⟩ | hf)
    · exact hfetch p hp
    · exact hdone f hf
  have hslices : ∀ f, Fetched old s f → ∀ i < n, f.map.bitmap[i]? = some false →
      Slice base image (view c s.codemem) i := by
    intro f hf i hi hbit j hj
    rw [hholds.agrees _ (by omega)]
    exact (hok f hf).held i hi hbit j hj
  refine ⟨hslices, fun f hf hcheck x hx => ?_⟩
  simp only [fetcherFragmentSize] at hx
  have hi : x / 64 < n := by omega
  have hlt : x / 64 < f.map.bitmap.length := lt_of_lt_of_le hi (hok f hf).covers
  have hbit : f.map.bitmap[x / 64]? = some false := by
    rw [getElem?_eq_getElem hlt]
    simpa using all_eq_true.mp hcheck _ (getElem_mem hlt)
  have hslice := hslices f hf (x / 64) hi hbit (x % 64) (Nat.mod_lt _ (by decide))
  have hx' : base + fetcherFragmentSize * (x / 64) + x % 64 = base + x := by
    simp only [fetcherFragmentSize]
    omega
  have hx'' : fetcherFragmentSize * (x / 64) + x % 64 = x := by omega
  rwa [hx', hx''] at hslice

/-- From `fetcher_request` on, in every run of receptions and timeouts, cleared bits of the
fetch map stand for slices in code memory, also when the fetch is over. -/
theorem reassembly_over_runs {reqId size src : ℕ} {events : List Event} (hsize : size ≤ 65535)
    (hp : p ≠ 0) (hbase : c.flashmemPageSize ≤ base) (hready : Ready c key base s)
    (hevents : ∀ e ∈ events, Legal key (numFragments c size) image e) :
    ∃ s1 s2, fetcherRequest c s reqId key size src p = some (s1, 0) ∧
      runTrace (Fetcher.step c) s1 events = some s2 ∧
      Reassembled c (numFragments c size) base image s.done.length s2 := by
  obtain ⟨s1, hreq, hinv⟩ := fetcherRequest_inv reqId src image hsize hp hready
  obtain ⟨s2, hrun, hinv2⟩ := run_invariant
    (step_preserves_invariant (numFragments_le hsize) hbase) hinv (validTrace_of_forall hevents s1)
  exact ⟨s1, s2, hreq, hrun, reassembled_of_inv hbase hinv2⟩

def sampleImage : Mem := fun x => UInt8.ofNat x

def sampleFragment (i : ℕ) : FetcherFragment :=
  ⟨i, 5, flashRead sampleImage (fetcherFragmentSize * i) fetcherFragmentSize, by
    simp [flashRead]⟩

def sampleFetcher : State where
  heap := []
  states _ := ⟨0, 0, 0, none, ⟨0, []⟩⟩
  fst := none
  noMemRetry := false
  cams := update (fun _ => none) 5 (some ⟨0x100, .module, .done⟩)
  codemem := sampleState
  sendMap := none
  sendDest := 0
  numMsgInQueue := 0
  done := []
  sent := []

def sampleEnv : Env := ⟨true, 0, 0, 0, some fun _ => 0⟩

def sampleEvents : List Event :=
  [.fragment (sampleFragment 1) sampleEnv, .requestTimer sampleEnv,
    .fragment (sampleFragment 0) sampleEnv, .overheard, .fragment (sampleFragment 0) sampleEnv,
    .fragment (sampleFragment 1) sampleEnv]

lemma sampleFragment_authentic (hi : i < 2) : Authentic 5 2 sampleImage (sampleFragment i) := by
  intro _
  refine ⟨hi, fun j hj => ?_⟩
  simp [sampleFragment, flashRead, getD_eq_getElem?_getD, hj]

lemma sampleFetcher_ready : Ready sampleConfig 5 (80 * 256) sampleFetcher := by
  refine ⟨rfl, rfl, rfl, ⟨⟨0x100, .module, .done⟩, ⟨80 * 256, 512, 1⟩, rfl, rfl, rfl⟩, ?_⟩
  exact ⟨sampleState.flash, dvd_zero _, fun _ => rfl, fun _ _ => rfl⟩

lemma sampleEvents_complete :
    ((fetcherRequest sampleConfig sampleFetcher 17 5 128 1 900).bind fun r =>
      (runTrace (Fetcher.step sampleConfig) r.1 sampleEvents).map fun s =>
        s.done.map fun f => checkMap f.map) = some [true] := by
  decide +kernel

theorem reassembly_sample :
    ∃ s1 s2, fetcherRequest sampleConfig sampleFetcher 17 5 128 1 900 = some (s1, 0) ∧
      runTrace (Fetcher.step sampleConfig) s1 sampleEvents = some s2 ∧
      s2.done.map (fun f => checkMap f.map) = [true] ∧
      Reassembled sampleConfig (numFragments sampleConfig 128) (80 * 256) sampleImage 0 s2 := by
  have hlegal : ∀ e ∈ sampleEvents, Legal 5 (numFragments sampleConfig 128) sampleImage e := by
    intro e he
    simp only [sampleEvents, mem_cons, not_mem_nil, or_false] at he
    rcases he with rfl | rfl | rfl | rfl | rfl | rfl
    · exact sampleFragment_authentic (by decide)
    · trivial
    · exact sampleFragment_authentic (by decide)
    · trivial
    · exact sampleFragment_authentic (by decide)
    · exact sampleFragment_authentic (by decide)
  obtain ⟨s1, s2, hreq, hrun, hall⟩ : ∃ s1 s2,
      fetcherRequest sampleConfig sampleFetcher 17 5 128 1 900 = some (s1, 0) ∧ _ :=
    reassembly_over_runs (by decide) (by decide) (by decide) sampleFetcher_ready hlegal
  have hdone := sampleEvents_complete
  rw [hreq, bind_some, hrun, map_some] at hdone
  exact ⟨s1, s2, hreq, hrun, some.inj hdone, hall⟩

end FetcherReassembly
