import SosKernel.CodeMemoryAllocation

/-! # Handles of code memory and `check_codemem_t`

A handle is its slot and an 8-bit salt. Beside the kernel's state runs the list of
the values that allocations returned and that were not freed since. -/
namespace CodeMemoryHandles

open ByteMemory (Mem)
open CodeMemory GuardedRuns List Option
open CodeMemoryAllocation (Call slot_free sampleConfig sampleStart)

variable {c : Config} {s s' : State} {live live' : List ℕ} {cm : ℕ} {hdr : CodememHdr} {size i : ℕ}
  {page : Option Mem}

def step (c : Config) (h : State × List ℕ) : Call → Option (State × List ℕ)
  | .alloc size hdrMem page => (kerCodememAlloc c h.1 size hdrMem page).map (fun r =>
    (r.1, if r.2 = codememInvalid then h.2 else r.2 :: h.2))
  | .free cm => (kerCodememFree c h.1 cm).map (fun r =>
    (r.1, if r.2 = 0 then h.2.filter (· ≠ cm % 65536) else h.2))

/-- The slot of `cm` is taken under the salt of `cm`. -/
def Holds (s : State) (cm : ℕ) : Prop :=
  ∃ hdr, s.codememHandleList[cm % 256]? = some (some hdr) ∧ hdr.salt = cm / 256 % 256

structure Exact (h : State × List ℕ) : Prop where
  slots : h.1.codememHandleList.length = codememMaxLoadableModules
  values : ∀ cm < 65536, cm ∈ h.2 ↔ Holds h.1 cm

lemma checkCodememT_isSome_iff (hlen : s.codememHandleList.length = codememMaxLoadableModules) :
    (checkCodememT s cm).isSome ↔ cm % 256 ≠ codememMaxLoadableModules := by
  unfold checkCodememT
  simp only
  split
  next hlarge => simpa using hlarge.ne'
  next hsmall =>
    simp only [isSome_map, isSome_getElem?, hlen]
    omega

lemma checkCodememT_eq_some_iff
    (hlen : s.codememHandleList.length = codememMaxLoadableModules) :
    checkCodememT s cm = some (some hdr) ↔
      s.codememHandleList[cm % 256]? = some (some hdr) ∧ hdr.salt = cm / 256 % 256 := by
  unfold checkCodememT
  simp only
  split
  next hlarge => simp [getElem?_eq_none (hlen.trans_lt hlarge).le]
  next => simp [filter_eq_some_iff]

lemma flashAlloc_handles {r : State × ℕ}
    (h : flashAlloc c s size page = some r) : r.1.codememHandleList = s.codememHandleList := by
  have hcache {s1 : State} (h1 : codememCacheAlloc s page = some s1) :
      s1.codememHandleList = s.codememHandleList := by
    unfold codememCacheAlloc at h1
    split at h1
    · cases h1
      rfl
    · obtain ⟨p, -, rfl⟩ := map_eq_some_iff.mp h1
      rfl
  unfold flashAlloc at h
  split at h
  · cases h
    rfl
  next s1 h1 =>
    split at h
    · cases h
      exact hcache h1
    · obtain ⟨bits, -, rfl⟩ := map_eq_some_iff.mp h
      exact (hcache h1 :)

lemma kerCodememAlloc_cases {hdrMem : Bool} {r : State × ℕ}
    (h : kerCodememAlloc c s size hdrMem page = some r) :
    (r.2 = codememInvalid ∧ r.1.codememHandleList = s.codememHandleList) ∨
      ∃ i hdr, s.codememHandleList[i]? = some none ∧ hdr.salt < 256 ∧ r.2 = i + hdr.salt * 256 ∧
        r.1.codememHandleList = s.codememHandleList.set i (some hdr) := by
  unfold kerCodememAlloc at h
  simp only at h
  split at h
  · cases h
    exact .inl ⟨rfl, rfl⟩
  next hslot =>
    split at h
    · cases h
      exact .inl ⟨rfl, rfl⟩
    · obtain ⟨q, hq, rfl⟩ := map_eq_some_iff.mp h
      have hlist := flashAlloc_handles hq
      split
      · exact .inl ⟨rfl, hlist⟩
      · refine .inr ⟨_, ⟨q.2, size, (q.1.codememSalt + 1) % 256⟩, slot_free hslot,
          Nat.mod_lt _ (by decide), rfl, ?_⟩
        simp only [hlist]

lemma kerCodememFree_cases {r : State × ℤ} (h : kerCodememFree c s cm = some r) :
    (r.2 ≠ 0 ∧ r.1 = s ∧ checkCodememT s cm = some none) ∨
      ∃ hdr, r.2 = 0 ∧ checkCodememT s cm = some (some hdr) ∧
        r.1.codememHandleList = s.codememHandleList.set (cm % 256) none := by
  obtain ⟨q, hq, h⟩ := bind_eq_some_iff.mp h
  cases q with
  | none =>
    cases h
    exact .inl ⟨show -enoent ≠ 0 by decide, rfl, hq⟩
  | some hdr =>
    obtain ⟨s1, h1, rfl⟩ := map_eq_some_iff.mp h
    obtain ⟨bits, -, rfl⟩ := map_eq_some_iff.mp h1
    exact .inr ⟨hdr, rfl, hq, rfl⟩

lemma holds_set_iff {entry : Option CodememHdr} (hi : i < s.codememHandleList.length)
    (hlist : s'.codememHandleList = s.codememHandleList.set i entry) :
    Holds s' cm ↔ if i = cm % 256 then ∃ hdr, entry = some hdr ∧ hdr.salt = cm / 256 % 256
      else Holds s cm := by
  unfold Holds
  rw [hlist, getElem?_set]
  split
  next => simp
  next => rfl

lemma exact_of_alloc (h : Exact (s, live))
    (hfree : s.codememHandleList[i]? = some none) (hsalt : hdr.salt < 256)
    (hlist : s'.codememHandleList = s.codememHandleList.set i (some hdr)) :
    Exact (s', (i + hdr.salt * 256) :: live) := by
  obtain ⟨hlen, hvalues⟩ := h
  have hi := (List.getElem?_eq_some_iff.mp hfree).choose
  refine ⟨by simp [hlist, hlen], fun cm hcm => ?_⟩
  rw [mem_cons, hvalues cm hcm, holds_set_iff hi hlist]
  rw [hlen] at hi
  have hmax : codememMaxLoadableModules = 16 := rfl
  split
  next heq =>
    -- the slot was free, so that no value of it was live
    have hnot : ¬ Holds s cm := by
      rintro ⟨hdr', hentry, -⟩
      simp [← heq, hfree] at hentry
    simp only [hnot, or_false, some.injEq, exists_eq_left']
    omega
  next hne => exact or_iff_right (by omega)

lemma exact_of_free (h : Exact (s, live)) (hcheck : checkCodememT s cm = some (some hdr))
    (hlist : s'.codememHandleList = s.codememHandleList.set (cm % 256) none) :
    Exact (s', live.filter (· ≠ cm % 65536)) := by
  obtain ⟨hlen, hvalues⟩ := h
  obtain ⟨hentry, hsalt⟩ := (checkCodememT_eq_some_iff hlen).mp hcheck
  have hi := (List.getElem?_eq_some_iff.mp hentry).choose
  refine ⟨by simp [hlist, hlen], fun cm' hcm' => ?_⟩
  rw [mem_filter, hvalues cm' hcm', holds_set_iff hi hlist, decide_eq_true_eq]
  split
  next heq =>
    -- the value that is freed is the only live one of its slot
    simp only [reduceCtorEq, false_and, exists_false, iff_false, not_and, not_not]
    rintro ⟨hdr', hentry', hsalt'⟩
    rw [← heq, hentry] at hentry'
    cases hentry'
    omega
  next hne => exact and_iff_left (by omega)

lemma exact_step (h h' : State × List ℕ) (e : Call) (hex : Exact h)
    (hstep : step c h e = some h') : Exact h' := by
  obtain ⟨s, live⟩ := h
  cases e with
  | alloc size hdrMem page =>
    obtain ⟨r, hr, rfl⟩ := map_eq_some_iff.mp hstep
    obtain ⟨hinv, hlist⟩ | ⟨i, hdr, hfree, hsalt, hret, hlist⟩ := kerCodememAlloc_cases hr
    · rw [if_pos hinv]
      exact ⟨hlist ▸ hex.slots, fun cm hcm => by rw [hex.values cm hcm, Holds, Holds, hlist]⟩
    · have hi := (List.getElem?_eq_some_iff.mp hfree).choose
      have hslots := hex.slots
      have hne : r.2 ≠ codememInvalid := by
        unfold codememInvalid codememMaxLoadableModules at *
        omega
      rw [if_neg hne, hret]
      exact exact_of_alloc hex hfree hsalt hlist
  | free cm =>
    obtain ⟨r, hr, rfl⟩ := map_eq_some_iff.mp hstep
    obtain ⟨hne, rfl, -⟩ | ⟨hdr, hzero, hcheck, hlist⟩ := kerCodememFree_cases hr
    · rw [if_neg hne]
      exact hex
    · rw [if_pos hzero]
      exact exact_of_free hex hcheck hlist

lemma exact_codememInit (flash : Mem) : Exact (codememInit c flash, []) := by
  refine ⟨length_replicate .., fun cm _ => ?_⟩
  simp only [not_mem_nil, false_iff]
  rintro ⟨hdr, hentry, -⟩
  have hmem := mem_of_getElem? hentry
  simp [codememInit] at hmem

/-- After every run of calls, the check of a 16-bit value reads inside the handle list iff the
slot of the value is not 16, and then holds iff the value is that of a live allocation. -/
theorem check_exact_iff_slot_inside (flash : Mem) (calls : List Call) (h : State × List ℕ)
    (hrun : runTrace (step c) (codememInit c flash, []) calls = some h) (cm : ℕ)
    (hcm : cm < 65536) :
    ((∃ hdr, checkCodememT h.1 cm = some (some hdr)) ↔ cm ∈ h.2) ∧
      ((checkCodememT h.1 cm).isSome ↔ cm % 256 ≠ codememMaxLoadableModules) := by
  have hvalid : ValidTrace (step c) (fun _ _ => True) (codememInit c flash, []) calls :=
    validTrace_of_forall (fun _ _ => trivial) _
  have hex : Exact h := run_invariant_of_some
    (fun s e u hs _ hstep => exact_step s u e hs hstep) (exact_codememInit flash) hvalid hrun
  refine ⟨?_, checkCodememT_isSome_iff hex.slots⟩
  simp only [checkCodememT_eq_some_iff hex.slots]
  exact (hex.values cm hcm).symm

theorem check_of_live_handle :
    ∃ h, runTrace (step sampleConfig) (sampleStart, []) [.alloc 600 true (some fun _ => 0)] =
        some h ∧ ((∃ hdr, checkCodememT h.1 0x100 = some (some hdr)) ↔ 0x100 ∈ h.2) ∧
      ((checkCodememT h.1 0x100).isSome ↔ 0x100 % 256 ≠ codememMaxLoadableModules) := by
  have hreturns : (runTrace (step sampleConfig) (sampleStart, [])
      [.alloc 600 true (some fun _ => 0)]).isSome := by decide +kernel
  obtain ⟨h, hrun⟩ := isSome_iff_exists.mp hreturns
  exact ⟨h, hrun, check_exact_iff_slot_inside _ _ h hrun 0x100 (by decide)⟩

/-- Slot 16 passes the bound check of a list of sixteen entries. -/
theorem slot_sixteen_read_past_list :
    checkCodememT sampleStart 0x10 = none ∧
      sampleStart.codememHandleList.length = codememMaxLoadableModules := by
  decide

end CodeMemoryHandles
