import Mathlib.Data.List.Perm.Subperm
import SosKernel.GuardedRuns
import SosKernel.Scheduler

/-! # The module table

`Table` says that the four bins are lists of live handles, hashed by pid, one handle a pid. -/
namespace ModuleTable

open HeapBlocks SlabPools DeltaTimers PointerChain KernelState FunctionTable Scheduler List Option
open Function (update update_self update_of_ne)

variable {img : Image} {k k' : Kernel} {bins : ℕ → List Ptr} {p q : Ptr} {pid b : ℕ}
  {l1 l2 : List Ptr} {k'' : Kernel}

def LiveHandle (img : Image) (k : Kernel) : Ptr → Prop
  | .other n => n < img.numStatic ∧ (k.handles (.other n)).flag = sosKerStaticModule
  | .slab it => Allocated k.schedSlab.pools it ∧ (k.handles (.slab it)).flag = 0

structure Table (img : Image) (k : Kernel) (bins : ℕ → List Ptr) : Prop where
  chain : ∀ b < schedNumberBins, Chain k.next (k.modBin b) (bins b)
  hashed : ∀ b < schedNumberBins, ∀ p ∈ bins b, hashPid (k.handles p).pid = b
  unique : ∀ b < schedNumberBins, ((bins b).map (fun p => (k.handles p).pid)).Nodup
  live : ∀ b < schedNumberBins, ∀ p ∈ bins b, LiveHandle img k p
  slab : WellFormed k.schedSlab

def Linked (bins : ℕ → List Ptr) (p : Ptr) : Prop := ∃ b < schedNumberBins, p ∈ bins b

def CacheIn (k : Kernel) (bins : ℕ → List Ptr) : Prop := ∀ c, k.cache = some c → Linked bins c

lemma hashPid_lt (pid : ℕ) : hashPid pid < schedNumberBins := Nat.mod_lt _ (by decide)

lemma Table.nodup (h : Table img k bins) (hb : b < schedNumberBins) : (bins b).Nodup :=
  (h.unique b hb).of_map _

lemma Table.congr (h : Table img k bins) (hh : k'.handles = k.handles)
    (hm : k'.modBin = k.modBin) (hs : k'.schedSlab = k.schedSlab) : Table img k' bins := by
  have hn : k'.next = k.next := by
    funext p
    simp only [Kernel.next, hh]
  refine ⟨?_, ?_, ?_, ?_, hs ▸ h.slab⟩
  · rw [hn, hm]; exact h.chain
  · rw [hh]; exact h.hashed
  · rw [hh]; exact h.unique
  · intro b hb p hp
    have hlive := h.live b hb p hp
    cases p <;> simpa only [LiveHandle, hh, hs] using hlive

def candidates (img : Image) (k : Kernel) : List Ptr :=
  (List.range img.numStatic).map Ptr.other ++ k.schedSlab.pools.flatMap
    (fun q => (List.range k.schedSlab.numItemsPerPool).map (fun i => Ptr.slab ⟨q.addr, i⟩))

lemma length_candidates : (candidates img k).length = k.fuel img := by
  simp [candidates, Kernel.fuel, length_flatMap]

lemma LiveHandle.mem_candidates (hwf : WellFormed k.schedSlab) (h : LiveHandle img k p) :
    p ∈ candidates img k := by
  cases p with
  | other n =>
    apply mem_append_left
    exact mem_map.mpr ⟨n, mem_range.mpr h.1, rfl⟩
  | slab it =>
    apply mem_append_right
    obtain ⟨q, hq, haddr, hbit⟩ := h.1
    have hslot : it.slot < k.schedSlab.numItemsPerPool := by
      rw [← hwf.width q hq]
      exact (List.getElem?_eq_some_iff.mp hbit).1
    apply mem_flatMap.mpr
    refine ⟨q, hq, mem_map.mpr ⟨it.slot, mem_range.mpr hslot, ?_⟩⟩
    rw [haddr]

section

variable (h : Table img k bins)
include h

lemma Table.length_le (hb : b < schedNumberBins) : (bins b).length ≤ k.fuel img := by
  rw [← length_candidates]
  have hsub : bins b ⊆ candidates img k := fun p hp => (h.live b hb p hp).mem_candidates h.slab
  exact ((h.nodup hb).subperm hsub).length_le

lemma Table.searchBin_eq (pid : ℕ) :
    searchBin img k pid = some ((bins (hashPid pid)).find? (fun p => (k.handles p).pid = pid)) :=
  find_spec (h.chain _ (hashPid_lt pid)) (h.length_le (hashPid_lt pid))

lemma Table.allModules_eq :
    allModules img k = some (bins 0 ++ (bins 1 ++ (bins 2 ++ (bins 3 ++ [])))) := by
  have hc : ∀ b < schedNumberBins, collect k.next (k.fuel img) (k.modBin b) = some (bins b) :=
    fun b hb => collect_spec (h.chain b hb) (h.length_le hb)
  simp [allModules, schedNumberBins, range_succ, hc 0 (by decide), hc 1 (by decide),
    hc 2 (by decide), hc 3 (by decide)]

lemma Table.mem_allModules :
    ∃ mods, allModules img k = some mods ∧ ∀ q, q ∈ mods ↔ Linked bins q := by
  refine ⟨_, h.allModules_eq, fun q => ?_⟩
  simp only [mem_append, not_mem_nil, or_false]
  constructor
  · rintro (hq | hq | hq | hq)
    · exact ⟨0, by decide, hq⟩
    · exact ⟨1, by decide, hq⟩
    · exact ⟨2, by decide, hq⟩
    · exact ⟨3, by decide, hq⟩
  · rintro ⟨b, hb, hq⟩
    have hcases : b = 0 ∨ b = 1 ∨ b = 2 ∨ b = 3 := by
      simp only [schedNumberBins] at hb
      omega
    rcases hcases with rfl | rfl | rfl | rfl <;> tauto

end

lemma Table.pid_inj (h : Table img k bins) (hp : Linked bins p) (hq : Linked bins q)
    (he : (k.handles p).pid = (k.handles q).pid) : p = q := by
  obtain ⟨b, hb, hp⟩ := hp
  obtain ⟨d, hd, hq⟩ := hq
  have hbd : b = d := by rw [← h.hashed b hb p hp, ← h.hashed d hd q hq, he]
  subst hbd
  exact inj_on_of_nodup_map (h.unique b hb) hp hq he

lemma Table.find_eq_some (h : Table img k bins) :
    (bins (hashPid pid)).find? (fun q => (k.handles q).pid = pid) = some p ↔
      Linked bins p ∧ (k.handles p).pid = pid := by
  rw [find_key_eq_some (h.unique _ (hashPid_lt pid))]
  constructor
  · rintro ⟨hp, hpid⟩
    exact ⟨⟨hashPid pid, hashPid_lt pid, hp⟩, hpid⟩
  · rintro ⟨⟨b, hb, hp⟩, hpid⟩
    have hbp : b = hashPid pid := by rw [← h.hashed b hb p hp, hpid]
    exact ⟨hbp ▸ hp, hpid⟩

lemma kerGetModule_spec (h : Table img k bins) (hc : CacheIn k bins) (pid : ℕ) :
    ∃ cache, kerGetModule img k pid = some ({ k with cache := cache },
        (bins (hashPid pid)).find? (fun p => (k.handles p).pid = pid)) ∧
      CacheIn { k with cache := cache } bins := by
  have hsearch : ∃ cache, kerGetModule.search img k pid = some ({ k with cache := cache },
      (bins (hashPid pid)).find? (fun p => (k.handles p).pid = pid)) ∧
      CacheIn { k with cache := cache } bins := by
    rw [kerGetModule.search, h.searchBin_eq]
    cases hf : (bins (hashPid pid)).find? (fun p => (k.handles p).pid = pid) with
    | none => exact ⟨k.cache, rfl, hc⟩
    | some q =>
      refine ⟨some q, rfl, fun c hcq => ?_⟩
      cases hcq
      exact (h.find_eq_some.mp hf).1
  unfold kerGetModule
  split
  next c hcache =>
    split
    next hpid =>
      refine ⟨k.cache, ?_, hc⟩
      rw [h.find_eq_some.mpr ⟨hc c hcache, hpid⟩]
    · exact hsearch
  · exact hsearch

structure Good (img : Image) (k : Kernel) (bins : ℕ → List Ptr) : Prop extends
    Table img k bins where
  cacheIn : CacheIn k bins

/-- The function table looks modules up and writes slots; nothing else of the kernel changes. -/
structure Links (bins : ℕ → List Ptr) (k k' : Kernel) : Prop where
  eq : k' = { k with cache := k'.cache, cbInRam := k'.cbInRam, posts := k'.posts }
  cacheIn : CacheIn k' bins

lemma Links.refl (h : CacheIn k bins) : Links bins k k := ⟨rfl, h⟩

section

variable (h : Links bins k k')
include h

lemma Links.trans (h' : Links bins k' k'') : Links bins k k'' := by
  constructor
  · have heq := h'.eq
    rwa [h.eq] at heq
  · exact h'.cacheIn

lemma Links.handles : k'.handles = k.handles := by rw [h.eq]

lemma Links.modBin : k'.modBin = k.modBin := by rw [h.eq]

lemma Links.schedSlab : k'.schedSlab = k.schedSlab := by rw [h.eq]

lemma Links.good (hg : Good img k bins) : Good img k' bins :=
  ⟨hg.toTable.congr h.handles h.modBin h.schedSlab, h.cacheIn⟩

end

lemma kerGetModule_links (h : Good img k bins) (pid : ℕ) :
    ∃ k', kerGetModule img k pid = some (k',
        (bins (hashPid pid)).find? (fun p => (k.handles p).pid = pid)) ∧ Links bins k k' := by
  obtain ⟨cache, hrun, hc⟩ := kerGetModule_spec h.toTable h.cacheIn pid
  exact ⟨_, hrun, rfl, hc⟩

lemma setCb_links (h : CacheIn k bins) (m : Ptr) (i cb : ℕ) : Links bins k (setCb k m i cb) :=
  ⟨rfl, h⟩

def linkedHeader (H : Ptr → Handle) (bins : ℕ → List Ptr) (pid : ℕ) : Option ℕ :=
  ((bins (hashPid pid)).find? (fun p => (H p).pid = pid)).map (fun p => (H p).header)

lemma Table.linkedHeader_eq_some (h : Table img k bins) {hdr : ℕ} :
    linkedHeader k.handles bins pid = some hdr ↔
      ∃ p, Linked bins p ∧ (k.handles p).pid = pid ∧ (k.handles p).header = hdr := by
  simp only [linkedHeader, map_eq_some_iff, h.find_eq_some, and_assoc]

/-- The block that the header `pubH` has for slot `i` of `subH`, `0` if there is none. -/
def offeredCb (img : Image) (pubH : Option ℕ) (subH fid i : ℕ) : ℕ :=
  pubH.elim 0 (fun ph =>
    if (img.funcCb (providedCb img ph fid)).proto = (img.funct subH i).proto then
      providedCb img ph fid
    else 0)

lemma offeredCb_spec (h : Table img k bins) {subH fid i : ℕ}
    (hcb : offeredCb img (linkedHeader k.handles bins pid) subH fid i ≠ 0) :
    ∃ p, Linked bins p ∧ (k.handles p).pid = pid ∧
      offeredCb img (linkedHeader k.handles bins pid) subH fid i =
        providedCb img (k.handles p).header fid ∧
      (img.funcCb (providedCb img (k.handles p).header fid)).proto = (img.funct subH i).proto := by
  cases hf : linkedHeader k.handles bins pid with
  | none =>
    rw [hf] at hcb
    exact absurd rfl hcb
  | some hdr =>
    obtain ⟨p, hp, hpid, rfl⟩ := h.linkedHeader_eq_some.mp hf
    simp only [hf, offeredCb, elim_some] at hcb ⊢
    split at hcb
    next hproto => exact ⟨p, hp, hpid, if_pos hproto, hproto⟩
    · exact absurd rfl hcb

lemma fntableRealSubscribe_spec (h : Good img k bins) (subH pubPid fid i : ℕ) :
    ∃ cache, fntableRealSubscribe img k subH pubPid fid i = some ({ k with cache := cache },
          offeredCb img (linkedHeader k.handles bins pubPid) subH fid i) ∧
      CacheIn { k with cache := cache } bins := by
  obtain ⟨cache, hrun, hc⟩ := kerGetModule_spec h.toTable h.cacheIn pubPid
  refine ⟨cache, ?_, hc⟩
  rw [fntableRealSubscribe, hrun, linkedHeader]
  cases (bins (hashPid pubPid)).find? (fun p => (k.handles p).pid = pubPid) with
  | none => rfl
  | some mod =>
    simp only [map_some, offeredCb, elim_some]
    split
    next h0 => simp [h0]
    · split <;> rfl

/-- What slot `i` of a module finds: a block of the module itself, whatever its prototype, or what
the module with the slot's pid offers. -/
def slotCb (img : Image) (H : Ptr → Handle) (bins : ℕ → List Ptr) (m : Ptr) (i : ℕ) : ℕ :=
  let sub := img.funct (H m).header i
  if sub.pid = (H m).pid then providedCb img (H m).header sub.fid
  else if sub.pid ≠ runtimePid then
    offeredCb img (linkedHeader H bins sub.pid) (H m).header sub.fid i
  else 0

lemma subscribedCb_spec (h : Good img k bins) (m : Ptr) (i : ℕ) :
    ∃ cache, subscribedCb img k m i =
        some ({ k with cache := cache }, slotCb img k.handles bins m i) ∧
      CacheIn { k with cache := cache } bins := by
  simp only [subscribedCb, slotCb]
  split
  · exact ⟨k.cache, rfl, h.cacheIn⟩
  · split
    · exact fntableRealSubscribe_spec h _ _ _ i
    · exact ⟨k.cache, rfl, h.cacheIn⟩

lemma linkSubscribedFrom_links (m : Ptr) (n i : ℕ) (h : Good img k bins) :
    ∃ k', linkSubscribedFrom img m n i k = some k' ∧ Links bins k k' := by
  induction n generalizing i k with
  | zero => exact ⟨k, rfl, Links.refl h.cacheIn⟩
  | succ n ih =>
    obtain ⟨cache, hrun, hc⟩ := subscribedCb_spec h m i
    have hl : Links bins k { k with cache := cache } := ⟨rfl, hc⟩
    have hset : Links bins k (setCb { k with cache := cache } m i
        (if slotCb img k.handles bins m i ≠ 0 then slotCb img k.handles bins m i
        else img.functAt (k.handles m).header i)) := hl.trans (setCb_links hl.cacheIn m i _)
    obtain ⟨k2, hrest, hl2⟩ := ih (i + 1) (hset.good h)
    refine ⟨k2, ?_, hset.trans hl2⟩
    rw [linkSubscribedFrom, hrun]
    exact hrest

lemma foldl_links {α : Type*} {f : Kernel → α → Kernel}
    (hf : ∀ k a, CacheIn k bins → Links bins k (f k a)) (l : List α) (h : CacheIn k bins) :
    Links bins k (l.foldl f k) := by
  induction l generalizing k with
  | nil => exact Links.refl h
  | cons a l ih => exact (hf k a h).trans (ih (hf k a h).cacheIn)

lemma relinkSlot_links (funct start stop : ℕ) (link : Bool) (m : Ptr) (k : Kernel) (i : ℕ)
    (h : CacheIn k bins) : Links bins k (relinkSlot img funct start stop link m k i) := by
  simp only [relinkSlot]
  split_ifs
  all_goals first
    | exact ⟨rfl, h⟩

lemma relinkModule_links (funct start stop : ℕ) (link : Bool) (k : Kernel) (m : Ptr)
    (h : CacheIn k bins) : Links bins k (relinkModule img funct start stop link k m) :=
  foldl_links (relinkSlot_links funct start stop link m) _ h

lemma relinkHeader_links (hdr : ℕ) (link : Bool) (h : Good img k bins) :
    ∃ k', relinkHeader img k hdr link = some k' ∧ Links bins k k' := by
  unfold relinkHeader
  split
  · exact ⟨k, rfl, Links.refl h.cacheIn⟩
  · rw [fntableLinkProvidedFunctions, h.allModules_eq]
    exact ⟨_, rfl, foldl_links (relinkModule_links _ _ _ link) _ h.cacheIn⟩

lemma fntableLink_links (m : Ptr) (h : Good img k bins) :
    ∃ k', fntableLink img k m = some k' ∧ Links bins k k' := by
  obtain ⟨k1, hrun, hl⟩ := linkSubscribedFrom_links m
    (img.header (k.handles m).header).numSubFunc 0 h
  obtain ⟨k2, hrun2, hl2⟩ := relinkHeader_links (k1.handles m).header true (hl.good h)
  refine ⟨k2, ?_, hl.trans hl2⟩
  rw [fntableLink, fntableLinkSubscribedFunctions, hrun]
  exact hrun2

lemma fntableRemoveAll_links (m : Ptr) (h : Good img k bins) :
    ∃ k', fntableRemoveAll img k m = some k' ∧ Links bins k k' := by
  unfold fntableRemoveAll
  split
  · exact ⟨k, rfl, Links.refl h.cacheIn⟩
  · obtain ⟨k1, hrun, hl⟩ := relinkHeader_links (k.handles m).header false h
    rw [hrun]
    exact ⟨_, rfl, hl.trans ⟨rfl, hl.cacheIn⟩⟩

lemma lookUps_spec (pids : List ℕ) (h : Good img k bins) :
    ∃ cache, lookUps img pids k = some { k with cache := cache } ∧
      CacheIn { k with cache := cache } bins := by
  induction pids generalizing k with
  | nil => exact ⟨k.cache, rfl, h.cacheIn⟩
  | cons pid pids ih =>
    obtain ⟨cache, hrun, hc⟩ := kerGetModule_spec h.toTable h.cacheIn pid
    have hl : Links bins k { k with cache := cache } := ⟨rfl, hc⟩
    obtain ⟨cache', hrest, hc'⟩ := ih (hl.good h)
    refine ⟨cache', ?_, hc'⟩
    rw [lookUps, foldlM_cons, hrun]
    exact hrest

structure SameTable (k k' : Kernel) : Prop where
  handles : k'.handles = k.handles
  modBin : k'.modBin = k.modBin
  schedSlab : k'.schedSlab = k.schedSlab
  cache : k'.cache = k.cache
  cbInRam : k'.cbInRam = k.cbInRam

lemma SameTable.trans (h1 : SameTable k k') (h2 : SameTable k' k'') :
    SameTable k k'' :=
  ⟨h2.handles.trans h1.handles, h2.modBin.trans h1.modBin, h2.schedSlab.trans h1.schedSlab,
    h2.cache.trans h1.cache, h2.cbInRam.trans h1.cbInRam⟩

lemma Good.same (h : Good img k bins) (hs : SameTable k k') : Good img k' bins := by
  constructor
  · exact h.toTable.congr hs.handles hs.modBin hs.schedSlab
  · rw [CacheIn, hs.cache]
    exact h.cacheIn

lemma setHandle_of_ne (h : q ≠ p) (hd : Handle) :
    (setHandle k p hd).handles q = k.handles q := update_of_ne h _ _

lemma Good.setHandle (h : Good img k bins) (hp : ¬ Linked bins p) (hd : Handle) :
    Good img (setHandle k p hd) bins := by
  have hne : ∀ b < schedNumberBins, ∀ q ∈ bins b, q ≠ p := by
    intro b hb q hq heq
    exact hp ⟨b, hb, heq ▸ hq⟩
  have hkeep : ∀ b < schedNumberBins, ∀ q ∈ bins b,
      (Scheduler.setHandle k p hd).handles q = k.handles q :=
    fun b hb q hq => setHandle_of_ne (hne b hb q hq) hd
  refine ⟨⟨?_, ?_, ?_, ?_, h.slab⟩, h.cacheIn⟩
  · intro b hb
    apply (h.chain b hb).congr
    intro q hq
    simp only [Kernel.next, hkeep b hb q hq]
  · intro b hb q hq
    rw [hkeep b hb q hq]
    exact h.hashed b hb q hq
  · intro b hb
    have hmap : (bins b).map (fun q => ((Scheduler.setHandle k p hd).handles q).pid) =
        (bins b).map (fun q => (k.handles q).pid) :=
      map_congr_left (fun q hq => by rw [hkeep b hb q hq])
    rw [hmap]
    exact h.unique b hb
  · intro b hb q hq
    have hlive := h.live b hb q hq
    have heq := hkeep b hb q hq
    cases q with
    | other n => exact ⟨hlive.1, by rw [heq]; exact hlive.2⟩
    | slab it => exact ⟨hlive.1, by rw [heq]; exact hlive.2⟩

lemma Good.setSlab (h : Good img k bins) {s : Slab} (hwf : WellFormed s)
    (hall : ∀ it, Linked bins (.slab it) → Allocated k.schedSlab.pools it → Allocated s.pools it)
    (hp : Heap) : Good img { k with schedSlab := s, heap := hp } bins := by
  refine ⟨⟨h.chain, h.hashed, h.unique, ?_, hwf⟩, h.cacheIn⟩
  intro b hb q hq
  have hlive := h.live b hb q hq
  cases q with
  | other n => exact hlive
  | slab it => exact ⟨hall it ⟨b, hb, hq⟩ hlive.1, hlive.2⟩

def pushBin (bins : ℕ → List Ptr) (b : ℕ) (p : Ptr) : ℕ → List Ptr := update bins b (p :: bins b)

lemma mem_pushBin {d : ℕ} : q ∈ pushBin bins b p d ↔ (d = b ∧ q = p) ∨ q ∈ bins d := by
  by_cases hd : d = b
  · subst hd
    simp [pushBin]
  · simp [pushBin, hd]

lemma Linked.push (h : Linked bins q) : Linked (pushBin bins b p) q := by
  obtain ⟨d, hd, hq⟩ := h
  exact ⟨d, hd, mem_pushBin.mpr (.inr hq)⟩

lemma Good.push (h : Good img k bins) (hlive : LiveHandle img k p)
    (hnext : k.next p = k.modBin (hashPid (k.handles p).pid))
    (hfresh : ∀ q, Linked bins q → (k.handles q).pid ≠ (k.handles p).pid) :
    Good img { k with modBin := update k.modBin (hashPid (k.handles p).pid) (some p) }
      (pushBin bins (hashPid (k.handles p).pid) p) := by
  set b := hashPid (k.handles p).pid with hb
  have hlt : b < schedNumberBins := hashPid_lt _
  refine ⟨⟨?_, ?_, ?_, ?_, h.slab⟩, fun c hc => (h.cacheIn c hc).push⟩
  · intro d hd
    by_cases hdb : d = b
    · subst hdb
      simp only [pushBin, update_self]
      exact (h.chain _ hlt).push hnext (fun _ _ => rfl)
    · simp only [pushBin, update_of_ne hdb]
      exact h.chain d hd
  · intro d hd q hq
    rcases mem_pushBin.mp hq with ⟨hdb, hqp⟩ | hq
    · rw [hdb, hqp]
    · exact h.hashed d hd q hq
  · intro d hd
    by_cases hdb : d = b
    · subst hdb
      simp only [pushBin, update_self, map_cons, nodup_cons]
      constructor
      · intro hmem
        obtain ⟨q, hq, hpid⟩ := mem_map.mp hmem
        exact hfresh q ⟨_, hlt, hq⟩ hpid
      · exact h.unique _ hlt
    · simp only [pushBin, update_of_ne hdb]
      exact h.unique d hd
  · intro d hd q hq
    rcases mem_pushBin.mp hq with ⟨-, hqp⟩ | hq
    · rw [hqp]
      exact hlive
    · exact h.live d hd q hq

lemma Good.linkHandle (h : Good img k bins) (hp : ¬ Linked bins p) (hlive : LiveHandle img k p)
    (hfresh : ∀ q, Linked bins q → (k.handles q).pid ≠ (k.handles p).pid) :
    Good img (linkHandle k p) (pushBin bins (hashPid (k.handles p).pid) p) := by
  set k1 := Scheduler.setHandle k p
    { k.handles p with next := k.modBin (hashPid (k.handles p).pid) } with hk1
  have hself : k1.handles p = { k.handles p with next := k.modBin (hashPid (k.handles p).pid) } :=
    update_self ..
  have hpid : (k1.handles p).pid = (k.handles p).pid := by rw [hself]
  have hg : Good img k1 bins := h.setHandle hp _
  have hlive1 : LiveHandle img k1 p := by
    cases p with
    | other n => exact ⟨hlive.1, by rw [hself]; exact hlive.2⟩
    | slab it => exact ⟨hlive.1, by rw [hself]; exact hlive.2⟩
  have hpush := hg.push hlive1 (by rw [Kernel.next, hself]; rfl) (fun q hq => by
    have hqp : q ≠ p := fun heq => hp (heq ▸ hq)
    rw [hpid, setHandle_of_ne hqp]
    exact hfresh q hq)
  rwa [hpid] at hpush

lemma Table.shrink {bins' : ℕ → List Ptr} (h : Table img k bins)
    (hpid : ∀ q, (k'.handles q).pid = (k.handles q).pid)
    (hflag : ∀ q, (k'.handles q).flag = (k.handles q).flag)
    (hs : k'.schedSlab = k.schedSlab) (hsub : ∀ b, (bins' b).Sublist (bins b))
    (hchain : ∀ b < schedNumberBins, Chain k'.next (k'.modBin b) (bins' b)) :
    Table img k' bins' := by
  refine ⟨hchain, ?_, ?_, ?_, hs ▸ h.slab⟩
  · intro b hb q hq
    rw [hpid]
    exact h.hashed b hb q ((hsub b).subset hq)
  · intro b hb
    simp only [hpid]
    exact (h.unique b hb).sublist ((hsub b).map _)
  · intro b hb q hq
    have hlive := h.live b hb q ((hsub b).subset hq)
    cases q <;> simpa only [LiveHandle, hflag, hs] using hlive

lemma unlinkHandle_handles (k : Kernel) (b : ℕ) (prev : Option Ptr) (h q : Ptr) :
    { (unlinkHandle k b prev h).handles q with next := (k.handles q).next } = k.handles q := by
  cases prev with
  | none => rfl
  | some r =>
    by_cases hq : q = r
    · subst hq
      simp [unlinkHandle, setHandle]
    · simp [unlinkHandle, setHandle, hq]

lemma unlinkHandle_fields {prev : Option Ptr} (r : Ptr) :
    ((unlinkHandle k b prev p).handles r).pid = (k.handles r).pid ∧
      ((unlinkHandle k b prev p).handles r).flag = (k.handles r).flag := by
  have hpid := congrArg Handle.pid (unlinkHandle_handles k b prev p r)
  have hflag := congrArg Handle.flag (unlinkHandle_handles k b prev p r)
  exact ⟨hpid, hflag⟩

lemma Table.linked_unlink (h : Table img k bins) (hb : b < schedNumberBins)
    (hsplit : bins b = l1 ++ p :: l2) :
    Linked (update bins b (l1 ++ l2)) q ↔ Linked bins q ∧ q ≠ p := by
  have hone : ∀ d < schedNumberBins, q ∈ update bins b (l1 ++ l2) d ↔ q ∈ bins d ∧ q ≠ p := by
    intro d hd
    by_cases hdb : d = b
    · subst hdb
      have hnodup := h.nodup hb
      rw [hsplit, nodup_middle, nodup_cons] at hnodup
      rw [update_self, hsplit, perm_middle.mem_iff, mem_cons]
      constructor
      · exact fun hq => ⟨.inr hq, ne_of_mem_of_not_mem hq hnodup.1⟩
      · exact fun hq => hq.1.resolve_left hq.2
    · rw [update_of_ne hdb]
      refine ⟨fun hq => ⟨hq, fun heq => hdb ?_⟩, And.left⟩
      rw [← h.hashed d hd q hq, ← h.hashed b hb p (by simp [hsplit]), heq]
  constructor
  · rintro ⟨d, hd, hq⟩
    obtain ⟨hq, hne⟩ := (hone d hd).mp hq
    exact ⟨⟨d, hd, hq⟩, hne⟩
  · rintro ⟨⟨d, hd, hq⟩, hne⟩
    exact ⟨d, hd, (hone d hd).mpr ⟨hq, hne⟩⟩

lemma Good.unlinkHandle (h : Good img k bins) (hb : b < schedNumberBins)
    (hsplit : bins b = l1 ++ p :: l2) (hcache : k.cache ≠ some p) :
    Good img (unlinkHandle k b l1.getLast? p) (update bins b (l1 ++ l2)) := by
  have hsub : ∀ d, (update bins b (l1 ++ l2) d).Sublist (bins d) := by
    intro d
    by_cases hd : d = b
    · subst hd
      rw [update_self, hsplit]
      exact Sublist.append (Sublist.refl l1) (sublist_cons_self p l2)
    · rw [update_of_ne hd]
  have hchain := h.chain b hb
  have hnodup := h.nodup hb
  rw [hsplit] at hchain hnodup
  have hcacheIn : ∀ c, k.cache = some c → Linked (update bins b (l1 ++ l2)) c := fun c hc =>
    (h.linked_unlink hb hsplit).mpr ⟨h.cacheIn c hc, fun heq => hcache (heq ▸ hc)⟩
  rcases eq_nil_or_concat l1 with hnil | ⟨l, q, hl⟩
  · subst hnil
    refine ⟨h.toTable.shrink (fun _ => rfl) (fun _ => rfl) rfl hsub ?_, hcacheIn⟩
    have hnext : (Scheduler.unlinkHandle k b none p).next = k.next := rfl
    intro d hd
    rw [getLast?_nil, hnext]
    by_cases hdb : d = b
    · subst hdb
      simpa [Scheduler.unlinkHandle] using hchain.unlink_head
    · simpa [Scheduler.unlinkHandle, hdb] using h.chain d hd
  · rw [concat_eq_append] at hl
    subst hl
    have hq : q ∈ bins b := by simp [hsplit]
    have hlast : (l ++ [q]).getLast? = some q := by simp
    rw [hlast]
    have hnext : (Scheduler.unlinkHandle k b (some q) p).next = update k.next q (k.next p) := by
      funext r
      by_cases hr : r = q
      · subst hr
        simp [Scheduler.unlinkHandle, Scheduler.setHandle, Kernel.next]
      · simp [Scheduler.unlinkHandle, Scheduler.setHandle, Kernel.next, hr]
    refine ⟨h.toTable.shrink (fun r => (unlinkHandle_fields r).1)
      (fun r => (unlinkHandle_fields r).2) rfl hsub ?_, hcacheIn⟩
    intro d hd
    rw [hnext]
    by_cases hdb : d = b
    · subst hdb
      have hout : Chain (update k.next q (k.next p)) (k.modBin d) (l ++ q :: l2) :=
        Chain.unlink_after (by simpa using hchain) (by simpa using hnodup)
      simpa [Scheduler.unlinkHandle, Scheduler.setHandle] using hout
    · rw [update_of_ne hdb]
      apply (h.chain d hd).congr
      intro r hr
      apply update_of_ne
      intro hrq
      -- a handle is in the bin of its pid only
      exact hdb (by rw [← h.hashed d hd r hr, ← h.hashed b hb q hq, hrq])

end ModuleTable
