import SosKernel.Deregistration

/-! # Safety of function links

A slot of a registered module holds the module's default block, or a block of a registered
provider with the same prototype. -/
namespace FunctionLinks

open HeapBlocks SlabPools PointerChain KernelState FunctionTable Scheduler ModuleTable ModuleRuns
open List Option
open Deregistration GuardedRuns

variable {img : Image} {k k' : Kernel} {bins : ℕ → List Ptr} {S S' : Ptr → Prop} {p q m h : Ptr}
  {i cb hdr fid pid : ℕ} {H : Ptr → Handle} {mods : List Ptr} {k2 k3 : Kernel} {α : Type*}

section

variable (img : Image)

def Provides (hdr cb : ℕ) : Prop :=
  ∃ j, (img.header hdr).numSubFunc ≤ j ∧
    j < (img.header hdr).numSubFunc + (img.header hdr).numProvFunc ∧ cb = img.functAt hdr j

def Listed (hdr cb : ℕ) : Prop :=
  ∃ j, (img.header hdr).numSubFunc ≤ j ∧ j < provEnd (img.header hdr) ∧ cb = img.functAt hdr j

def declaredPid (hdr : ℕ) : ℕ := (img.funct hdr (img.header hdr).numSubFunc).pid

lemma getHeaderMember_eq (a offset : ℕ) :
    img.getHeaderMember a offset = a + offset / img.addrUnit := by
  rw [Image.getHeaderMember, mul_comm, Nat.mul_add_div img.unit_pos]

lemma cbAt_functBase (hdr j : ℕ) :
    cbAt img (functBase img hdr) j = img.functAt hdr j := by
  obtain ⟨a, ha⟩ := img.unit_dvd_funct
  simp only [cbAt, functBase, Image.functAt, getHeaderMember_eq, ha]
  rw [Nat.mul_add_div img.unit_pos, Nat.mul_div_cancel_left _ img.unit_pos, add_assoc]

lemma pid_cbAt (hdr : ℕ) :
    (img.funcCb (cbAt img (functBase img hdr) (img.header hdr).numSubFunc)).pid =
      declaredPid img hdr := by
  rw [cbAt_functBase, declaredPid, Image.funct]

end

lemma Listed.provides (hl : Listed img hdr cb) : Provides img hdr cb := by
  obtain ⟨j, hlo, hhi, hcb⟩ := hl
  exact ⟨j, hlo, hhi.trans_le (Nat.mod_le _ _), hcb⟩

lemma Listed.numProvFunc_ne (hl : Listed img hdr cb) : (img.header hdr).numProvFunc ≠ 0 := by
  obtain ⟨j, hlo, hhi, -⟩ := hl.provides
  omega

lemma provCbFrom_spec {funct n : ℕ} (hcb : provCbFrom img funct fid n i ≠ 0) :
    ∃ j, i ≤ j ∧ j < i + n ∧ provCbFrom img funct fid n i = cbAt img funct j := by
  induction n generalizing i with
  | zero => exact absurd rfl hcb
  | succ n ih =>
    rw [provCbFrom] at hcb ⊢
    split
    · exact ⟨i, le_rfl, by omega, rfl⟩
    next hfid =>
      rw [if_neg hfid] at hcb
      obtain ⟨j, hlo, hhi, heq⟩ := ih hcb
      exact ⟨j, by omega, by omega, heq⟩

lemma providedCb_listed (hcb : providedCb img hdr fid ≠ 0) :
    Listed img hdr (providedCb img hdr fid) := by
  obtain ⟨j, hlo, hhi, heq⟩ := provCbFrom_spec hcb
  refine ⟨j, hlo, by omega, ?_⟩
  rw [← cbAt_functBase]
  exact heq

/-- The removal of `p` resets a slot of `q` that holds a block of `p`: the slot goes with `p`, or
the run-time search meets the block, or the slot asks for a function of the pid `p` declares. -/
def Found (img : Image) (H : Ptr → Handle) (p q : Ptr) (i : ℕ) : Prop :=
  p = q ∨ ((img.funct (H q).header i).pid = runtimePid ∧ img.addrUnit = 1) ∨
    ((img.funct (H q).header i).pid = declaredPid img (H p).header ∧
      providedCb img (H p).header (img.funct (H q).header i).fid ≠ 0)

/-- What slot `i` of `q` may hold while the modules of `S` are registered. -/
def SlotOk (img : Image) (H : Ptr → Handle) (S : Ptr → Prop) (q : Ptr) (i cb : ℕ) : Prop :=
  cb = img.functAt (H q).header i ∨ ∃ p, S p ∧ Listed img (H p).header cb ∧
    (img.funcCb cb).proto = (img.funct (H q).header i).proto ∧ Found img H p q i

def OwnPids (img : Image) (H : Ptr → Handle) (S : Ptr → Prop) : Prop :=
  ∀ p, S p → (img.header (H p).header).numProvFunc ≠ 0 → declaredPid img (H p).header = (H p).pid

structure Safe (img : Image) (k : Kernel) (S : Ptr → Prop) : Prop where
  pids : ∀ p, S p → (k.handles p).pid ≠ runtimePid
  own : OwnPids img k.handles S
  slots : ∀ q, S q → ∀ i < (img.header (k.handles q).header).numSubFunc,
    SlotOk img k.handles S q i (k.cbInRam q i)

lemma SlotOk.mono {H' : Ptr → Handle} (hok : SlotOk img H S q i cb)
    (hq : (H' q).header = (H q).header)
    (hS : ∀ p, S p → S' p ∧ (H' p).header = (H p).header) : SlotOk img H' S' q i cb := by
  rcases hok with hdef | ⟨p, hp, hlisted, hproto, hfound⟩
  · exact .inl (by rw [hq]; exact hdef)
  · obtain ⟨hp', hhdr⟩ := hS p hp
    refine .inr ⟨p, hp', ?_, ?_, ?_⟩
    · rw [hhdr]
      exact hlisted
    · rw [hq]
      exact hproto
    · simp only [Found, hq, hhdr]
      exact hfound

lemma Safe.congr (hs : Safe img k S) (hS : ∀ p, S' p ↔ S p)
    (hkept : ∀ p, S p → (k'.handles p).header = (k.handles p).header ∧
      (k'.handles p).pid = (k.handles p).pid ∧ k'.cbInRam p = k.cbInRam p) : Safe img k' S' := by
  constructor
  · intro p hp
    rw [(hkept p ((hS p).mp hp)).2.1]
    exact hs.pids p ((hS p).mp hp)
  · intro p hp
    obtain ⟨hhdr, hpid, -⟩ := hkept p ((hS p).mp hp)
    rw [hhdr, hpid]
    exact hs.own p ((hS p).mp hp)
  · intro q hq i hi
    obtain ⟨hhdr, -, hcb⟩ := hkept q ((hS q).mp hq)
    rw [hhdr] at hi
    rw [hcb]
    exact (hs.slots q ((hS q).mp hq) i hi).mono hhdr
      (fun p hp => ⟨(hS p).mpr hp, (hkept p hp).1⟩)

/-- A block that a lookup by pid has found is found again if the slot is a run-time one, the
provider's own, or asks for this function. -/
lemma offered_slotOk {pub : ℕ} (hg : Good img k bins) (hown : OwnPids img k.handles (Linked bins))
    (hcb : offeredCb img (linkedHeader k.handles bins pub) (k.handles q).header fid i ≠ 0)
    (hS : ∀ p, Linked bins p → S p)
    (hslot : ((img.funct (k.handles q).header i).pid = runtimePid ∧ img.addrUnit = 1) ∨
      (∀ p, Linked bins p → (k.handles p).pid = pub → p = q) ∨
      ((img.funct (k.handles q).header i).pid = pub ∧
        (img.funct (k.handles q).header i).fid = fid)) :
    SlotOk img k.handles S q i
      (offeredCb img (linkedHeader k.handles bins pub) (k.handles q).header fid i) := by
  obtain ⟨p, hp, hpid, heq, hproto⟩ := offeredCb_spec hg.toTable hcb
  rw [heq] at hcb ⊢
  have hlisted := providedCb_listed hcb
  refine .inr ⟨p, hS p hp, hlisted, hproto, ?_⟩
  rcases hslot with hrt | hself | ⟨hpub, hfid⟩
  · exact .inr (.inl hrt)
  · exact .inl (hself p hp hpid)
  · refine .inr (.inr ⟨?_, ?_⟩)
    · rw [hown p hp hlisted.numProvFunc_ne, hpid, hpub]
    · rw [hfid]
      exact hcb

/-- From `k` to `k'` the slots of `P` have got the values `V`, and nothing else of the tables or
the handles has changed. -/
structure Writes (P : Ptr → ℕ → Prop) (V : Ptr → ℕ → ℕ) (k k' : Kernel) : Prop where
  handles : k'.handles = k.handles
  written : ∀ q i, P q i → k'.cbInRam q i = V q i
  kept : ∀ q i, ¬ P q i → k'.cbInRam q i = k.cbInRam q i

section Writes

variable {P P' : Ptr → ℕ → Prop} {V : Ptr → ℕ → ℕ}

lemma Writes.congr (hw : Writes P V k k') (hP : ∀ q i, P' q i ↔ P q i) : Writes P' V k k' := by
  have heq : P' = P := by
    funext q i
    exact propext (hP q i)
  rw [heq]
  exact hw

lemma writes_none (hP : ∀ q i, ¬ P q i) : Writes P V k k :=
  ⟨rfl, fun q i h => absurd h (hP q i), fun _ _ _ => rfl⟩

lemma writes_setCb (q : Ptr) (i : ℕ) (k : Kernel) :
    Writes (fun r j => r = q ∧ j = i) V k (setCb k q i (V q i)) := by
  refine ⟨rfl, ?_, fun r j hne => ?_⟩
  · rintro r j ⟨rfl, rfl⟩
    rw [setCb_apply, if_pos ⟨rfl, rfl⟩]
  · rw [setCb_apply, if_neg hne]

lemma Writes.trans {k'' : Kernel} (h1 : Writes P V k k') (h2 : Writes P' V k' k'') :
    Writes (fun q i => P q i ∨ P' q i) V k k'' := by
  refine ⟨h2.handles.trans h1.handles, fun q i hor => ?_, fun q i hnor => ?_⟩
  · by_cases hP' : P' q i
    · exact h2.written q i hP'
    · rw [h2.kept q i hP']
      exact h1.written q i (hor.resolve_right hP')
  · rw [h2.kept q i (fun h => hnor (.inr h)), h1.kept q i (fun h => hnor (.inl h))]

lemma foldl_writes {f : Kernel → α → Kernel} {Q : α → Ptr → ℕ → Prop}
    (hf : ∀ k', k'.handles = k.handles → ∀ a, Writes (Q a) V k' (f k' a)) (l : List α) :
    Writes (fun q i => ∃ a ∈ l, Q a q i) V k (l.foldl f k) := by
  induction l generalizing k with
  | nil => exact writes_none (by simp)
  | cons a l ih =>
    have hstep := hf k rfl a
    have hrest := ih (fun k' hk' => hf k' (hk'.trans hstep.handles))
    apply (hstep.trans hrest).congr
    simp

lemma Safe.writes (hs : Safe img k S) (hw : Writes P V k k')
    (hok : ∀ q i, P q i → SlotOk img k.handles S q i (V q i)) : Safe img k' S := by
  refine ⟨?_, ?_, fun q hq i hi => ?_⟩
  · rw [hw.handles]
    exact hs.pids
  · rw [hw.handles]
    exact hs.own
  · rw [hw.handles] at hi ⊢
    by_cases hP : P q i
    · rw [hw.written q i hP]
      exact hok q i hP
    · rw [hw.kept q i hP]
      exact hs.slots q hq i hi

end Writes

/-- The blocks of a header carry the pid under which it is registered, and its subscriptions to
itself have the prototypes of the functions it provides. -/
def OwnBlocks (img : Image) (hdr pid : ℕ) : Prop :=
  ((img.header hdr).numProvFunc = 0 ∨ declaredPid img hdr = pid) ∧
  ∀ i < (img.header hdr).numSubFunc, (img.funct hdr i).pid = pid →
    providedCb img hdr (img.funct hdr i).fid = 0 ∨
      (img.funcCb (providedCb img hdr (img.funct hdr i).fid)).proto = (img.funct hdr i).proto

def firstLink (img : Image) (H : Ptr → Handle) (bins : ℕ → List Ptr) (m : Ptr) (i : ℕ) : ℕ :=
  if slotCb img H bins m i ≠ 0 then slotCb img H bins m i else img.functAt (H m).header i

section

variable (hg : Good img k bins)
include hg

lemma firstLink_slotOk (hown : OwnPids img k.handles (Linked bins))
    (hblocks : OwnBlocks img (k.handles m).header (k.handles m).pid)
    (hi : i < (img.header (k.handles m).header).numSubFunc) :
    SlotOk img k.handles (WithNew bins m) m i (firstLink img k.handles bins m i) := by
  unfold firstLink
  split
  next h0 =>
    simp only [slotCb] at h0 ⊢
    split at h0
    next hself =>
      have hproto := (hblocks.2 i hi hself).resolve_left h0
      rw [if_pos hself]
      exact .inr ⟨m, .inl rfl, providedCb_listed h0, hproto, .inl rfl⟩
    next hself =>
      rw [if_neg hself]
      split at h0
      next hrt =>
        rw [if_pos hrt]
        exact offered_slotOk hg hown h0 (fun _ => .inr) (.inr (.inr ⟨rfl, rfl⟩))
      · exact absurd rfl h0
  · exact .inl rfl

lemma linkSubscribedFrom_writes {n : ℕ} (hrun : linkSubscribedFrom img m n i k = some k') :
    Writes (fun q j => q = m ∧ i ≤ j ∧ j < i + n) (firstLink img k.handles bins) k k' := by
  induction n generalizing i k with
  | zero =>
    cases hrun
    exact writes_none (fun q j h => by omega)
  | succ n ih =>
    obtain ⟨cache, hsub, hc⟩ := subscribedCb_spec hg m i
    rw [linkSubscribedFrom, hsub] at hrun
    have hl : Links bins k (setCb { k with cache := cache } m i
      (firstLink img k.handles bins m i)) := ⟨rfl, hc⟩
    have hfirst : Writes (fun q j => q = m ∧ j = i) (firstLink img k.handles bins) k
        (setCb { k with cache := cache } m i (firstLink img k.handles bins m i)) := by
      -- a new cache entry is no write
      have hset := writes_setCb (V := firstLink img k.handles bins) m i { k with cache := cache }
      exact ⟨hset.handles, hset.written, hset.kept⟩
    apply (hfirst.trans (ih (hl.good hg) hrun)).congr
    intro q j
    rw [← and_or_left]
    refine and_congr_right (fun _ => ?_)
    omega

def Wanted (img : Image) (H : Ptr → Handle) (hdr : ℕ) (q : Ptr) (i : ℕ) : Prop :=
  let sub := img.funct (H q).header i
  sub.pid = declaredPid img hdr ∧ providedCb img hdr sub.fid ≠ 0 ∧
    (img.funcCb (providedCb img hdr sub.fid)).proto = sub.proto

omit hg in
lemma relinkSlot_writes (img : Image) (hdr : ℕ) (q : Ptr) (k : Kernel) (i : ℕ) :
    Writes (fun r j => (r = q ∧ j = i) ∧ Wanted img k.handles hdr r j)
      (fun r j => providedCb img hdr (img.funct (k.handles r).header j).fid) k
      (relinkSlot img (functBase img hdr) (img.header hdr).numSubFunc
        (provEnd (img.header hdr)) true q k i) := by
  by_cases hw : Wanted img k.handles hdr q i
  · obtain ⟨hpid, h0, hproto⟩ := hw
    have hrun : relinkSlot img (functBase img hdr) (img.header hdr).numSubFunc
        (provEnd (img.header hdr)) true q k i =
        setCb k q i (providedCb img hdr (img.funct (k.handles q).header i).fid) := by
      simp only [providedCb] at h0 hproto
      simp only [relinkSlot, pid_cbAt, if_pos hpid, if_neg h0, if_true, if_pos hproto, providedCb]
    rw [hrun]
    apply (writes_setCb q i k).congr
    intro r j
    refine and_iff_left_of_imp ?_
    rintro ⟨rfl, rfl⟩
    exact ⟨hpid, h0, hproto⟩
  · have hrun : relinkSlot img (functBase img hdr) (img.header hdr).numSubFunc
        (provEnd (img.header hdr)) true q k i = k := by
      simp only [relinkSlot, pid_cbAt]
      split
      next hpid =>
        split
        · rfl
        next h0 => exact if_neg (fun hproto => hw ⟨hpid, h0, hproto⟩)
      · exact if_neg (by simp)
    rw [hrun]
    apply writes_none
    rintro r j ⟨⟨rfl, rfl⟩, hwant⟩
    exact hw hwant

lemma relinkHeader_writes (hrun : relinkHeader img k hdr true = some k') :
    Writes (fun q i => (img.header hdr).numProvFunc ≠ 0 ∧ Linked bins q ∧
        i < (img.header (k.handles q).header).numSubFunc ∧ Wanted img k.handles hdr q i)
      (fun q i => providedCb img hdr (img.funct (k.handles q).header i).fid) k k' := by
  unfold relinkHeader at hrun
  split at hrun
  next h0 =>
    cases hrun
    exact writes_none (fun q i h => h.1 h0)
  next h0 =>
    obtain ⟨mods, hall, hmem⟩ := hg.toTable.mem_allModules
    rw [fntableLinkProvidedFunctions, hall] at hrun
    cases hrun
    have hmodule : ∀ k1 : Kernel, k1.handles = k.handles → ∀ q,
        Writes (fun r j => ∃ i ∈ List.range (img.header (k.handles q).header).numSubFunc,
            (r = q ∧ j = i) ∧ Wanted img k.handles hdr r j)
          (fun r j => providedCb img hdr (img.funct (k.handles r).header j).fid) k1
          (relinkModule img (functBase img hdr) (img.header hdr).numSubFunc
            (provEnd (img.header hdr)) true k1 q) := by
      intro k1 hk1 q
      rw [relinkModule, hk1]
      apply foldl_writes
      intro k2 hk2 i
      have hslot := relinkSlot_writes img hdr q k2 i
      rwa [hk2, hk1] at hslot
    apply (foldl_writes hmodule mods).congr
    intro q i
    constructor
    · rintro ⟨-, hq, hi, hwant⟩
      exact ⟨q, (hmem q).mpr hq, i, mem_range.mpr hi, ⟨rfl, rfl⟩, hwant⟩
    · rintro ⟨r, hr, j, hj, ⟨rfl, rfl⟩, hwant⟩
      exact ⟨h0, (hmem q).mp hr, mem_range.mp hj, hwant⟩

lemma fntableLink_safe (hs : Safe img k (Linked bins))
    (hnew : ¬ Linked bins m) (hpid : (k.handles m).pid ≠ runtimePid)
    (hblocks : OwnBlocks img (k.handles m).header (k.handles m).pid)
    (hrun : fntableLink img k m = some k') : Safe img k' (WithNew bins m) := by
  obtain ⟨k1, hsub, hprov⟩ := bind_eq_some_iff.mp hrun
  obtain ⟨k1', hsub', hl⟩ := linkSubscribedFrom_links m
    (img.header (k.handles m).header).numSubFunc 0 hg
  rw [fntableLinkSubscribedFunctions, hsub'] at hsub
  cases hsub
  have hw := linkSubscribedFrom_writes hg hsub'
  have hs1 : Safe img k1 (WithNew bins m) := by
    constructor
    · rintro p (rfl | hp)
      · rw [hl.handles]
        exact hpid
      · rw [hl.handles]
        exact hs.pids p hp
    · rw [hl.handles]
      rintro p (rfl | hp) hprov
      · exact hblocks.1.resolve_left hprov
      · exact hs.own p hp hprov
    · rw [hl.handles]
      rintro q (rfl | hq) i hi
      · rw [hw.written q i ⟨rfl, Nat.zero_le i, by omega⟩]
        exact firstLink_slotOk hg hs.own hblocks hi
      · have hne : q ≠ m := fun heq => hnew (heq ▸ hq)
        rw [hw.kept q i (fun h => hne h.1)]
        exact (hs.slots q hq i hi).mono rfl (fun p hp => ⟨.inr hp, rfl⟩)
  apply hs1.writes (relinkHeader_writes (hl.good hg) hprov)
  rintro q i ⟨-, -, -, hdecl, h0, hproto⟩
  exact .inr ⟨m, .inl rfl, providedCb_listed h0, hproto, .inr (.inr ⟨hdecl, h0⟩)⟩

lemma safe_linked (hs : Safe img k (Linked bins)) : Safe img k (IsLinked k) :=
  hs.congr (fun _ => isLinked_iff hg) (fun _ _ => ⟨rfl, rfl, rfl⟩)

end

lemma Safe.same (hs : Safe img k (IsLinked k)) (hh : k'.handles = k.handles)
    (hm : k'.modBin = k.modBin) (hcb : k'.cbInRam = k.cbInRam) : Safe img k' (IsLinked k') := by
  apply hs.congr (fun p => isLinked_same hh hm)
  intro p _
  rw [hh, hcb]
  exact ⟨rfl, rfl, rfl⟩

variable {env : AllocEnv} {c : ℤ}

def Declared (img : Image) (k : Kernel) (hdr flag : ℕ) : Prop :=
  (choosePid img k hdr flag).2.toOption.elim True (OwnBlocks img hdr)

lemma safe_of_refused (hr : Refused img bins k pid k' c) (hs : Safe img k (Linked bins)) :
    Safe img k' (IsLinked k') := by
  apply hs.congr (fun _ => isLinked_iff hr.good)
  intro p hp
  obtain ⟨hh, hcb⟩ := hr.kept p hp
  exact ⟨congrArg _ hh, congrArg _ hh, hcb⟩

lemma safe_of_linking (hl : Linking img bins k m hdr pid k2 k3 k')
    (hs : Safe img k (Linked bins)) (hpid : pid ≠ runtimePid) (hblocks : OwnBlocks img hdr pid) :
    Safe img k' (IsLinked k') := by
  have hs2 : Safe img k2 (Linked bins) := by
    apply hs.congr (fun _ => Iff.rfl)
    intro p hp
    obtain ⟨hh, hcb⟩ := hl.kept p hp
    exact ⟨congrArg _ hh, congrArg _ hh, hcb⟩
  have hs3 := fntableLink_safe hl.good hs2 hl.fresh (hl.pid.symm ▸ hpid)
    (by rw [hl.header, hl.pid]; exact hblocks) hl.functions
  obtain ⟨k3', hrun, hl3⟩ := fntableLink_links m hl.good
  rw [hl.functions] at hrun
  cases hrun
  apply hs3.congr hl.linked
  intro p _
  rw [hl3.handles, hl.slots]
  exact ⟨hl.headers p, hl.pids p, rfl⟩

lemma safe_of_chooses {flag : ℕ} (hr : Chooses img env bins k m hdr flag k' c)
    (hs : Safe img k (Linked bins)) (hdecl : Declared img k hdr flag) :
    Safe img k' (IsLinked k') := by
  rcases hr with hr | ⟨pid, hc, hne, hr | ⟨k2, k3, hl, -⟩⟩
  · exact safe_of_refused (hr 0) hs
  · exact safe_of_refused hr hs
  · rw [Declared, hc] at hdecl
    exact safe_of_linking hl hs hne hdecl

lemma resets_of_found (hne : declaredPid img hdr ≠ runtimePid)
    (hcb : Listed img hdr (k.cbInRam q i))
    (hfound : ((img.funct (k.handles q).header i).pid = runtimePid ∧ img.addrUnit = 1) ∨
      ((img.funct (k.handles q).header i).pid = declaredPid img hdr ∧
        providedCb img hdr (img.funct (k.handles q).header i).fid ≠ 0)) :
    Resets img hdr (img.funct (k.handles q).header i) (k.cbInRam q i) := by
  refine ⟨hcb.numProvFunc_ne, ?_⟩
  rw [pid_cbAt]
  rcases hfound with ⟨hrt, hunit⟩ | ⟨hpid, h0⟩
  · rw [if_neg (hrt ▸ hne.symm)]
    obtain ⟨j, hlo, hhi, heq⟩ := hcb
    refine ⟨hrt, j, hlo, hhi, ?_⟩
    rw [heq, functBase, Image.functAt, getHeaderMember_eq, getHeaderMember_eq, hunit,
      Nat.div_one, Nat.div_one, add_assoc]
  · rwa [if_pos hpid]

lemma fntableRemoveAll_safe (hg : Good img k bins) (hs : Safe img k (WithNew bins h))
    (hnew : ¬ Linked bins h) (hrun : fntableRemoveAll img k h = some k') :
    Safe img k' (Linked bins) := by
  have hf := fntableRemoveAll_fellBack hrun
  have hreset : ∀ q, Linked bins q → ∀ i < (img.header (k.handles q).header).numSubFunc,
      Listed img (k.handles h).header (k.cbInRam q i) → Found img k.handles h q i →
      k'.cbInRam q i = img.functAt (k.handles q).header i := by
    intro q hq i hi hcb hfound
    have hprov := hcb.numProvFunc_ne
    have hne : declaredPid img (k.handles h).header ≠ runtimePid := by
      rw [hs.own h (.inl rfl) hprov]
      exact hs.pids h (.inl rfl)
    have hfound' := hfound.resolve_left (fun heq => hnew (heq ▸ hq))
    exact fntableRemoveAll_resets hg.toTable hrun hq hi (resets_of_found hne hcb hfound')
  constructor
  · rw [hf.handles]
    exact fun p hp => hs.pids p (.inr hp)
  · rw [hf.handles]
    exact fun p hp => hs.own p (.inr hp)
  · rw [hf.handles]
    intro q hq i hi
    rcases hf.links q i with hkept | ⟨hdef, -⟩
    · rcases hs.slots q (.inr hq) i hi with hdef | ⟨p, rfl | hp, hlisted, hproto, hfound⟩
      · exact .inl (hkept.trans hdef)
      · exact .inl (hreset q hq i hi hlisted hfound)
      · rw [hkept]
        exact .inr ⟨p, hp, hlisted, hproto, hfound⟩
    · exact .inl hdef

lemma safe_of_removed {bins' : ℕ → List Ptr}
    (hr : Removed img bins k h k2 k3 k' bins') (hs : Safe img k (Linked bins)) :
    Safe img k' (IsLinked k') := by
  have hhdr : ∀ q, (k2.handles q).header = (k.handles q).header := by
    intro q
    have heq := congrArg Handle.header (hr.unlinkedHandles q)
    exact heq
  have hpid : ∀ q, (k2.handles q).pid = (k.handles q).pid := by
    intro q
    have heq := congrArg Handle.pid (hr.unlinkedHandles q)
    exact heq
  have hs2 : Safe img k2 (WithNew bins' h) := by
    apply hs.congr (fun p => (hr.linked p).symm)
    intro p _
    exact ⟨hhdr p, hpid p, by rw [hr.unlinkedSlots]⟩
  have hf := fntableRemoveAll_fellBack hr.functions
  have hs3 := fntableRemoveAll_safe hr.unlinked hs2 hr.gone hr.functions
  apply safe_linked hr.good
  apply hs3.congr (fun _ => Iff.rfl)
  intro p _
  rw [hr.handles, hf.handles, hr.slots]
  exact ⟨rfl, rfl, rfl⟩

inductive Call where
  | table (c : ModuleRuns.Call)
  | subscribe (subPid pubPid fid tableIndex : ℕ)

def step (img : Image) (k : Kernel) : Call → Option Kernel
  | .table c => ModuleRuns.step img k c
  | .subscribe subPid pubPid fid tableIndex =>
    (kerFntableSubscribe img k subPid pubPid fid tableIndex).map Prod.fst

def Declares (img : Image) (k : Kernel) : ModuleRuns.Call → Prop
  | .register hdr _ => Declared img k hdr 0
  | .spawn hdr _ _ flag => Declared img k hdr flag
  | .registerKernel _ hdr _ _ => Declared img k hdr 0
  | .deregister _ _ => True
  | .get _ => True

/-- A subscription at run time is for a slot that is left to run time, on a platform with byte
addresses, or to the module itself, or to the function for which the slot is declared. -/
def Bindable (img : Image) (k : Kernel) (subPid pubPid fid tableIndex : ℕ) (m : Ptr) : Prop :=
  tableIndex < (img.header (k.handles m).header).numSubFunc ∧
  (((img.funct (k.handles m).header tableIndex).pid = runtimePid ∧ img.addrUnit = 1) ∨
    pubPid = subPid ∨ ((img.funct (k.handles m).header tableIndex).pid = pubPid ∧
      (img.funct (k.handles m).header tableIndex).fid = fid))
  deriving Decidable

def Legal (img : Image) (k : Kernel) : Call → Prop
  | .table c => ModuleRuns.Legal img k c ∧ Declares img k c
  | .subscribe subPid pubPid fid tableIndex =>
    (searchBin img k subPid).elim True (fun r =>
      r.elim True (Bindable img k subPid pubPid fid tableIndex))

instance (img : Image) (hdr pid : ℕ) : Decidable (OwnBlocks img hdr pid) :=
  inferInstanceAs (Decidable (_ ∧ _))

instance (img : Image) (k : Kernel) (hdr flag : ℕ) : Decidable (Declared img k hdr flag) :=
  inferInstanceAs (Decidable (Option.elim _ _ _))

instance (img : Image) (k : Kernel) (c) : Decidable (Declares img k c) := by
  induction c using ModuleRuns.Call.casesOn <;> (dsimp only [Declares]; infer_instance)

instance (img : Image) (k : Kernel) (e) : Decidable (Legal img k e) := by
  cases e <;> (dsimp only [Legal]; infer_instance)

lemma kerFntableSubscribe_safe {subPid pubPid tableIndex : ℕ} {c : ℤ} (hg : Good img k bins)
    (hs : Safe img k (Linked bins)) (hlegal : Legal img k (.subscribe subPid pubPid fid tableIndex))
    (hrun : kerFntableSubscribe img k subPid pubPid fid tableIndex = some (k', c)) :
    Good img k' bins ∧ Safe img k' (Linked bins) := by
  obtain ⟨cache, hget, hc⟩ := kerGetModule_spec hg.toTable hg.cacheIn subPid
  rw [kerFntableSubscribe, hget, bind_some] at hrun
  cases hf : (bins (hashPid subPid)).find? (fun p => (k.handles p).pid = subPid) with
  | none =>
    simp only [hf] at hrun
    cases hrun
  | some m =>
    simp only [hf] at hrun
    obtain ⟨hm, hpid⟩ := hg.find_eq_some.mp hf
    rw [Legal, hg.searchBin_eq, hf] at hlegal
    obtain ⟨-, hslot⟩ := hlegal
    have hl : Links bins k { k with cache := cache } := ⟨rfl, hc⟩
    obtain ⟨cache', hsub, hc'⟩ := fntableRealSubscribe_spec (hl.good hg)
      (k.handles m).header pubPid fid tableIndex
    rw [hsub] at hrun
    cases hrun
    set cb := offeredCb img (linkedHeader k.handles bins pubPid) (k.handles m).header fid tableIndex
    have hs' : Safe img { k with cache := cache' } (Linked bins) :=
      hs.congr (fun _ => Iff.rfl) (fun _ _ => ⟨rfl, rfl, rfl⟩)
    have hok : SlotOk img k.handles (Linked bins) m tableIndex
        (if cb ≠ 0 then cb else img.functAt (k.handles m).header tableIndex) := by
      split
      next h0 =>
        apply offered_slotOk hg hs.own h0 (fun _ hp => hp)
        refine hslot.imp_right (Or.imp_left (fun hself p hp hpub => ?_))
        exact hg.pid_inj hp hm (by rw [hpub, hself, hpid])
      · exact .inl rfl
    have hl' : Links bins k (setCb { k with cache := cache' } m tableIndex
        (if cb ≠ 0 then cb else img.functAt (k.handles m).header tableIndex)) := ⟨rfl, hc'⟩
    refine ⟨hl'.good hg, hs'.writes (writes_setCb (V := fun _ _ => _) m tableIndex _) ?_⟩
    rintro q i ⟨rfl, rfl⟩
    exact hok

def Inv (img : Image) (k : Kernel) : Prop := ModuleRuns.Inv img k ∧ Safe img k (IsLinked k)

lemma tableStep_safe {e : ModuleRuns.Call} (hg : Good img k bins) (hs : Safe img k (Linked bins))
    (hlegal : ModuleRuns.Legal img k e) (hdecl : Declares img k e)
    (hrun : ModuleRuns.step img k e = some k') : Safe img k' (IsLinked k') := by
  cases e with
  | register hdr env | spawn hdr init env flag =>
    obtain ⟨r, hcall, rfl⟩ := map_eq_some_iff.mp hrun
    simp only [kerRegisterModule, kerSpawnModule] at hcall
    split at hcall
    · cases hcall
      exact safe_linked hg hs
    · obtain ⟨u, hreg, rfl⟩ := map_eq_some_iff.mp hcall
      obtain ⟨m, -, hr⟩ := registerModule_registers hg hlegal.1 hreg
      exact safe_of_chooses hr hs hdecl
  | registerKernel n hdr statePtr env =>
    obtain ⟨r, hcall, rfl⟩ := map_eq_some_iff.mp hrun
    obtain ⟨hr, -⟩ := schedRegisterKernelModule_registers hg hlegal.1 (hlegal.not_linked hg) hcall
    exact safe_of_chooses hr hs hdecl
  | deregister pid lookups =>
    obtain ⟨r, hcall, rfl⟩ := map_eq_some_iff.mp hrun
    rcases kerDeregisterModule_cases hg hlegal hcall with
      ⟨heq, -⟩ | ⟨h, l1, l2, cache, hsplit, -, hg1, hcache, hclean⟩
    · rw [heq]
      exact safe_linked hg hs
    · obtain ⟨k2, k3, bins', hr⟩ := cleanUp_removed hg1 hsplit hcache hclean
      exact safe_of_removed hr (hs.congr (fun _ => Iff.rfl) (fun _ _ => ⟨rfl, rfl, rfl⟩))
  | get pid =>
    obtain ⟨cache, hget, -⟩ := kerGetModule_spec hg.toTable hg.cacheIn pid
    rw [ModuleRuns.step, hget] at hrun
    cases hrun
    exact (safe_linked hg hs).same rfl rfl rfl

lemma step_preserves_invariant (k : Kernel) (e : Call) (k' : Kernel) (hinv : Inv img k)
    (hlegal : Legal img k e) (hrun : step img k e = some k') : Inv img k' := by
  obtain ⟨⟨bins, hg⟩, hs⟩ := hinv
  have hs' : Safe img k (Linked bins) :=
    hs.congr (fun _ => (isLinked_iff hg).symm) (fun _ _ => ⟨rfl, rfl, rfl⟩)
  cases e with
  | table c =>
    exact ⟨ModuleRuns.step_preserves_invariant k c k' ⟨bins, hg⟩ hlegal.1 hrun,
      tableStep_safe hg hs' hlegal.1 hlegal.2 hrun⟩
  | subscribe subPid pubPid fid tableIndex =>
    obtain ⟨r, hcall, rfl⟩ := map_eq_some_iff.mp hrun
    obtain ⟨hg', hs1⟩ := kerFntableSubscribe_safe hg hs' hlegal hcall
    exact ⟨⟨bins, hg'⟩, safe_linked hg' hs1⟩

/-- Every slot of a registered module holds the module's own default block, or a provided block of
a registered module that has the prototype of the slot. -/
def LinksSafe (img : Image) (k : Kernel) : Prop :=
  ∀ q, IsLinked k q → ∀ i < (img.header (k.handles q).header).numSubFunc,
    k.cbInRam q i = img.functAt (k.handles q).header i ∨
    ∃ p, IsLinked k p ∧ Provides img (k.handles p).header (k.cbInRam q i) ∧
      (img.funcCb (k.cbInRam q i)).proto = (img.funct (k.handles q).header i).proto

lemma Safe.linksSafe (hs : Safe img k (IsLinked k)) : LinksSafe img k := by
  intro q hq i hi
  rcases hs.slots q hq i hi with hdef | ⟨p, hp, hlisted, hproto, -⟩
  · exact .inl hdef
  · exact .inr ⟨p, hp, hlisted.provides, hproto⟩

lemma not_isLinked_of_booted (hboot : Booted k) : ¬ IsLinked k p := by
  rintro ⟨b, hb, l, hl, hmem⟩
  rw [hboot.bins b hb] at hl
  cases l with
  | nil => cases hmem
  | cons a l => cases hl.1

/-- In every run whose headers declare their own pids and prototypes and whose run-time
subscriptions are `Bindable`, the function links are safe wherever the run gets. -/
theorem function_links_safe_over_runs (hboot : Booted k) {calls : List Call}
    (hvalid : ValidTrace (step img) (Legal img) k calls)
    (hrun : runTrace (step img) k calls = some k') : LinksSafe img k' := by
  have hno : ∀ p, ¬ IsLinked k p := fun p => not_isLinked_of_booted hboot
  have hsafe : Safe img k (IsLinked k) :=
    ⟨fun p hp => absurd hp (hno p), fun p hp => absurd hp (hno p),
      fun q hq => absurd hq (hno q)⟩
  have hinv : Inv img k' :=
    run_invariant_of_some step_preserves_invariant ⟨inv_of_booted hboot, hsafe⟩ hvalid hrun
  exact hinv.2.linksSafe

lemma mem_foldrM_collect {bs : List ℕ}
    (hall : bs.foldrM (fun b l => (collect k.next (k.fuel img) (k.modBin b)).map (· ++ l)) [] =
      some mods) : p ∈ mods ↔ ∃ b ∈ bs, InBin k b p := by
  induction bs generalizing mods with
  | nil =>
    cases hall
    simp
  | cons b bs ih =>
    rw [foldrM_cons] at hall
    obtain ⟨rest, hrest, hmods⟩ := bind_eq_some_iff.mp hall
    obtain ⟨l, hl, rfl⟩ := map_eq_some_iff.mp hmods
    have hchain := chain_of_collect hl
    have hbin : InBin k b p ↔ p ∈ l :=
      ⟨fun ⟨l', hl', hp⟩ => hchain.unique hl' ▸ hp, fun hp => ⟨l, hchain, hp⟩⟩
    rw [mem_append, ih hrest, exists_mem_cons_iff, hbin]

lemma isLinked_iff_mem (hall : allModules img k = some mods) : IsLinked k p ↔ p ∈ mods := by
  rw [mem_foldrM_collect hall]
  simp only [IsLinked, mem_range]

def SafeIn (img : Image) (k : Kernel) (mods : List Ptr) : Prop :=
  ∀ q ∈ mods, ∀ i < (img.header (k.handles q).header).numSubFunc,
    k.cbInRam q i = img.functAt (k.handles q).header i ∨
    ∃ p ∈ mods, Provides img (k.handles p).header (k.cbInRam q i) ∧
      (img.funcCb (k.cbInRam q i)).proto = (img.funct (k.handles q).header i).proto

instance (img : Image) (hdr cb : ℕ) : Decidable (Provides img hdr cb) :=
  decidable_of_iff (∃ j < (img.header hdr).numSubFunc + (img.header hdr).numProvFunc,
    (img.header hdr).numSubFunc ≤ j ∧ cb = img.functAt hdr j)
    (exists_congr (fun _ => and_left_comm))

instance (img : Image) (k : Kernel) (mods : List Ptr) : Decidable (SafeIn img k mods) :=
  inferInstanceAs (Decidable (∀ q ∈ mods, _))

lemma linksSafe_iff (hall : allModules img k = some mods) :
    LinksSafe img k ↔ SafeIn img k mods := by
  simp only [LinksSafe, SafeIn, isLinked_iff_mem hall]

def EndsUnsafe (img : Image) (k : Kernel) (calls : List Call) : Prop :=
  (runTrace (step img) k calls).elim False (fun k' =>
    (allModules img k').elim False (fun mods => ¬ SafeIn img k' mods))
  deriving Decidable

lemma EndsUnsafe.not_linksSafe {calls : List Call} (hends : EndsUnsafe img k calls) :
    ∃ k', runTrace (step img) k calls = some k' ∧ ¬ LinksSafe img k' := by
  unfold EndsUnsafe at hends
  cases hrun : runTrace (step img) k calls with
  | none =>
    rw [hrun] at hends
    exact hends.elim
  | some k' =>
    rw [hrun, elim_some] at hends
    cases hall : allModules img k' with
    | none =>
      rw [hall] at hends
      exact hends.elim
    | some mods =>
      rw [hall] at hends
      exact ⟨k', rfl, fun hsafe => hends ((linksSafe_iff hall).mp hsafe)⟩

/-- Program memory with a provider of two functions, 128, and a module 129 with three slots: one
declared for the provider, one left to run time, one declared for module 130. Module 131 asks
for a function of its own by another prototype. The block of module 130 carries another pid. -/
def linkImage : Image where
  header h :=
    if h = 1000 then ⟨0, 128, 0, 0, 2, false⟩
    else if h = 2000 then ⟨6, 129, 0, 3, 0, false⟩
    else if h = 3000 then ⟨2, 131, 0, 1, 1, false⟩
    else ⟨0, 130, 0, 0, 1, false⟩
  funcCb a :=
    if a = 1016 ∨ a = 2016 then ⟨(1, 2, 3, 4), 128, 1⟩
    else if a = 1024 then ⟨(1, 2, 3, 4), 128, 2⟩
    else if a = 2024 then ⟨(1, 2, 3, 4), runtimePid, 0⟩
    else if a = 2032 then ⟨(1, 2, 3, 4), 130, 1⟩
    else if a = 3016 then ⟨(1, 2, 3, 4), 131, 1⟩
    else if a = 3024 then ⟨(5, 6, 7, 8), 131, 1⟩
    else ⟨(1, 2, 3, 4), 133, 1⟩
  addrUnit := 1
  offsetofFunct := 16
  sizeofFuncCb := 8
  maxPreAllocatedTimers := 10
  numStatic := 2
  unit_pos := sampleImage.unit_pos
  unit_dvd_funct := sampleImage.unit_dvd_funct
  unit_dvd_cb := sampleImage.unit_dvd_cb

def avrImage : Image :=
  { linkImage with
    funcCb := fun a => linkImage.funcCb (1000 * (a / 1000) + 2 * (a % 1000))
    addrUnit := 2
    unit_pos := Nat.two_pos
    unit_dvd_funct := by decide
    unit_dvd_cb := by decide }

def registerAt (hdr : ℕ) : Call := .table (.register hdr { sampleEnv with state := hdr })

def linkCalls : List Call :=
  [registerAt 2000, registerAt 1000, .subscribe 129 128 2 1, .table (.get 129),
    .table (.deregister 128 []), registerAt 1000, .subscribe 129 128 1 1]

theorem function_links_safe_sample :
    ValidTrace (step linkImage) (Legal linkImage) sampleKernel linkCalls ∧
    ∃ k', runTrace (step linkImage) sampleKernel linkCalls = some k' ∧ LinksSafe linkImage k' := by
  have hvalid : ValidTrace (step linkImage) (Legal linkImage) sampleKernel linkCalls := by
    decide +kernel
  obtain ⟨k', hrun⟩ : ∃ k', runTrace (step linkImage) sampleKernel linkCalls = some k' :=
    isSome_iff_exists.mp (by decide +kernel)
  exact ⟨hvalid, k', hrun, function_links_safe_over_runs sampleKernel_booted hvalid hrun⟩

def reboundSlot : List Call :=
  [registerAt 2000, registerAt 1000, .subscribe 129 128 1 2, .table (.get 129),
    .table (.deregister 128 [])]

def foreignPid : List Call :=
  [registerAt 5000, registerAt 2000, .table (.get 129), .table (.deregister 130 [])]

def runtimeSlot : List Call :=
  [registerAt 2000, registerAt 1000, .subscribe 129 128 2 1, .table (.get 129),
    .table (.deregister 128 [])]

/-- A slot rebound at run time dangles after the removal of the provider; so does one whose provider
declares another pid, and on the AVR one that was left to run time. A module is linked to a
function of its own with another prototype. -/
theorem unsafe_function_links :
    (∃ k', runTrace (step linkImage) sampleKernel reboundSlot = some k' ∧
      ¬ LinksSafe linkImage k') ∧
    (∃ k', runTrace (step linkImage) sampleKernel [registerAt 3000] = some k' ∧
      ¬ LinksSafe linkImage k') ∧
    (∃ k', runTrace (step linkImage) sampleKernel foreignPid = some k' ∧
      ¬ LinksSafe linkImage k') ∧
    ∃ k', runTrace (step avrImage) sampleKernel runtimeSlot = some k' ∧
      ¬ LinksSafe avrImage k' := by
  refine ⟨EndsUnsafe.not_linksSafe ?_, EndsUnsafe.not_linksSafe ?_, EndsUnsafe.not_linksSafe ?_,
    EndsUnsafe.not_linksSafe ?_⟩
  all_goals decide +kernel

end FunctionLinks
