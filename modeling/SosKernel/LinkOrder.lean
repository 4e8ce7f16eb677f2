import SosKernel.FunctionLinks

/-! # Function links do not depend on the order of registration

A subscriber that comes after its provider is linked by a lookup, one that comes before it by the
provider's walk over all modules. -/
namespace LinkOrder

open SlabPools PointerChain KernelState FunctionTable Scheduler ModuleTable ModuleRuns List Option
open FunctionLinks GuardedRuns

variable {img : Image} {k k' : Kernel} {bins bins' : ℕ → List Ptr} {p q h : Ptr} {hdr fid i : ℕ}
  {env : AllocEnv}

structure Member where
  header : ℕ
  pid : ℕ
  deriving DecidableEq, Repr

variable {m : Member} {mods mods' : List Member}

def headerOf (mods : List Member) (pid : ℕ) : Option ℕ :=
  (mods.find? (fun m => m.pid = pid)).map Member.header

/-- Entry `i` of the table of `m`, given how a header's block for a function id is found. A
block of another module has to have the prototype of the slot. -/
def entry (img : Image) (block : ℕ → ℕ → Option ℕ) (mods : List Member) (m : Member) (i : ℕ) : ℕ :=
  let sub := img.funct m.header i
  (((headerOf mods sub.pid).bind (fun ph => block ph sub.fid)).filter (fun cb =>
    sub.pid = m.pid ∨ (img.funcCb cb).proto = sub.proto)).getD (img.functAt m.header i)

def firstProvided (img : Image) (hdr fid : ℕ) : Option ℕ :=
  ((range' (img.header hdr).numSubFunc (img.header hdr).numProvFunc).map
    (img.functAt hdr)).find? (fun cb => (img.funcCb cb).fid = fid)

def reachedBlock (img : Image) (hdr fid : ℕ) : Option ℕ :=
  if providedCb img hdr fid = 0 then none else some (providedCb img hdr fid)

/-- A module whose provided blocks carry its pid and whose subscriptions are static. The counts of
a header are bytes. -/
@[mk_iff] structure Declares (img : Image) (m : Member) : Prop where
  numSub : (img.header m.header).numSubFunc < 256
  numProv : (img.header m.header).numProvFunc < 256
  own : ∀ j < (img.header m.header).numSubFunc + (img.header m.header).numProvFunc,
    (img.header m.header).numSubFunc ≤ j → (img.funct m.header j).pid = m.pid
  static : ∀ i < (img.header m.header).numSubFunc, (img.funct m.header i).pid ≠ runtimePid

/-- The end of the provided functions of the header that slot `i` of `m` asks fits in a byte, or
the slot keeps its default block anyhow. -/
def WithinByte (img : Image) (mods : List Member) (m : Member) (i : ℕ) : Prop :=
  ∀ ph, headerOf mods (img.funct m.header i).pid = some ph →
    (img.header ph).numSubFunc + (img.header ph).numProvFunc < 256 ∨
      entry img (firstProvided img) mods m i = img.functAt m.header i

lemma headerOf_cons (m : Member) (mods : List Member) (pid : ℕ) :
    headerOf (m :: mods) pid = if m.pid = pid then some m.header else headerOf mods pid := by
  by_cases hpid : m.pid = pid <;> simp [headerOf, hpid]

lemma headerOf_eq_some (hnodup : (mods.map Member.pid).Nodup) {pid : ℕ} :
    headerOf mods pid = some hdr ↔ ⟨hdr, pid⟩ ∈ mods := by
  simp only [headerOf, map_eq_some_iff, find_key_eq_some hnodup]
  constructor
  · rintro ⟨⟨hdr, pid⟩, ⟨hm, rfl⟩, rfl⟩
    exact hm
  · intro hm
    exact ⟨⟨hdr, pid⟩, ⟨hm, rfl⟩, rfl⟩

lemma headerOf_perm (hperm : mods.Perm mods') (hnodup : (mods.map Member.pid).Nodup) :
    headerOf mods = headerOf mods' := by
  have hnodup' : (mods'.map Member.pid).Nodup := (hperm.map Member.pid).nodup_iff.mp hnodup
  funext pid
  apply Option.ext
  intro hdr
  rw [headerOf_eq_some hnodup, headerOf_eq_some hnodup', hperm.mem_iff]

lemma functAt_pos (h0 : hdr ≠ 0) (j : ℕ) : img.functAt hdr j ≠ 0 := by
  rw [Image.functAt, getHeaderMember_eq]
  exact Nat.ne_of_gt (Nat.add_pos_left (Nat.pos_of_ne_zero h0) _)

lemma provCbFrom_eq_find (img : Image) (fid : ℕ) (h0 : hdr ≠ 0) (n j : ℕ) :
    (if provCbFrom img (functBase img hdr) fid n j = 0 then none
      else some (provCbFrom img (functBase img hdr) fid n j)) =
    ((range' j n).map (img.functAt hdr)).find? (fun cb => (img.funcCb cb).fid = fid) := by
  induction n generalizing j with
  | zero => rfl
  | succ n ih =>
    rw [range'_succ, map_cons, find?_cons, provCbFrom, cbAt_functBase]
    by_cases hfid : (img.funcCb (img.functAt hdr j)).fid = fid
    · simp [hfid, functAt_pos h0]
    · simp only [hfid, if_false, decide_false]
      exact ih (j + 1)

lemma reachedBlock_eq (fid : ℕ) (h0 : hdr ≠ 0) (hsub : (img.header hdr).numSubFunc < 256)
    (hprov : (img.header hdr).numProvFunc < 256) :
    reachedBlock img hdr fid =
      if (img.header hdr).numSubFunc + (img.header hdr).numProvFunc < 256 then
        firstProvided img hdr fid
      else none := by
  have hfind := provCbFrom_eq_find img fid h0
    (provEnd (img.header hdr) - (img.header hdr).numSubFunc) (img.header hdr).numSubFunc
  split
  next hlt =>
    have hend : provEnd (img.header hdr) - (img.header hdr).numSubFunc =
        (img.header hdr).numProvFunc := by
      rw [provEnd]
      omega
    rw [hend] at hfind
    rw [reachedBlock, providedCb, getProvCb, hend, hfind, firstProvided]
  next hlt =>
    have hend : provEnd (img.header hdr) - (img.header hdr).numSubFunc = 0 := by
      rw [provEnd]
      omega
    rw [reachedBlock, providedCb, getProvCb, hend]
    exact if_pos rfl

lemma entry_reached {ph : ℕ} (hfind : headerOf mods (img.funct m.header i).pid = some ph) :
    entry img (reachedBlock img) mods m i = if providedCb img ph (img.funct m.header i).fid ≠ 0 ∧
          ((img.funct m.header i).pid = m.pid ∨
            (img.funcCb (providedCb img ph (img.funct m.header i).fid)).proto =
              (img.funct m.header i).proto) then
        providedCb img ph (img.funct m.header i).fid
      else img.functAt m.header i := by
  simp only [entry, hfind, bind_some, reachedBlock]
  by_cases h0 : providedCb img ph (img.funct m.header i).fid = 0
  · simp [h0]
  · rw [if_neg h0, filter_some]
    split_ifs <;> simp_all

lemma entry_default (block : ℕ → ℕ → Option ℕ)
    (hfind : headerOf mods (img.funct m.header i).pid = none) :
    entry img block mods m i = img.functAt m.header i := by
  simp [entry, hfind]

lemma Declares.declaredPid (hd : Declares img m) (hp : (img.header m.header).numProvFunc ≠ 0) :
    declaredPid img m.header = m.pid :=
  hd.own _ (by omega) le_rfl

lemma entry_eq_iff (hne : ∀ m ∈ mods, m.header ≠ 0)
    (hdecl : ∀ m ∈ mods, Declares img m) (hnodup : (mods.map Member.pid).Nodup) (i : ℕ) :
    entry img (reachedBlock img) mods m i = entry img (firstProvided img) mods m i ↔
      WithinByte img mods m i := by
  unfold WithinByte
  cases hfind : headerOf mods (img.funct m.header i).pid with
  | none => simp [entry, hfind]
  | some ph =>
    have hmem := (headerOf_eq_some hnodup).mp hfind
    have hreached := reachedBlock_eq (img.funct m.header i).fid
      (hne _ hmem) (hdecl _ hmem).numSub (hdecl _ hmem).numProv
    by_cases hlt : (img.header ph).numSubFunc + (img.header ph).numProvFunc < 256
    · simp [entry, hfind, hreached, hlt]
    · rw [if_neg hlt] at hreached
      have hdef : entry img (reachedBlock img) mods m i = img.functAt m.header i := by
        simp [entry, hfind, hreached]
      rw [hdef]
      simp only [some.injEq, forall_eq', hlt, false_or]
      exact eq_comm

structure Entries (img : Image) (k : Kernel) (bins : ℕ → List Ptr) (mods : List Member) :
    Prop where
  members : ∀ pid, linkedHeader k.handles bins pid = headerOf mods pid
  nodup : (mods.map Member.pid).Nodup
  header_ne : ∀ m ∈ mods, m.header ≠ 0
  slots : ∀ q, Linked bins q → ∀ i < (img.header (k.handles q).header).numSubFunc,
    k.cbInRam q i =
      entry img (reachedBlock img) mods ⟨(k.handles q).header, (k.handles q).pid⟩ i

lemma firstLink_eq_entry (hm : ∀ pid, linkedHeader k.handles bins pid = headerOf mods pid)
    (hhdr : (k.handles h).header = m.header) (hpid : (k.handles h).pid = m.pid)
    (hstatic : (img.funct m.header i).pid ≠ runtimePid) :
    firstLink img k.handles bins h i = entry img (reachedBlock img) (m :: mods) m i := by
  simp only [firstLink, slotCb, hhdr, hpid]
  by_cases hown : (img.funct m.header i).pid = m.pid
  · rw [if_pos hown, entry_reached (by rw [headerOf_cons, if_pos hown.symm])]
    simp only [hown, true_or, and_true]
  · have hcons : headerOf (m :: mods) (img.funct m.header i).pid =
        headerOf mods (img.funct m.header i).pid := by
      rw [headerOf_cons, if_neg (Ne.symm hown)]
    rw [if_neg hown, if_pos hstatic, hm]
    cases hfind : headerOf mods (img.funct m.header i).pid with
    | none =>
      rw [entry_default _ (hcons.trans hfind)]
      exact if_neg (not_not_intro rfl)
    | some ph =>
      rw [entry_reached (hcons.trans hfind), offeredCb, elim_some]
      by_cases hproto : (img.funcCb (providedCb img ph (img.funct m.header i).fid)).proto =
          (img.funct m.header i).proto
      · simp only [hproto, if_true, or_true, and_true]
      · simp only [hproto, if_false, or_false, hown, and_false, ne_eq, not_true_eq_false]

lemma Writes.eq_entry {k3 : Kernel} (k1 : Kernel) (hd : Declares img m)
    (hfresh : headerOf mods m.pid = none) (hq : Linked bins q) (hne : (k1.handles q).pid ≠ m.pid)
    (hi : i < (img.header (k1.handles q).header).numSubFunc)
    (hold : k1.cbInRam q i = entry img (reachedBlock img) mods
      ⟨(k1.handles q).header, (k1.handles q).pid⟩ i)
    (hw : Writes (fun q i => (img.header m.header).numProvFunc ≠ 0 ∧ Linked bins q ∧
        i < (img.header (k1.handles q).header).numSubFunc ∧ Wanted img k1.handles m.header q i)
      (fun q i => providedCb img m.header (img.funct (k1.handles q).header i).fid) k1 k3) :
    k3.cbInRam q i = entry img (reachedBlock img) (m :: mods)
      ⟨(k1.handles q).header, (k1.handles q).pid⟩ i := by
  set s : Member := ⟨(k1.handles q).header, (k1.handles q).pid⟩
  by_cases hask : (img.funct s.header i).pid = m.pid
  · have hother : (img.funct s.header i).pid ≠ s.pid := fun heq => hne (heq.symm.trans hask)
    rw [entry_default _ (by rw [hask]; exact hfresh)] at hold
    rw [entry_reached (by rw [headerOf_cons, if_pos hask.symm])]
    split
    next htake =>
      have hprov := (providedCb_listed htake.1).numProvFunc_ne
      exact hw.written q i ⟨hprov, hq, hi, hask.trans (hd.declaredPid hprov).symm, htake.1,
        htake.2.resolve_left hother⟩
    next hnot =>
      rw [hw.kept q i (fun h => hnot ⟨h.2.2.2.2.1, .inr h.2.2.2.2.2⟩)]
      exact hold
  · have hcons : headerOf (m :: mods) (img.funct s.header i).pid =
        headerOf mods (img.funct s.header i).pid := by
      rw [headerOf_cons, if_neg (Ne.symm hask)]
    rw [hw.kept q i (fun h => hask (h.2.2.2.1.trans (hd.declaredPid h.1))), hold]
    simp only [entry, hcons]

section Link

variable {k2 k3 : Kernel} {pid : ℕ}

section

variable (hl : Linking img bins k h hdr pid k2 k3 k')
include hl

lemma linked_iff_withNew (hg' : Good img k' bins') (p : Ptr) : Linked bins' p ↔ WithNew bins h p :=
  (isLinked_iff hg').symm.trans (hl.linked p)

lemma link_self : (k'.handles h).header = hdr ∧ (k'.handles h).pid = pid :=
  ⟨(hl.headers h).trans hl.header, (hl.pids h).trans hl.pid⟩

lemma link_others (hp : Linked bins p) :
    (k'.handles p).header = (k.handles p).header ∧ (k'.handles p).pid = (k.handles p).pid := by
  rw [hl.headers, hl.pids, (hl.kept p hp).1]
  exact ⟨rfl, rfl⟩

lemma link_pid_ne (hg' : Good img k' bins') (hp : Linked bins p) : (k.handles p).pid ≠ pid := by
  intro heq
  have hnew : Linked bins' h := (linked_iff_withNew hl hg' h).mpr (.inl rfl)
  have hold : Linked bins' p := (linked_iff_withNew hl hg' p).mpr (.inr hp)
  have hpid : (k'.handles p).pid = (k'.handles h).pid := by
    rw [(link_others hl hp).2, (link_self hl).2, heq]
  exact hl.fresh (hg'.pid_inj hold hnew hpid ▸ hp)

end

section

variable (hl : Linking img bins k h hdr pid k2 k3 k') (hg : Good img k bins)
include hl hg

lemma linkedHeader_link
    (hg' : Good img k' bins') (x : ℕ) : linkedHeader k'.handles bins' x =
      if pid = x then some hdr else linkedHeader k.handles bins x := by
  have hlinked := linked_iff_withNew hl hg'
  have hnew : Linked bins' h := (hlinked h).mpr (.inl rfl)
  have hself := link_self hl
  apply Option.ext
  intro y
  rw [hg'.linkedHeader_eq_some]
  split
  next hpid =>
    constructor
    · rintro ⟨p, hp, hppid, rfl⟩
      rw [hg'.pid_inj hp hnew (by rw [hppid, hself.2, hpid]), hself.1]
    · rintro ⟨⟩
      exact ⟨h, hnew, hself.2.trans hpid, hself.1⟩
  next hpid =>
    rw [hg.linkedHeader_eq_some]
    constructor
    · rintro ⟨p, hp, hppid, rfl⟩
      rcases (hlinked p).mp hp with rfl | hp
      · exact absurd (hself.2.symm.trans hppid) hpid
      · have hold := link_others hl hp
        exact ⟨p, hp, hold.2.symm.trans hppid, hold.1.symm⟩
    · rintro ⟨p, hp, hppid, rfl⟩
      have hold := link_others hl hp
      exact ⟨p, (hlinked p).mpr (.inr hp), hold.2.trans hppid, hold.1⟩

lemma linkedHeader_before
    (x : ℕ) : linkedHeader k2.handles bins x = linkedHeader k.handles bins x := by
  apply Option.ext
  intro y
  rw [hl.good.linkedHeader_eq_some, hg.linkedHeader_eq_some]
  refine exists_congr (fun p => and_congr_right (fun hp => ?_))
  rw [(hl.kept p hp).1]

end

section

variable (he : Entries img k bins mods) (hg : Good img k bins)
include he hg

lemma Entries.pid_fresh (hl : Linking img bins k h hdr pid k2 k3 k') (hg' : Good img k' bins') :
    headerOf mods pid = none := by
  rw [← he.members, eq_none_iff_forall_ne_some]
  intro y hsome
  obtain ⟨p, hp, hpid, -⟩ := hg.linkedHeader_eq_some.mp hsome
  exact link_pid_ne hl hg' hp hpid

section

variable (hl : Linking img bins k h m.header m.pid k2 k3 k') (hg' : Good img k' bins')
    (hd : Declares img m)
include hl hg' hd

lemma Entries.link_slots (hq : WithNew bins h q)
    (hi : i < (img.header (k2.handles q).header).numSubFunc) :
    k3.cbInRam q i = entry img (reachedBlock img) (m :: mods)
      ⟨(k2.handles q).header, (k2.handles q).pid⟩ i := by
  obtain ⟨k1, hsub, hprov⟩ := bind_eq_some_iff.mp hl.functions
  have hsub' := linkSubscribedFrom_writes hl.good hsub
  obtain ⟨k1', hrun, hl1⟩ := linkSubscribedFrom_links h
    (img.header (k2.handles h).header).numSubFunc 0 hl.good
  rw [fntableLinkSubscribedFunctions, hrun] at hsub
  cases hsub
  rw [hl1.handles, hl.header] at hprov
  have hprov' := relinkHeader_writes (hl1.good hl.good) hprov
  rcases hq with rfl | hq
  · have hm2 : ∀ x, linkedHeader k2.handles bins x = headerOf mods x :=
      fun x => (linkedHeader_before hl hg x).trans (he.members x)
    rw [hprov'.kept q i (fun hP => hl.fresh hP.2.1),
      hsub'.written q i ⟨rfl, Nat.zero_le i, by omega⟩]
    rw [hl.header] at hi
    rw [hl.header, hl.pid]
    exact firstLink_eq_entry hm2 hl.header hl.pid (hd.static i hi)
  · have hqh : q ≠ h := fun heq => hl.fresh (heq ▸ hq)
    obtain ⟨hh, hcb⟩ := hl.kept q hq
    rw [hl1.handles] at hprov'
    have heq := Writes.eq_entry k1 hd (he.pid_fresh hg hl hg') hq
      (by rw [hl1.handles, hh]; exact link_pid_ne hl hg' hq) (by rw [hl1.handles]; exact hi) ?_
      (by rw [hl1.handles]; exact hprov')
    · rwa [hl1.handles] at heq
    · rw [hsub'.kept q i (fun hP => hqh hP.1), hcb, hl1.handles, hh]
      rw [hh] at hi
      exact he.slots q hq i hi

lemma Entries.link (h0 : m.header ≠ 0) : Entries img k' bins' (m :: mods) := by
  refine ⟨fun pid => ?_, ?_, ?_, fun q hq i hi => ?_⟩
  · rw [linkedHeader_link hl hg hg', headerOf_cons, he.members]
  · rw [map_cons, nodup_cons]
    refine ⟨fun hmem => ?_, he.nodup⟩
    obtain ⟨⟨hdr, pid⟩, hs, rfl⟩ := mem_map.mp hmem
    have hfresh := he.pid_fresh hg hl hg'
    rw [(headerOf_eq_some he.nodup).mpr hs] at hfresh
    cases hfresh
  · exact forall_mem_cons.mpr ⟨h0, he.header_ne⟩
  · rw [hl.headers] at hi
    rw [hl.headers, hl.pids, hl.slots]
    exact he.link_slots hg hl hg' hd ((linked_iff_withNew hl hg' q).mp hq) hi

end

end

end Link

inductive Registration where
  | register (hdr : ℕ) (env : AllocEnv)
  | spawn (hdr init : ℕ) (env : AllocEnv) (flag : ℕ)
  | registerKernel (n hdr statePtr : ℕ) (env : AllocEnv)

/-- A registration and the member it adds; `none` unless the call reports success. -/
def Registration.run (img : Image) (k : Kernel) : Registration → Option (Kernel × Member)
  | .register hdr env => (kerRegisterModule img k hdr env).bind (fun r =>
      if r.2 = 0 then some (r.1, ⟨hdr, (img.header hdr).modId⟩) else none)
  | .spawn hdr init env flag => (kerSpawnModule img k hdr init env flag).bind (fun r =>
      if r.2 ≠ runtimePid then some (r.1, ⟨hdr, r.2⟩) else none)
  | .registerKernel n hdr statePtr env =>
    (schedRegisterKernelModule img k n hdr statePtr env).bind (fun r =>
      if r.2 = 0 then some (r.1, ⟨hdr, (img.header hdr).modId⟩) else none)

abbrev State := Kernel × List Member

def step (img : Image) (s : State) (r : Registration) : Option State :=
  (r.run img s.1).map (fun u => (u.1, u.2 :: s.2))

def Legal (img : Image) (s : State) : Registration → Prop
  | .register _ env => FreshPool s.1 env
  | .spawn _ _ env _ => FreshPool s.1 env
  | .registerKernel n _ _ _ => FreshStatic img s.1 n

instance (img : Image) (s : State) (r : Registration) : Decidable (Legal img s r) := by
  cases r <;> (dsimp only [Legal]; infer_instance)

lemma registerModule_result {init flag : ℕ} {c : ℤ} {r : Option Ptr}
    (hrun : registerModule img k hdr init env flag = some (k', c, r)) (hr : r.isSome) : c = 0 := by
  unfold registerModule giveBack at hrun
  split at hrun
  · cases hrun
    cases hr
  · obtain ⟨u, -, hres⟩ := bind_eq_some_iff.mp hrun
    split at hres
    · cases hres
      rfl
    · obtain ⟨v, -, heq⟩ := map_eq_some_iff.mp hres
      cases heq
      cases hr

lemma linking_of_chooses {flag : ℕ} (hr : Chooses img env bins k h hdr flag k' 0) :
    ∃ pid k2 k3 bins', (choosePid img k hdr flag).2 = .ok pid ∧
      Linking img bins k h hdr pid k2 k3 k' ∧ Good img k' bins' := by
  rcases hr with hr | ⟨pid, hpid, -, hr | ⟨k2, k3, hl, ⟨-, bins', hg'⟩ | ⟨h12, -⟩⟩⟩
  · exact absurd rfl (hr 0).code
  · exact absurd rfl hr.code
  · exact ⟨pid, k2, k3, bins', hpid, hl, hg'⟩
  · exact absurd h12 (by decide)

lemma Registration.run_links {r : Registration} (hg : Good img k bins)
    (hlegal : Legal img (k, mods) r) (hrun : r.run img k = some (k', m)) :
    m.header ≠ 0 ∧ ∃ h k2 k3 bins', Linking img bins k h m.header m.pid k2 k3 k' ∧
      Good img k' bins' := by
  cases r with
  | register hdr env =>
    obtain ⟨⟨k1, c⟩, hcall, hok⟩ := bind_eq_some_iff.mp hrun
    split at hok
    next hc =>
      cases hok
      subst hc
      unfold kerRegisterModule at hcall
      split at hcall
      · cases hcall
      next h0 =>
        obtain ⟨⟨k1, c, r⟩, hreg, heq⟩ := map_eq_some_iff.mp hcall
        cases heq
        obtain ⟨h, -, hr⟩ := registerModule_registers hg hlegal hreg
        obtain ⟨pid, k2, k3, bins', hpid, hl, hg'⟩ := linking_of_chooses hr
        rw [choosePid_header hpid] at hl
        exact ⟨h0, h, k2, k3, bins', hl, hg'⟩
    · cases hok
  | spawn hdr init env flag =>
    obtain ⟨⟨k1, pid⟩, hcall, hok⟩ := bind_eq_some_iff.mp hrun
    split at hok
    next hpid =>
      cases hok
      unfold kerSpawnModule at hcall
      split at hcall
      · cases hcall
        exact absurd rfl hpid
      next h0 =>
        obtain ⟨⟨k1, c, r⟩, hreg, heq⟩ := map_eq_some_iff.mp hcall
        cases r with
        | none =>
          cases heq
          exact absurd rfl hpid
        | some h =>
          cases heq
          obtain rfl : c = 0 := registerModule_result hreg rfl
          obtain ⟨h', hh, hr⟩ := registerModule_registers hg hlegal hreg
          obtain rfl := hh h rfl
          obtain ⟨pid, k2, k3, bins', -, hl, hg'⟩ := linking_of_chooses hr
          -- the pid that is returned is read back from the handle
          have hback : (k1.handles h).pid = pid := (hl.pids h).trans hl.pid
          simp only [elim_some, hback]
          exact ⟨h0, h, k2, k3, bins', hl, hg'⟩
    · cases hok
  | registerKernel n hdr statePtr env =>
    obtain ⟨⟨k1, c⟩, hcall, hok⟩ := bind_eq_some_iff.mp hrun
    split at hok
    next hc =>
      cases hok
      subst hc
      have h0 : hdr ≠ 0 := by
        rintro rfl
        cases hcall
      obtain ⟨hr, -⟩ := schedRegisterKernelModule_registers hg hlegal.1 (hlegal.not_linked hg) hcall
      obtain ⟨pid, k2, k3, bins', hpid, hl, hg'⟩ := linking_of_chooses hr
      rw [choosePid_header hpid] at hl
      exact ⟨h0, _, k2, k3, bins', hl, hg'⟩
    · cases hok

/-- While all members are declared as they should be, the tables are those of the members. -/
def Inv (img : Image) (s : State) : Prop :=
  (∀ m ∈ s.2, Declares img m) → ∃ bins, Good img s.1 bins ∧ Entries img s.1 bins s.2

lemma step_preserves_invariant (s : State) (r : Registration) (s' : State) (hinv : Inv img s)
    (hlegal : Legal img s r) (hrun : step img s r = some s') : Inv img s' := by
  obtain ⟨⟨k', m⟩, hr, rfl⟩ := map_eq_some_iff.mp hrun
  intro hdecl
  obtain ⟨bins, hg, he⟩ := hinv (fun m hm => hdecl m (mem_cons_of_mem _ hm))
  obtain ⟨h0, h, k2, k3, bins', hl, hg'⟩ := Registration.run_links hg hlegal hr
  exact ⟨bins', hg', he.link hg hl hg' (hdecl m mem_cons_self) h0⟩

lemma inv_of_booted (hboot : Booted k) : Inv img (k, []) := by
  intro _
  obtain ⟨bins, hg⟩ : ModuleRuns.Inv img k := ModuleRuns.inv_of_booted hboot
  have hnone : ∀ p, ¬ Linked bins p :=
    fun p hp => not_isLinked_of_booted hboot ((isLinked_iff hg).mpr hp)
  refine ⟨bins, hg, ?_, nodup_nil, by simp, fun q hq => absurd hq (hnone q)⟩
  intro pid
  apply eq_none_iff_forall_ne_some.mpr
  intro hdr hsome
  obtain ⟨p, hp, -⟩ := hg.linkedHeader_eq_some.mp hsome
  exact hnone p hp

def RunsAs (k : Kernel) (m : Member) (p : Ptr) : Prop :=
  IsLinked k p ∧ (k.handles p).header = m.header ∧ (k.handles p).pid = m.pid

lemma Entries.exists_runsAs (he : Entries img k bins mods) (hg : Good img k bins)
    (hm : m ∈ mods) : ∃ p, RunsAs k m p := by
  have hfind : linkedHeader k.handles bins m.pid = some m.header := by
    rw [he.members, headerOf_eq_some he.nodup]
    exact hm
  obtain ⟨p, hp, hpid, hhdr⟩ := hg.linkedHeader_eq_some.mp hfind
  exact ⟨p, (isLinked_iff hg).mpr hp, hhdr, hpid⟩

lemma Entries.table (he : Entries img k bins mods) (hg : Good img k bins) (hp : RunsAs k m p)
    (hi : i < (img.header m.header).numSubFunc) :
    k.cbInRam p i = entry img (reachedBlock img) mods m i := by
  obtain ⟨hlinked, hhdr, hpid⟩ := hp
  rw [he.slots p ((isLinked_iff hg).mp hlinked) i (by rw [hhdr]; exact hi), hhdr, hpid]

/-- Registered in two orders, the modules end with the same tables. An entry is the block that
the set of modules gives it if and only if the end of the provider's functions fits in a byte. -/
theorem link_tables_order_independent (hboot : Booted k) {rs1 rs2 : List Registration}
    {k1 k2 : Kernel} {mods1 mods2 : List Member}
    (hvalid1 : ValidTrace (step img) (Legal img) (k, []) rs1)
    (hvalid2 : ValidTrace (step img) (Legal img) (k, []) rs2)
    (hrun1 : runTrace (step img) (k, []) rs1 = some (k1, mods1))
    (hrun2 : runTrace (step img) (k, []) rs2 = some (k2, mods2))
    (hperm : mods1.Perm mods2) (hdecl : ∀ m ∈ mods1, Declares img m) :
    ∀ m ∈ mods1, (∃ p1, RunsAs k1 m p1) ∧ (∃ p2, RunsAs k2 m p2) ∧
      ∀ p1 p2, RunsAs k1 m p1 → RunsAs k2 m p2 → ∀ i < (img.header m.header).numSubFunc,
        k1.cbInRam p1 i = k2.cbInRam p2 i ∧
        (k1.cbInRam p1 i = entry img (firstProvided img) mods1 m i ↔
          WithinByte img mods1 m i) := by
  have hdecl2 : ∀ m ∈ mods2, Declares img m := fun m hm => hdecl m (hperm.mem_iff.mpr hm)
  obtain ⟨bins1, hg1, he1⟩ :=
    run_invariant_of_some step_preserves_invariant (inv_of_booted hboot) hvalid1 hrun1 hdecl
  obtain ⟨bins2, hg2, he2⟩ :=
    run_invariant_of_some step_preserves_invariant (inv_of_booted hboot) hvalid2 hrun2 hdecl2
  intro m hm
  refine ⟨he1.exists_runsAs hg1 hm, he2.exists_runsAs hg2 (hperm.mem_iff.mp hm), ?_⟩
  intro p1 p2 hp1 hp2 i hi
  rw [he1.table hg1 hp1 hi, he2.table hg2 hp2 hi]
  constructor
  · simp only [entry, headerOf_perm hperm he1.nodup]
  · exact entry_eq_iff he1.header_ne hdecl he1.nodup i

instance (img : Image) (m : Member) : Decidable (Declares img m) :=
  decidable_of_iff' _ (declares_iff img m)

/-- A provider of two functions, 128, and a module 129 that asks for one of them, for one of its
own and for one of module 130. Module 130 provides 255 functions and subscribes to one. -/
def orderImage : Image :=
  { linkImage with
    header := fun h =>
      if h = 1000 then ⟨0, 128, 0, 0, 2, false⟩
      else if h = 2000 then ⟨6, 129, 0, 3, 1, false⟩
      else ⟨2, 130, 0, 1, 255, false⟩
    funcCb := fun a =>
      if a = 1016 ∨ a = 2016 ∨ a = 5016 then ⟨(1, 2, 3, 4), 128, 1⟩
      else if a = 1024 then ⟨(1, 2, 3, 4), 128, 2⟩
      else if a = 2024 ∨ a = 2040 then ⟨(1, 2, 3, 4), 129, 7⟩
      else ⟨(1, 2, 3, 4), 130, 1⟩ }

def registration (hdr : ℕ) : Registration := .register hdr { sampleEnv with state := hdr }

theorem link_tables_order_sample :
    ∃ k1 k2, runTrace (step orderImage) (sampleKernel, [])
        [registration 1000, registration 2000] = some (k1, [⟨2000, 129⟩, ⟨1000, 128⟩]) ∧
      runTrace (step orderImage) (sampleKernel, [])
        [registration 2000, registration 1000] = some (k2, [⟨1000, 128⟩, ⟨2000, 129⟩]) ∧
      ∀ p1 p2, RunsAs k1 ⟨2000, 129⟩ p1 → RunsAs k2 ⟨2000, 129⟩ p2 →
        ∀ i < 3, k1.cbInRam p1 i = k2.cbInRam p2 i := by
  have h1 : (runTrace (step orderImage) (sampleKernel, [])
      [registration 1000, registration 2000]).map Prod.snd = some [⟨2000, 129⟩, ⟨1000, 128⟩] := by
    decide +kernel
  have h2 : (runTrace (step orderImage) (sampleKernel, [])
      [registration 2000, registration 1000]).map Prod.snd = some [⟨1000, 128⟩, ⟨2000, 129⟩] := by
    decide +kernel
  obtain ⟨⟨k1, _⟩, hrun1, rfl⟩ := map_eq_some_iff.mp h1
  obtain ⟨⟨k2, _⟩, hrun2, rfl⟩ := map_eq_some_iff.mp h2
  have hdecl : ∀ m ∈ [(⟨2000, 129⟩ : Member), ⟨1000, 128⟩], Declares orderImage m := by
    decide +kernel
  obtain ⟨-, -, htables⟩ := link_tables_order_independent sampleKernel_booted
    (by decide +kernel) (by decide +kernel) hrun1 hrun2 (Perm.swap ..) hdecl
    ⟨2000, 129⟩ mem_cons_self
  exact ⟨k1, k2, hrun1, hrun2, fun p1 p2 hp1 hp2 i hi => (htables p1 p2 hp1 hp2 i hi).1⟩

def EndsUnlinked (img : Image) (k : Kernel) (rs : List Registration) : Prop :=
  (runTrace (step img) (k, []) rs).elim False (fun s =>
    (allModules img s.1).elim False (fun ptrs =>
      (∀ m ∈ s.2, Declares img m) ∧ ∃ m ∈ s.2, ∃ p ∈ ptrs,
        (s.1.handles p).header = m.header ∧ (s.1.handles p).pid = m.pid ∧
        ∃ i < (img.header m.header).numSubFunc,
          s.1.cbInRam p i ≠ entry img (firstProvided img) s.2 m i))

instance (img : Image) (k : Kernel) (rs : List Registration) : Decidable (EndsUnlinked img k rs) :=
  inferInstanceAs (Decidable (Option.elim _ _ _))

lemma EndsUnlinked.exists_entry {rs : List Registration} (hends : EndsUnlinked img k rs) :
    ∃ k' mods, runTrace (step img) (k, []) rs = some (k', mods) ∧
      (∀ m ∈ mods, Declares img m) ∧ ∃ m ∈ mods, ∃ p, RunsAs k' m p ∧
        ∃ i < (img.header m.header).numSubFunc,
          k'.cbInRam p i ≠ entry img (firstProvided img) mods m i := by
  unfold EndsUnlinked at hends
  cases hrun : runTrace (step img) (k, []) rs with
  | none =>
    rw [hrun] at hends
    exact hends.elim
  | some s =>
    rw [hrun, elim_some] at hends
    cases hall : allModules img s.1 with
    | none =>
      rw [hall] at hends
      exact hends.elim
    | some ptrs =>
      rw [hall] at hends
      obtain ⟨hdecl, m, hm, p, hp, hhdr, hpid, hentry⟩ := hends
      exact ⟨s.1, s.2, rfl, hdecl, m, hm, p, ⟨(isLinked_iff_mem hall).mpr hp, hhdr, hpid⟩, hentry⟩

/-- The end of the functions of module 130 is 256, which is 0 as a byte: the slot that asks for its
first function keeps the default block, though the prototypes match. -/
theorem provider_end_overflow :
    ValidTrace (step orderImage) (Legal orderImage) (sampleKernel, [])
      [registration 5000, registration 2000] ∧
    ∃ k' mods, runTrace (step orderImage) (sampleKernel, [])
        [registration 5000, registration 2000] = some (k', mods) ∧
      (∀ m ∈ mods, Declares orderImage m) ∧ ∃ m ∈ mods, ∃ p, RunsAs k' m p ∧
        ∃ i < (orderImage.header m.header).numSubFunc,
          k'.cbInRam p i ≠ entry orderImage (firstProvided orderImage) mods m i := by
  refine ⟨by decide +kernel, EndsUnlinked.exists_entry ?_⟩
  decide +kernel

end LinkOrder
