import SosKernel.ModuleTable

/-! # Runs of registrations, removals and lookups

`Legal` is the condition under which the module table stays correct: no removal of
the handle in the lookup cache, and no registration that runs out of memory at its
last step, the `MSG_INIT` message. -/
namespace ModuleRuns

open HeapBlocks SlabPools DeltaTimers PointerChain KernelState FunctionTable Scheduler List Option
open ModuleTable GuardedRuns

variable {img : Image} {k k' : Kernel} {bins : ℕ → List Ptr} {h m p : Ptr} {env : AllocEnv} {c : ℤ}
  {hdr init pid : ℕ} {n b : ℕ} {k0 k1 : Kernel} {l1 l2 : List Ptr}

lemma preallocTimers_same {r : Kernel × ℤ}
    (hrun : preallocTimers img k env pid n = some r) : SameTable k r.1 := by
  unfold preallocTimers at hrun
  split at hrun
  · cases hrun
    exact ⟨rfl, rfl, rfl, rfl, rfl⟩
  · obtain ⟨u, -, rfl⟩ := map_eq_some_iff.mp hrun
    exact ⟨rfl, rfl, rfl, rfl, rfl⟩

lemma removeTimers_same (hrun : removeTimers k pid = some k') : SameTable k k' := by
  obtain ⟨u, -, rfl⟩ := map_eq_some_iff.mp hrun
  exact ⟨rfl, rfl, rfl, rfl, rfl⟩

lemma postInit_same {init : ℕ} (hrun : postInit k env pid init = some (k', c)) :
    SameTable k k' ∧ (c = 0 ∨ c = -enomem ∧ env.msgHeader = false) := by
  unfold postInit at hrun
  split at hrun
  · cases hrun
    exact ⟨⟨rfl, rfl, rfl, rfl, rfl⟩, .inl rfl⟩
  next hno =>
    obtain ⟨u, hu, heq⟩ := map_eq_some_iff.mp hrun
    cases heq
    have hs := removeTimers_same hu
    exact ⟨⟨hs.handles, hs.modBin, hs.schedSlab, hs.cache, hs.cbInRam⟩,
      .inr ⟨rfl, by simpa using hno⟩⟩

def InBin (k : Kernel) (b : ℕ) (p : Ptr) : Prop := ∃ l, Chain k.next (k.modBin b) l ∧ p ∈ l

lemma inBin_iff (hg : Good img k bins) (hb : b < schedNumberBins) {p : Ptr} :
    InBin k b p ↔ p ∈ bins b := by
  constructor
  · rintro ⟨l, hl, hp⟩
    rw [(hg.chain b hb).unique hl]
    exact hp
  · intro hp
    exact ⟨bins b, hg.chain b hb, hp⟩

def IsLinked (k : Kernel) (p : Ptr) : Prop := ∃ b < schedNumberBins, InBin k b p

lemma isLinked_iff (hg : Good img k bins) : IsLinked k p ↔ Linked bins p := by
  constructor
  · rintro ⟨b, hb, hp⟩
    exact ⟨b, hb, (inBin_iff hg hb).mp hp⟩
  · rintro ⟨b, hb, hp⟩
    exact ⟨b, hb, (inBin_iff hg hb).mpr hp⟩

lemma isLinked_same (hh : k'.handles = k.handles) (hm : k'.modBin = k.modBin) :
    IsLinked k' p ↔ IsLinked k p := by
  have hnext : k'.next = k.next := by
    funext p
    simp only [Kernel.next, hh]
  simp only [IsLinked, InBin, hnext, hm]

def WithNew (bins : ℕ → List Ptr) (m p : Ptr) : Prop := p = m ∨ Linked bins p

lemma linked_pushBin (hb : b < schedNumberBins) :
    Linked (pushBin bins b m) p ↔ WithNew bins m p := by
  constructor
  · rintro ⟨d, hd, hp⟩
    rcases mem_pushBin.mp hp with ⟨-, heq⟩ | hp
    · exact .inl heq
    · exact .inr ⟨d, hd, hp⟩
  · rintro (rfl | hp)
    · exact ⟨b, hb, mem_pushBin.mpr (.inl ⟨rfl, rfl⟩)⟩
    · exact hp.push

def KeptLinked (bins : ℕ → List Ptr) (k k' : Kernel) : Prop :=
  ∀ p, Linked bins p → k'.handles p = k.handles p ∧ k'.cbInRam p = k.cbInRam p

lemma keptLinked_same (bins : ℕ → List Ptr) (hs : SameTable k k') : KeptLinked bins k k' := by
  intro p _
  rw [hs.handles, hs.cbInRam]
  exact ⟨rfl, rfl⟩

lemma keptLinked_setHandle (hnew : ¬ Linked bins m) (hd : Handle) :
    KeptLinked bins k (setHandle k m hd) := by
  intro p hp
  have hne : p ≠ m := fun heq => hnew (heq ▸ hp)
  exact ⟨setHandle_of_ne hne hd, rfl⟩

lemma KeptLinked.trans {k'' : Kernel} (h1 : KeptLinked bins k k') (h2 : KeptLinked bins k' k'') :
    KeptLinked bins k k'' := by
  intro p hp
  exact ⟨(h2 p hp).1.trans (h1 p hp).1, (h2 p hp).2.trans (h1 p hp).2⟩

structure Linking (img : Image) (bins : ℕ → List Ptr) (k : Kernel) (m : Ptr) (hdr pid : ℕ)
    (k2 k3 k' : Kernel) : Prop where
  fresh : ¬ Linked bins m
  good : Good img k2 bins
  kept : KeptLinked bins k k2
  header : (k2.handles m).header = hdr
  pid : (k2.handles m).pid = pid
  functions : fntableLink img k2 m = some k3
  linked : ∀ p, IsLinked k' p ↔ WithNew bins m p
  headers : ∀ p, (k'.handles p).header = (k2.handles p).header
  pids : ∀ p, (k'.handles p).pid = (k2.handles p).pid
  slots : k'.cbInRam = k3.cbInRam

structure Refused (img : Image) (bins : ℕ → List Ptr) (k : Kernel) (pid : ℕ) (k' : Kernel) (c : ℤ) :
    Prop where
  code : c ≠ 0
  good : Good img k' bins
  kept : KeptLinked bins k k'
  exists_pid : c = -eexist → ∃ q, Linked bins q ∧ (k.handles q).pid = pid

/-- How a registration of `m` under `pid` ends. One that finds no memory for the `MSG_INIT` message
has linked the handle; it may give it back and leave no good table. -/
def Registers (img : Image) (env : AllocEnv) (bins : ℕ → List Ptr) (k : Kernel) (m : Ptr)
    (hdr pid : ℕ) (k' : Kernel) (c : ℤ) : Prop :=
  Refused img bins k pid k' c ∨
    ∃ k2 k3, Linking img bins k m hdr pid k2 k3 k' ∧
      (c = 0 ∧ (∃ bins', Good img k' bins') ∨ c = -enomem ∧ env.msgHeader = false)

def Chooses (img : Image) (env : AllocEnv) (bins : ℕ → List Ptr) (k : Kernel) (m : Ptr)
    (hdr flag : ℕ) (k' : Kernel) (c : ℤ) : Prop :=
  (∀ pid, Refused img bins k pid k' c) ∨
    ∃ pid, (choosePid img k hdr flag).2 = .ok pid ∧ pid ≠ runtimePid ∧
      Registers img env bins k m hdr pid k' c

lemma refused (hg : Good img k' bins) (hkept : KeptLinked bins k k') (hc : c ≠ 0 ∧ c ≠ -eexist)
    (pid : ℕ) : Refused img bins k pid k' c :=
  ⟨hc.1, hg, hkept, fun he => absurd he hc.2⟩

lemma Refused.before (hr : Refused img bins k pid k' c)
    (hkept : KeptLinked bins k0 k) : Refused img bins k0 pid k' c := by
  refine { hr with kept := hkept.trans hr.kept, exists_pid := fun he => ?_ }
  obtain ⟨q, hq, hpid⟩ := hr.exists_pid he
  exact ⟨q, hq, (hkept q hq).1 ▸ hpid⟩

lemma Registers.before (hr : Registers img env bins k m hdr pid k' c)
    (hkept : KeptLinked bins k0 k) : Registers img env bins k0 m hdr pid k' c :=
  hr.imp (fun hr => hr.before hkept)
    (fun ⟨k2, k3, hl, hc⟩ => ⟨k2, k3, { hl with kept := hkept.trans hl.kept }, hc⟩)

section After

variable {k'' : Kernel} (hgood : ∀ b, b = bins ∨ c = 0 → Good img k' b → Good img k'' b)
  (hh : k''.handles = k'.handles) (hcb : k''.cbInRam = k'.cbInRam)
  (hm : k''.modBin = k'.modBin)
include hgood hh hcb

lemma Refused.after (hr : Refused img bins k pid k' c) : Refused img bins k pid k'' c := by
  refine { hr with good := hgood _ (.inl rfl) hr.good, kept := fun p hp => ?_ }
  rw [hh, hcb]
  exact hr.kept p hp

include hm

lemma Registers.after (hr : Registers img env bins k m hdr pid k' c) :
    Registers img env bins k m hdr pid k'' c := by
  refine hr.imp (fun hr => hr.after hgood hh hcb) ?_
  rintro ⟨k2, k3, hl, hc⟩
  refine ⟨k2, k3, { hl with linked := ?_, headers := ?_, pids := ?_, slots := ?_ }, ?_⟩
  · exact fun p => (isLinked_same hh hm).trans (hl.linked p)
  · rw [hh]
    exact hl.headers
  · rw [hh]
    exact hl.pids
  · exact hcb.trans hl.slots
  · exact hc.imp_left (fun ⟨h0, b, hg⟩ => ⟨h0, b, hgood b (.inr h0) hg⟩)

lemma Chooses.after {flag : ℕ} (hr : Chooses img env bins k m hdr flag k' c) :
    Chooses img env bins k m hdr flag k'' c :=
  hr.imp (fun hr pid => (hr pid).after hgood hh hcb)
    (fun ⟨pid, hpid, hne, hr⟩ => ⟨pid, hpid, hne, hr.after hgood hh hcb hm⟩)

end After

lemma schedRegisterModule_registers (hg : Good img k bins) (hnew : ¬ Linked bins h)
    (hlive : LiveHandle img k h) (hrun : schedRegisterModule img k h hdr env init = some (k', c)) :
    Registers img env bins k h (k.handles h).header (k.handles h).pid k' c ∧
      (∃ bins', Good img k' bins') ∧ k'.schedSlab = k.schedSlab := by
  obtain ⟨cache, hget, hc⟩ := kerGetModule_spec hg.toTable hg.cacheIn (k.handles h).pid
  rw [schedRegisterModule, hget, bind_some] at hrun
  have hl : Links bins k { k with cache := cache } := ⟨rfl, hc⟩
  cases hf : (bins (hashPid (k.handles h).pid)).find?
      (fun p => (k.handles p).pid = (k.handles h).pid) with
  | some q =>
    simp only [hf, isSome_some, if_true] at hrun
    cases hrun
    exact ⟨.inl ⟨by decide, hl.good hg, fun _ _ => ⟨rfl, rfl⟩,
      fun _ => ⟨q, hg.find_eq_some.mp hf⟩⟩, ⟨bins, hl.good hg⟩, rfl⟩
  | none =>
    simp only [hf, isSome_none, Bool.false_eq_true, if_false] at hrun
    obtain ⟨⟨k2, t⟩, htimers, hrest⟩ := bind_eq_some_iff.mp hrun
    have hs := preallocTimers_same htimers
    have hg2 : Good img k2 bins := (hl.good hg).same hs
    have hkept2 : KeptLinked bins k k2 := keptLinked_same (k := { k with cache := cache }) bins hs
    split at hrest
    · cases hrest
      exact ⟨.inl (refused hg2 hkept2 (by decide) _), ⟨bins, hg2⟩, hs.schedSlab⟩
    · obtain ⟨k3, hlink, hl3⟩ := fntableLink_links h hg2
      rw [hlink] at hrest
      obtain ⟨hpost, hcode⟩ := postInit_same hrest
      have hh : k3.handles = k.handles := hl3.handles.trans hs.handles
      have hslab : k3.schedSlab = k.schedSlab := hl3.schedSlab.trans hs.schedSlab
      have hlive3 : LiveHandle img k3 h := by
        cases h <;> simpa only [LiveHandle, hh, hslab] using hlive
      have hfresh : ∀ q, Linked bins q → (k3.handles q).pid ≠ (k3.handles h).pid := by
        intro q hq heq
        rw [hh] at heq
        have := hg.find_eq_some.mpr ⟨hq, heq⟩
        rw [hf] at this
        cases this
      have hgood : Good img k' (pushBin bins (hashPid (k3.handles h).pid) h) :=
        ((hl3.good hg2).linkHandle hnew hlive3 hfresh).same hpost
      have hfields : ∀ p, { k'.handles p with next := (k3.handles p).next } = k3.handles p := by
        intro p
        rw [hpost.handles]
        by_cases hp : p = h
        · subst hp
          simp [linkHandle, setHandle]
        · simp [linkHandle, setHandle, hp]
      refine ⟨.inr ⟨k2, k3, ⟨hnew, hg2, hkept2, ?_, ?_, hlink, fun p => ?_, fun p => ?_,
        fun p => ?_, hpost.cbInRam⟩, hcode.imp_left (fun h0 => ⟨h0, _, hgood⟩)⟩, ⟨_, hgood⟩,
        hpost.schedSlab.trans hslab⟩
      · rw [hs.handles]
      · rw [hs.handles]
      · rw [isLinked_iff hgood, linked_pushBin (hashPid_lt _)]
      · exact (congrArg Handle.header (hfields p)).trans (by rw [hl3.handles])
      · exact (congrArg Handle.pid (hfields p)).trans (by rw [hl3.handles])

variable {it : Item} {flag : ℕ}

lemma slab_freed {s : Slab} {hp : Heap} {u : Slab × Heap} (hwf : WellFormed s)
    (hall : Allocated s.pools it) (hrun : kerSlabFree s hp (.slab it) = some u) :
    WellFormed u.1 ∧ ∀ x, Allocated u.1.pools x ↔ Allocated s.pools x ∧ x ≠ it := by
  obtain ⟨s', h', hrun', hwf', hcount, -⟩ := kerSlabFree_spec hwf hall
  rw [hrun] at hrun'
  cases hrun'
  exact ⟨hwf', hcount⟩

lemma choosePid_same : SameTable k (choosePid img k hdr flag).1 := by
  unfold choosePid schedGetPidFromPool
  split
  · split <;> exact ⟨rfl, rfl, rfl, rfl, rfl⟩
  · split <;> exact ⟨rfl, rfl, rfl, rfl, rfl⟩

lemma choosePid_header (hc : (choosePid img k hdr 0).2 = .ok pid) :
    pid = (img.header hdr).modId := by
  unfold choosePid at hc
  rw [if_neg (by decide)] at hc
  split at hc <;> cases hc
  rfl

lemma choosePid_ne_runtime (hc : choosePid img k hdr flag = (k1, .ok pid)) : pid ≠ runtimePid := by
  unfold choosePid at hc
  split at hc
  · have hok := congrArg Prod.snd hc
    simp only at hok
    split at hok
    · cases hok
    next hne =>
      cases hok
      exact hne
  · split at hc
    · cases hc
    next hle =>
      cases hc
      intro heq
      rw [heq] at hle
      exact hle (by decide)

lemma choosePid_error {e : ℤ} (hc : choosePid img k hdr flag = (k1, .error e)) :
    e ≠ 0 ∧ e ≠ -eexist := by
  unfold choosePid at hc
  split at hc
  · simp only [Prod.mk.injEq] at hc
    have he := hc.2
    split at he <;> cases he
    exact ⟨by decide, by decide⟩
  · split at hc <;> cases hc
    exact ⟨by decide, by decide⟩

lemma choosePid_setSlab (s : Slab) (hp : Heap) (hdr flag : ℕ) :
    (choosePid img { k with schedSlab := s, heap := hp } hdr flag).2 =
      (choosePid img k hdr flag).2 := by
  unfold choosePid schedGetPidFromPool
  split
  · simp only
    split <;> rfl
  · split <;> rfl

section

variable (hg : Good img k bins)
include hg

lemma initAndRegister_registers (hnew : ¬ Linked bins (.slab it))
    (hall : Allocated k.schedSlab.pools it)
    (hrun : initAndRegister img k hdr (.slab it) init env pid = some (k', c)) :
    Registers img env bins k (.slab it) hdr pid k' c ∧ k'.schedSlab = k.schedSlab := by
  have hset : ∀ hd hp, Good img (setHandle { k with heap := hp } (.slab it) hd) bins ∧
      KeptLinked bins k (setHandle { k with heap := hp } (.slab it) hd) := by
    intro hd hp
    have hsame : SameTable k { k with heap := hp } := ⟨rfl, rfl, rfl, rfl, rfl⟩
    exact ⟨(hg.same hsame).setHandle hnew hd,
      (keptLinked_same bins hsame).trans (keptLinked_setHandle hnew hd)⟩
  unfold initAndRegister at hrun
  split at hrun
  · cases hrun
    obtain ⟨hg1, hk1⟩ := hset { k.handles (.slab it) with handlerState := 0 } k.heap
    exact ⟨.inl (refused hg1 hk1 (by decide) _), rfl⟩
  · obtain ⟨⟨k3, e⟩, hreg, hres⟩ := map_eq_some_iff.mp hrun
    set state := if (img.header hdr).stateSize = 0 then 0 else env.state
    obtain ⟨hg2, hk2⟩ := hset ⟨none, hdr, pid, 0, state⟩ (kerMalloc k.heap state pid)
    set k2 := setHandle { k with heap := kerMalloc k.heap state pid } (.slab it)
      ⟨none, hdr, pid, 0, state⟩
    have hself : k2.handles (.slab it) = ⟨none, hdr, pid, 0, state⟩ := Function.update_self ..
    obtain ⟨hr, -, hslab⟩ := schedRegisterModule_registers hg2 hnew ⟨hall, by rw [hself]⟩ hreg
    rw [hself] at hr
    have hsame : SameTable k3 k' ∧ c = e := by
      split at hres <;> cases hres <;> exact ⟨⟨rfl, rfl, rfl, rfl, rfl⟩, rfl⟩
    obtain ⟨hs, rfl⟩ := hsame
    exact ⟨(hr.before hk2).after (fun _ _ hg => hg.same hs) hs.handles hs.cbInRam hs.modBin,
      hs.schedSlab.trans hslab⟩

lemma doRegisterModule_registers (hnew : ¬ Linked bins (.slab it))
    (hall : Allocated k.schedSlab.pools it)
    (hrun : doRegisterModule img k hdr (.slab it) init env flag = some (k', c)) :
    Chooses img env bins k (.slab it) hdr flag k' c ∧ k'.schedSlab = k.schedSlab := by
  have hs : SameTable k (choosePid img k hdr flag).1 := choosePid_same
  unfold doRegisterModule at hrun
  split at hrun
  next hc =>
    rw [hc] at hs
    cases hrun
    exact ⟨.inl (refused (hg.same hs) (keptLinked_same bins hs) (choosePid_error hc)), hs.schedSlab⟩
  next hc =>
    rw [hc] at hs
    obtain ⟨hr, hslab⟩ :=
      initAndRegister_registers (hg.same hs) hnew (hs.schedSlab.symm ▸ hall) hrun
    exact ⟨.inr ⟨_, congrArg Prod.snd hc, choosePid_ne_runtime hc,
      hr.before (keptLinked_same bins hs)⟩, hslab.trans hs.schedSlab⟩

lemma registerModule_registers {r : Option Ptr}
    (hpool : env.handlePool ∉ poolAddrs k.schedSlab.pools)
    (hrun : registerModule img k hdr init env flag = some (k', c, r)) :
    ∃ m, (∀ h, r = some h → h = m) ∧ Chooses img env bins k m hdr flag k' c := by
  unfold registerModule giveBack at hrun
  split at hrun
  · cases hrun
    exact ⟨.other 0, nofun, .inl (refused hg (fun _ _ => ⟨rfl, rfl⟩) (by decide))⟩
  next s hp it halloc =>
    obtain ⟨hwf, hfree, hcount, -⟩ := kerSlabAlloc_some hg.slab hpool halloc
    have hnew : ¬ Linked bins (.slab it) := by
      rintro ⟨b, hb, hmem⟩
      exact hfree (hg.live b hb _ hmem).1
    have hg1 : Good img { k with schedSlab := s, heap := hp } bins :=
      hg.setSlab hwf (fun x _ hx => (hcount x).mpr (.inl hx)) hp
    have hall : Allocated s.pools it := (hcount it).mpr (.inr rfl)
    obtain ⟨⟨k2, e⟩, hreg, hres⟩ := bind_eq_some_iff.mp hrun
    obtain ⟨hr, hslab⟩ := doRegisterModule_registers hg1 hnew hall hreg
    rw [Chooses, choosePid_setSlab] at hr
    have hkept : KeptLinked bins k { k with schedSlab := s, heap := hp } := fun _ _ => ⟨rfl, rfl⟩
    replace hr : Chooses img env bins k (.slab it) hdr flag k2 e :=
      hr.imp (fun hr pid => (hr pid).before hkept)
        (fun ⟨pid, hpid, hne, hr⟩ => ⟨pid, hpid, hne, hr.before hkept⟩)
    split at hres
    next h0 =>
      cases hres
      exact ⟨.slab it, fun h hh => (some.inj hh).symm, h0 ▸ hr⟩
    next h0 =>
      obtain ⟨u, hfreed, heq⟩ := map_eq_some_iff.mp hres
      cases heq
      have hgood : ∀ b, b = bins ∨ e = 0 → Good img k2 b →
          Good img { k2 with schedSlab := u.1, heap := u.2 } b := by
        -- the handle that goes back is linked only if the message has failed
        rintro b (rfl | he) hg2
        · obtain ⟨hwf', hcount'⟩ := slab_freed hg2.slab (hslab.symm ▸ hall) hfreed
          refine hg2.setSlab hwf' (fun x hx hx' => (hcount' x).mpr ⟨hx', fun heq => ?_⟩) _
          exact hnew (heq ▸ hx)
        · exact absurd he h0
      exact ⟨.slab it, nofun, hr.after hgood rfl rfl rfl⟩

lemma schedRegisterKernelModule_registers {statePtr : ℕ}
    (hn : n < img.numStatic) (hnew : ¬ Linked bins (.other n))
    (hrun : schedRegisterKernelModule img k n hdr statePtr env = some (k', c)) :
    Chooses img env bins k (.other n) hdr 0 k' c ∧ ∃ bins', Good img k' bins' := by
  unfold schedRegisterKernelModule at hrun
  split at hrun
  · cases hrun
    exact ⟨.inl (refused hg (fun _ _ => ⟨rfl, rfl⟩) (by decide)), bins, hg⟩
  · split at hrun
    · cases hrun
      exact ⟨.inl (refused hg (fun _ _ => ⟨rfl, rfl⟩) (by decide)), bins, hg⟩
    next hmax =>
      have hc : choosePid img k hdr 0 = (k, .ok (img.header hdr).modId) := by
        rw [choosePid, if_neg (by decide), if_neg hmax]
      set hd : Handle := ⟨none, hdr, (img.header hdr).modId, sosKerStaticModule, statePtr⟩
      have hself : (setHandle k (.other n) hd).handles (.other n) = hd := Function.update_self ..
      obtain ⟨hr, hgood, -⟩ := schedRegisterModule_registers (hg.setHandle hnew hd) hnew
        ⟨hn, by rw [hself]⟩ hrun
      rw [hself] at hr
      exact ⟨.inr ⟨_, congrArg Prod.snd hc, choosePid_ne_runtime hc,
        hr.before (keptLinked_setHandle hnew hd)⟩, hgood⟩

end

lemma Chooses.exists_pid (hr : Chooses img env bins k m hdr 0 k' (-eexist)) :
    ∃ q, Linked bins q ∧ (k.handles q).pid = (img.header hdr).modId := by
  rcases hr with hr | ⟨pid, hc, -, hr⟩
  · exact (hr _).exists_pid rfl
  · rw [← choosePid_header hc]
    rcases hr with hr | ⟨k2, k3, -, ⟨h0, -⟩ | ⟨h12, -⟩⟩
    · exact hr.exists_pid rfl
    · exact absurd h0 (by decide)
    · exact absurd h12 (by decide)

lemma Chooses.good (hr : Chooses img env bins k m hdr flag k' c) (hmsg : env.msgHeader = true) :
    ∃ bins', Good img k' bins' := by
  rcases hr with hr | ⟨pid, -, -, hr | ⟨k2, k3, -, ⟨-, hgood⟩ | ⟨-, hno⟩⟩⟩
  · exact ⟨bins, (hr 0).good⟩
  · exact ⟨bins, hr.good⟩
  · exact hgood
  · rw [hmsg] at hno
    cases hno

def afterFinal (img : Image) (k : Kernel) (pids : List ℕ) (h : Ptr) : Option Kernel :=
  if (img.header (k.handles h).header).hasHandler then lookUps img pids k else some k

lemma afterFinal_spec (pids : List ℕ) (h : Ptr) (hg : Good img k bins) :
    ∃ cache, afterFinal img k pids h = some { k with cache := cache } ∧
      CacheIn { k with cache := cache } bins := by
  unfold afterFinal
  split
  · exact lookUps_spec pids hg
  · exact ⟨k.cache, rfl, hg.cacheIn⟩

lemma findPrev_eq (hg : Table img k bins)
    (hsplit : bins (hashPid pid) = l1 ++ h :: l2) (hpid : (k.handles h).pid = pid) :
    findPrev k.next (fun p => (k.handles p).pid = pid) (k.fuel img) none
      (k.modBin (hashPid pid)) = some (l1.getLast?, some h) := by
  have hb := hashPid_lt pid
  have hchain := hg.chain _ hb
  have hlen := hg.length_le hb
  have huniq := hg.unique _ hb
  rw [hsplit] at hchain hlen huniq
  have hno : ∀ q ∈ l1, decide ((k.handles q).pid = pid) = false := by
    intro q hq
    apply decide_eq_false
    intro heq
    rw [map_append, nodup_append] at huniq
    exact huniq.2.2 _ (mem_map_of_mem hq) _ (mem_map_of_mem mem_cons_self)
      (heq.trans hpid.symm)
  have hfuel : l1.length < k.fuel img := by
    rw [length_append, length_cons] at hlen
    omega
  rw [findPrev_spec hchain hno (decide_eq_true hpid) hfuel, or_none]

lemma freeHandle_good (hg : Good img k bins) (hnew : ¬ Linked bins h)
    (hlive : LiveHandle img k h) (hrun : freeHandle k h = some k') :
    Good img k' bins ∧ k'.handles = k.handles ∧ k'.cbInRam = k.cbInRam := by
  unfold freeHandle at hrun
  split at hrun
  next hflag =>
    cases h with
    | other n =>
      rw [hlive.2] at hflag
      exact absurd hflag (by decide)
    | slab it =>
      obtain ⟨u, hu, rfl⟩ := map_eq_some_iff.mp hrun
      obtain ⟨hwf, hcount⟩ := slab_freed hg.slab hlive.1 hu
      refine ⟨hg.setSlab hwf (fun x hx hx' => (hcount x).mpr ⟨hx', fun he => ?_⟩) _, rfl, rfl⟩
      exact hnew (he ▸ hx)
  · cases hrun
    exact ⟨hg, rfl, rfl⟩

lemma unlinkHandle_slab {prev : Option Ptr} :
    (unlinkHandle k b prev h).schedSlab = k.schedSlab := by
  cases prev <;> rfl

lemma releasePid_same (pid : ℕ) : SameTable k (releasePid k pid) := by
  unfold releasePid
  split <;> exact ⟨rfl, rfl, rfl, rfl, rfl⟩

/-- A removal unlinks the handle first and then, from `k2` to `k3`, the functions it provides. -/
structure Removed (img : Image) (bins : ℕ → List Ptr) (k : Kernel) (h : Ptr) (k2 k3 k' : Kernel)
    (bins' : ℕ → List Ptr) : Prop where
  good : Good img k' bins'
  linked : ∀ q, Linked bins q ↔ q = h ∨ Linked bins' q
  gone : ¬ Linked bins' h
  unlinked : Good img k2 bins'
  unlinkedHandles : ∀ q, { k2.handles q with next := (k.handles q).next } = k.handles q
  unlinkedSlots : k2.cbInRam = k.cbInRam
  functions : fntableRemoveAll img k2 h = some k3
  handles : k'.handles = k2.handles
  slots : k'.cbInRam = k3.cbInRam

lemma cleanUp_removed (hg : Good img k bins)
    (hsplit : bins (hashPid pid) = l1 ++ h :: l2) (hcache : k.cache ≠ some h)
    (hrun : cleanUp img k pid l1.getLast? h = some k') :
    ∃ k2 k3 bins', Removed img bins k h k2 k3 k' bins' := by
  have hb := hashPid_lt pid
  have hlinked : Linked bins h := ⟨_, hb, by simp [hsplit]⟩
  set bins' := Function.update bins (hashPid pid) (l1 ++ l2) with hbins'
  set k0 := unlinkHandle k (hashPid pid) l1.getLast? h with hk0
  have hg0 : Good img k0 bins' := hg.unlinkHandle hb hsplit hcache
  have hkept : ∀ q, Linked bins' q ↔ Linked bins q ∧ q ≠ h := fun q => hg.linked_unlink hb hsplit
  have hnew : ¬ Linked bins' h := fun hh => ((hkept h).mp hh).2 rfl
  have hiff : ∀ q, Linked bins q ↔ q = h ∨ Linked bins' q := by
    intro q
    rw [hkept]
    by_cases hq : q = h
    · simp [hq, hlinked]
    · simp [hq]
  have hlive0 : LiveHandle img k0 h := by
    obtain ⟨d, hd, hmem⟩ := hlinked
    have hlive := hg.live d hd h hmem
    have hflag : (k0.handles h).flag = (k.handles h).flag := (unlinkHandle_fields h).2
    have hslab : k0.schedSlab = k.schedSlab := unlinkHandle_slab
    cases h <;> simpa only [LiveHandle, hflag, hslab] using hlive
  obtain ⟨k2, htimers, hrest⟩ := bind_eq_some_iff.mp hrun
  obtain ⟨k3, hfn, hrest⟩ := bind_eq_some_iff.mp hrest
  obtain ⟨k4, hfree, heq⟩ := map_eq_some_iff.mp hrest
  have hsame : SameTable k0 (monitorRemoveAll k2 pid) := by
    have h1 := (releasePid_same (k.handles h).pid).trans (removeTimers_same htimers)
    exact ⟨h1.handles, h1.modBin, h1.schedSlab, h1.cache, h1.cbInRam⟩
  have hg2 := hg0.same hsame
  obtain ⟨k3', hfn', hl⟩ := fntableRemoveAll_links h hg2
  rw [hfn] at hfn'
  cases hfn'
  have hh : k3.handles = k0.handles := hl.handles.trans hsame.handles
  have hlive3 : LiveHandle img k3 h := by
    have hs : k3.schedSlab = k0.schedSlab := hl.schedSlab.trans hsame.schedSlab
    cases h <;> simpa only [LiveHandle, hh, hs] using hlive0
  obtain ⟨hg4, hh4, hcb4⟩ := freeHandle_good (hl.good hg2) hnew hlive3 hfree
  subst heq
  refine ⟨monitorRemoveAll k2 pid, k3, bins', hg4.same ⟨rfl, rfl, rfl, rfl, rfl⟩, hiff, hnew, hg2,
    fun q => ?_, ?_, hfn, hh4.trans hl.handles, hcb4⟩
  · rw [hsame.handles]
    exact unlinkHandle_handles k _ _ h q
  · rw [hsame.cbInRam, hk0]
    cases l1.getLast? <;> rfl

/-- The handle to be removed is not in the lookup cache once its handler has returned. -/
def CacheClear (img : Image) (k : Kernel) (pid : ℕ) (pids : List ℕ) : Prop :=
  (searchBin img k pid).elim True (fun r => r.elim True (fun h =>
    (afterFinal img k pids h).elim True (fun k1 => k1.cache ≠ some h)))
  deriving Decidable

section

variable {pids : List ℕ} (hg : Good img k bins) (hclear : CacheClear img k pid pids)
  (hrun : kerDeregisterModule img (lookUps img pids) k pid = some (k', c))
include hg hclear hrun

lemma kerDeregisterModule_cases :
    (k' = k ∧ c ≠ 0) ∨ ∃ h l1 l2 cache, bins (hashPid pid) = l1 ++ h :: l2 ∧
      (k.handles h).pid = pid ∧ Good img { k with cache := cache } bins ∧ cache ≠ some h ∧
      cleanUp img { k with cache := cache } pid l1.getLast? h = some k' := by
  have hb := hashPid_lt pid
  unfold kerDeregisterModule at hrun
  cases hf : (bins (hashPid pid)).find? (fun p => (k.handles p).pid = pid) with
  | none =>
    have hno : ∀ q ∈ bins (hashPid pid), decide ((k.handles q).pid = pid) = false := by
      intro q hq
      simpa using find?_eq_none.mp hf q hq
    obtain ⟨q, hq⟩ : ∃ q, findPrev k.next (fun p => (k.handles p).pid = pid) (k.fuel img) none
        (k.modBin (hashPid pid)) = some (q, none) :=
      findPrev_none (hg.chain _ hb) hno (hg.length_le hb)
    rw [hq] at hrun
    cases hrun
    exact .inl ⟨rfl, by decide⟩
  | some h =>
    obtain ⟨-, hpid⟩ := hg.find_eq_some.mp hf
    obtain ⟨l1, l2, hsplit⟩ := append_of_mem (mem_of_find?_eq_some hf)
    rw [findPrev_eq hg.toTable hsplit hpid, bind_some] at hrun
    obtain ⟨cache, hfinal, hc⟩ := afterFinal_spec pids h hg
    obtain ⟨k2, hrun1, hrest⟩ := bind_eq_some_iff.mp hrun
    have hk2 : k2 = { k with cache := cache } := some.inj (hrun1.symm.trans hfinal)
    subst hk2
    obtain ⟨k3, hclean, heq⟩ := map_eq_some_iff.mp hrest
    cases heq
    have hcache : cache ≠ some h := by
      rw [CacheClear, hg.searchBin_eq, hf] at hclear
      simpa [hfinal] using hclear
    have hl : Links bins k { k with cache := cache } := ⟨rfl, hc⟩
    exact .inr ⟨h, l1, l2, cache, hsplit, hpid, hl.good hg, hcache, hclean⟩

lemma kerDeregisterModule_good :
    ∃ bins', Good img k' bins' ∧ (c = 0 → ∀ q, Linked bins' q → (k'.handles q).pid ≠ pid) := by
  rcases kerDeregisterModule_cases hg hclear hrun with
    ⟨rfl, hc⟩ | ⟨h, l1, l2, cache, hsplit, hpid, hg1, hcache, hclean⟩
  · exact ⟨bins, hg, fun h0 => absurd h0 hc⟩
  · obtain ⟨k2, k3, bins', hr⟩ := cleanUp_removed hg1 hsplit hcache hclean
    refine ⟨bins', hr.good, fun _ q hq heq => ?_⟩
    have hpidq : (k.handles q).pid = pid := by
      rw [← heq, hr.handles]
      exact (congrArg Handle.pid (hr.unlinkedHandles q)).symm
    have hqh := hg.pid_inj ((hr.linked q).mpr (.inr hq)) ((hr.linked h).mpr (.inl rfl))
      (hpidq.trans hpid.symm)
    exact hr.gone (hqh ▸ hq)

end

inductive Call where
  | register (hdr : ℕ) (env : AllocEnv)
  | spawn (hdr init : ℕ) (env : AllocEnv) (flag : ℕ)
  | registerKernel (n hdr statePtr : ℕ) (env : AllocEnv)
  | deregister (pid : ℕ) (lookups : List ℕ)
  | get (pid : ℕ)

def step (img : Image) (k : Kernel) : Call → Option Kernel
  | .register hdr env => (kerRegisterModule img k hdr env).map Prod.fst
  | .spawn hdr init env flag => (kerSpawnModule img k hdr init env flag).map Prod.fst
  | .registerKernel n hdr statePtr env =>
    (schedRegisterKernelModule img k n hdr statePtr env).map Prod.fst
  | .deregister pid lookups => (kerDeregisterModule img (lookUps img lookups) k pid).map Prod.fst
  | .get pid => (kerGetModule img k pid).map Prod.fst

def FreshPool (k : Kernel) (env : AllocEnv) : Prop :=
  env.handlePool ∉ poolAddrs k.schedSlab.pools
  deriving Decidable

def FreshStatic (img : Image) (k : Kernel) (n : ℕ) : Prop :=
  n < img.numStatic ∧ (allModules img k).elim True (fun l => Ptr.other n ∉ l)
  deriving Decidable

def Legal (img : Image) (k : Kernel) : Call → Prop
  | .register _ env => FreshPool k env ∧ env.msgHeader = true
  | .spawn _ _ env _ => FreshPool k env ∧ env.msgHeader = true
  | .registerKernel n _ _ _ => FreshStatic img k n
  | .deregister pid lookups => CacheClear img k pid lookups
  | .get _ => True

instance (img : Image) (k : Kernel) (e : Call) : Decidable (Legal img k e) := by
  cases e <;> (dsimp only [Legal]; infer_instance)

lemma FreshStatic.not_linked (hf : FreshStatic img k n) (hg : Good img k bins) :
    ¬ Linked bins (.other n) := by
  obtain ⟨mods, hall, hmem⟩ := hg.mem_allModules
  have hno := hf.2
  rwa [hall, elim_some, hmem] at hno

def Inv (img : Image) (k : Kernel) : Prop := ∃ bins, Good img k bins

lemma step_preserves_invariant (k : Kernel) (e : Call) (k' : Kernel) (hinv : Inv img k)
    (hlegal : Legal img k e) (hrun : step img k e = some k') : Inv img k' := by
  obtain ⟨bins, hg⟩ := hinv
  cases e with
  | register hdr env | spawn hdr init env flag =>
    obtain ⟨r, hcall, rfl⟩ := map_eq_some_iff.mp hrun
    simp only [kerRegisterModule, kerSpawnModule] at hcall
    split at hcall
    · cases hcall
      exact ⟨bins, hg⟩
    · obtain ⟨u, hreg, rfl⟩ := map_eq_some_iff.mp hcall
      exact (registerModule_registers hg hlegal.1 hreg).elim (fun _ hr => hr.2.good hlegal.2)
  | registerKernel n hdr statePtr env =>
    obtain ⟨r, hcall, rfl⟩ := map_eq_some_iff.mp hrun
    exact (schedRegisterKernelModule_registers hg hlegal.1 (hlegal.not_linked hg) hcall).2
  | deregister pid lookups =>
    obtain ⟨r, hcall, rfl⟩ := map_eq_some_iff.mp hrun
    obtain ⟨bins', hg', -⟩ := kerDeregisterModule_good hg hlegal hcall
    exact ⟨bins', hg'⟩
  | get pid =>
    obtain ⟨k1, hget, hl⟩ := kerGetModule_links hg pid
    rw [step, hget] at hrun
    cases hrun
    exact ⟨bins, hl.good hg⟩

def PidLinked (k : Kernel) (pid : ℕ) : Prop :=
  ∃ b < schedNumberBins, ∃ p, InBin k b p ∧ (k.handles p).pid = pid

structure TableCorrect (img : Image) (k : Kernel) : Prop where
  /-- `ker_get_module` returns the handle that the bin of the pid links, or `NULL`. -/
  lookup : ∀ pid, ∃ k' r, kerGetModule img k pid = some (k', r) ∧
    ∀ p, r = some p ↔ InBin k (hashPid pid) p ∧ (k.handles p).pid = pid
  removed : ∀ pid lookups k', Legal img k (.deregister pid lookups) →
    kerDeregisterModule img (lookUps img lookups) k pid = some (k', 0) →
    ∃ k'', kerGetModule img k' pid = some (k'', none)
  registers : ∀ hdr env k', FreshPool k env → ¬ PidLinked k (img.header hdr).modId →
    kerRegisterModule img k hdr env ≠ some (k', -eexist)
  registersKernel : ∀ n hdr statePtr env k', FreshStatic img k n →
    ¬ PidLinked k (img.header hdr).modId →
    schedRegisterKernelModule img k n hdr statePtr env ≠ some (k', -eexist)

lemma pidLinked_of_linked (hg : Good img k bins) {q : Ptr} (hq : Linked bins q)
    (hpid : (k.handles q).pid = pid) : PidLinked k pid := by
  obtain ⟨b, hb, hmem⟩ := hq
  exact ⟨b, hb, q, (inBin_iff hg hb).mpr hmem, hpid⟩

lemma tableCorrect_of_inv (hinv : Inv img k) : TableCorrect img k := by
  obtain ⟨bins, hg⟩ := hinv
  constructor
  · intro pid
    obtain ⟨k1, hget, -⟩ := kerGetModule_links hg pid
    refine ⟨k1, _, hget, fun p => ?_⟩
    rw [hg.find_eq_some, inBin_iff hg (hashPid_lt pid)]
    constructor
    · rintro ⟨⟨b, hb, hp⟩, hpid⟩
      have hbin : b = hashPid pid := by rw [← hg.hashed b hb p hp, hpid]
      exact ⟨hbin ▸ hp, hpid⟩
    · rintro ⟨hp, hpid⟩
      exact ⟨⟨_, hashPid_lt pid, hp⟩, hpid⟩
  · intro pid lookups k' hlegal hrun
    obtain ⟨bins', hg', hgone⟩ := kerDeregisterModule_good hg hlegal hrun
    obtain ⟨k1, hget, -⟩ := kerGetModule_links hg' pid
    have hnone : (bins' (hashPid pid)).find? (fun p => (k'.handles p).pid = pid) = none := by
      apply find?_eq_none.mpr
      intro q hq
      simpa using hgone rfl q ⟨_, hashPid_lt pid, hq⟩
    rw [hnone] at hget
    exact ⟨k1, hget⟩
  · intro hdr env k' hfresh hno hrun
    unfold kerRegisterModule at hrun
    split at hrun
    · simp [einval, eexist] at hrun
    · obtain ⟨⟨u, c, r⟩, hreg, heq⟩ := map_eq_some_iff.mp hrun
      cases heq
      obtain ⟨m, -, hr⟩ := registerModule_registers hg hfresh hreg
      obtain ⟨q, hq, hpid⟩ := hr.exists_pid
      exact hno (pidLinked_of_linked hg hq hpid)
  · intro n hdr statePtr env k' hfresh hno hrun
    obtain ⟨hr, -⟩ := schedRegisterKernelModule_registers hg hfresh.1 (hfresh.not_linked hg) hrun
    obtain ⟨q, hq, hpid⟩ := hr.exists_pid
    exact hno (pidLinked_of_linked hg hq hpid)

/-- The state in which `sched_init` leaves the table: empty bins, no module looked up. -/
structure Booted (k : Kernel) : Prop where
  bins : ∀ b < schedNumberBins, k.modBin b = none
  cache : k.cache = none
  slab : WellFormed k.schedSlab

lemma inv_of_booted (hboot : Booted k) : Inv img k := by
  refine ⟨fun _ => [], ⟨hboot.bins, ?_, ?_, ?_, hboot.slab⟩, ?_⟩
  · intro b _ p hp
    cases hp
  · intro b _
    exact nodup_nil
  · intro b _ p hp
    cases hp
  · intro c hc
    rw [hboot.cache] at hc
    cases hc

/-- In every run without the removal of the cached handle and without a failed `MSG_INIT`
message, the module table is correct wherever the run gets. -/
theorem module_table_over_runs (hboot : Booted k) {calls : List Call}
    (hvalid : ValidTrace (step img) (Legal img) k calls)
    (hrun : runTrace (step img) k calls = some k') : TableCorrect img k' :=
  tableCorrect_of_inv
    (run_invariant_of_some step_preserves_invariant (inv_of_booted hboot) hvalid hrun)

def sampleImage : Image where
  header h := ⟨0, 127 + h, 0, 0, 0, true⟩
  funcCb _ := ⟨(0, 0, 0, 0), runtimePid, 0⟩
  addrUnit := 1
  offsetofFunct := 16
  sizeofFuncCb := 8
  maxPreAllocatedTimers := 10
  numStatic := 2
  unit_pos := by decide
  unit_dvd_funct := by decide
  unit_dvd_cb := by decide

def sampleKernel : Kernel where
  heap := []
  handles _ := ⟨none, 0, 0, 0, 0⟩
  modBin _ := none
  cache := none
  schedSlab := ⟨[⟨100, replicate 4 false⟩], 4⟩
  pidPool := replicate schedNumThreadPids false
  timers := ⟨[], [], [], [], ⟨[⟨200, replicate 4 false⟩], 4⟩⟩
  shm := ⟨fun _ => [], ⟨[⟨300, replicate 4 false⟩], 4⟩⟩
  monitors := []
  cbInRam _ _ := 0
  posts := []

def sampleEnv : AllocEnv := ⟨400, 0, fun _ => 0, true⟩

lemma sampleKernel_booted : Booted sampleKernel := by
  refine ⟨fun _ _ => rfl, rfl, ?_⟩
  constructor <;> simp [sampleKernel, poolAddrs, Busy]

def sampleCalls : List Call :=
  [.registerKernel 0 1 0 sampleEnv, .register 2 sampleEnv, .spawn 3 0 sampleEnv sosCreateThread,
    .get 129, .deregister 224 [128], .register 3 sampleEnv, .get 130, .deregister 129 [130]]

theorem module_table_sample :
    ValidTrace (step sampleImage) (Legal sampleImage) sampleKernel sampleCalls ∧
    ∃ k', runTrace (step sampleImage) sampleKernel sampleCalls = some k' ∧
      TableCorrect sampleImage k' := by
  have hvalid : ValidTrace (step sampleImage) (Legal sampleImage) sampleKernel sampleCalls := by
    decide +kernel
  obtain ⟨k', hrun⟩ : ∃ k', runTrace (step sampleImage) sampleKernel sampleCalls = some k' :=
    isSome_iff_exists.mp (by decide +kernel)
  exact ⟨hvalid, k', hrun, module_table_over_runs sampleKernel_booted hvalid hrun⟩

/-- A module is looked up and removed: `ker_get_module` still returns its freed handle. -/
theorem stale_cache_after_removal :
    ∃ k', runTrace (step sampleImage) sampleKernel
        [.register 2 sampleEnv, .get 129, .deregister 129 []] = some k' ∧
      ¬ TableCorrect sampleImage k' := by
  refine ⟨_, rfl, fun hcorrect => ?_⟩
  obtain ⟨k₁, r, hget, hiff⟩ := hcorrect.lookup 129
  have hr : r = some (.slab ⟨100, 0⟩) := (congrArg Prod.snd (some.inj hget)).symm
  obtain ⟨⟨l, hl, hmem⟩, -⟩ := (hiff _).mp hr
  cases l with
  | nil => cases hmem
  | cons a l => cases hl.1

end ModuleRuns
