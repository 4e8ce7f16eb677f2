import SosKernel.MessageLifecycle
import SosKernel.MessageNet
import Mathlib.Algebra.Order.BigOperators.Group.List

/-! # What `sos_msg_dispatch` does with a message

The message is queued for this node, disposed of, passed on to the senddone path, or handed to the
selected links: itself to the first, and a copy to each of the others. -/
namespace NetworkDispatch

open HeapBlocks SlabPools HeapLayout MessagePosting MessageLifecycle MessageNet List Option Function
open MessageQueue hiding State Event step Legal

variable {c : Config} {a : Answers} {s s' : Net} {st : Store} {m it : Item} {L : Multiset Item}
  {rest : Heap} {l : Link} {hdr : Message Data} {flag : ℕ} {k k' : Copies} {sel : List Link}
  {gets : Link → Item} {ls : List Link} {copy : Message Data} {addr : ℕ} {h : Heap}

lemma and_two_pow_ne_zero (n i : ℕ) : decide (n &&& 2 ^ i ≠ 0) = n.testBit i := by
  rw [Nat.and_two_pow]
  cases n.testBit i <;> simp

def Link.bit : Link → ℕ
  | .radio => 9
  | .i2c => 10
  | .uart => 11
  | .spi => 12

lemma flagMsgFrom_eq (l : Link) (flag : ℕ) : flagMsgFrom l flag = flag.testBit (Link.bit l) := by
  cases l with
  | radio => exact and_two_pow_ne_zero flag 9
  | i2c => exact and_two_pow_ne_zero flag 10
  | uart => exact and_two_pow_ne_zero flag 11
  | spi => exact and_two_pow_ne_zero flag 12

lemma flagMsgRelease_eq (flag : ℕ) : flagMsgRelease flag = flag.testBit 2 :=
  and_two_pow_ne_zero flag 2

lemma allLinkIo_eq_zero_iff (flag : ℕ) :
    flag &&& sosMsgAllLinkIo = 0 ↔ ∀ l, flagMsgFrom l flag = false := by
  have hall : sosMsgAllLinkIo = sosMsgRadioIo ||| sosMsgI2cIo ||| sosMsgUartIo ||| sosMsgSpiIo := by
    decide
  rw [hall, Nat.and_or_distrib_left, Nat.and_or_distrib_left, Nat.and_or_distrib_left,
    Nat.or_eq_zero_iff, Nat.or_eq_zero_iff, Nat.or_eq_zero_iff]
  simp only [flagMsgFrom, decide_eq_false_iff_not, not_not]
  constructor
  · rintro ⟨⟨⟨h1, h2⟩, h3⟩, h4⟩ l
    cases l with
    | radio => exact h1
    | i2c => exact h2
    | uart => exact h3
    | spi => exact h4
  · exact fun h => ⟨⟨⟨h .radio, h .i2c⟩, h .uart⟩, h .spi⟩

lemma rightFlags_bits (u w : Bool) (flag : ℕ) {i : ℕ} (hi : i < 16) :
    (rightFlags u w flag).testBit i =
      if i = 9 then !(u || w) else if i = 10 then w else if i = 11 then u else flag.testBit i := by
  -- with the flag's own bit as a variable, each of the four cases is a finite check
  have hmasks : ∀ u w b : Bool, ∀ i < 16,
      (let b := if u then b || Nat.testBit 0x800 i else b && Nat.testBit 0xF7FF i
       let b := if w then b || Nat.testBit 0x400 i else b && Nat.testBit 0xFBFF i
       if u || w then b && Nat.testBit 0xFDFF i else b || Nat.testBit 0x200 i) =
      if i = 9 then !(u || w) else if i = 10 then w else if i = 11 then u else b := by
    decide
  rw [← hmasks u w _ i hi]
  cases u <;> cases w <;>
    simp [rightFlags, sosMsgUartIo, sosMsgI2cIo, sosMsgRadioIo, Nat.testBit_and, Nat.testBit_or]

lemma rightFlags_idem (u w : Bool) (flag : ℕ) :
    rightFlags u w (rightFlags u w flag) = rightFlags u w flag := by
  refine Nat.eq_of_testBit_eq (fun i => ?_)
  cases u <;> cases w <;>
    simp only [rightFlags, Bool.or_true, Bool.or_false, if_true, Bool.false_eq_true, if_false,
      Nat.testBit_and, Nat.testBit_or] <;> grind

/-- `it` is a new header with the fields of `m` and a block `d` of its own, to which the data is
copied; nothing else changes. -/
structure Duplicated (s s' : Net) (m it : Item) (d : ℕ) (L : Multiset Item) : Prop where
  fresh : it ∉ L
  owned : ∃ rest, Owned s'.store (it ::ₘ L) rest
  header : s'.store.msgs it = { s.store.msgs m with
    data := .mem d, flag := (s.store.msgs m).flag ||| sosMsgRelease }
  block : d ∉ addrs s.store.heap
  null : d = 0 → (s.store.msgs m).len = 0
  bytes : ∀ i < (s.store.msgs m).len,
    s'.mem (.mem d) i = s.mem (Data.place m (s.store.msgs m).data) i
  msgs : ∀ j ∈ L, s'.store.msgs j = s.store.msgs j
  mem : ∀ p i, p ≠ .payload it → p ≠ .mem d ∨ d = 0 → s'.mem p i = s.mem p i
  heap : ∀ b ∈ addrs s.store.heap, b ∈ addrs s'.store.heap
  q : s'.q = s.q
  uses : s'.uses = s.uses

structure Refused (s s' : Net) (L : Multiset Item) : Prop where
  owned : ∃ rest, Owned s'.store L rest
  msgs : ∀ j ∈ L, s'.store.msgs j = s.store.msgs j
  q : s'.q = s.q
  uses : ∃ gone : List Item, (∀ j ∈ gone, j ∉ L) ∧ s'.uses = s.uses ++ gone.map .disposed

lemma carried_copy (hdr : Message Data) (d : ℕ) :
    carried { hdr with data := .mem d, flag := hdr.flag ||| sosMsgRelease } =
      (Data.mem d).block := by
  have hrel : flagMsgRelease (hdr.flag ||| sosMsgRelease) = true := by
    rw [flagMsgRelease_eq, Nat.testBit_or]
    exact Bool.or_true _
  rw [carried, if_pos hrel]

lemma copyTo_duplicated {d : ℕ} (ho : Owned s.store (it ::ₘ L) rest)
    (hnone : carried (s.store.msgs it) = []) (hd : d ∉ addrs s.store.heap)
    (hnull : d = 0 → (s.store.msgs m).len = 0) : Duplicated s (copyTo s m it d) m it d L := by
  obtain ⟨hit, -⟩ := Multiset.nodup_cons.mp ho.once
  have hmem := ho.malloc hd kerSchedPid
  have hcarried := carried_copy (s.store.msgs m) d
  have hheld : ((s.store.held ++ (Data.mem d).block : List ℕ) : Multiset ℕ) =
      (carried { s.store.msgs m with
        data := .mem d, flag := (s.store.msgs m).flag ||| sosMsgRelease } : Multiset ℕ) +
        s.store.held := by
    rw [hcarried, ← Multiset.coe_add, add_comm]
  refine ⟨hit, ⟨_, hmem.load hnone hheld⟩, update_self .., hd, hnull, fun i hi => ?_,
    fun j hj => update_of_ne (ne_of_mem_of_not_mem hj hit) _ _, fun p i hp hpd => ?_,
    fun b hb => mem_addrs_kerMalloc hb _ _, rfl, rfl⟩
  · simp [copyTo, hi]
  · have hnot : ¬ (p = .mem d ∧ i < (s.store.msgs m).len) := by
      rintro ⟨hpm, hi⟩
      rcases hpd with hne | hz
      · exact hne hpm
      · omega
    simp only [copyTo, if_neg hp, if_neg hnot]

lemma msgDuplicate_spec {pool block : Heap → ℕ} (ho : Owned s.store L rest) (hm : m ∈ L)
    (hpool : ∀ h, 0 ∉ addrs h → pool h ∉ addrs h) (hblock : ∀ h, 0 ∉ addrs h → block h ∉ addrs h) :
    (∃ s', msgDuplicate s m pool block = some (s', none) ∧ Refused s s' L) ∨
    ∃ s' it h, msgDuplicate s m pool block = some (s', some it) ∧
      Duplicated s s' m it (block h) L := by
  rcases msgCreate_owned ho (hpool _ ho.not_null) with hcreate |
    ⟨st, it, hcreate, hit, ho', hnone, hsame, hheap⟩
  · refine .inl ⟨s, ?_, ⟨rest, ho⟩, fun _ _ => rfl, rfl, [], by simp, by simp⟩
    simp only [msgDuplicate, hcreate]
  · have hmsgs : ∀ j ∈ L, st.msgs j = s.store.msgs j :=
      fun j hj => hsame j (ne_of_mem_of_not_mem hj hit)
    by_cases hnull : block st.heap = 0 ∧ (st.msgs m).len ≠ 0
    · obtain ⟨st', rest', hrun, ho'', hmsgs', -⟩ := ho'.dispose
      refine .inl ⟨({ s with store := st' } : Net).use (.disposed it), ?_, ⟨rest', ho''⟩,
        fun j hj => (congrFun hmsgs' j).trans (hmsgs j hj), rfl, [it], by simpa using hit, rfl⟩
      simp [msgDuplicate, hcreate, if_pos hnull, Net.dispose, hrun, Net.use]
    · have hdup := @copyTo_duplicated { s with store := st } m it L rest (block st.heap) ho' hnone
        (hblock _ ho'.not_null) (fun hz => by_contra (fun hlen => hnull ⟨hz, hlen⟩))
      refine .inr ⟨copyTo { s with store := st } m it (block st.heap), it, st.heap, ?_, ?_⟩
      · rw [msgDuplicate, hcreate]
        exact if_neg hnull
      · obtain ⟨hfresh, howned, hheader, hblk, hz, hbytes, hmsgs', hmem, hheap', hq, huses⟩ := hdup
        simp only [hmsgs m hm] at hheader hz hbytes
        exact ⟨hfresh, howned, hheader, fun hb => hblk (hheap _ hb), hz, hbytes,
          fun j hj => (hmsgs' j hj).trans (hmsgs j hj), hmem, fun b hb => hheap' b (hheap b hb), hq,
          huses⟩

structure Fresh (a : Answers) (data : Data) : Prop where
  pool : ∀ l h, 0 ∉ addrs h → a.pool l h ∉ addrs h
  block : ∀ l h, 0 ∉ addrs h → a.block l h ∉ addrs h
  apart : ∀ l h, a.block l h ≠ 0 → data ≠ .mem (a.block l h)
  senddone : ∀ h, 0 ∉ addrs h → a.senddonePool h ∉ addrs h

/-- The header `copy` has the fields of `m` without `SOS_MSG_RELIABLE`, and its bytes in a block
that was not there before. -/
structure DeepCopy (s : Net) (m : Item) (mem : Place → ℕ → UInt8) (copy : Message Data) :
    Prop where
  header : copy = { s.store.msgs m with
    data := copy.data, flag := ((s.store.msgs m).flag ||| sosMsgRelease) &&& 0xFFF7 }
  data : ∃ d, copy.data = .mem d ∧ d ∉ addrs s.store.heap ∧
    (d = 0 → (s.store.msgs m).len = 0) ∧
    ∀ i < (s.store.msgs m).len,
      mem (.mem d) i = s.mem (Data.place m (s.store.msgs m).data) i

/-- The links `sel` have been asked, and `gets` says which header each of them will get. -/
structure Prepared (s : Net) (m : Item) (L : Multiset Item) (k : Copies) (sel : List Link)
    (gets : Link → Item) : Prop where
  mcopy : ∀ l, k.mcopy l = if l ∈ sel then some (gets l) else none
  count : k.msgCount = sel.length
  first : ∀ l ∈ sel.head?, gets l = m
  copies : ∀ l ∈ sel.tail, DeepCopy s m k.net.mem (k.net.store.msgs (gets l))
  owned : ∃ rest, Owned k.net.store (m ::ₘ ((sel.tail.map gets : Multiset Item) + L)) rest
  msgs : ∀ j ∈ m ::ₘ L, k.net.store.msgs j = s.store.msgs j
  data : ∀ i, k.net.mem (Data.place m (s.store.msgs m).data) i =
    s.mem (Data.place m (s.store.msgs m).data) i
  heap : ∀ b ∈ addrs s.store.heap, b ∈ addrs k.net.store.heap
  q : k.net.q = s.q
  uses : k.net.uses = s.uses

lemma Prepared.add_first (h : Prepared s m L k [] gets) (l : Link) :
    Prepared s m L (k.add l m) [l] (fun _ => m) := by
  refine ⟨fun l' => ?_, by simp [Copies.add, h.count], by simp, by simp, h.owned, h.msgs, h.data,
    h.heap, h.q, h.uses⟩
  have hnone := h.mcopy l'
  by_cases heq : l' = l
  · simp [Copies.add, heq]
  · simpa [Copies.add, heq] using hnone

lemma DeepCopy.keep {n : Item} {d : ℕ} {K : Multiset Item}
    (h : DeepCopy s m k.net.mem copy) (hdup : Duplicated k.net s' m n d K)
    (hblock : ∀ b ∈ copy.data.block, b ∈ addrs k.net.store.heap) : DeepCopy s m s'.mem copy := by
  obtain ⟨e, he, hnew, hnull, hbytes⟩ := h.data
  refine ⟨h.header, e, he, hnew, hnull, fun i hi => ?_⟩
  rw [← hbytes i hi]
  refine hdup.mem _ i (by simp) ?_
  by_cases hd : d = 0
  · exact .inr hd
  · refine .inl (fun heq => hdup.block ?_)
    cases heq
    exact hblock d (by simp [he, Data.block, hd])

lemma carried_eq_of_release (h : flagMsgRelease hdr.flag = flagMsgRelease flag) :
    carried { hdr with flag := flag } = carried hdr := by
  rw [carried, carried, h]

lemma release_copyFlag (flag : ℕ) :
    flagMsgRelease ((flag ||| sosMsgRelease) &&& 0xFFF7) =
      flagMsgRelease (flag ||| sosMsgRelease) := by
  have hbit : Nat.testBit 0xFFF7 2 = true := by decide
  rw [flagMsgRelease_eq, flagMsgRelease_eq, Nat.testBit_and, hbit, Bool.and_true]

lemma DeepCopy.block_mem {K : Multiset Item} {n : Item}
    (h : DeepCopy s m s'.mem copy) (ho : Owned s'.store K rest) (hn : n ∈ K)
    (hcopy : s'.store.msgs n = copy) : ∀ b ∈ copy.data.block, b ∈ addrs s'.store.heap := by
  have hrel : flagMsgRelease copy.flag = true := by
    rw [h.header, release_copyFlag, flagMsgRelease_eq, Nat.testBit_or]
    exact Bool.or_true _
  intro b hb
  refine ho.carried_mem hn ?_
  rw [hcopy, carried, if_pos hrel]
  exact hb

section Copy

variable {n : Item} {d : ℕ} {K : Multiset Item}

lemma Prepared.deepCopy (hp : Prepared s m L k sel gets) (hdup : Duplicated k.net s' m n d K) :
    DeepCopy s m s'.mem { s'.store.msgs n with flag := (s'.store.msgs n).flag &&& 0xFFF7 } := by
  have hm : k.net.store.msgs m = s.store.msgs m := hp.msgs m (Multiset.mem_cons_self m L)
  refine ⟨?_, d, ?_, fun hb => hdup.block (hp.heap _ hb), ?_, fun i hi => ?_⟩
  · simp [hdup.header, hm]
  · simp [hdup.header]
  · rw [← hm]
    exact hdup.null
  · rw [← hp.data, ← hm]
    exact hdup.bytes i (hm ▸ hi)

lemma Duplicated.owned_copy (hdup : Duplicated k.net s' m n d K) : ∃ rest, Owned (s'.setMsg n
      { s'.store.msgs n with flag := (s'.store.msgs n).flag &&& 0xFFF7 }).store (n ::ₘ K) rest := by
  obtain ⟨rest, ho⟩ := hdup.owned
  refine ⟨rest, ho.rewrite (fun j _ => ?_)⟩
  by_cases hj : j = n
  · subst hj
    simp only [update_self, hdup.header, carried, release_copyFlag]
  · simp only [update_of_ne hj]

lemma Duplicated.data_kept {data : Data} (hf : Fresh a data) (hm : m ∈ K)
    (hdup : Duplicated k.net s' m n (a.block l h) K) (i : ℕ) :
    s'.mem (Data.place m data) i = k.net.mem (Data.place m data) i := by
  refine hdup.mem _ i ?_ ?_
  · intro heq
    cases data <;> cases heq
    exact hdup.fresh hm
  · by_cases hz : a.block l h = 0
    · exact .inr hz
    · refine .inl (fun heq => hf.apart l h hz ?_)
      cases data <;> cases heq
      rfl

lemma map_update_append (hl : l ∉ ls) : (ls ++ [l]).map (update gets l n) = ls.map gets ++ [n] := by
  rw [map_append, map_singleton, update_self]
  congr 1
  exact map_congr_left
    (fun l' hl' => update_of_ne (ne_of_mem_of_not_mem hl' hl) _ _)

lemma Prepared.add_copy (hp : Prepared s m L k sel gets) (hsel : sel ≠ [])
    (hl : l ∉ sel) (hf : Fresh a (s.store.msgs m).data)
    (hdup : Duplicated k.net s' m n (a.block l h)
      (m ::ₘ ((sel.tail.map gets : Multiset Item) + L))) :
    Prepared s m L
      ({ k with net := s'.setMsg n { s'.store.msgs n with
        flag := (s'.store.msgs n).flag &&& 0xFFF7 } }.add l n)
      (sel ++ [l]) (update gets l n) := by
  obtain ⟨l0, ls, rfl⟩ := exists_cons_of_ne_nil hsel
  have hgets : ∀ l' ∈ l0 :: ls, update gets l n l' = gets l' :=
    fun l' hl' => update_of_ne (ne_of_mem_of_not_mem hl' hl) _ _
  have hold : ∀ j ∈ m ::ₘ ((ls.map gets : Multiset Item) + L), (s'.setMsg n
        { s'.store.msgs n with flag := (s'.store.msgs n).flag &&& 0xFFF7 }).store.msgs j =
        k.net.store.msgs j := fun j hj =>
    (update_of_ne (ne_of_mem_of_not_mem hj hdup.fresh) _ _).trans (hdup.msgs j hj)
  refine ⟨fun l' => ?_, ?_, ?_, fun l' hl' => ?_, ?_, fun j hj => ?_, fun i => ?_, ?_,
    hdup.q.trans hp.q, hdup.uses.trans hp.uses⟩
  · by_cases heq : l' = l
    · simp [Copies.add, heq]
    · simpa [Copies.add, heq, update_of_ne heq] using hp.mcopy l'
  · simp [Copies.add, hp.count]
  · intro l' hl'
    simp only [cons_append, head?_cons, mem_some_iff] at hl'
    subst hl'
    rw [hgets _ mem_cons_self]
    exact hp.first _ rfl
  · rw [cons_append, tail_cons, mem_append, mem_singleton] at hl'
    rcases hl' with hl' | rfl
    · have hmem : gets l' ∈ m ::ₘ ((ls.map gets : Multiset Item) + L) :=
        Multiset.mem_cons_of_mem (Multiset.mem_add.mpr (.inl (mem_map_of_mem hl')))
      obtain ⟨rest, ho⟩ := hp.owned
      have hcopy := hp.copies l' hl'
      rw [hgets l' (mem_cons_of_mem _ hl')]
      simp only [Copies.add, hold _ hmem]
      exact (hcopy.keep hdup (hcopy.block_mem ho hmem rfl) :)
    · simp only [Copies.add, Net.setMsg, Store.setMsg, update_self]
      exact hp.deepCopy hdup
  · have hsplit : m ::ₘ (((ls ++ [l]).map (update gets l n) : Multiset Item) + L) =
        n ::ₘ m ::ₘ ((ls.map gets : Multiset Item) + L) := by
      rw [map_update_append (not_mem_of_not_mem_cons hl), ← Multiset.coe_add,
        Multiset.coe_singleton, add_right_comm, ← Multiset.singleton_add,
        ← Multiset.singleton_add, ← Multiset.singleton_add]
      abel
    rw [cons_append, tail_cons, hsplit]
    exact hdup.owned_copy
  · have hmem : j ∈ m ::ₘ ((ls.map gets : Multiset Item) + L) :=
      Multiset.mem_of_le (Multiset.cons_le_cons m (Multiset.le_add_left L _)) hj
    exact (hold j hmem).trans (hp.msgs j hj)
  · exact (hdup.data_kept hf (Multiset.mem_cons_self m _) i).trans (hp.data i)
  · exact fun b hb => hdup.heap b (hp.heap b hb)

end Copy

structure Broken (s : Net) (m : Item) (L : Multiset Item) (k : Copies) (l : Link) (sel : List Link)
    (gets : Link → Item) : Prop where
  mcopy : ∀ l, k.mcopy l = if l ∈ sel then some (gets l) else none
  nonempty : sel ≠ []
  first : ∀ l ∈ sel.head?, gets l = m
  owned : ∃ rest, Owned k.net.store (m ::ₘ ((sel.tail.map gets : Multiset Item) + L)) rest
  q : k.net.q = s.q
  uses : ∃ gone : List Item, (∀ j ∈ gone, j ∉ m ::ₘ L) ∧
    k.net.uses = s.uses ++ gone.map .disposed ++ [.noCopy l]

lemma takeLink_spec (hp : Prepared s m L k sel gets) (hl : l ∉ sel)
    (hf : Fresh a (s.store.msgs m).data) :
    (∃ k' gets', takeLink c a m l k = some (.ok k') ∧
      Prepared s m L k' (sel ++ [l].filter (selects c · (s.store.msgs m).flag)) gets') ∨
    ∃ k', takeLink c a m l k = some (.error k') ∧ Broken s m L k' l sel gets := by
  have hflag : k.net.store.msgs m = s.store.msgs m := hp.msgs m (Multiset.mem_cons_self m L)
  cases hselects : selects c l (s.store.msgs m).flag with
  | false =>
    refine .inl ⟨k, gets, ?_, ?_⟩
    · simp [takeLink, hflag, hselects]
    · simpa [hselects] using hp
  | true =>
    rw [filter_cons_of_pos (by exact hselects), filter_nil]
    by_cases hnil : sel = []
    · subst hnil
      refine .inl ⟨_, _, ?_, hp.add_first l⟩
      simp [takeLink, hflag, hselects, hp.count]
    · have hcount : k.msgCount ≠ 0 := by
        rw [hp.count]
        exact fun hzero => hnil (length_eq_zero_iff.mp hzero)
      obtain ⟨rest, ho⟩ := hp.owned
      rcases msgDuplicate_spec ho (Multiset.mem_cons_self ..) (hf.pool l) (hf.block l) with
        ⟨s', hrun, href⟩ | ⟨s', n, h, hrun, hdup⟩
      · refine .inr ⟨_, by simp [takeLink, hflag, hselects, hcount, hrun]; rfl, ?_⟩
        obtain ⟨gone, hgone, huses⟩ := href.uses
        refine ⟨hp.mcopy, hnil, hp.first, href.owned, href.q.trans hp.q, gone, fun j hj hmem => ?_,
          ?_⟩
        · refine hgone j hj ?_
          rcases Multiset.mem_cons.mp hmem with rfl | hmem
          · exact Multiset.mem_cons_self ..
          · exact Multiset.mem_cons_of_mem (Multiset.mem_add.mpr (.inr hmem))
        · rw [← hp.uses, ← huses]
          rfl
      · refine .inl ⟨_, _, ?_, hp.add_copy hnil hl hf hdup⟩
        simp [takeLink, hflag, hselects, hcount, hrun]

lemma takeLinks_spec (hf : Fresh a (s.store.msgs m).data) (hnodup : ls.Nodup) :
    ∀ {k sel gets}, Prepared s m L k sel gets → (∀ l ∈ ls, l ∉ sel) →
      (∃ k' gets', takeLinks c a m ls k = some (.ok k') ∧
        Prepared s m L k' (sel ++ ls.filter (selects c · (s.store.msgs m).flag)) gets') ∨
      ∃ k' l sel' gets', takeLinks c a m ls k = some (.error k') ∧
        Broken s m L k' l sel' gets' := by
  induction ls with
  | nil =>
    intro k sel gets hp _
    exact .inl ⟨k, gets, rfl, by simpa using hp⟩
  | cons l ls ih =>
    intro k sel gets hp hnew
    obtain ⟨hl, hls⟩ := nodup_cons.mp hnodup
    rcases takeLink_spec hp (hnew l mem_cons_self) hf with
      ⟨k1, gets1, hrun, hp1⟩ | ⟨k1, hrun, hbroken⟩
    · have hnew1 : ∀ l' ∈ ls, l' ∉ sel ++ [l].filter (selects c · (s.store.msgs m).flag) := by
        intro l' hl' hmem
        rcases mem_append.mp hmem with hmem | hmem
        · exact hnew l' (mem_cons_of_mem _ hl') hmem
        · obtain rfl := mem_singleton.mp (mem_of_mem_filter hmem)
          exact hl hl'
      rcases ih hls hp1 hnew1 with ⟨k2, gets2, hrest, hp2⟩ | ⟨k2, l2, sel2, gets2, hrest, hbroken⟩
      · refine .inl ⟨k2, gets2, ?_, ?_⟩
        · rw [takeLinks, hrun]
          exact hrest
        · rwa [append_assoc, ← filter_append] at hp2
      · refine .inr ⟨k2, l2, sel2, gets2, ?_, hbroken⟩
        rw [takeLinks, hrun]
        exact hrest
    · refine .inr ⟨k1, l, sel, gets, ?_, hbroken⟩
      rw [takeLinks, hrun]
      rfl

structure HandedOver (c : Config) (k : Copies) (s s' : Net) (ls : List Link) : Prop where
  uses : s'.uses = s.uses ++ ls.filterMap (fun l => (k.mcopy l).map (.handed l))
  store : s'.store = { s.store with msgs := s'.store.msgs }
  handed : ∀ l ∈ ls, ∀ n, k.mcopy l = some n →
    s'.store.msgs n = msgChangeEndian c (s.store.msgs n)
  others : ∀ j, (∀ l ∈ ls, k.mcopy l ≠ some j) → s'.store.msgs j = s.store.msgs j
  mem : s'.mem = s.mem
  q : s'.q = s.q

lemma handOver_spec (hnodup : ls.Nodup)
    (hinj : ∀ l l' n, k.mcopy l = some n → k.mcopy l' = some n → l = l') :
    ∀ s, HandedOver c k s (ls.foldl (handOver c k) s) ls := by
  induction ls with
  | nil => exact fun s => ⟨by simp, rfl, by simp, fun _ _ => rfl, rfl, rfl⟩
  | cons l ls ih =>
    intro s
    obtain ⟨hl, hls⟩ := nodup_cons.mp hnodup
    rw [foldl_cons]
    have hrest := ih hls (handOver c k s l)
    cases hcopy : k.mcopy l with
    | none =>
      have hskip : handOver c k s l = s := by simp only [handOver, hcopy]
      rw [hskip] at hrest ⊢
      refine ⟨?_, hrest.store, ?_, fun j hj => ?_, hrest.mem, hrest.q⟩
      · rw [hrest.uses]
        simp [hcopy]
      · intro l' hl' n hn
        rcases mem_cons.mp hl' with rfl | hl'
        · simp [hcopy] at hn
        · exact hrest.handed l' hl' n hn
      · exact hrest.others j (fun l' hl' => hj l' (mem_cons_of_mem _ hl'))
    | some n =>
      have hgive : handOver c k s l =
          (s.setMsg n (msgChangeEndian c (s.store.msgs n))).use (.handed l n) := by
        simp only [handOver, hcopy]
      -- no later link gets the same header
      have hlater : ∀ l' ∈ ls, k.mcopy l' ≠ some n := by
        intro l' hl' hn
        exact hl (hinj l l' n hcopy hn ▸ hl')
      rw [hgive] at hrest ⊢
      refine ⟨?_, hrest.store, ?_, fun j hj => ?_, hrest.mem, hrest.q⟩
      · rw [hrest.uses, filterMap_cons_some (b := .handed l n) (by simp [hcopy])]
        simp [Net.use, Net.setMsg]
      · intro l' hl' n' hn'
        rcases mem_cons.mp hl' with rfl | hl'
        · obtain rfl : n = n' := by simpa [hcopy] using hn'
          rw [hrest.others n hlater]
          exact update_self ..
        · have hne : n' ≠ n := by
            rintro rfl
            exact hlater l' hl' hn'
          rw [hrest.handed l' hl' n' hn']
          exact congrArg _ (update_of_ne hne _ _)
      · have hne : j ≠ n := by
          rintro rfl
          exact hj l mem_cons_self hcopy
        rw [hrest.others j (fun l' hl' => hj l' (mem_cons_of_mem _ hl'))]
        exact update_of_ne hne _ _

lemma dispose_spec (ho : Owned s.store (it ::ₘ L) rest) :
    ∃ s' rest', s.dispose it = some s' ∧ Owned s'.store L rest' ∧
      s'.uses = s.uses ++ [.disposed it] ∧ s'.q = s.q := by
  obtain ⟨st', rest', hrun, ho', -⟩ := ho.dispose
  exact ⟨({ s with store := st' } : Net).use (.disposed it), rest',
    by rw [Net.dispose, hrun, map_some], ho', rfl, rfl⟩

lemma dispatchCleanup_spec :
    ∀ {s rest}, Owned s.store ((ls.filterMap k.mcopy : Multiset Item) + L) rest →
      ∃ s' rest', dispatchCleanup k ls s = some s' ∧ Owned s'.store L rest' ∧
        s'.uses = s.uses ++ (ls.filterMap k.mcopy).map .disposed ∧ s'.q = s.q := by
  induction ls with
  | nil =>
    intro s rest ho
    exact ⟨s, rest, rfl, by simpa using ho, by simp, rfl⟩
  | cons l ls ih =>
    intro s rest ho
    cases hcopy : k.mcopy l with
    | none =>
      rw [filterMap_cons_none hcopy] at ho ⊢
      obtain ⟨s', rest', hrun, hspec⟩ := ih ho
      exact ⟨s', rest', by simp only [dispatchCleanup, hcopy, hrun], hspec⟩
    | some n =>
      rw [filterMap_cons_some hcopy, ← Multiset.cons_coe, Multiset.cons_add] at ho
      obtain ⟨s1, rest1, hrun1, ho1, huses1, hq1⟩ := dispose_spec ho
      obtain ⟨s', rest', hrun, ho', huses, hq⟩ := ih ho1
      refine ⟨s', rest', ?_, ho', ?_, hq.trans hq1⟩
      · simp only [dispatchCleanup, hcopy, hrun1, bind_some, hrun]
      · rw [huses, huses1, filterMap_cons_some hcopy]
        simp

lemma releaseData_owned (ho : Owned st (it ::ₘ L) rest) :
    ∃ rest', Owned (releaseData st it) (it ::ₘ L) rest' := by
  rw [releaseData]
  split
  next hrel =>
    obtain ⟨rest', hback, hintact, hpay, hnodup⟩ := ho.afterPayload
    rw [heapAfterPayload, if_pos hrel] at hback
    obtain ⟨hit, -⟩ := Multiset.nodup_cons.mp ho.once
    generalize hhdr : ({ st.msgs it with flag := (st.msgs it).flag &&& 0xFFFB, data := .mem 0 } :
      Message Data) = hdr
    have hnone : carried hdr = [] := carried_of_block (hhdr ▸ rfl)
    have howners : owners (update st.msgs it hdr) (it ::ₘ L) st.held =
        owners st.msgs L st.held := by
      rw [owners_cons, update_self, hnone, owners, owners, bind_update hit,
        Multiset.coe_nil, Multiset.zero_add]
    refine ⟨rest', ho.slab, hback, hintact, ho.headers, ho.once, ?_, ?_, ho.notNull, fun x => ?_,
      fun b => ?_⟩
    · simp only [howners]
      exact hpay
    · simp only [howners]
      exact hnodup
    · simpa using ho.created x
    · have hbefore := ho.posted b
      simp only [Multiset.cons_bind, Multiset.count_add, update_self, hnone, bind_update hit]
      simp at hbefore ⊢
      omega
  next => exact ⟨rest, ho⟩

variable {f : MsgClass → List Item} {q : Mq Item}

lemma msgSendSenddone_returns {pool : Heap → ℕ} (ho : Owned st (m ::ₘ L) rest)
    (hq : Represents q f) (hlists : ∀ ch, ∀ j ∈ f ch, j ∈ L)
    (hpool : ∀ h, 0 ∉ addrs h → pool h ∉ addrs h) (owner : ℕ) :
    ∃ r, msgSendSenddone c st q m true owner pool = some r := by
  rw [msgSendSenddone]
  split
  next hrel =>
    obtain ⟨rest1, ho1⟩ := releaseData_owned ho
    generalize releaseData st m = st1 at ho1 ⊢
    obtain ⟨st2, q2, r, hrun, hposts⟩ := postLonger_posts c.toPlatform (st1.msgs m).sid owner
      msgPktSenddone c.sizeofMessage 0 c.nodeAddress (.header m) ho1 hq
      (fun ch j hj => Multiset.mem_cons_of_mem (hlists ch j hj)) (hpool _ ho1.not_null)
      (by rw [carried_of_block rfl]; simp)
    simp only [if_true, hrun, bind_some]
    split
    next hneg =>
      rcases hposts with ⟨rfl, -⟩ | ⟨-, -, -, rest2, ho2⟩
      · exact absurd hneg (lt_irrefl _)
      · obtain ⟨st3, rest3, hrun3, -⟩ := ho2.dispose
        exact ⟨_, by rw [hrun3]; rfl⟩
    next => exact ⟨_, rfl⟩
  next =>
    obtain ⟨st', rest', hrun, -⟩ := ho.dispose
    exact ⟨_, by rw [hrun]; rfl⟩

def links : List Link := [.radio, .uart, .i2c, .spi]

lemma mem_links (l : Link) : l ∈ links := by cases l <;> decide

/-- The selected links got `m`, and copies of it, and nobody else has them. -/
def HandedToLinks (c : Config) (s : Net) (m : Item) (L : Multiset Item) (s' : Net) : Prop :=
  ∃ l ls gets, links.filter (selects c · (s.store.msgs m).flag) = l :: ls ∧ gets l = m ∧
    s'.uses = s.uses ++ (l :: ls).map (fun l' => .handed l' (gets l')) ∧
    (∃ rest, Owned s'.store (m ::ₘ ((ls.map gets : Multiset Item) + L)) rest) ∧
    s'.store.msgs m = msgChangeEndian c (s.store.msgs m) ∧
    (∀ l' ∈ ls, ∃ copy, s'.store.msgs (gets l') = msgChangeEndian c copy ∧
      DeepCopy s m s'.mem copy) ∧
    s'.q = s.q

/-- A copy could not be made. `m` was disposed of once, with every other header that was new, and
nothing was handed over. -/
def DisposedOfAll (s : Net) (m : Item) (L : Multiset Item) (s' : Net) : Prop :=
  ∃ l new, s'.uses = s.uses ++ new ∧ Use.noCopy l ∈ new ∧ new.count (.disposed m) = 1 ∧
    (∀ u ∈ new, u = .noCopy l ∨ ∃ j ∉ L, u = .disposed j) ∧
    (∃ rest, Owned s'.store L rest) ∧ s'.q = s.q

lemma gets_nodup (ho : Owned st (m ::ₘ ((sel.tail.map gets : Multiset Item) + L)) rest)
    (hsel : sel ≠ []) (hfirst : ∀ l ∈ sel.head?, gets l = m) : (sel.map gets).Nodup := by
  obtain ⟨l0, ls, rfl⟩ := exists_cons_of_ne_nil hsel
  have hnodup := ho.once
  rw [← Multiset.cons_add] at hnodup
  rw [map_cons, hfirst l0 rfl]
  exact (Multiset.nodup_add.mp hnodup).1

lemma filterMap_mcopy {β : Type*} (g : Link → Item → β) (ls : List Link)
    (hmcopy : ∀ l, k.mcopy l = if l ∈ sel then some (gets l) else none) :
    ls.filterMap (fun l => (k.mcopy l).map (g l)) =
      (ls.filter (· ∈ sel)).map (fun l => g l (gets l)) := by
  induction ls with
  | nil => rfl
  | cons l ls ih =>
    by_cases hl : l ∈ sel
    · rw [filterMap_cons_some (b := g l (gets l)) (by simp [hmcopy, hl]), ih]
      simp [hl]
    · rw [filterMap_cons_none (by simp [hmcopy, hl]), ih]
      simp [hl]

lemma handed_of_prepared (hp : Prepared s m L k sel gets) (hsel : sel ≠ [])
    (hfilter : sel = links.filter (selects c · (s.store.msgs m).flag)) :
    HandedToLinks c s m L (links.foldl (handOver c k) k.net) := by
  obtain ⟨rest, ho⟩ := hp.owned
  have hnodup := gets_nodup ho hsel hp.first
  have hinj : ∀ l l' n, k.mcopy l = some n → k.mcopy l' = some n → l = l' := by
    intro l l' n hl hl'
    rw [hp.mcopy] at hl hl'
    split at hl
    · split at hl'
      next hmem hmem' =>
        exact inj_on_of_nodup_map hnodup hmem hmem'
          ((some.inj hl).trans (some.inj hl').symm)
      next => cases hl'
    · cases hl
  obtain ⟨huses, hstore, hhanded, hothers, hmem, hq⟩ :=
    handOver_spec (show links.Nodup by decide) hinj k.net
  generalize links.foldl (handOver c k) k.net = u at huses hstore hhanded hothers hmem hq ⊢
  have hcopy : ∀ l ∈ sel, u.store.msgs (gets l) = msgChangeEndian c (k.net.store.msgs (gets l)) :=
    fun l hl => hhanded l (mem_links l) (gets l) (by rw [hp.mcopy, if_pos hl])
  have hselected : links.filter (· ∈ sel) = sel := by
    rw [hfilter]
    exact filter_congr (fun l hl => by simp [hl])
  obtain ⟨l0, ls, rfl⟩ := exists_cons_of_ne_nil hsel
  have hfirst : gets l0 = m := hp.first l0 rfl
  refine ⟨l0, ls, gets, hfilter.symm, hfirst, ?_, ⟨rest, ?_⟩, ?_, fun l hl => ?_, hq.trans hp.q⟩
  · rw [huses, filterMap_mcopy _ _ hp.mcopy, hselected, hp.uses]
  · rw [hstore]
    refine ho.rewrite (fun j _ => ?_)
    by_cases hj : ∃ l ∈ links, k.mcopy l = some j
    · obtain ⟨l, hl, hlj⟩ := hj
      rw [hhanded l hl j hlj]
      rfl
    · rw [hothers j (fun l hl hlj => hj ⟨l, hl, hlj⟩)]
  · have hm := hcopy l0 mem_cons_self
    rwa [hfirst, hp.msgs m (Multiset.mem_cons_self ..)] at hm
  · exact ⟨_, hcopy l (mem_cons_of_mem _ hl), hmem ▸ hp.copies l hl⟩

lemma disposed_of_broken (hb : Broken s m L k l sel gets) :
    ∃ s', dispatchCleanup k [.radio, .i2c, .uart, .spi] k.net = some s' ∧
      DisposedOfAll s m L s' := by
  obtain ⟨rest, ho⟩ := hb.owned
  have hnodup := gets_nodup ho hb.nonempty hb.first
  have hperm : ([Link.radio, .i2c, .uart, .spi].filterMap k.mcopy).Perm (sel.map gets) := by
    have hmap := filterMap_mcopy (fun _ n => n) [Link.radio, .i2c, .uart, .spi] hb.mcopy
    simp only [Option.map_id'] at hmap
    rw [hmap]
    refine List.Perm.map gets ((perm_ext_iff_of_nodup ?_ hnodup.of_map).mpr (fun l => ?_))
    · exact List.Nodup.filter _ (by decide)
    · cases l <;> simp
  obtain ⟨l0, ls, rfl⟩ := exists_cons_of_ne_nil hb.nonempty
  have hfirst : gets l0 = m := hb.first l0 rfl
  have hitems : ([Link.radio, .i2c, .uart, .spi].filterMap k.mcopy : Multiset Item) + L =
      m ::ₘ ((ls.map gets : Multiset Item) + L) := by
    rw [Multiset.coe_eq_coe.mpr hperm, map_cons, hfirst, ← Multiset.cons_coe, Multiset.cons_add]
  rw [tail_cons, ← hitems] at ho
  obtain ⟨s', rest', hrun, ho', huses, hq⟩ := dispatchCleanup_spec ho
  generalize [Link.radio, .i2c, .uart, .spi].filterMap k.mcopy = items at ho hperm huses
  obtain ⟨gone, hgone, hbefore⟩ := hb.uses
  refine ⟨s', hrun, l, gone.map .disposed ++ [.noCopy l] ++ items.map .disposed, ?_, by simp, ?_,
    fun u hu => ?_, ⟨rest', ho'⟩, hq.trans hb.q⟩
  · rw [huses, hbefore]
    simp
  · have hinj : Function.Injective Use.disposed := fun _ _ h => Use.disposed.inj h
    have hnone : gone.count m = 0 :=
      count_eq_zero.mpr (fun hm => hgone m hm (Multiset.mem_cons_self ..))
    have hone : items.count m = 1 := by
      rw [hperm.count_eq, map_cons, hfirst]
      rw [map_cons, hfirst] at hnodup
      exact count_eq_one_of_mem hnodup mem_cons_self
    rw [count_append, count_append, count_map_of_injective _ _ hinj,
      count_map_of_injective _ _ hinj, hnone, hone]
    simp
  · rw [mem_append, mem_append, mem_singleton] at hu
    rcases hu with (hu | hu) | hu
    · obtain ⟨j, hj, rfl⟩ := mem_map.mp hu
      exact .inr ⟨j, fun hL => hgone j hj (Multiset.mem_cons_of_mem hL), rfl⟩
    · exact .inl hu
    · obtain ⟨j, hj, rfl⟩ := mem_map.mp hu
      have hapart := (Multiset.nodup_add.mp ho.once).2.2
      exact .inr ⟨j, fun hL => Multiset.disjoint_left.mp hapart hj hL, rfl⟩

lemma linkDispatch_none (hnone : links.filter (selects c · (s.store.msgs m).flag) = []) :
    linkDispatch c a s m = some (s, 0) := by
  have hall : ∀ l, selects c l (s.store.msgs m).flag = false := by
    intro l
    rw [← Bool.not_eq_true]
    exact filter_eq_nil_iff.mp hnone l (mem_links l)
  simp [linkDispatch, takeRadio, takeLinks, takeLink, handOver, hall]

lemma linkDispatch_spec (ho : Owned s.store (m ::ₘ L) rest) (hf : Fresh a (s.store.msgs m).data) :
    (links.filter (selects c · (s.store.msgs m).flag) = [] ∧ linkDispatch c a s m = some (s, 0)) ∨
    (links.filter (selects c · (s.store.msgs m).flag) ≠ [] ∧
      ∃ s' r, linkDispatch c a s m = some (s', r) ∧
        (r = 0 ∧ HandedToLinks c s m L s' ∨ r = -enomem ∧ DisposedOfAll s m L s')) := by
  by_cases hnil : links.filter (selects c · (s.store.msgs m).flag) = []
  · exact .inl ⟨hnil, linkDispatch_none hnil⟩
  refine .inr ⟨hnil, ?_⟩
  have hinit : Prepared s m L ⟨s, fun _ => none, 0⟩ [] (fun _ => m) :=
    ⟨fun _ => rfl, rfl, by simp, by simp, ⟨rest, by simpa using ho⟩, fun _ _ => rfl, fun _ => rfl,
      fun _ hb => hb, rfl, rfl⟩
  have hradio : Prepared s m L (takeRadio c m ⟨s, fun _ => none, 0⟩)
      ([Link.radio].filter (selects c · (s.store.msgs m).flag)) (fun _ => m) := by
    rw [takeRadio]
    split
    next hsel =>
      rw [filter_cons_of_pos (by exact hsel)]
      exact hinit.add_first .radio
    next hsel =>
      rw [filter_cons_of_neg (by exact hsel)]
      exact hinit
  have hnew : ∀ l ∈ [Link.uart, .i2c, .spi],
      l ∉ [Link.radio].filter (selects c · (s.store.msgs m).flag) := by
    intro l hl hmem
    obtain rfl := mem_singleton.mp (mem_of_mem_filter hmem)
    simp at hl
  rcases takeLinks_spec hf (show [Link.uart, .i2c, .spi].Nodup by decide) hradio hnew with
    ⟨k, gets, hrun, hp⟩ | ⟨k, l, sel, gets, hrun, hb⟩
  · rw [← filter_append] at hp
    refine ⟨_, 0, ?_, .inl ⟨rfl, handed_of_prepared hp hnil rfl⟩⟩
    rw [linkDispatch, hrun]
    rfl
  · obtain ⟨s', hclean, hall⟩ := disposed_of_broken hb
    refine ⟨s', -enomem, ?_, .inr ⟨rfl, hall⟩⟩
    rw [linkDispatch, hrun]
    exact congrArg (Option.map _) hclean

def linkHeader (c : Config) (hdr : Message Data) : Message Data :=
  if hdr.daddr ≠ bcastAddress ∧ (flagMsgRaw hdr.flag = false ∨ flagMsgLinkAuto hdr.flag) then
    (sosMsgFindRightLink c hdr).1
  else hdr

/-- `m` is put to exactly one use; `uses` has everything that is done with headers. -/
inductive Consumed (c : Config) (a : Answers) (s : Net) (m : Item) (L : Multiset Item)
    (f : MsgClass → List Item) (s' : Net) (r : ℤ) : Prop where
  | enqueued (hr : r = 0) (huses : s'.uses = s.uses ++ [.enqueued m])
      (hq : Represents s'.q (update f (classOf (s.store.msgs m).flag)
        (f (classOf (s.store.msgs m).flag) ++ [m])))
      (howned : ∃ rest, Owned s'.store (m ::ₘ L) rest)
  | disposed (hr : r = 0 ∨ r = -einval) (huses : s'.uses = s.uses ++ [.disposed m])
      (hq : s'.q = s.q) (howned : ∃ rest, Owned s'.store L rest)
  | senddone (hr : r = 0) (huses : s'.uses = s.uses ++ [.senddone m])
      (hcall : msgSendSenddone c (s.store.setMsg m (linkHeader c (s.store.msgs m))) s.q m true
        kerRoutingPid a.senddonePool = some (s'.store, s'.q))
  | handed (hr : r = 0)
      (hlinks : HandedToLinks c (s.setMsg m (linkHeader c (s.store.msgs m))) m L s')
  | refused (hr : r = -enomem) (hall : DisposedOfAll s m L s')

/-- Some link that is asked for is compiled in, unless the message does not get so far. -/
def Chosen (c : Config) (a : Answers) (hdr : Message Data) : Prop :=
  c.nodeAddress = hdr.daddr ∨ c.noLinks ∨
  if hdr.daddr ≠ bcastAddress ∧ (flagMsgRaw hdr.flag = false ∨ flagMsgLinkAuto hdr.flag) then
    (flagMsgRaw hdr.flag = false ∧ c.onUart hdr.daddr = false ∧ c.onI2c hdr.daddr = false ∧
      (a.route = 1 ∨ a.route = 0)) ∨
    c.onUart hdr.daddr ∨ c.onI2c hdr.daddr ∨ c.radio ∨ selects c .spi hdr.flag
  else hdr.flag &&& sosMsgAllLinkIo = 0 ∨ ∃ l, selects c l hdr.flag

section

variable (c hdr)

lemma carried_linkHeader : carried (linkHeader c hdr) = carried hdr := by
  rw [linkHeader]
  split
  · refine carried_eq_of_release ?_
    rw [flagMsgRelease_eq, flagMsgRelease_eq, rightFlags_bits _ _ _ (by decide)]
    rfl
  · rfl

lemma linkHeader_data : (linkHeader c hdr).data = hdr.data := by
  rw [linkHeader]
  split <;> rfl

end

lemma exists_selects_iff : links.filter (selects c · flag) ≠ [] ↔ ∃ l, selects c l flag := by
  rw [ne_eq, filter_eq_nil_iff]
  push Not
  constructor
  · rintro ⟨l, -, hl⟩
    exact ⟨l, hl⟩
  · rintro ⟨l, hl⟩
    exact ⟨l, mem_links l, hl⟩

lemma Config.uart_of_onUart (h : c.onUart addr) : c.has .uart := by
  cases hu : c.uart with
  | none => simp [Config.onUart, hu] at h
  | some check => simp [Config.has, hu]

lemma Config.i2c_of_onI2c (h : c.onI2c addr) : c.has .i2c := by
  cases hu : c.i2c with
  | none => simp [Config.onI2c, hu] at h
  | some check => simp [Config.has, hu]

/-- After `sos_msg_find_right_link` a link is always selected, and it is compiled in if one has the
address or there is a radio. -/
lemma rightLink_selects_iff (c : Config) (hdr : Message Data) :
    ((sosMsgFindRightLink c hdr).1.flag &&& sosMsgAllLinkIo = 0 ∨
      ∃ l, selects c l (sosMsgFindRightLink c hdr).1.flag) ↔
    c.onUart hdr.daddr ∨ c.onI2c hdr.daddr ∨ c.radio ∨ selects c .spi hdr.flag := by
  have hfrom : ∀ l, flagMsgFrom l (sosMsgFindRightLink c hdr).1.flag = match l with
      | .radio => !(c.onUart hdr.daddr || c.onI2c hdr.daddr)
      | .i2c => c.onI2c hdr.daddr
      | .uart => c.onUart hdr.daddr
      | .spi => flagMsgFrom .spi hdr.flag := by
    intro l
    cases l <;> rw [flagMsgFrom_eq, sosMsgFindRightLink, rightFlags_bits _ _ _ (by decide)] <;>
      simp [Link.bit, flagMsgFrom_eq]
  rw [allLinkIo_eq_zero_iff]
  constructor
  · rintro (hnone | ⟨l, hl⟩)
    · have hradio := hfrom .radio ▸ hnone .radio
      simp only [Bool.not_eq_false', Bool.or_eq_true] at hradio
      exact hradio.imp_right .inl
    · rw [selects, hfrom, Bool.and_eq_true] at hl
      cases l with
      | radio => exact .inr (.inr (.inl hl.1))
      | i2c => exact .inr (.inl hl.2)
      | uart => exact .inl hl.2
      | spi => exact .inr (.inr (.inr (Bool.and_eq_true_iff.mpr hl)))
  · intro h
    right
    by_cases hu : c.onUart hdr.daddr
    · exact ⟨.uart, by rw [selects, hfrom, Config.uart_of_onUart hu, hu]; rfl⟩
    by_cases hi : c.onI2c hdr.daddr
    · exact ⟨.i2c, by rw [selects, hfrom, Config.i2c_of_onI2c hi, hi]; rfl⟩
    rcases h with h | h | h | h
    · exact absurd h hu
    · exact absurd h hi
    · exact ⟨.radio, by simp [selects, hfrom, Config.has, h, hu, hi]⟩
    · refine ⟨.spi, ?_⟩
      rw [selects, hfrom]
      exact h

def asked (c : Config) (s : Net) (m : Item) : Net := s.setMsg m (linkHeader c (s.store.msgs m))

lemma asked_msgs (c : Config) (s : Net) (m : Item) :
    (asked c s m).store.msgs m = linkHeader c (s.store.msgs m) := update_self ..

lemma asked_owned (ho : Owned s.store (m ::ₘ L) rest) :
    Owned (asked c s m).store (m ::ₘ L) rest := by
  refine ho.rewrite (fun j _ => ?_)
  by_cases hj : j = m
  · subst hj
    simp only [update_self, carried_linkHeader]
  · simp only [update_of_ne hj]

lemma setMsg_idem (s : Net) (m : Item) (hdr hdr' : Message Data) :
    (s.setMsg m hdr).setMsg m hdr' = s.setMsg m hdr' := by
  simp only [Net.setMsg, Store.setMsg, update_idem]

lemma setMsg_self (s : Net) (m : Item) : s.setMsg m (s.store.msgs m) = s := by
  simp only [Net.setMsg, Store.setMsg, update_eq_self]

lemma autoDispatch_raw
    (hraw : ¬ ((s.store.msgs m).daddr ≠ bcastAddress ∧ flagMsgRaw (s.store.msgs m).flag = false)) :
    autoDispatch c a s m = selectedDispatch c a (asked c s m) m := by
  rw [autoDispatch, asked, linkHeader]
  by_cases hauto : flagMsgLinkAuto (s.store.msgs m).flag ∧ (s.store.msgs m).daddr ≠ bcastAddress
  · rw [if_pos hauto, if_pos ⟨hauto.2, .inr hauto.1⟩]
  · have hnot : ¬ ((s.store.msgs m).daddr ≠ bcastAddress ∧
        (flagMsgRaw (s.store.msgs m).flag = false ∨ flagMsgLinkAuto (s.store.msgs m).flag)) := by
      rintro ⟨hcast, hflag | hflag⟩
      · exact hraw ⟨hcast, hflag⟩
      · exact hauto ⟨hflag, hcast⟩
    rw [if_neg hauto, if_neg hnot, setMsg_self]

section

variable (hcast : (s.store.msgs m).daddr ≠ bcastAddress)
  (hraw : flagMsgRaw (s.store.msgs m).flag = false)
include hcast hraw

lemma autoDispatch_routed :
    autoDispatch c a (s.setMsg m (sosMsgFindRightLink c (s.store.msgs m)).1) m =
      selectedDispatch c a (asked c s m) m := by
  have hself : (s.setMsg m (sosMsgFindRightLink c (s.store.msgs m)).1).store.msgs m =
      (sosMsgFindRightLink c (s.store.msgs m)).1 := update_self ..
  have hidem : (sosMsgFindRightLink c (sosMsgFindRightLink c (s.store.msgs m)).1).1 =
      (sosMsgFindRightLink c (s.store.msgs m)).1 := by
    simp only [sosMsgFindRightLink, rightFlags_idem]
  rw [autoDispatch, hself, hidem, setMsg_idem, ite_self, asked, linkHeader,
    if_pos ⟨hcast, .inl hraw⟩]

lemma sosMsgDispatch_routed (hlocal : c.nodeAddress ≠ (s.store.msgs m).daddr)
    (hlinks : c.noLinks = false) :
    sosMsgDispatch c a s m =
      if (sosMsgFindRightLink c (s.store.msgs m)).2 = false ∧ a.route = 1 then
        ((asked c s m).dispose m).map (·, 0)
      else if (sosMsgFindRightLink c (s.store.msgs m)).2 = false ∧ a.route = 0 then
        (msgSendSenddone c (asked c s m).store s.q m true kerRoutingPid a.senddonePool).map
          (fun r => (({ asked c s m with store := r.1, q := r.2 } : Net).use (.senddone m), 0))
      else selectedDispatch c a (asked c s m) m := by
  have hasked : s.setMsg m (sosMsgFindRightLink c (s.store.msgs m)).1 = asked c s m := by
    rw [asked, linkHeader, if_pos ⟨hcast, .inl hraw⟩]
  rw [← autoDispatch_routed hcast hraw, ← hasked, sosMsgDispatch, if_neg hlocal, hlinks,
    if_neg Bool.false_ne_true, if_pos ⟨hcast, hraw⟩]
  rfl

end

lemma chosen_of_route (hcast : hdr.daddr ≠ bcastAddress) (hraw : flagMsgRaw hdr.flag = false)
    (hfound : (sosMsgFindRightLink c hdr).2 = false) (hroute : a.route = 1 ∨ a.route = 0) :
    Chosen c a hdr := by
  obtain ⟨hu, hi⟩ := Bool.or_eq_false_iff.mp hfound
  refine .inr (.inr ?_)
  rw [if_pos ⟨hcast, .inl hraw⟩]
  exact .inl ⟨hraw, hu, hi, hroute⟩

lemma not_consumed_of_uses (huses : s'.uses = s.uses) (r : ℤ) : ¬ Consumed c a s m L f s' r := by
  have hne : ∀ new, new ≠ [] → s'.uses ≠ s.uses ++ new := by
    intro new hnew heq
    rw [huses] at heq
    exact hnew (self_eq_append_right.mp heq)
  intro hc
  cases hc with
  | enqueued _ h => exact hne _ (cons_ne_nil _ _) h
  | disposed _ h => exact hne _ (cons_ne_nil _ _) h
  | senddone _ h => exact hne _ (cons_ne_nil _ _) h
  | handed _ h =>
    obtain ⟨l, ls, gets, -, -, h, -⟩ := h
    exact hne _ (cons_ne_nil _ _) h
  | refused _ h =>
    obtain ⟨l, new, h, hmem, -⟩ := h
    exact hne new (ne_nil_of_mem hmem) h

lemma chosen_iff_asked (hlocal : c.nodeAddress ≠ hdr.daddr) (hlinks : c.noLinks = false)
    (hroute : ¬ (hdr.daddr ≠ bcastAddress ∧ flagMsgRaw hdr.flag = false ∧
      c.onUart hdr.daddr = false ∧ c.onI2c hdr.daddr = false ∧ (a.route = 1 ∨ a.route = 0))) :
    Chosen c a hdr ↔ (linkHeader c hdr).flag &&& sosMsgAllLinkIo = 0 ∨
      ∃ l, selects c l (linkHeader c hdr).flag := by
  rw [Chosen, linkHeader, hlinks]
  simp only [hlocal, Bool.false_eq_true, false_or]
  by_cases hauto : hdr.daddr ≠ bcastAddress ∧
      (flagMsgRaw hdr.flag = false ∨ flagMsgLinkAuto hdr.flag)
  · rw [if_pos hauto, if_pos hauto, rightLink_selects_iff]
    refine or_iff_right (fun h => hroute ⟨hauto.1, h⟩)
  · rw [if_neg hauto, if_neg hauto]

section

variable (ho : Owned s.store (m ::ₘ L) rest) (hf : Fresh a (s.store.msgs m).data)
include ho hf

lemma selectedDispatch_spec :
    ((∀ l, selects c l (linkHeader c (s.store.msgs m)).flag = false) ∧
        (linkHeader c (s.store.msgs m)).flag &&& sosMsgAllLinkIo ≠ 0 ∧
        selectedDispatch c a (asked c s m) m = some (asked c s m, 0)) ∨
    ((((linkHeader c (s.store.msgs m)).flag &&& sosMsgAllLinkIo = 0) ∨
        ∃ l, selects c l (linkHeader c (s.store.msgs m)).flag) ∧
      ∃ s' r, selectedDispatch c a (asked c s m) m = some (s', r) ∧ Consumed c a s m L f s' r) := by
  have ho' := asked_owned (c := c) ho
  have hmsgs := asked_msgs c s m
  by_cases hzero : (linkHeader c (s.store.msgs m)).flag &&& sosMsgAllLinkIo = 0
  · obtain ⟨s', rest', hrun, howned, huses, hq⟩ := dispose_spec ho'
    refine .inr ⟨.inl hzero, s', 0, ?_, .disposed (.inl rfl) huses hq ⟨rest', howned⟩⟩
    rw [selectedDispatch, hmsgs, if_pos hzero, hrun]
    rfl
  · have hdata : ((asked c s m).store.msgs m).data = (s.store.msgs m).data := by
      rw [hmsgs, linkHeader_data]
    have hgo : selectedDispatch c a (asked c s m) m = linkDispatch c a (asked c s m) m := by
      rw [selectedDispatch, hmsgs, if_neg hzero]
    rcases linkDispatch_spec ho' (hdata ▸ hf) with
      ⟨hnone, hrun⟩ | ⟨hsome, s', r, hrun, hres⟩
    · rw [hmsgs] at hnone
      refine .inl ⟨fun l => ?_, hzero, hgo.trans hrun⟩
      rw [← Bool.not_eq_true]
      exact fun hl => exists_selects_iff.mpr ⟨l, hl⟩ hnone
    · rw [hmsgs] at hsome
      refine .inr ⟨.inr (exists_selects_iff.mp hsome), s', r, hgo.trans hrun, ?_⟩
      rcases hres with ⟨hr, hlinks⟩ | ⟨hr, hall⟩
      · exact .handed hr hlinks
      · exact .refused hr hall

variable (hlocal : c.nodeAddress ≠ (s.store.msgs m).daddr) (hlinks : c.noLinks = false)
include hlocal hlinks

lemma asked_consumes_iff (hroute : ¬ ((s.store.msgs m).daddr ≠ bcastAddress ∧
      flagMsgRaw (s.store.msgs m).flag = false ∧
      c.onUart (s.store.msgs m).daddr = false ∧ c.onI2c (s.store.msgs m).daddr = false ∧
      (a.route = 1 ∨ a.route = 0))) :
    ∃ s' r, selectedDispatch c a (asked c s m) m = some (s', r) ∧
      (Consumed c a s m L f s' r ↔ Chosen c a (s.store.msgs m)) := by
  have hiff := chosen_iff_asked hlocal hlinks hroute
  rcases selectedDispatch_spec ho hf with ⟨hnone, hne, hrun⟩ | ⟨hsome, s', r, hrun, hc⟩
  · have hlost : ¬ Consumed c a s m L f (asked c s m) 0 := not_consumed_of_uses (by rfl) 0
    refine ⟨_, 0, hrun, iff_of_false hlost (fun hchosen => ?_)⟩
    rcases hiff.mp hchosen with hzero | ⟨l, hl⟩
    · exact hne hzero
    · rw [hnone l] at hl
      cases hl
  · exact ⟨s', r, hrun, iff_of_true hc (hiff.mpr hsome)⟩

lemma routed_consumes_iff (hq : Represents s.q f) (hlists : ∀ ch, ∀ j ∈ f ch, j ∈ L)
    (hcast : (s.store.msgs m).daddr ≠ bcastAddress)
    (hraw : flagMsgRaw (s.store.msgs m).flag = false) :
    ∃ s' r, sosMsgDispatch c a s m = some (s', r) ∧
      (Consumed c a s m L f s' r ↔ Chosen c a (s.store.msgs m)) := by
  have ho' := asked_owned (c := c) ho
  rw [sosMsgDispatch_routed hcast hraw hlocal hlinks]
  split
  next hone =>
    obtain ⟨s', rest', hrun, howned, huses, hq'⟩ := dispose_spec ho'
    refine ⟨s', 0, by rw [hrun]; rfl, iff_of_true (.disposed (.inl rfl) huses hq' ⟨rest', howned⟩)
      (chosen_of_route hcast hraw hone.1 (.inl hone.2))⟩
  next hone =>
    split
    next hzero =>
      obtain ⟨⟨st', q'⟩, hrun⟩ := msgSendSenddone_returns ho' hq hlists hf.senddone kerRoutingPid
      refine ⟨({ asked c s m with store := st', q := q' } : Net).use (.senddone m), 0,
        by rw [hrun]; rfl, iff_of_true (.senddone rfl rfl hrun)
          (chosen_of_route hcast hraw hzero.1 (.inr hzero.2))⟩
    next hzero =>
      refine asked_consumes_iff ho hf hlocal hlinks ?_
      rintro ⟨-, -, hu, hi, hroute⟩
      have hfound : (sosMsgFindRightLink c (s.store.msgs m)).2 = false :=
        Bool.or_eq_false_iff.mpr ⟨hu, hi⟩
      rcases hroute with hroute | hroute
      · exact hone ⟨hfound, hroute⟩
      · exact hzero ⟨hfound, hroute⟩

end

/-- Every message is put to exactly one use if and only if a link that is asked for is compiled
in. -/
theorem dispatch_consumes_iff (c : Config) (a : Answers) {s : Net} {m : Item} {L : Multiset Item}
    {rest : Heap} {f : MsgClass → List Item} (ho : Owned s.store (m ::ₘ L) rest)
    (hq : Represents s.q f) (hlists : ∀ ch, ∀ j ∈ f ch, j ∈ L)
    (hf : Fresh a (s.store.msgs m).data) :
    ∃ s' r, sosMsgDispatch c a s m = some (s', r) ∧
      (Consumed c a s m L f s' r ↔ Chosen c a (s.store.msgs m)) := by
  obtain ⟨hm, -⟩ := Multiset.nodup_cons.mp ho.once
  by_cases hlocal : c.nodeAddress = (s.store.msgs m).daddr
  · obtain ⟨st', q', rest', hrun, -, hq', ho'⟩ :=
      schedMsgAlloc_owned ho hq (fun ch hmem => hm (hlists ch m hmem))
    refine ⟨({ s with store := st', q := q' } : Net).use (.enqueued m), 0, ?_,
      iff_of_true (.enqueued rfl rfl hq' ⟨rest', ho'⟩) (.inl hlocal)⟩
    rw [sosMsgDispatch, if_pos hlocal, hrun]
    rfl
  by_cases hlinks : c.noLinks
  · obtain ⟨s', rest', hrun, howned, huses, hq'⟩ := dispose_spec ho
    refine ⟨s', -einval, ?_, iff_of_true (.disposed (.inr rfl) huses hq' ⟨rest', howned⟩)
      (.inr (.inl hlinks))⟩
    rw [sosMsgDispatch, if_neg hlocal, if_pos hlinks, hrun]
    rfl
  rw [Bool.not_eq_true] at hlinks
  by_cases hplain : (s.store.msgs m).daddr ≠ bcastAddress ∧ flagMsgRaw (s.store.msgs m).flag = false
  · exact routed_consumes_iff ho hf hlocal hlinks hq hlists hplain.1 hplain.2
  · have hgo : sosMsgDispatch c a s m = selectedDispatch c a (asked c s m) m := by
      rw [← autoDispatch_raw hplain, sosMsgDispatch, if_neg hlocal, hlinks,
        if_neg Bool.false_ne_true, if_neg hplain]
    rw [hgo]
    exact asked_consumes_iff ho hf hlocal hlinks (fun h => hplain ⟨h.1, h.2.1⟩)

def sampleItem : Item := ⟨200, 0⟩

def outgoing (daddr flag : ℕ) : Message Data := ⟨128, 128, daddr, 1, 32, 0, .payload, flag⟩

def oneMessage (hdr : Message Data) : Net :=
  ⟨(msgCreate sampleState.store 0).1.setMsg sampleItem hdr, mqInit (fun _ => none),
    fun _ _ => 0, []⟩

def plenty : Answers :=
  ⟨-1, fun _ h => (addrs h).sum + 1, fun _ h => (addrs h).sum + 1, fun h => (addrs h).sum + 1⟩

lemma oneMessage_owned (daddr flag : ℕ) :
    Owned (oneMessage (outgoing daddr flag)).store (sampleItem ::ₘ 0) [] := by
  have hempty : Owned sampleState.store 0 [] := by
    simpa [live, outer, queued, Phase.current, sampleState] using
      (inv_of_initial sampleState_initial).owned
  have hnew : 0 ∉ addrs sampleState.store.heap := by simp [sampleState, addrs]
  rcases msgCreate_owned hempty hnew with hnone | ⟨st, n, hcreate, -, howned, hcarried, -⟩
  · cases congrArg Prod.snd hnone
  · obtain rfl : sampleItem = n := some.inj (congrArg Prod.snd hcreate)
    obtain rfl : (msgCreate sampleState.store 0).1 = st := congrArg Prod.fst hcreate
    refine howned.rewrite (fun j hj => ?_)
    obtain rfl : j = sampleItem := by simpa using hj
    exact carried_of_block rfl

lemma plenty_fresh : Fresh plenty .payload := by
  have hnew : ∀ h : Heap, (addrs h).sum + 1 ∉ addrs h := by
    intro h hmem
    have hle := le_sum_of_mem hmem
    omega
  exact ⟨fun _ h _ => hnew h, fun _ h _ => hnew h, fun _ _ _ => by simp, fun h _ => hnew h⟩

def radioAndUart : Config := ⟨samplePlatform, id, true, some (fun addr => addr = 7), none, false⟩

def uartOnly : Config := ⟨samplePlatform, id, false, some (fun addr => addr = 7), none, false⟩

lemma emptyQueue_represents : Represents (mqInit (fun _ : Item => none)) (fun _ => []) :=
  (refines_init (fun _ : Item => outgoing 0 0) (fun _ => none)).queue

theorem dispatch_consumes_sample :
    ∃ s' r, sosMsgDispatch radioAndUart plenty (oneMessage (outgoing bcastAddress 0xA08))
        sampleItem = some (s', r) ∧
      Consumed radioAndUart plenty (oneMessage (outgoing bcastAddress 0xA08)) sampleItem 0
        (fun _ => []) s' r := by
  obtain ⟨s', r, hrun, hiff⟩ := dispatch_consumes_iff radioAndUart plenty
    (oneMessage_owned bcastAddress 0xA08) emptyQueue_represents (by simp) plenty_fresh
  refine ⟨s', r, hrun, hiff.mpr (.inr (.inr ?_))⟩
  have hcast : ¬ (bcastAddress ≠ bcastAddress ∧ (flagMsgRaw 0xA08 = false ∨
    flagMsgLinkAuto 0xA08)) := fun h => h.1 rfl
  exact (if_neg hcast).mpr (.inr ⟨.radio, by decide⟩)

/-- A build with the UART as its only link. The message is for an address that is not on the UART,
so the radio is selected. Nothing is done with the message, and its header stays in use. -/
theorem message_without_link_is_lost :
    ∃ s', sosMsgDispatch uartOnly plenty (oneMessage (outgoing 5 0)) sampleItem = some (s', 0) ∧
      s'.uses = (oneMessage (outgoing 5 0)).uses ∧ Allocated s'.store.slab.pools sampleItem ∧
      ¬ Consumed uartOnly plenty (oneMessage (outgoing 5 0)) sampleItem 0 (fun _ => []) s' 0 := by
  have huses : (asked uartOnly (oneMessage (outgoing 5 0)) sampleItem).uses =
      (oneMessage (outgoing 5 0)).uses := rfl
  refine ⟨_, ?_, huses, ⟨_, mem_cons_self, rfl, rfl⟩, not_consumed_of_uses huses 0⟩
  rfl

end NetworkDispatch
