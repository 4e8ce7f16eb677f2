import SosKernel.VmacHistory

/-! # The receiving side of `vmac.c`

`_MacRecvCallBack` keeps the last sequence number of up to three senders and takes a frame with
the number it keeps for a retransmission. -/
namespace VmacReceiver

open GuardedRuns Vmac VmacHistory List Option Function
open MessageQueue (Message)
open StopAndWait hiding step

abbrev numDupCheck : ℕ := 3

structure Table where
  dupAddr : Fin numDupCheck → ℕ
  dupSeq : Fin numDupCheck → ℕ
  oldestDup : Fin numDupCheck

structure Frame where
  daddr : ℕ
  saddr : ℕ
  seq : ℕ
  created : Bool
  message : ℕ

inductive Outcome where
  | filtered
  | noMemory
  | duplicate
  | delivered
  deriving DecidableEq, Repr

def slotOf (t : Table) (addr : ℕ) : Option (Fin numDupCheck) :=
  (finRange numDupCheck).find? (fun i => t.dupAddr i = addr)

def setSlot (t : Table) (i : Fin numDupCheck) (addr seq : ℕ) : Table :=
  { t with dupAddr := update t.dupAddr i addr, dupSeq := update t.dupSeq i seq }

@[simp]
lemma setSlot_dupAddr (t : Table) (i : Fin numDupCheck) (addr seq : ℕ) :
    (setSlot t i addr seq).dupAddr = update t.dupAddr i addr := rfl

@[simp]
lemma setSlot_dupSeq (t : Table) (i : Fin numDupCheck) (addr seq : ℕ) :
    (setSlot t i addr seq).dupSeq = update t.dupSeq i seq := rfl

def Accepted (node : ℕ) (r : Frame) : Prop :=
  (r.daddr = node ∨ r.daddr = bcastAddress) ∧ r.created = true
  deriving Decidable

/-- The check against the table of duplicates. -/
def checked (t : Table) (r : Frame) : Table × Outcome :=
  match slotOf t r.saddr with
  | some i =>
    if r.seq = t.dupSeq i then (t, .duplicate)
    else ({ t with dupSeq := update t.dupSeq i r.seq }, .delivered)
  | none =>
    match slotOf t bcastAddress with
    | some i => (setSlot t i r.saddr r.seq, .delivered)
    | none =>
      ({ setSlot t t.oldestDup r.saddr r.seq with oldestDup := t.oldestDup + 1 }, .delivered)

def macRecvCallBack (node : ℕ) (t : Table) (r : Frame) : Table × Outcome :=
  if r.daddr ≠ node ∧ r.daddr ≠ bcastAddress then (t, .filtered)
  else if r.created = false then (t, .noMemory)
  else if r.saddr = bcastAddress then (t, .delivered)
  else checked t r

def macInit : Table := ⟨fun _ => bcastAddress, fun _ => 0, 0⟩

def tableAfter (node : ℕ) (rs : List Frame) : Table :=
  rs.foldl (fun t r => (macRecvCallBack node t r).1) macInit

section Entry

variable {node a : ℕ} {t : Table} {r : Frame} {i : Fin numDupCheck}

lemma slotOf_eq_none : slotOf t a = none ↔ ∀ i, t.dupAddr i ≠ a := by
  simp [slotOf, find?_eq_none]

lemma slotOf_some (h : slotOf t a = some i) : t.dupAddr i = a := by simpa using find?_some h

def kept (t : Table) (a : ℕ) : Option ℕ := (slotOf t a).map t.dupSeq

def Unique (t : Table) (a : ℕ) : Prop := ∀ i j, t.dupAddr i = a → t.dupAddr j = a → i = j

lemma slotOf_eq (hu : Unique t a) (h : t.dupAddr i = a) : slotOf t a = some i := by
  cases hs : slotOf t a with
  | none => exact absurd h (slotOf_eq_none.mp hs i)
  | some j => rw [hu j i (slotOf_some hs) h]

lemma recv_checked (hacc : Accepted node r) (hr : r.saddr ≠ bcastAddress) :
    macRecvCallBack node t r = checked t r := by
  have hfor : ¬ (r.daddr ≠ node ∧ r.daddr ≠ bcastAddress) := by
    rintro ⟨hn, hb⟩
    exact hacc.1.elim hn hb
  rw [macRecvCallBack, if_neg hfor, if_neg (by simp [hacc.2]), if_neg hr]

lemma recv_unchecked (h : ¬ Accepted node r ∨ r.saddr = bcastAddress) :
    (macRecvCallBack node t r).1 = t := by
  rw [macRecvCallBack]
  split
  · rfl
  next hfor =>
    split
    · rfl
    next hmem =>
      have hacc : Accepted node r := by
        refine ⟨?_, by simpa using hmem⟩
        by_contra hno
        exact hfor (not_or.mp hno)
      rw [if_pos (h.resolve_left (not_not_intro hacc))]

lemma setSlot_other {addr seq : ℕ} (hu : Unique t a) (ha : addr ≠ a) :
    Unique (setSlot t i addr seq) a ∧
      (kept (setSlot t i addr seq) a = kept t a ∨ slotOf (setSlot t i addr seq) a = none) := by
  have hold : ∀ j, (setSlot t i addr seq).dupAddr j = a → j ≠ i ∧ t.dupAddr j = a := by
    intro j hj
    rw [setSlot_dupAddr] at hj
    by_cases hij : j = i
    · rw [hij, update_self] at hj
      exact absurd hj ha
    · rw [update_of_ne hij] at hj
      exact ⟨hij, hj⟩
  have hunique : Unique (setSlot t i addr seq) a :=
    fun j k hj hk => hu j k (hold j hj).2 (hold k hk).2
  refine ⟨hunique, ?_⟩
  cases hs : slotOf (setSlot t i addr seq) a with
  | none => exact .inr rfl
  | some j =>
    obtain ⟨hij, hj⟩ := hold j (slotOf_some hs)
    left
    rw [kept, hs, kept, slotOf_eq hu hj, setSlot_dupSeq, map_some, map_some, update_of_ne hij]

lemma setSlot_same (i : Fin numDupCheck) (seq : ℕ) (hnone : slotOf t a = none) :
    Unique (setSlot t i a seq) a ∧ kept (setSlot t i a seq) a = some seq := by
  have hslot : ∀ j, (setSlot t i a seq).dupAddr j = a → j = i := by
    intro j hj
    by_contra hij
    rw [setSlot_dupAddr, update_of_ne hij] at hj
    exact slotOf_eq_none.mp hnone j hj
  have hunique : Unique (setSlot t i a seq) a :=
    fun j k hj hk => (hslot j hj).trans (hslot k hk).symm
  have hmine : (setSlot t i a seq).dupAddr i = a := by simp
  refine ⟨hunique, ?_⟩
  rw [kept, slotOf_eq hunique hmine, setSlot_dupSeq, map_some, update_self]

lemma checked_same (hu : Unique t a) (hr : r.saddr = a) :
    (checked t r).2 = (if kept t a = some r.seq then .duplicate else .delivered) ∧
      kept (checked t r).1 a = some r.seq ∧ Unique (checked t r).1 a := by
  subst hr
  cases hs : slotOf t r.saddr with
  | some i =>
    have hk : kept t r.saddr = some (t.dupSeq i) := by rw [kept, hs, map_some]
    by_cases hq : r.seq = t.dupSeq i
    · have hc : checked t r = (t, .duplicate) := by simp only [checked, hs, if_pos hq]
      rw [← hq] at hk
      rw [hc, if_pos hk]
      exact ⟨rfl, hk, hu⟩
    · have hc : checked t r = ({ t with dupSeq := update t.dupSeq i r.seq }, .delivered) := by
        simp only [checked, hs, if_neg hq]
      have hslot : slotOf { t with dupSeq := update t.dupSeq i r.seq } r.saddr = some i := hs
      rw [hc, hk, if_neg (fun heq => hq (some.inj heq).symm)]
      refine ⟨rfl, ?_, hu⟩
      simp only [kept, hslot, map_some, update_self]
  | none =>
    have hk : kept t r.saddr ≠ some r.seq := by simp [kept, hs]
    rw [if_neg hk]
    cases hfree : slotOf t bcastAddress with
    | some i =>
      have hc : checked t r = (setSlot t i r.saddr r.seq, .delivered) := by
        simp only [checked, hs, hfree]
      rw [hc]
      exact ⟨rfl, (setSlot_same _ _ hs).2, (setSlot_same _ r.seq hs).1⟩
    | none =>
      have hc : checked t r = ({ setSlot t t.oldestDup r.saddr r.seq with
          oldestDup := t.oldestDup + 1 }, .delivered) := by
        simp only [checked, hs, hfree]
      rw [hc]
      exact ⟨rfl, (setSlot_same _ _ hs).2, (setSlot_same _ r.seq hs).1⟩

lemma recv_other (hu : Unique t a) (hr : r.saddr ≠ a ∨ ¬ Accepted node r) :
    Unique (macRecvCallBack node t r).1 a ∧ (kept (macRecvCallBack node t r).1 a = kept t a ∨
        slotOf (macRecvCallBack node t r).1 a = none) := by
  by_cases hfar : Accepted node r ∧ r.saddr ≠ bcastAddress
  · have ha := hr.resolve_right (not_not_intro hfar.1)
    rw [recv_checked hfar.1 hfar.2, checked]
    split
    next i hs =>
      split
      · exact ⟨hu, .inl rfl⟩
      · -- the number of the other sender changes
        refine ⟨hu, ?_⟩
        cases hmine : slotOf t a with
        | none => exact .inr hmine
        | some j =>
          have hij : j ≠ i := by
            rintro rfl
            exact ha ((slotOf_some hs).symm.trans (slotOf_some hmine))
          have hslot : slotOf { t with dupSeq := update t.dupSeq i r.seq } a = some j := hmine
          left
          simp only [kept, hslot, hmine, map_some, update_of_ne hij]
    next hs =>
      split
      · exact setSlot_other hu ha
      · exact setSlot_other hu ha
  · have hsame : (macRecvCallBack node t r).1 = t := by
      refine recv_unchecked ((not_and_or.mp hfar).imp_right not_not.mp)
    rw [hsame]
    exact ⟨hu, .inl rfl⟩

end Entry

section Frames

variable {node a : ℕ} {rs : List Frame}

def framesOf (node a : ℕ) (rs : List Frame) : List Frame :=
  rs.filter (fun r => r.saddr = a ∧ Accepted node r)

def KeepsEntry (node a : ℕ) (rs : List Frame) : Prop :=
  ∀ before r after, rs = before ++ r :: after → slotOf (tableAfter node before) a ≠ none →
    slotOf (tableAfter node (before ++ [r])) a ≠ none

lemma keepsEntry_iff : KeepsEntry node a rs ↔ ∀ i < rs.length,
    slotOf (tableAfter node (rs.take i)) a ≠ none →
      slotOf (tableAfter node (rs.take (i + 1))) a ≠ none := by
  constructor
  · intro h i hi
    have hsplit : rs = rs.take i ++ rs[i] :: rs.drop (i + 1) := by
      rw [getElem_cons_drop, take_append_drop]
    rw [take_add_one, getElem?_eq_getElem hi]
    exact h _ _ _ hsplit
  · rintro h before r after rfl
    have hi := h before.length (by simp)
    rwa [take_left, take_add_one, take_left, getElem?_append_right le_rfl, Nat.sub_self] at hi

instance : Decidable (KeepsEntry node a rs) := decidable_of_iff' _ keepsEntry_iff

lemma tableAfter_concat (node : ℕ) (rs : List Frame) (r : Frame) :
    tableAfter node (rs ++ [r]) = (macRecvCallBack node (tableAfter node rs) r).1 := by
  simp [tableAfter]

lemma kept_last (ha : a ≠ bcastAddress) {before : List Frame} :
    ∀ {after}, KeepsEntry node a (before ++ after) → Unique (tableAfter node before) a ∧
        kept (tableAfter node before) a = (framesOf node a before).getLast?.map Frame.seq := by
  induction before using List.reverseRecOn with
  | nil =>
    intro after _
    have hempty : slotOf (tableAfter node []) a = none := slotOf_eq_none.mpr (fun _ => ha.symm)
    refine ⟨fun i j hi => absurd hi.symm ha, ?_⟩
    simp [kept, hempty, framesOf]
  | append_singleton before r ih =>
    intro after hkeep
    rw [append_assoc] at hkeep
    obtain ⟨hu, hlast⟩ := ih hkeep
    by_cases hr : r.saddr = a ∧ Accepted node r
    · have hframes : framesOf node a (before ++ [r]) = framesOf node a before ++ [r] := by
        simp [framesOf, hr]
      have hsaddr : r.saddr ≠ bcastAddress := by rw [hr.1]; exact ha
      obtain ⟨-, hkept, hunique⟩ := checked_same hu hr.1
      rw [tableAfter_concat, recv_checked hr.2 hsaddr, hframes, hkept]
      exact ⟨hunique, by simp⟩
    · have hframes : framesOf node a (before ++ [r]) = framesOf node a before := by
        simp only [framesOf, filter_append]
        simp [hr]
      have hother := recv_other hu (not_and_or.mp hr)
      rw [← tableAfter_concat] at hother
      rw [hframes, ← hlast]
      refine ⟨hother.1, hother.2.elim id (fun hnone => ?_)⟩
      have hbefore : slotOf (tableAfter node before) a = none := by
        by_contra hne
        exact hkeep before r after rfl hne hnone
      rw [kept, hnone, kept, hbefore]
      rfl

lemma outcome_of_last (ha : a ≠ bcastAddress) {before after : List Frame} {r : Frame}
    (hkeep : KeepsEntry node a (before ++ r :: after)) (hr : r.saddr = a) (hacc : Accepted node r) :
    (macRecvCallBack node (tableAfter node before) r).2 =
      if (framesOf node a before).getLast?.map Frame.seq = some r.seq then .duplicate
      else .delivered := by
  obtain ⟨hu, hlast⟩ := kept_last ha hkeep
  have hsaddr : r.saddr ≠ bcastAddress := by rw [hr]; exact ha
  rw [recv_checked hacc hsaddr, (checked_same hu hr).1, hlast]

end Frames

def InRange (q : ℕ) : Prop := 1 ≤ q ∧ q ≤ 255

lemma incSeq_inRange (q : ℕ) (h : InRange q) : InRange (incSeq q) := by
  unfold InRange incSeq at *
  split <;> omega

lemma incSeq_ne (q : ℕ) : incSeq q ≠ q := by
  unfold incSeq
  split <;> omega

lemma incSeq_iterate {q : ℕ} (h : InRange q) (d : ℕ) : incSeq^[d] q = (q - 1 + d) % 255 + 1 := by
  have hrange := h
  obtain ⟨hlow, hhigh⟩ := hrange
  induction d with
  | zero => rw [iterate_zero_apply]; omega
  | succ d ih =>
    rw [iterate_succ_apply', incSeq]
    split <;> omega

lemma incSeq_iterate_eq {q d : ℕ} (h : InRange q) (hd : d < 255) : incSeq^[d] q = q ↔ d = 0 := by
  rw [incSeq_iterate h]
  obtain ⟨hlow, hhigh⟩ := h
  constructor
  · intro heq
    rcases Nat.lt_or_ge (q - 1 + d) 255 with hlt | hge
    · omega
    · omega
  · rintro rfl
    omega

section Delivery

variable {node a : ℕ} {t : List (ℕ × ℕ)} {before after : List Frame} {r : Frame} {q0 : ℕ}

def Frame.pair (r : Frame) : ℕ × ℕ := (r.message, r.seq)

def Hears (a : ℕ) (t : List (ℕ × ℕ)) (rs : List Frame) : Prop :=
  ((rs.filter (fun r => r.saddr = a)).map Frame.pair).Sublist t
  deriving Decidable

/-- Of two messages of the sender that reach the check one after the other, the second is less than
255 messages behind the first. -/
def Near (node a : ℕ) (t : List (ℕ × ℕ)) (rs : List Frame) : Prop :=
  (framesOf node a rs).IsChain (fun x y => number t y.message < number t x.message + 255)
  deriving Decidable

lemma Hears.framesOf {rs : List Frame} (h : Hears a t rs) :
    ((framesOf node a rs).map Frame.pair).Sublist t := by
  have hsub : (VmacReceiver.framesOf node a rs).Sublist (rs.filter (fun r => r.saddr = a)) :=
    monotone_filter_right rs (fun r hr => by simp at hr ⊢; exact hr.1)
  exact (hsub.map _).trans h

lemma seq_eq_iff {x y : Frame} (ht : InOrder incSeq q0 t) (hrange : ∀ z ∈ t, InRange z.2)
    (hx : x.pair ∈ t) (hy : y.pair ∈ t) (hle : number t x.message ≤ number t y.message)
    (hnear : number t y.message < number t x.message + 255) :
    x.seq = y.seq ↔ x.message = y.message := by
  have hdist : y.seq = incSeq^[number t y.message - number t x.message] x.seq :=
    ht.distance hx hy hle
  have hzero := incSeq_iterate_eq (hrange _ hx)
    (show number t y.message - number t x.message < 255 by omega)
  rw [eq_comm, hdist]
  refine hzero.trans ⟨fun hd => ?_, fun heq => ?_⟩
  · exact ht.inj _ hx _ hy (show number t x.message = number t y.message by omega)
  · rw [heq, Nat.sub_self]

lemma dropped_iff_repeated (ha : a ≠ bcastAddress) (ht : InOrder incSeq q0 t)
    (hrange : ∀ z ∈ t, InRange z.2) (hhears : Hears a t (before ++ r :: after))
    (hkeep : KeepsEntry node a (before ++ r :: after))
    (hnear : Near node a t (before ++ r :: after)) (hr : r.saddr = a) (hacc : Accepted node r) :
    (macRecvCallBack node (tableAfter node before) r).2 =
      if ∃ r' ∈ framesOf node a before, r'.message = r.message then .duplicate else .delivered := by
  have hsplit : framesOf node a (before ++ r :: after) =
      framesOf node a before ++ r :: framesOf node a after := by
    simp [framesOf, hr, hacc]
  have hsub : ((framesOf node a (before ++ r :: after)).map Frame.pair).Sublist t := hhears.framesOf
  have hsorted := pairwise_map.mp (ht.sorted.sublist hsub)
  have hmem : ∀ x ∈ framesOf node a (before ++ r :: after), x.pair ∈ t :=
    fun x hx => hsub.subset (mem_map_of_mem hx)
  rw [outcome_of_last ha hkeep hr hacc]
  congr 1
  rw [Near, hsplit] at hnear
  rw [hsplit] at hmem hsorted
  rcases eq_nil_or_concat (framesOf node a before) with hnil | ⟨older, x, hlast⟩
  · simp [hnil]
  · rw [concat_eq_append] at hlast
    rw [hlast] at hmem hsorted hnear ⊢
    -- the frame before this one decides: no message comes back after a later one
    have hstep : number t r.message < number t x.message + 255 := by
      refine (isChain_append.mp hnear).2.2 x (by simp) r rfl
    have hle : ∀ y ∈ older ++ [x], number t y.message ≤ number t r.message := fun y hy =>
      (pairwise_append.mp hsorted).2.2 y hy r mem_cons_self
    have hbefore : ∀ y ∈ older, number t y.message ≤ number t x.message := fun y hy =>
      (pairwise_append.mp (pairwise_append.mp hsorted).1).2.2 y hy x (by simp)
    have hx : x.pair ∈ t := hmem x (by simp)
    have hsame := seq_eq_iff ht hrange hx (hmem r (by simp)) (hle x (by simp)) hstep
    simp only [getLast?_concat, map_some, some.injEq, eq_iff_iff]
    rw [hsame]
    constructor
    · exact fun heq => ⟨x, by simp, heq⟩
    · rintro ⟨y, hy, heq⟩
      rcases mem_append.mp hy with hold | hnew
      · refine ht.inj _ hx _ (hmem r (by simp)) (le_antisymm (hle x (by simp)) ?_)
        show number t r.message ≤ number t x.message
        rw [← heq]
        exact hbefore y hold
      · rw [← mem_singleton.mp hnew, heq]

end Delivery

section Runs

def resetSeq (rand : ℕ) : ℕ := 1 + rand % 255

lemma resetSeq_inRange (rand : ℕ) : InRange (resetSeq rand) := by
  unfold InRange resetSeq
  omega

variable {h h' : History} {e : Event}

structure Numbers (h : History) : Prop where
  inv : Inv h
  repeats : Repeats (view h)
  within : Within InRange (view h)

lemma start_numbers (next : ℕ → Option ℕ) (hdrs : ℕ → Message ℕ) (rand : ℕ) :
    Numbers (start next hdrs (resetSeq rand)) :=
  ⟨start_inv next hdrs _, ⟨nofun, nofun, nofun, nofun, nofun⟩, resetSeq_inRange rand, nofun⟩

lemma watch_numbers (hn : Numbers h) (hp : Possible h.state e) (hw : watch h e = some h') :
    Numbers h' := by
  obtain ⟨hinv, acts, hrun, -⟩ := watch_reaches hn.inv hp hw
  exact ⟨hinv, run_repeats hn.repeats hrun, run_within incSeq_inRange hn.within hrun⟩

lemma watch_ordered (hn : Numbers h ∧ ∃ q, Ordered incSeq q (view h))
    (hl : Possible h.state e ∧ FirstTry h e) (hw : watch h e = some h') :
    Numbers h' ∧ ∃ q, Ordered incSeq q (view h') := by
  obtain ⟨hinv, acts, hrun, hv⟩ := watch_reaches hn.1.inv hl.1 hw
  have hfirst := validTrace_imp (fun _ _ ha _ => ha.2 hl.2) hv hv
  exact ⟨watch_numbers hn.1 hl.1 hw, (run_ordered ⟨hn.1.repeats, hn.2⟩ hfirst hrun).2⟩

/-- In every run all transmissions of one message carry one sequence number. If every message is
first sent at its first attempt, then messages sent one after the other carry different ones, and
a receiver that keeps the sender's entry and is never 255 messages behind drops a frame exactly if
a frame of the same message came in before. -/
theorem messages_told_apart_over_runs (next : ℕ → Option ℕ) (hdrs : ℕ → Message ℕ) (rand : ℕ)
    (es : List Event) (h : History)
    (hv : ValidTrace watch (fun h e => Possible h.state e) (start next hdrs (resetSeq rand)) es)
    (hrun : runTrace watch (start next hdrs (resetSeq rand)) es = some h) :
    (∀ x ∈ transmissions h.log, ∀ y ∈ transmissions h.log, x.1 = y.1 → x.2 = y.2) ∧
    (ValidTrace watch FirstTry (start next hdrs (resetSeq rand)) es →
      (transmissions h.log).IsChain (fun x y => x.1 ≠ y.1 → x.2 ≠ y.2) ∧
      ∀ node a before r after, a ≠ bcastAddress →
        Hears a (transmissions h.log) (before ++ r :: after) →
        KeepsEntry node a (before ++ r :: after) →
        Near node a (transmissions h.log) (before ++ r :: after) →
        r.saddr = a → Accepted node r →
        (macRecvCallBack node (tableAfter node before) r).2 =
          if ∃ r' ∈ framesOf node a before, r'.message = r.message then .duplicate
          else .delivered) := by
  have hnumbers : Numbers h :=
    run_invariant_of_some (fun _ _ _ => watch_numbers) (start_numbers next hdrs rand) hv hrun
  refine ⟨hnumbers.repeats.same, fun hfirst => ?_⟩
  have hstart : ∃ q, Ordered incSeq q (view (start next hdrs (resetSeq rand))) :=
    ⟨0, .nil, fun hne => absurd rfl hne, nofun⟩
  obtain ⟨hnum, q0, hord⟩ := run_invariant_of_some (fun _ _ _ => watch_ordered)
    ⟨start_numbers next hdrs rand, hstart⟩ (validTrace_imp (fun _ _ => And.intro) hv hfirst) hrun
  refine ⟨?_, ?_⟩
  · refine hord.inOrder.adjacent.imp (fun x y hxy hne heq => ?_)
    exact incSeq_ne x.2 ((hxy hne).symm.trans heq.symm)
  · intro node a before r after ha hhears hkeep hnear hr hacc
    exact dropped_iff_repeated ha hord.inOrder hnum.within.2 hhears hkeep hnear hr hacc

instance (h : History) (e) : Decidable (FirstTry h e) := by
  unfold VmacHistory.FirstTry
  split <;> infer_instance

def bothRepeated : List Event :=
  [.alloc 1 (messageTo 3) true true, .alloc 2 (messageTo 3) true true, .timeout true true,
    .recvAck 8 true, .acked true true, .timeout true true]

def frameOf (message seq : ℕ) : Frame := ⟨3, 5, seq, true, message⟩

theorem messages_told_apart_sample :
    ∃ h, runTrace watch (start (fun _ => none) (fun _ => messageTo 3) (resetSeq 6)) bothRepeated =
        some h ∧
      (transmissions h.log).IsChain (fun x y => x.1 ≠ y.1 → x.2 ≠ y.2) ∧
      (macRecvCallBack 3 (tableAfter 3 [frameOf 0 8, frameOf 1 9]) (frameOf 1 9)).2 =
        .duplicate := by
  obtain ⟨h, hrun, hlog⟩ : ∃ h,
      runTrace watch (start (fun _ => none) (fun _ => messageTo 3) (resetSeq 6)) bothRepeated =
        some h ∧ transmissions h.log = [(0, 8), (0, 8), (1, 9), (1, 9)] := by decide +kernel
  have htold :=
    messages_told_apart_over_runs (fun _ => none) (fun _ => messageTo 3) 6 bothRepeated h
    (by decide +kernel) hrun
  obtain ⟨hchain, hdrop⟩ := htold.2 (by decide +kernel)
  refine ⟨h, hrun, hchain, ?_⟩
  rw [hlog] at hdrop
  exact hdrop 3 5 [frameOf 0 8, frameOf 1 9] (frameOf 1 9) [] (by decide) (by decide +kernel)
    (by decide +kernel) (by decide +kernel) rfl (by decide)

def busyAtFirst : List Event :=
  [.alloc 1 (messageTo 3) true true, .recvAck 8 true, .acked true true,
    .alloc 2 (messageTo 3) false true, .timeout true true]

/-- The channel is busy when the second message is tried first. It is sent later with the number
of the first message, and the receiver drops it. The same happens to the message that is 255
messages behind the one the receiver has seen, whatever the channel does. -/
theorem busy_channel_loses_message :
    ValidTrace watch (fun h e => Possible h.state e)
      (start (fun _ => none) (fun _ => messageTo 3) (resetSeq 6)) busyAtFirst ∧
    (runTrace watch (start (fun _ => none) (fun _ => messageTo 3) (resetSeq 6)) busyAtFirst).elim
      False (fun h => transmissions h.log = [(0, 8), (1, 8)]) ∧
    KeepsEntry 3 5 [frameOf 0 8, frameOf 1 8] ∧
    (macRecvCallBack 3 (tableAfter 3 [frameOf 0 8]) (frameOf 1 8)).2 = .duplicate ∧
    (macRecvCallBack 3 (tableAfter 3 [frameOf 0 8]) (frameOf 255 (incSeq^[255] 8))).2 =
      .duplicate := by
  decide +kernel

end Runs

end VmacReceiver
