import SosKernel.GuardedRuns
import Mathlib.Data.Finset.Card
import Mathlib.Data.List.Chain
import Mathlib.Data.List.TakeWhile

/-! # A stop-and-wait sender

One message at a time is on its way. A message may want an acknowledgement; then it is repeated
up to a limit of attempts. -/
namespace StopAndWait

open GuardedRuns List Option Function

variable {ι α : Type*} {q0 : α} {wanted succ : Bool} {P : α → Prop}

inductive Entry (ι α : Type*) where
  | sent (n : ι) (q : α)
  | ack (q : α)
  | done (n : ι) (wanted succ : Bool)
  deriving DecidableEq, Repr

structure Sender (ι α : Type*) where
  current : Option (ι × Bool)
  attempts : ℕ
  seq : α
  waiting : Bool
  pending : ℕ
  log : List (Entry ι α)

section

variable (log : List (Entry ι α))

def transmissions : List (ι × α) :=
  log.filterMap (fun
    | .sent n q => some (n, q)
    | _ => none)

def sentMessages : List ι := (transmissions log).map Prod.fst

/-- After message `n` was sent, an acknowledgement with the same sequence number came in. -/
def Acknowledged (n : ι) : Prop :=
  ∃ before after q, log = before ++ after ∧ .sent n q ∈ before ∧ .ack q ∈ after

/-- Success is reported of a message that wants an acknowledgement only if it got one. -/
def Truthful : Prop :=
  ∀ before after n, log = before ++ .done n true true :: after → Acknowledged before n

end

inductive Act (ι α : Type*) where
  | hear (q : α) (noted : Bool)
  | start (n : ι) (wanted : Bool)
  | clear
  | busy
  | finish

def close (s : Sender ι α) (n : ι) (wanted succ : Bool) : Sender ι α :=
  { s with
    current := none, attempts := 0, waiting := false, log := s.log ++ [.done n wanted succ] }

section Step

variable [DecidableEq ι] [DecidableEq α] (next : α → α) (limit : ℕ)

def step (s : Sender ι α) : Act ι α → Option (Sender ι α)
  | .hear q noted =>
    some { s with
      pending := if s.waiting ∧ s.seq = q ∧ noted then s.pending + 1 else s.pending
      log := s.log ++ [.ack q] }
  | .start n wanted =>
    if s.current = none ∧ n ∉ sentMessages s.log then
      some { s with current := some (n, wanted), attempts := 0 }
    else none
  | .clear =>
    s.current.map (fun (n, wanted) =>
      let q := if s.attempts = 0 then next s.seq else s.seq
      let s := { s with seq := q, log := s.log ++ [.sent n q] }
      if wanted = false then close s n wanted true
      else if s.attempts < limit then { s with waiting := true, attempts := s.attempts + 1 }
      else close s n wanted false)
  | .busy =>
    s.current.map (fun (n, wanted) =>
      if s.attempts < limit then { s with waiting := false, attempts := s.attempts + 1 }
      else close s n wanted false)
  | .finish =>
    s.current.bind (fun (n, wanted) =>
      if 0 < s.pending then some (close { s with pending := s.pending - 1 } n wanted true)
      else none)

/-- No acknowledgement outlives its message: at most one is pending when the message is closed
with it, and none when the message is given up. -/
def Prompt (s : Sender ι α) : Act ι α → Prop
  | .finish => s.pending = 1
  | .clear | .busy => s.pending = 0 ∨ s.attempts < limit
  | _ => True

def FirstTry (s : Sender ι α) : Act ι α → Prop
  | .clear => s.attempts = 0 ∨ (∃ c, s.current = some c ∧ c.1 ∈ sentMessages s.log) ∨
      transmissions s.log = []
  | _ => True

end Step

section Logs

variable {log log' : List (Entry ι α)} {n : ι} {q : α}

@[simp]
lemma transmissions_append :
    transmissions (log ++ log') = transmissions log ++ transmissions log' :=
  filterMap_append

@[simp]
lemma transmissions_nil : transmissions ([] : List (Entry ι α)) = [] := rfl

@[simp]
lemma transmissions_sent : transmissions (.sent n q :: log) = (n, q) :: transmissions log := rfl

@[simp]
lemma transmissions_ack : transmissions (.ack q :: log) = transmissions log := rfl

@[simp]
lemma transmissions_done :
    transmissions (.done n wanted succ :: log) = transmissions log := rfl

lemma mem_sentMessages : n ∈ sentMessages log ↔ ∃ x ∈ transmissions log, x.1 = n := by
  simp [sentMessages]

lemma Acknowledged.append (h : Acknowledged log n) : Acknowledged (log ++ log') n := by
  obtain ⟨before, after, q, rfl, hsent, hack⟩ := h
  exact ⟨before, after ++ log', q, append_assoc .., hsent, mem_append_left _ hack⟩

lemma acknowledged_of_ack (h : .sent n q ∈ log) : Acknowledged (log ++ [.ack q]) n :=
  ⟨log, [.ack q], q, rfl, h, mem_singleton_self _⟩

lemma Truthful.concat {x : Entry ι α} (h : Truthful log)
    (hx : ∀ n, x = .done n true true → Acknowledged log n) : Truthful (log ++ [x]) := by
  intro before after n heq
  rcases eq_nil_or_concat after with rfl | ⟨rest, y, rfl⟩
  · obtain ⟨rfl, hdone⟩ := append_inj' heq rfl
    exact hx n (singleton_inj.mp hdone)
  · rw [concat_eq_append, ← cons_append, ← append_assoc] at heq
    obtain ⟨hlog, -⟩ := append_inj' heq rfl
    exact h before rest n hlog

end Logs

section Reports

variable {next : α → α} {limit : ℕ} {s s' : Sender ι α}

/-- What is waited for was sent with the current number, and what is pending is an acknowledgement
of the current message. -/
structure Heard (s : Sender ι α) : Prop where
  truthful : Truthful s.log
  waiting : s.waiting = true → ∃ n, s.current = some (n, true) ∧ .sent n s.seq ∈ s.log
  pending : 0 < s.pending → ∃ n, s.current = some (n, true) ∧ Acknowledged s.log n

lemma close_heard {n : ι} (h : Truthful s.log) (hnone : s.pending = 0)
    (hack : wanted = true → succ = true → Acknowledged s.log n) :
    Heard (close s n wanted succ) := by
  refine ⟨h.concat ?_, ?_, fun hpos => ?_⟩
  · rintro n ⟨⟩
    exact hack rfl rfl
  · rintro ⟨⟩
  · exact absurd hnone (Nat.ne_of_gt hpos)

variable [DecidableEq ι] [DecidableEq α]

lemma step_heard {a : Act ι α} (h : Heard s) (hp : Prompt limit s a)
    (hs : step next limit s a = some s') : Heard s' := by
  cases a with
  | hear q noted =>
    cases hs
    have hlog : Truthful (s.log ++ [.ack q]) := h.truthful.concat (by rintro n ⟨⟩)
    refine ⟨hlog, fun hwait => ?_, fun hpos => ?_⟩
    · obtain ⟨n, hcur, hsent⟩ := h.waiting hwait
      exact ⟨n, hcur, mem_append_left _ hsent⟩
    · split at hpos
      next hok =>
        obtain ⟨n, hcur, hsent⟩ := h.waiting hok.1
        rw [hok.2.1] at hsent
        exact ⟨n, hcur, acknowledged_of_ack hsent⟩
      next =>
        obtain ⟨n, hcur, hack⟩ := h.pending hpos
        exact ⟨n, hcur, hack.append⟩
  | start n wanted =>
    simp only [step, ite_none_right_eq_some, some.injEq] at hs
    obtain ⟨⟨hnone, -⟩, rfl⟩ := hs
    refine ⟨h.truthful, fun hwait => ?_, fun hpos => ?_⟩
    · obtain ⟨n, hcur, -⟩ := h.waiting hwait
      cases hnone.symm.trans hcur
    · obtain ⟨n, hcur, -⟩ := h.pending hpos
      cases hnone.symm.trans hcur
  | clear =>
    obtain ⟨⟨n, wanted⟩, hcur, rfl⟩ := map_eq_some_iff.mp hs
    generalize (if s.attempts = 0 then next s.seq else s.seq) = q
    have hlog : Truthful (s.log ++ [.sent n q]) := h.truthful.concat (by rintro n ⟨⟩)
    have hpend : 0 < s.pending → wanted = true ∧ Acknowledged s.log n := by
      intro hpos
      obtain ⟨m, hm, hack⟩ := h.pending hpos
      cases hcur.symm.trans hm
      exact ⟨rfl, hack⟩
    cases wanted with
    | false =>
      have hnone : s.pending = 0 := by
        by_contra hne
        cases (hpend (Nat.pos_of_ne_zero hne)).1
      exact close_heard hlog hnone (fun hw => by cases hw)
    | true =>
      by_cases hmore : s.attempts < limit
      · simp only [Bool.true_eq_false, if_false, if_pos hmore]
        refine ⟨hlog, fun _ => ?_, fun hpos => ?_⟩
        · exact ⟨n, hcur, mem_append_right _ (mem_singleton_self _)⟩
        · exact ⟨n, hcur, (hpend hpos).2.append⟩
      · simp only [Bool.true_eq_false, if_false, if_neg hmore]
        exact close_heard hlog (hp.resolve_right hmore) (fun _ hw => by cases hw)
  | busy =>
    obtain ⟨⟨n, wanted⟩, hcur, rfl⟩ := map_eq_some_iff.mp hs
    by_cases hmore : s.attempts < limit
    · simp only [if_pos hmore]
      exact ⟨h.truthful, fun hwait => (by cases hwait), h.pending⟩
    · simp only [if_neg hmore]
      exact close_heard h.truthful (hp.resolve_right hmore) (fun _ hw => by cases hw)
  | finish =>
    obtain ⟨⟨n, wanted⟩, hcur, hfin⟩ := bind_eq_some_iff.mp hs
    simp only [ite_none_right_eq_some, some.injEq] at hfin
    obtain ⟨hpos, rfl⟩ := hfin
    obtain ⟨m, hm, hack⟩ := h.pending hpos
    cases hcur.symm.trans hm
    have hone : s.pending = 1 := hp
    exact close_heard h.truthful (by rw [hone]) (fun _ _ => hack)

lemma run_heard {acts : List (Act ι α)} (h : Heard s)
    (hv : ValidTrace (step next limit) (Prompt limit) s acts)
    (hrun : runTrace (step next limit) s acts = some s') : Heard s' :=
  run_invariant_of_some (fun _ _ _ => step_heard) h hv hrun

end Reports

section Numbers

variable {t : List (ι × α)} {n : ι} {q : α}

lemma mem_fst {x : ι × α} (h : x ∈ t) : x.1 ∈ t.map Prod.fst := mem_map_of_mem h

variable [DecidableEq ι]

def number (t : List (ι × α)) (n : ι) : ℕ :=
  ((t.takeWhile (fun x => x.1 ≠ n)).map Prod.fst).toFinset.card

def messages (t : List (ι × α)) : ℕ := (t.map Prod.fst).toFinset.card

lemma number_lt (h : n ∈ t.map Prod.fst) : number t n < messages t := by
  refine Finset.card_lt_card (Finset.ssubset_iff_subset_ne.mpr ⟨?_, fun heq => ?_⟩)
  · intro m hm
    rw [List.mem_toFinset] at hm ⊢
    exact ((takeWhile_sublist _).map _).subset hm
  · rw [← List.mem_toFinset, ← heq, List.mem_toFinset] at h
    obtain ⟨x, hx, rfl⟩ := mem_map.mp h
    simpa using mem_takeWhile_imp hx

lemma number_append (h : n ∈ t.map Prod.fst) (l : List (ι × α)) :
    number (t ++ l) n = number t n := by
  obtain ⟨x, hx, rfl⟩ := mem_map.mp h
  have hstop : t.takeWhile (fun y => y.1 ≠ x.1) ≠ t := by
    intro heq
    rw [← heq] at hx
    simpa using mem_takeWhile_imp hx
  have hlen : (t.takeWhile (fun y => y.1 ≠ x.1)).length ≠ t.length := fun hlen =>
    hstop ((takeWhile_sublist _).eq_of_length hlen)
  rw [number, takeWhile_append, if_neg hlen, number]

lemma number_new (h : n ∉ t.map Prod.fst) : number (t ++ [(n, q)]) n = messages t := by
  have hall : t.takeWhile (fun x => x.1 ≠ n) = t := by
    refine takeWhile_eq_self_iff.mpr (fun x hx => ?_)
    simp only [ne_eq, decide_not, Bool.not_eq_eq_eq_not, Bool.not_true, decide_eq_false_iff_not]
    rintro rfl
    exact h (mem_map_of_mem hx)
  rw [number, takeWhile_append, if_pos (by rw [hall])]
  simp [messages]

lemma messages_new (h : n ∉ t.map Prod.fst) : messages (t ++ [(n, q)]) = messages t + 1 := by
  have hset : ((t ++ [(n, q)]).map Prod.fst).toFinset = insert n (t.map Prod.fst).toFinset := by
    simp
  rw [messages, hset, Finset.card_insert_of_notMem (by simpa using h), messages]

lemma messages_again (h : n ∈ t.map Prod.fst) : messages (t ++ [(n, q)]) = messages t := by
  have hset : ((t ++ [(n, q)]).map Prod.fst).toFinset = (t.map Prod.fst).toFinset := by
    ext m
    simp only [map_append, map_cons, map_nil, List.mem_toFinset, mem_append,
      mem_singleton, or_iff_left_iff_imp]
    rintro rfl
    exact h
  rw [messages, hset, messages]

/-- The numbers of the messages are consecutive from `q₀` on, and no message comes back after a
later one. -/
structure InOrder (next : α → α) (q₀ : α) (t : List (ι × α)) : Prop where
  numbers : ∀ x ∈ t, x.2 = next^[number t x.1] q₀
  sorted : t.Pairwise (fun x y => number t x.1 ≤ number t y.1)
  inj : ∀ x ∈ t, ∀ y ∈ t, number t x.1 = number t y.1 → x.1 = y.1
  last : ∀ x ∈ t.getLast?, number t x.1 + 1 = messages t
  adjacent : t.IsChain (fun x y => x.1 ≠ y.1 → y.2 = next x.2)

lemma InOrder.nil {next : α → α} : InOrder next q0 ([] : List (ι × α)) :=
  ⟨by simp, .nil, by simp, by simp, .nil⟩

lemma InOrder.concat {next : α → α} {k : ℕ} (h : InOrder next q0 t)
    (hk : number (t ++ [(n, q)]) n = k) (hm : messages (t ++ [(n, q)]) = k + 1)
    (hq : q = next^[k] q0) (hle : ∀ x ∈ t, number t x.1 ≤ k)
    (hinj : ∀ x ∈ t, number t x.1 = k → x.1 = n) (hadj : k ≤ messages t) :
    InOrder next q0 (t ++ [(n, q)]) := by
  have hold : ∀ x ∈ t, number (t ++ [(n, q)]) x.1 = number t x.1 :=
    fun x hx => number_append (mem_fst hx) _
  refine ⟨?_, ?_, ?_, ?_, ?_⟩
  · intro x hx
    rcases mem_append.mp hx with hx | hx
    · rw [hold x hx, h.numbers x hx]
    · rw [mem_singleton.mp hx, hk, hq]
  · refine pairwise_append.mpr ⟨?_, pairwise_singleton _ _, ?_⟩
    · refine h.sorted.imp_of_mem (fun hx hy hxy => ?_)
      rwa [hold _ hx, hold _ hy]
    · intro x hx y hy
      rw [mem_singleton.mp hy, hold x hx, hk]
      exact hle x hx
  · intro x hx y hy hxy
    rcases mem_append.mp hx with hx | hx <;> rcases mem_append.mp hy with hy | hy
    · rw [hold x hx, hold y hy] at hxy
      exact h.inj x hx y hy hxy
    · rw [mem_singleton.mp hy, hold x hx, hk] at hxy
      rw [mem_singleton.mp hy]
      exact hinj x hx hxy
    · rw [mem_singleton.mp hx, hold y hy, hk] at hxy
      rw [mem_singleton.mp hx]
      exact (hinj y hy hxy.symm).symm
    · rw [mem_singleton.mp hx, mem_singleton.mp hy]
  · simp [hk, hm]
  · refine isChain_append.mpr ⟨h.adjacent, .singleton _, ?_⟩
    rintro x hx y ⟨⟩ hne
    -- the last message has the highest number so far, and a new one follows it
    have hmem := mem_of_mem_getLast? hx
    have hlast := h.last x hx
    have hlt := lt_of_le_of_ne (hle x hmem) (fun heq => hne (hinj x hmem heq))
    have hnext : k = number t x.1 + 1 := by omega
    rw [hq, h.numbers x hmem, hnext, iterate_succ_apply']

lemma InOrder.distance {next : α → α} {x y : ι × α} (h : InOrder next q0 t)
    (hx : x ∈ t) (hy : y ∈ t) (hle : number t x.1 ≤ number t y.1) :
    y.2 = next^[number t y.1 - number t x.1] x.2 := by
  rw [h.numbers x hx, ← iterate_add_apply, Nat.sub_add_cancel hle, h.numbers y hy]

end Numbers

section Sequence

variable {next : α → α} {limit : ℕ} {s s' : Sender ι α}

/-- What a step does to the transmissions: nothing, it starts a message that was never sent, or it
sends the current one. -/
inductive Moves (next : α → α) (s s' : Sender ι α) : Act ι α → Prop
  | quiet {a : Act ι α} (hsent : transmissions s'.log = transmissions s.log)
      (hseq : s'.seq = s.seq)
      (hcur : ∀ c, s'.current = some c →
        s.current = some c ∧ (s'.attempts = 0 → s.attempts = 0)) : Moves next s s' a
  | starts {a : Act ι α} (c : ι × Bool) (hcur : s'.current = some c)
      (hnew : c.1 ∉ sentMessages s.log) (hsent : transmissions s'.log = transmissions s.log)
      (hseq : s'.seq = s.seq) : Moves next s s' a
  | sends (c : ι × Bool) (hcur : s.current = some c)
      (hsent : transmissions s'.log = transmissions s.log ++ [(c.1, s'.seq)])
      (hseq : s'.seq = if s.attempts = 0 then next s.seq else s.seq)
      (hnext : ∀ d, s'.current = some d → d = c ∧ s'.attempts ≠ 0) : Moves next s s' .clear

lemma step_moves [DecidableEq ι] [DecidableEq α] {a : Act ι α}
    (hs : step next limit s a = some s') : Moves next s s' a := by
  cases a with
  | hear q noted =>
    cases hs
    exact .quiet (by simp) rfl (fun c hc => ⟨hc, id⟩)
  | start n wanted =>
    simp only [step, ite_none_right_eq_some, some.injEq] at hs
    obtain ⟨⟨-, hnew⟩, rfl⟩ := hs
    exact .starts (n, wanted) rfl hnew rfl rfl
  | clear =>
    obtain ⟨⟨n, wanted⟩, hcur, rfl⟩ := map_eq_some_iff.mp hs
    by_cases hw : wanted = false
    · simp only [if_pos hw]
      exact .sends (n, wanted) hcur (by simp [close]) rfl (by rintro d ⟨⟩)
    · by_cases hmore : s.attempts < limit
      · simp only [if_neg hw, if_pos hmore]
        refine .sends (n, wanted) hcur (by simp) rfl (fun d hd => ⟨?_, Nat.succ_ne_zero _⟩)
        exact some.inj (hd.symm.trans hcur)
      · simp only [if_neg hw, if_neg hmore]
        exact .sends (n, wanted) hcur (by simp [close]) rfl (by rintro d ⟨⟩)
  | busy =>
    obtain ⟨⟨n, wanted⟩, hcur, rfl⟩ := map_eq_some_iff.mp hs
    by_cases hmore : s.attempts < limit
    · simp only [if_pos hmore]
      exact .quiet rfl rfl (fun c hc => ⟨hc, fun hz => absurd hz (Nat.succ_ne_zero _)⟩)
    · simp only [if_neg hmore]
      exact .quiet (by simp [close]) rfl (by rintro c ⟨⟩)
  | finish =>
    obtain ⟨⟨n, wanted⟩, hcur, hfin⟩ := bind_eq_some_iff.mp hs
    simp only [ite_none_right_eq_some, some.injEq] at hfin
    obtain ⟨-, rfl⟩ := hfin
    exact .quiet (by simp [close]) rfl (by rintro c ⟨⟩)

/-- All transmissions of one message carry one number, and the current message is the one sent last
once it was sent. -/
structure Repeats (s : Sender ι α) : Prop where
  same : ∀ x ∈ transmissions s.log, ∀ y ∈ transmissions s.log, x.1 = y.1 → x.2 = y.2
  last : ∀ x ∈ (transmissions s.log).getLast?, x.2 = s.seq
  current : ∀ c, s.current = some c → ∀ x ∈ transmissions s.log, x.1 = c.1 → x.2 = s.seq
  recent : ∀ c, s.current = some c → c.1 ∈ sentMessages s.log →
    ∀ x ∈ (transmissions s.log).getLast?, x.1 = c.1
  first : ∀ c, s.current = some c → s.attempts = 0 → c.1 ∉ sentMessages s.log

variable {a : Act ι α}

lemma Moves.repeats (hm : Moves next s s' a) (h : Repeats s) : Repeats s' := by
  cases hm with
  | quiet hsent hseq hcur =>
    refine ⟨?_, ?_, ?_, ?_, ?_⟩ <;> simp only [sentMessages, hsent, hseq]
    · exact h.same
    · exact h.last
    · exact fun c hc => h.current c (hcur c hc).1
    · exact fun c hc => h.recent c (hcur c hc).1
    · exact fun c hc hz => h.first c (hcur c hc).1 ((hcur c hc).2 hz)
  | starts c hcur hnew hsent hseq =>
    have hc : ∀ d, s'.current = some d → d = c := fun d hd => some.inj (hd.symm.trans hcur)
    refine ⟨?_, ?_, ?_, ?_, ?_⟩ <;> simp only [sentMessages, hsent, hseq]
    · exact h.same
    · exact h.last
    · intro d hd x hx hxd
      rw [hc d hd] at hxd
      exact absurd (mem_sentMessages.mpr ⟨x, hx, hxd⟩) hnew
    · intro d hd hmem
      rw [hc d hd] at hmem
      exact absurd hmem hnew
    · intro d hd _
      rw [hc d hd]
      exact hnew
  | sends c hcur hsent hseq hnext =>
    have hold : ∀ x ∈ transmissions s.log, x.1 = c.1 → x.2 = s'.seq := by
      intro x hx hxc
      have hne : s.attempts ≠ 0 := fun hz => h.first c hcur hz (mem_sentMessages.mpr ⟨x, hx, hxc⟩)
      rw [h.current c hcur x hx hxc, hseq, if_neg hne]
    refine ⟨?_, ?_, ?_, ?_, fun d hd hz => absurd hz (hnext d hd).2⟩ <;> simp only [hsent]
    · intro x hx y hy hxy
      simp only [mem_append, mem_singleton] at hx hy
      rcases hx with hx | rfl <;> rcases hy with hy | rfl
      · exact h.same x hx y hy hxy
      · exact hold x hx hxy
      · exact (hold y hy hxy.symm).symm
      · rfl
    · simp
    · intro d hd x hx hxd
      rw [(hnext d hd).1] at hxd
      rcases mem_append.mp hx with hx | hx
      · exact hold x hx hxd
      · rw [mem_singleton.mp hx]
    · intro d hd _
      rw [(hnext d hd).1]
      simp

def Within (P : α → Prop) (s : Sender ι α) : Prop := P s.seq ∧ ∀ x ∈ transmissions s.log, P x.2

lemma Moves.within (hm : Moves next s s' a) (hP : ∀ q, P q → P (next q))
    (h : Within P s) : Within P s' := by
  cases hm with
  | quiet hsent hseq => exact ⟨hseq ▸ h.1, hsent ▸ h.2⟩
  | starts c hcur hnew hsent hseq => exact ⟨hseq ▸ h.1, hsent ▸ h.2⟩
  | sends c hcur hsent hseq =>
    have hq : P s'.seq := by
      rw [hseq]
      split
      · exact hP _ h.1
      · exact h.1
    refine ⟨hq, fun x hx => ?_⟩
    rw [hsent] at hx
    rcases mem_append.mp hx with hx | hx
    · exact h.2 x hx
    · rw [mem_singleton.mp hx]
      exact hq

variable [DecidableEq ι]

structure Ordered (next : α → α) (q₀ : α) (s : Sender ι α) : Prop where
  inOrder : InOrder next q₀ (transmissions s.log)
  seq : transmissions s.log ≠ [] → s.seq = next^[messages (transmissions s.log) - 1] q₀
  top : ∀ c, s.current = some c → c.1 ∈ sentMessages s.log →
    number (transmissions s.log) c.1 + 1 = messages (transmissions s.log)

lemma Moves.ordered (hm : Moves next s s' a) (hf : FirstTry s a) (hr : Repeats s)
    (h : Ordered next q0 s) : ∃ q, Ordered next q s' := by
  cases hm with
  | quiet hsent hseq hcur =>
    refine ⟨q0, ?_, ?_, ?_⟩ <;> simp only [sentMessages, hsent, hseq]
    · exact h.inOrder
    · exact h.seq
    · exact fun c hc => h.top c (hcur c hc).1
  | starts c hcur hnew hsent hseq =>
    refine ⟨q0, ?_, ?_, ?_⟩ <;> simp only [sentMessages, hsent, hseq]
    · exact h.inOrder
    · exact h.seq
    · intro d hd hmem
      cases hd.symm.trans hcur
      exact absurd hmem hnew
  | sends c hcur hsent hseq hnext =>
    have hfst : ∀ d, s'.current = some d → d.1 = c.1 := fun d hd => by rw [(hnext d hd).1]
    by_cases hmem : c.1 ∈ sentMessages s.log
    · -- the current message again, with the number it has
      have hne : s.attempts ≠ 0 := fun hz => hr.first c hcur hz hmem
      have htop := h.top c hcur hmem
      have hnil : transmissions s.log ≠ [] := by
        rintro hnil
        simp [sentMessages, hnil] at hmem
      have hq : s'.seq = next^[number (transmissions s.log) c.1] q0 := by
        rw [hseq, if_neg hne, h.seq hnil, ← htop, Nat.add_sub_cancel]
      refine ⟨q0, ?_, fun _ => ?_, fun d hd _ => ?_⟩ <;> rw [hsent]
      · refine h.inOrder.concat (number_append hmem _) ((messages_again hmem).trans htop.symm) hq
          (fun x hx => ?_) (fun x hx heq => ?_) (by omega)
        · have := number_lt (mem_fst hx)
          omega
        · obtain ⟨y, hy, hyc⟩ := mem_sentMessages.mp hmem
          rw [← hyc] at heq ⊢
          exact h.inOrder.inj x hx y hy heq
      · rw [messages_again hmem, ← htop, Nat.add_sub_cancel, hq]
      · rw [hfst d hd, messages_again hmem, number_append hmem, htop]
    · have hnew : number (transmissions s.log ++ [(c.1, s'.seq)]) c.1 =
          messages (transmissions s.log) := number_new hmem
      obtain ⟨q, hin, hq⟩ : ∃ q, InOrder next q (transmissions s.log) ∧
          s'.seq = next^[messages (transmissions s.log)] q := by
        by_cases hnil : transmissions s.log = []
        · refine ⟨s'.seq, ?_, ?_⟩ <;> rw [hnil]
          · exact .nil
          · rfl
        · refine ⟨q0, h.inOrder, ?_⟩
          rcases hf with hz | ⟨d, hd, hsent⟩ | hnone
          · have hpos : 0 < messages (transmissions s.log) := by
              obtain ⟨x, hx⟩ := exists_mem_of_ne_nil _ hnil
              exact Nat.zero_lt_of_lt (number_lt (mem_fst hx))
            have hone : (messages (transmissions s.log) - 1).succ =
                messages (transmissions s.log) := Nat.sub_add_cancel hpos
            rw [hseq, if_pos hz, h.seq hnil, ← iterate_succ_apply' next, hone]
          · cases hd.symm.trans hcur
            exact absurd hsent hmem
          · exact absurd hnone hnil
      refine ⟨q, ?_, fun _ => ?_, fun d hd _ => ?_⟩ <;> rw [hsent]
      · refine hin.concat hnew (messages_new hmem) hq (fun x hx => ?_) (fun x hx heq => ?_) le_rfl
        · exact (number_lt (mem_fst hx)).le
        · exact absurd heq (number_lt (mem_fst hx)).ne
      · rw [messages_new hmem, Nat.add_sub_cancel, hq]
      · rw [hfst d hd, messages_new hmem, hnew]

variable [DecidableEq α] {acts : List (Act ι α)}

lemma run_repeats (h : Repeats s) (hrun : runTrace (step next limit) s acts = some s') :
    Repeats s' :=
  run_invariant_of_some (fun _ _ _ h _ hs => (step_moves hs).repeats h) h
    (validTrace_of_forall (fun _ _ => trivial) s) hrun

lemma run_within (hP : ∀ q, P q → P (next q)) (h : Within P s)
    (hrun : runTrace (step next limit) s acts = some s') : Within P s' :=
  run_invariant_of_some (fun _ _ _ h _ hs => (step_moves hs).within hP h) h
    (validTrace_of_forall (fun _ _ => trivial) s) hrun

lemma run_ordered (h : Repeats s ∧ ∃ q, Ordered next q s)
    (hv : ValidTrace (step next limit) FirstTry s acts)
    (hrun : runTrace (step next limit) s acts = some s') : Repeats s' ∧ ∃ q, Ordered next q s' := by
  have hstep : ∀ (s : Sender ι α) a u, (Repeats s ∧ ∃ q, Ordered next q s) → FirstTry s a →
      step next limit s a = some u → Repeats u ∧ ∃ q, Ordered next q u := by
    rintro s a u ⟨hr, q, ho⟩ hf hs
    exact ⟨(step_moves hs).repeats hr, (step_moves hs).ordered hf hr ho⟩
  exact run_invariant_of_some hstep h hv hrun

end Sequence

end StopAndWait
