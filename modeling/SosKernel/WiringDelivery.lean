import SosKernel.WiringLinks
import SosKernel.WiringRoutes

/-! # Tokens are delivered in order

As long as memory does not run out and elements return `SOS_OK` or `-EBUSY`, an input port gets
the tokens that were dispatched to it, in order. A token waits only while its port is busy. -/
namespace WiringDelivery

open WiringEngine WiringTokens WiringLinks GuardedRuns List Function
open WiringRoutes (board star idle configOf)

variable {mask : ℕ → BitVec 8} {epid port posts serial e : ℕ} {l l' : List Node} {n : Node}
  {s t : Flow}

def portReady (mask : ℕ → BitVec 8) (epid port : ℕ) : Bool := (mask epid).getLsbD (7 - port)

lemma getPortFromPidPort_lt (p : ℕ) : getPortFromPidPort p < 8 :=
  Nat.lt_of_le_of_lt Nat.and_le_right (by decide)

lemma getPortFromPidPort_of_lt (h : port < 8) : getPortFromPidPort port = port := by
  revert port
  decide

lemma isElementReady_eq (mask : ℕ → BitVec 8) (p : ℕ) : isElementReady mask p =
    portReady mask (getEpidFromPidPort p) (getPortFromPidPort p) := by
  have htop : ∀ (m : BitVec 8) (q : Fin 8),
      decide ((m <<< (q.val % 8)) &&& 0x80#8 > 0#8) = m.getLsbD (7 - q.val) := by
    decide +kernel
  exact htop (mask _) ⟨getPortFromPidPort p, getPortFromPidPort_lt p⟩

lemma pidPort_fields (he : epid < 16) (hp : port < 8) :
    getEpidFromPidPort ((epid <<< rtableInputPortBits ||| port) % 256) = epid ∧
      getPortFromPidPort ((epid <<< rtableInputPortBits ||| port) % 256) = port := by
  have hall : ∀ (e : Fin 16) (q : Fin 8),
      getEpidFromPidPort ((e.val <<< rtableInputPortBits ||| q.val) % 256) = e.val ∧
        getPortFromPidPort ((e.val <<< rtableInputPortBits ||| q.val) % 256) = q.val := by
    decide
  exact hall ⟨epid, he⟩ ⟨port, hp⟩

variable {q token : ℕ}

lemma portReady_busy (hp : port < 8) (hq : q < 8) :
    portReady (setElementStatus mask epid port .elementBusy) e q =
      (portReady mask e q && !decide (epid = e ∧ port = q)) := by
  have hbit : ∀ p q : Fin 8,
      (0x80#8 >>> (p.val % 8)).getLsbD (7 - q.val) = decide (p.val = q.val) := by decide
  by_cases he : epid = e
  · subst he
    have hlt : 7 - q < 8 := by omega
    simp only [portReady, setElementStatus, update_self, BitVec.getLsbD_and,
      BitVec.getLsbD_not, hbit ⟨port, hp⟩ ⟨q, hq⟩, hlt, decide_true, Bool.true_and, true_and]
  · simp [portReady, setElementStatus, he, Ne.symm he]

lemma portReady_ready (hq : q < 8) :
    portReady (setElementStatus mask epid 0 .elementReady) e q =
      (portReady mask e q || decide (epid = e)) := by
  have hall : ∀ q : Fin 8, (0xFF#8).getLsbD (7 - q.val) = true := by decide
  by_cases he : epid = e
  · subst he
    simp only [portReady, setElementStatus, update_self, hall ⟨q, hq⟩, decide_true, Bool.or_true]
  · simp [portReady, setElementStatus, he, Ne.symm he]

def unhandled (l : List Node) (port : ℕ) : List Node :=
  l.filter (fun n => n.status ≠ .handled ∧ n.portId = port)

lemma mem_unhandled : n ∈ unhandled l port ↔ n ∈ l ∧ n.status ≠ .handled ∧ n.portId = port := by
  simp [unhandled]

lemma unhandled_cons (n : Node) : unhandled (n :: l) port =
    if n.status ≠ .handled ∧ n.portId = port then n :: unhandled l port else unhandled l port := by
  unfold unhandled
  rw [filter_cons]
  simp only [decide_eq_true_eq]

lemma unhandled_markHandled :
    unhandled (markHandled serial l) port =
      (unhandled l port).filter (fun n => n.serial ≠ serial) := by
  induction l with
  | nil => rfl
  | cons n l ih =>
    rw [markHandled, map_cons, unhandled_cons, unhandled_cons]
    rw [markHandled] at ih
    rw [ih]
    by_cases hs : n.serial = serial
    · by_cases hn : n.status ≠ .handled ∧ n.portId = port <;> simp [hs, hn]
    · by_cases hn : n.status ≠ .handled ∧ n.portId = port <;> simp [hs, hn]

lemma unhandled_removeToken (h : ∀ n ∈ l, n.serial = serial → n.status = .handled) :
    unhandled (removeToken serial l) port = unhandled l port := by
  unfold unhandled removeToken
  rw [filter_filter]
  refine filter_congr (fun n hn => ?_)
  by_cases hs : n.serial = serial
  · simp [hs, h n hn hs]
  · simp [hs]

def postHead : List Node → List Node
  | [] => []
  | n :: l => { n with status := .posted } :: l

/-- Where memory suffices, the first token of each port that is ready is posted, and the port is
busy then. -/
structure PostSpec (epid : ℕ) (mask : ℕ → BitVec 8) (l : List Node)
    (r : (ℕ → BitVec 8) × List Node × List ℕ) : Prop where
  waiting : ∀ p < 8, unhandled r.2.1 p =
    if portReady mask epid p then postHead (unhandled l p) else unhandled l p
  ready : ∀ p < 8, portReady r.1 epid p = (portReady mask epid p && (unhandled l p).isEmpty)
  others : ∀ e, e ≠ epid → r.1 e = mask e

variable {r : (ℕ → BitVec 8) × List Node × List ℕ} {d : Bool}

lemma PostSpec.skip (h : PostSpec epid mask l r)
    (hready : portReady mask epid n.portId = false ∨ n.status = .handled) :
    PostSpec epid mask (n :: l) (r.1, n :: r.2.1, r.2.2) := by
  have hbusy : ∀ p, n.status ≠ .handled ∧ n.portId = p → portReady mask epid p = false :=
    fun p hw => hw.2 ▸ hready.resolve_right hw.1
  refine ⟨fun p hlt => ?_, fun p hlt => ?_, h.others⟩
  · rw [unhandled_cons, unhandled_cons, h.waiting p hlt]
    split
    · simp [hbusy p ‹_›]
    · rfl
  · rw [h.ready p hlt, unhandled_cons]
    split
    · simp [hbusy p ‹_›]
    · rfl

lemma PostSpec.post
    (h : PostSpec epid (setElementStatus mask epid n.portId .elementBusy) l r)
    (hn : n.status = .queued) (hp : n.portId < 8) (hready : portReady mask epid n.portId = true) :
    PostSpec epid mask (n :: l)
      (r.1, { n with status := .posted } :: r.2.1, n.serial :: r.2.2) := by
  have hmask : ∀ p < 8, portReady (setElementStatus mask epid n.portId .elementBusy) epid p =
      (portReady mask epid p && !decide (n.portId = p)) := by
    intro p hlt
    rw [portReady_busy hp hlt]
    simp
  refine ⟨fun p hlt => ?_, fun p hlt => ?_, fun e he => ?_⟩
  · rw [unhandled_cons, unhandled_cons, h.waiting p hlt, hmask p hlt]
    by_cases hport : n.portId = p
    · subst hport
      simp [hready, hn, postHead]
    · simp [hport]
  · rw [h.ready p hlt, hmask p hlt, unhandled_cons]
    by_cases hport : n.portId = p
    · simp [hport, hn]
    · simp [hport]
  · rw [h.others e he]
    exact update_of_ne he _ _

lemma postTokens_spec (he : epid < 16) (hports : ∀ n ∈ l, n.portId < 8)
    (hnone : ∀ n ∈ l, n.status ≠ .posted) (hposts : l.length ≤ posts) :
    PostSpec epid mask l (postTokens epid mask posts l) := by
  induction l generalizing mask posts with
  | nil =>
    refine ⟨fun p _ => ?_, fun p _ => (Bool.and_true _).symm, fun _ _ => rfl⟩
    split <;> rfl
  | cons n l ih =>
    obtain ⟨hp, hports⟩ := forall_mem_cons.mp hports
    obtain ⟨hn, hnone⟩ := forall_mem_cons.mp hnone
    have hready : isElementReady mask
        ((epid <<< rtableInputPortBits ||| getPortFromPidPort n.portId) % 256) =
          portReady mask epid n.portId := by
      rw [isElementReady_eq, getPortFromPidPort_of_lt hp, (pidPort_fields he hp).1,
        (pidPort_fields he hp).2]
    unfold postTokens
    dsimp only
    rw [hready]
    split
    · rename_i hpost
      obtain ⟨posts, rfl⟩ : ∃ k, posts = k + 1 := Nat.exists_eq_add_of_le' (by
        rw [length_cons] at hposts
        omega)
      rw [getPortFromPidPort_of_lt hp]
      exact PostSpec.post (ih hports hnone (Nat.le_of_succ_le_succ hposts)) hpost.2 hp hpost.1
    · rename_i hskip
      refine PostSpec.skip (ih hports hnone (Nat.le_of_succ_le hposts)) ?_
      cases hst : n.status with
      | queued => exact .inl (by simpa [hst] using hskip)
      | posted => exact absurd hst hn
      | handled => exact .inr rfl

/-- What holds for the elements of an `epid`. A port that is busy has a reason for it: an operation
of an element is outstanding, a continue task is pending, or one is being handled and the element
has not called `dispatch` yet. -/
structure Held (s : Flow) (e : ℕ) : Prop where
  ports : ∀ n ∈ s.mqueue e, n.portId < 8
  heads : ∀ p, ∀ n ∈ (unhandled (s.mqueue e) p).tail, n.status = .queued
  busy : ∀ n ∈ s.mqueue e, n.status ≠ .handled → portReady s.busyBitMask e n.portId = false
  cause : ∀ p < 8, portReady s.busyBitMask e p = false → s.outstanding e = true ∨
    (∃ n ∈ s.mqueue e, n.status = .posted) ∨ ∃ k q, Frame.continued e k q false ∈ s.stack
  tasks : ∀ k p d, Frame.continued e k p d ∈ s.stack → p < 8
  handled : ∀ n ∈ s.mqueue e, n.status = .handled →
    ∃ p d, Frame.continued e n.serial p d ∈ s.stack

def tokensOf (i : InputPort) (l : List (InputPort × ℕ)) : List ℕ :=
  (l.filter (fun x => x.1 = i)).map Prod.snd

def waiting (s : Flow) (i : InputPort) : List ℕ :=
  ((unhandled (s.mqueue i.epid) i.portId).filter (fun n => n.cb = i.cb)).map Node.token

structure Inv (s : Flow) : Prop where
  links : Links s
  held : ∀ e, Held s e
  order : ∀ i, tokensOf i s.dispatched = tokensOf i s.delivered ++ waiting s i

lemma Held.congr (h : Held s e) (hqueue : t.mqueue e = s.mqueue e)
    (hmask : t.busyBitMask e = s.busyBitMask e)
    (houtstanding : s.outstanding e = true → t.outstanding e = true)
    (hstack : ∀ k p d, Frame.continued e k p d ∈ t.stack ↔ Frame.continued e k p d ∈ s.stack) :
    Held t e := by
  have hready : ∀ p, portReady t.busyBitMask e p = portReady s.busyBitMask e p := by
    intro p
    unfold portReady
    rw [hmask]
  refine ⟨hqueue ▸ h.ports, hqueue ▸ h.heads, ?_, ?_, ?_, ?_⟩
  · rw [hqueue]
    exact fun n hn hstatus => (hready _).trans (h.busy n hn hstatus)
  · rw [hqueue]
    intro p hp hbusy
    refine (h.cause p hp ((hready p).symm.trans hbusy)).imp houtstanding (Or.imp id ?_)
    exact fun ⟨k, q, hframe⟩ => ⟨k, q, (hstack k q false).mpr hframe⟩
  · exact fun k p d hframe => h.tasks k p d ((hstack k p d).mp hframe)
  · rw [hqueue]
    intro n hn hstatus
    obtain ⟨p, d, hframe⟩ := h.handled n hn hstatus
    exact ⟨p, d, (hstack _ p d).mpr hframe⟩

lemma tokensOf_append (i : InputPort) (l l' : List (InputPort × ℕ)) :
    tokensOf i (l ++ l') = tokensOf i l ++ tokensOf i l' := by
  simp [tokensOf]

lemma tokensOf_single (i j : InputPort) (token : ℕ) :
    tokensOf i [(j, token)] = if j = i then [token] else [] := by
  unfold tokensOf
  by_cases h : j = i <;> simp [h]

lemma Held.unhandled_nil {p : ℕ} (h : Held s e) (hready : portReady s.busyBitMask e p = true) :
    unhandled (s.mqueue e) p = [] := by
  refine eq_nil_iff_forall_not_mem.mpr (fun n hn => ?_)
  obtain ⟨hmem, hstatus, rfl⟩ := mem_unhandled.mp hn
  have := h.busy n hmem hstatus
  simp_all

lemma unhandled_concat (l : List Node) (p : ℕ) (hn : n.status = .queued) :
    unhandled (l ++ [n]) p = unhandled l p ++ if n.portId = p then [n] else [] := by
  by_cases hp : n.portId = p <;> simp [hn, hp, unhandled]

section

variable (h : Inv s)
include h

lemma Inv.setStack {st : List Frame}
    (hstack : ∀ e k p d, Frame.continued e k p d ∈ st ↔ Frame.continued e k p d ∈ s.stack) :
    Inv { s with stack := st } :=
  ⟨h.links.setStack (fun e k p d => (hstack e k p d).mp),
    fun e => (h.held e).congr rfl rfl id (hstack e), h.order⟩

lemma Inv.direct {i : InputPort} (hready : portReady s.busyBitMask i.epid i.portId = true) :
    Inv { s with
      dispatched := s.dispatched ++ [(i, token)], delivered := s.delivered ++ [(i, token)] } := by
  refine ⟨h.links.congr rfl rfl le_rfl (fun _ _ _ d hframe => ⟨d, hframe⟩),
    fun e => (h.held e).congr rfl rfl id (fun _ _ _ => Iff.rfl), fun j => ?_⟩
  change tokensOf j (s.dispatched ++ _) = tokensOf j (s.delivered ++ _) ++ waiting s j
  rw [tokensOf_append, tokensOf_append, h.order]
  by_cases hij : i = j
  · have hnil : waiting s j = [] := by
      subst hij
      unfold waiting
      rw [(h.held _).unhandled_nil hready]
      rfl
    rw [hnil, append_nil, append_nil]
  · rw [tokensOf_single, if_neg hij, append_nil, append_nil]

lemma Inv.enqueue {r : Route}
    (hbusy : portReady s.busyBitMask (inputPort r).epid (inputPort r).portId = false) :
    Inv ({ s with dispatched := s.dispatched ++ [(inputPort r, token)] }.enqueue r token) := by
  set i := inputPort r with hi
  have hport : i.portId < 8 := getPortFromPidPort_lt _
  set n : Node := ⟨s.nextSerial, token, i.cb, i.portId, .queued⟩ with hn
  have hqueue : ({ s with dispatched := s.dispatched ++ [(i, token)] }.enqueue r token).mqueue =
      update s.mqueue i.epid (s.mqueue i.epid ++ [n]) := rfl
  have hlinks : Links { s with dispatched := s.dispatched ++ [(i, token)] } :=
    h.links.congr rfl rfl le_rfl (fun _ _ _ d hframe => ⟨d, hframe⟩)
  refine ⟨hlinks.enqueue r token, fun e => ?_, fun j => ?_⟩
  · by_cases he : e = i.epid
    · subst he
      have hl := h.held i.epid
      refine ⟨?_, ?_, ?_, fun p hp hb => ?_, hl.tasks, ?_⟩ <;>
        simp only [hqueue, update_self]
      · exact forall_mem_append.mpr ⟨hl.ports, forall_mem_singleton.mpr hport⟩
      · intro p m hm
        rw [unhandled_concat _ _ rfl] at hm
        rcases hu : unhandled (s.mqueue i.epid) p with _ | ⟨x, u⟩
        · rw [hu] at hm
          split at hm <;> simp at hm
        · have htail := hl.heads p
          rw [hu] at hm htail
          rw [cons_append, tail_cons, mem_append] at hm
          rcases hm with hm | hm
          · exact htail m hm
          · split at hm
            · rw [mem_singleton.mp hm]
            · exact absurd hm not_mem_nil
      · exact forall_mem_append.mpr
          ⟨hl.busy, forall_mem_singleton.mpr (fun _ => hbusy)⟩
      · refine (hl.cause p hp hb).imp id (Or.imp ?_ id)
        exact fun ⟨m, hm, hposted⟩ => ⟨m, mem_append_left _ hm, hposted⟩
      · refine forall_mem_append.mpr ⟨hl.handled, ?_⟩
        exact forall_mem_singleton.mpr nofun
    · refine (h.held e).congr ?_ rfl id (fun _ _ _ => Iff.rfl)
      exact update_of_ne he _ _
  · change tokensOf j (s.dispatched ++ _) = tokensOf j s.delivered ++ waiting _ j
    rw [tokensOf_append, tokensOf_single, h.order, append_assoc]
    unfold waiting
    rw [hqueue]
    by_cases he : j.epid = i.epid
    · rw [he, update_self, unhandled_concat _ _ rfl]
      by_cases hij : i = j
      · simp [hij, hn]
      · have hother : i.portId = j.portId → i.cb ≠ j.cb :=
          fun hp hc => hij (InputPort.ext he.symm hp hc)
        split <;> simp_all
    · have hij : i ≠ j := fun hij => he (hij ▸ rfl)
      rw [update_of_ne he, if_neg hij, append_nil]

lemma Inv.setBusy (hport : port < 8) : Inv (s.setBusy epid port) := by
  refine ⟨h.links.congr rfl rfl le_rfl (fun _ _ _ d hframe => ⟨d, hframe⟩), fun e => ?_, h.order⟩
  have hl := h.held e
  refine ⟨hl.ports, hl.heads, fun n hn hstatus => ?_, fun p hp hbusy => ?_, hl.tasks, hl.handled⟩
  · change portReady (setElementStatus _ _ _ _) _ _ = _
    rw [portReady_busy hport (hl.ports n hn), hl.busy n hn hstatus, Bool.false_and]
  · by_cases he : epid = e
    · subst he
      exact .inl (update_self ..)
    · change portReady (setElementStatus _ _ _ _) _ _ = _ at hbusy
      rw [portReady_busy hport hp] at hbusy
      refine (hl.cause p hp (by simpa [he] using hbusy)).imp (fun hout => ?_) id
      exact (update_of_ne (Ne.symm he) _ _).trans hout

lemma Inv.unhandled_posted (hn : n ∈ s.mqueue e) (hstatus : n.status = .posted) :
    ∃ u, unhandled (s.mqueue e) n.portId = n :: u ∧ ∀ m ∈ u, m.serial ≠ n.serial := by
  have hmem : n ∈ unhandled (s.mqueue e) n.portId := mem_unhandled.mpr ⟨hn, by simp [hstatus], rfl⟩
  have hnodup : ((unhandled (s.mqueue e) n.portId).map Node.serial).Nodup :=
    (h.links.linked e).nodup.sublist (filter_sublist.map _)
  have hheads := (h.held e).heads n.portId
  cases hu : unhandled (s.mqueue e) n.portId with
  | nil =>
    rw [hu] at hmem
    exact absurd hmem not_mem_nil
  | cons m u =>
    rw [hu] at hmem hnodup hheads
    rcases mem_cons.mp hmem with rfl | htail
    · refine ⟨u, rfl, fun m hm heq => ?_⟩
      exact (nodup_cons.mp hnodup).1 (heq ▸ mem_map_of_mem hm)
    · exact nomatch hstatus.symm.trans (hheads n htail)

lemma Inv.unhandled_continue (hn : n ∈ s.mqueue e) (hstatus : n.status = .posted)
    (p : ℕ) : unhandled (markHandled n.serial (s.mqueue e)) p =
      if n.portId = p then (unhandled (s.mqueue e) p).tail else unhandled (s.mqueue e) p := by
  rw [unhandled_markHandled]
  split
  · rename_i hp
    subst hp
    obtain ⟨u, hu, hne⟩ := h.unhandled_posted hn hstatus
    rw [hu]
    simpa using hne
  · rename_i hp
    refine filter_eq_self.mpr (fun m hm => ?_)
    obtain ⟨hmem, -, rfl⟩ := mem_unhandled.mp hm
    have hne : m.serial ≠ n.serial := fun heq =>
      hp (inj_on_of_nodup_map (h.links.linked e).nodup hmem hn heq ▸ rfl)
    simpa using hne

lemma Inv.continueTask (hstack : s.stack = []) (hn : n ∈ s.mqueue epid)
    (hpending : (epid, n.serial) ∈ s.pending) :
    Inv { s.deliver ⟨epid, n.portId, n.cb⟩ n.token with
      pending := s.pending.erase (epid, n.serial)
      mqueue := update s.mqueue epid (markHandled n.serial (s.mqueue epid))
      stack := [.continued epid n.serial n.portId false] } := by
  have hposted := (h.links.linked epid).posted_of_pending hpending hn
  have hno : ∀ {e k p d}, Frame.continued e k p d ∉ s.stack :=
    fun hframe => absurd (hstack ▸ hframe) not_mem_nil
  refine ⟨h.links.continueTask hn _ _, fun e => ?_, fun j => ?_⟩
  · by_cases he : e = epid
    · subst he
      have hl := h.held e
      have htasks : ∀ k p d, Frame.continued e k p d ∈
          [Frame.continued e n.serial n.portId false] → p < 8 := by
        intro k p d hframe
        obtain ⟨-, -, rfl, -⟩ := Frame.continued.inj (mem_singleton.mp hframe)
        exact hl.ports n hn
      refine ⟨?_, ?_, ?_, fun p hp hbusy => ?_, htasks, ?_⟩ <;> dsimp only <;>
        rw [update_self]
      · intro m hm
        rcases mem_markHandled hm with ⟨hm, -⟩ | ⟨k, hk, -, rfl⟩
        · exact hl.ports m hm
        · exact hl.ports k hk
      · intro p m hm
        rw [h.unhandled_continue hn hposted] at hm
        split at hm
        · exact hl.heads p m (mem_of_mem_tail hm)
        · exact hl.heads p m hm
      · intro m hm hstatus
        rcases mem_markHandled hm with ⟨hm, -⟩ | ⟨k, -, -, rfl⟩
        · exact hl.busy m hm hstatus
        · exact absurd rfl hstatus
      · refine (hl.cause p hp hbusy).imp id (fun hcause => ?_)
        rcases hcause with ⟨m, hm, hstatus⟩ | ⟨k, q, hframe⟩
        · by_cases hserial : m.serial = n.serial
          · exact .inr ⟨n.serial, n.portId, mem_singleton_self _⟩
          · exact .inl ⟨m, mem_markHandled_of_ne hm hserial, hstatus⟩
        · exact absurd hframe hno
      · intro m hm hstatus
        rcases mem_markHandled hm with ⟨hm, -⟩ | ⟨k, -, hserial, rfl⟩
        · obtain ⟨p, d, hframe⟩ := hl.handled m hm hstatus
          exact absurd hframe hno
        · exact ⟨n.portId, false, mem_singleton.mpr (by rw [hserial])⟩
    · refine (h.held e).congr (update_of_ne he _ _) rfl id (fun k p d => ?_)
      refine iff_of_false (fun hframe => ?_) hno
      exact he (Frame.continued.inj (mem_singleton.mp hframe)).1
  · change tokensOf j s.dispatched = tokensOf j (s.delivered ++ _) ++ waiting _ j
    rw [tokensOf_append, tokensOf_single, h.order, append_assoc]
    unfold waiting
    dsimp only
    by_cases he : j.epid = epid
    · rw [he, update_self, h.unhandled_continue hn hposted]
      by_cases hp : n.portId = j.portId
      · obtain ⟨u, hu, -⟩ := h.unhandled_posted hn hposted
        rw [if_pos hp, ← hp, hu, tail_cons, filter_cons]
        by_cases hc : n.cb = j.cb
        · have hij : (⟨epid, n.portId, n.cb⟩ : InputPort) = j := InputPort.ext he.symm hp hc
          rw [if_pos hij, if_pos (decide_eq_true hc), map_cons, singleton_append]
        · have hij : (⟨epid, n.portId, n.cb⟩ : InputPort) ≠ j := fun hij => hc (hij ▸ rfl)
          simp [hc, hij]
      · have hij : (⟨epid, n.portId, n.cb⟩ : InputPort) ≠ j := fun hij => hp (hij ▸ rfl)
        rw [if_neg hp, if_neg hij, nil_append]
    · have hij : (⟨epid, n.portId, n.cb⟩ : InputPort) ≠ j := fun hij => he (hij ▸ rfl)
      rw [update_of_ne he, if_neg hij, nil_append]

lemma Inv.remove {st : List Frame} (hstack : s.stack = .continued epid serial port d :: st)
    (hcause : d = true ∨ s.outstanding epid = true) :
    Inv { s with
      stack := st
      mqueue := update s.mqueue epid (removeToken serial (s.mqueue epid)) } := by
  have hhandled := ((h.links.linked epid).running serial port d (hstack ▸ mem_cons_self)).2
  refine ⟨h.links.remove hstack, fun e => ?_, fun j => ?_⟩
  · by_cases he : e = epid
    · subst he
      have hl := h.held e
      have htasks : ∀ k p d, Frame.continued e k p d ∈ st → p < 8 :=
        fun k p d hframe => hl.tasks k p d (hstack ▸ mem_cons_of_mem _ hframe)
      refine ⟨?_, ?_, ?_, fun p hp hbusy => ?_, htasks, ?_⟩ <;> dsimp only <;>
        rw [update_self]
      · exact fun n hn => hl.ports n (mem_removeToken.mp hn).1
      · intro p
        rw [unhandled_removeToken hhandled]
        exact hl.heads p
      · exact fun n hn => hl.busy n (mem_removeToken.mp hn).1
      · rcases hl.cause p hp hbusy with hout | ⟨n, hn, hstatus⟩ | ⟨k, q, hframe⟩
        · exact .inl hout
        · refine .inr (.inl ⟨n, mem_removeToken.mpr ⟨hn, fun hserial => ?_⟩, hstatus⟩)
          exact nomatch hstatus.symm.trans (hhandled n hn hserial)
        · rw [hstack] at hframe
          rcases mem_cons.mp hframe with heq | hframe
          · obtain ⟨-, -, -, rfl⟩ := Frame.continued.inj heq
            exact .inl (hcause.resolve_left (by decide))
          · exact .inr (.inr ⟨k, q, hframe⟩)
      · intro n hn hstatus
        obtain ⟨hmem, hne⟩ := mem_removeToken.mp hn
        obtain ⟨p, d, hframe⟩ := hl.handled n hmem hstatus
        rw [hstack] at hframe
        rcases mem_cons.mp hframe with heq | hframe
        · exact absurd (Frame.continued.inj heq).2.1 hne
        · exact ⟨p, d, hframe⟩
    · refine (h.held e).congr (update_of_ne he _ _) rfl id (fun k p d => ?_)
      rw [hstack]
      simp [he]
  · refine (h.order j).trans ?_
    unfold waiting
    dsimp only
    by_cases he : j.epid = epid
    · rw [he, update_self, unhandled_removeToken hhandled]
    · rw [update_of_ne he]

end

lemma map_token_postHead (c : ℕ) :
    ((postHead l).filter (fun n => n.cb = c)).map Node.token =
      (l.filter (fun n => n.cb = c)).map Node.token := by
  cases l with
  | nil => rfl
  | cons n l =>
    rw [postHead, filter_cons, filter_cons]
    split <;> rfl

lemma tail_postHead : (postHead l).tail = l.tail := by cases l <;> rfl

lemma unhandled_nil_of_ports (h : ∀ n ∈ l, n.portId < 8) (hp : ¬ port < 8) :
    unhandled l port = [] := by
  refine eq_nil_iff_forall_not_mem.mpr (fun n hn => ?_)
  obtain ⟨hmem, -, rfl⟩ := mem_unhandled.mp hn
  exact hp (h n hmem)

lemma Held.noteDispatch_of_ne (h : Held s e) (he : e ≠ epid) : Held (s.noteDispatch epid) e := by
  refine h.congr rfl rfl (fun hout => ?_) (fun k p d => ?_)
  · exact (update_of_ne he _ _).trans hout
  · rw [mem_noteDispatch]
    simp [he]

lemma Held.noteDispatch (h : Held s e)
    (hcause : ∀ p < 8, portReady s.busyBitMask e p = false → ∃ n ∈ s.mqueue e, n.status = .posted) :
    Held (s.noteDispatch e) e := by
  refine ⟨h.ports, h.heads, h.busy, ?_, ?_, ?_⟩
  · exact fun p hp hbusy => .inr (.inl (hcause p hp hbusy))
  · intro k p d hframe
    obtain ⟨d', hframe, -⟩ := mem_noteDispatch.mp hframe
    exact h.tasks k p d' hframe
  · intro n hn hstatus
    obtain ⟨p, d, hframe⟩ := h.handled n hn hstatus
    exact ⟨p, _, mem_noteDispatch.mpr ⟨d, hframe, rfl⟩⟩

section Posting

variable (hr : PostSpec epid (setElementStatus mask epid 0 .elementReady) l r) {p : ℕ}

include hr

lemma PostSpec.waiting_eq (hp : p < 8) : unhandled r.2.1 p = postHead (unhandled l p) := by
  rw [hr.waiting p hp, portReady_ready hp]
  simp

lemma PostSpec.ready_eq (hp : p < 8) : portReady r.1 epid p = (unhandled l p).isEmpty := by
  rw [hr.ready p hp, portReady_ready hp]
  simp

lemma PostSpec.posted_of_busy (hp : p < 8) (hbusy : portReady r.1 epid p = false) :
    ∃ n ∈ r.2.1, n.status = .posted := by
  rw [hr.ready_eq hp] at hbusy
  cases hu : unhandled l p with
  | nil =>
    rw [hu] at hbusy
    exact nomatch hbusy
  | cons n u =>
    have hhead : { n with status := TokenStatus.posted } ∈ unhandled r.2.1 p := by
      rw [hr.waiting_eq hp, hu]
      exact mem_cons_self
    exact ⟨_, (mem_unhandled.mp hhead).1, rfl⟩

lemma PostSpec.busy_of_unhandled (hn : n ∈ r.2.1) (hp : n.portId < 8)
    (hstatus : n.status ≠ .handled) : portReady r.1 epid n.portId = false := by
  have hmem : n ∈ unhandled r.2.1 n.portId := mem_unhandled.mpr ⟨hn, hstatus, rfl⟩
  rw [hr.waiting_eq hp] at hmem
  rw [hr.ready_eq hp]
  cases hu : unhandled l n.portId with
  | nil =>
    rw [hu] at hmem
    exact absurd hmem not_mem_nil
  | cons m u => rfl

end Posting

lemma Inv.post (h : Inv s)
    (hnone : tokensPosted (s.mqueue epid) = false) (hposted : Posted (s.mqueue epid) r.2.1 r.2.2)
    (hr : PostSpec epid (setElementStatus s.busyBitMask epid 0 .elementReady) (s.mqueue epid) r) :
    Inv { s with
      busyBitMask := r.1
      mqueue := update s.mqueue epid r.2.1
      pending := s.pending ++ r.2.2.map (fun serial => (epid, serial)) } := by
  have hl := h.held epid
  have hports : ∀ n ∈ r.2.1, n.portId < 8 := by
    intro n hn
    rcases hposted.origin n hn with hn | ⟨m, hm, -, rfl⟩
    · exact hl.ports n hn
    · exact hl.ports m hm
  refine ⟨h.links.post hnone hposted r.1, fun e => ?_, fun j => ?_⟩
  · by_cases he : e = epid
    · subst he
      refine ⟨?_, ?_, ?_, fun p hp hbusy => ?_, hl.tasks, ?_⟩ <;> dsimp only <;>
        rw [update_self]
      · exact hports
      · intro p
        by_cases hp : p < 8
        · rw [hr.waiting_eq hp, tail_postHead]
          exact hl.heads p
        · rw [unhandled_nil_of_ports hports hp]
          exact fun n hn => absurd hn not_mem_nil
      · exact fun n hn => hr.busy_of_unhandled hn (hports n hn)
      · exact .inr (.inl (hr.posted_of_busy hp hbusy))
      · intro n hn hstatus
        rcases hposted.origin n hn with hn | ⟨m, -, -, rfl⟩
        · exact hl.handled n hn hstatus
        · exact nomatch hstatus
    · refine (h.held e).congr (update_of_ne he _ _) ?_ id (fun _ _ _ => Iff.rfl)
      exact (hr.others e he).trans (update_of_ne he _ _)
  · refine (h.order j).trans ?_
    unfold waiting
    dsimp only
    by_cases he : j.epid = epid
    · rw [he, update_self]
      by_cases hp : j.portId < 8
      · rw [hr.waiting_eq hp, map_token_postHead]
      · rw [unhandled_nil_of_ports hports hp, unhandled_nil_of_ports hl.ports hp]
    · rw [update_of_ne he]

lemma Inv.setElementReady (h : Inv s) (he : epid < 16) (hposts : (s.mqueue epid).length ≤ posts) :
    Inv ((s.setElementReady epid posts).noteDispatch epid) := by
  have hinv : Inv (s.setElementReady epid posts) ∧ ∀ p < 8,
      portReady (s.setElementReady epid posts).busyBitMask epid p = false →
        ∃ n ∈ (s.setElementReady epid posts).mqueue epid, n.status = .posted := by
    unfold Flow.setElementReady
    split
    · rename_i hposted
      exact ⟨h, fun _ _ _ => tokensPosted_eq_true.mp hposted⟩
    · rename_i hnone
      have hnone := Bool.eq_false_of_not_eq_true hnone
      have hqueued := tokensPosted_eq_false.mp hnone
      have hr : PostSpec epid (setElementStatus s.busyBitMask epid 0 .elementReady)
          (s.mqueue epid) _ := postTokens_spec he (h.held epid).ports hqueued hposts
      refine ⟨h.post hnone (postTokens_posted hqueued (h.links.linked epid).nodup) hr,
        fun p hp hbusy => ?_⟩
      dsimp only
      rw [update_self]
      exact hr.posted_of_busy hp hbusy
  refine ⟨hinv.1.links.noteDispatch epid, fun e => ?_, hinv.1.order⟩
  by_cases hne : e = epid
  · subst hne
    exact (hinv.1.held e).noteDispatch hinv.2
  · exact (hinv.1.held e).noteDispatch_of_ne hne

/-- Allocations and posts succeed, and elements return `SOS_OK` or `-EBUSY`. -/
def Succeeds (s : Flow) : Event → Prop
  | .route mem => mem = true
  | .endDispatch posts =>
    match s.stack with
    | .dispatch pid _ _ :: _ => (s.mqueue (getEpidFromPid pid)).length ≤ posts
    | _ => True
  | .ret status => status ≠ .error
  | _ => True

/-- An element that returns `SOS_OK` for a continue task has called `dispatch`, or an operation is
outstanding. Otherwise its port, which was set busy when the task was posted, stays so. -/
def Dispatches (s : Flow) : Event → Prop
  | .ret .ok =>
    match s.stack with
    | .continued epid _ _ dispatched :: _ => dispatched = true ∨ s.outstanding epid = true
    | _ => True
  | _ => True

instance (s : Flow) (e : Event) : Decidable (Succeeds s e) := by
  cases e <;> (dsimp only [Succeeds]; try split) <;> infer_instance

instance (s : Flow) (e : Event) : Decidable (Dispatches s e) := by
  unfold Dispatches
  split <;> [split; skip] <;> infer_instance

variable {f : Frame} {st : List Frame}

lemma mem_continued_cons {e k p : ℕ} (hf : ∀ e k p d, f ≠ Frame.continued e k p d) :
    Frame.continued e k p d ∈ f :: st ↔ Frame.continued e k p d ∈ st := by
  rw [mem_cons, or_iff_right (fun heq => hf e k p d heq.symm)]

lemma Inv.pop (h : Inv s) (hstack : s.stack = f :: st)
    (hf : ∀ e k p d, f ≠ Frame.continued e k p d) : Inv { s with stack := st } := by
  refine h.setStack (fun e k p d => ?_)
  rw [hstack, mem_continued_cons hf]

lemma Inv.push (h : Inv s) (hf : ∀ e k p d, f ≠ Frame.continued e k p d) :
    Inv { s with stack := f :: s.stack } :=
  h.setStack (fun _ _ _ _ => mem_continued_cons hf)

lemma isElementReady_inputPort (r : Route) : isElementReady mask r.pidPort =
    portReady mask (inputPort r).epid (inputPort r).portId := isElementReady_eq mask r.pidPort

lemma Inv.nextRoute (h : Inv s) {pid : ℕ} {r : Route} {rs : List Route}
    (hstack : s.stack = .dispatch pid token (r :: rs) :: st) :
    Inv { s with stack := .dispatch pid token rs :: st } := by
  refine h.setStack (fun e k p d => ?_)
  rw [hstack, mem_continued_cons (f := .dispatch pid token rs) nofun,
    mem_continued_cons (f := .dispatch pid token (r :: rs)) nofun]

lemma step_inv {routes : ℕ → Option (List Route)} {e : Event} (h : Inv s)
    (hsucceeds : Succeeds s e) (hdispatches : Dispatches s e)
    (hstep : step routes s e = some t) : Inv t := by
  cases step_cases hstep with
  | task hstack =>
    refine h.setStack (fun e k p d => ?_)
    rw [hstack, mem_continued_cons (f := .task) nofun]
  | continueTask hstack hpending hn => exact h.continueTask hstack hn hpending
  | dispatch hroutes => exact h.push nofun
  | direct hstack hready =>
    rw [isElementReady_inputPort] at hready
    exact ((h.nextRoute hstack).direct hready).push nofun
  | queued hstack hbusy =>
    rw [isElementReady_inputPort] at hbusy
    exact (h.nextRoute hstack).enqueue hbusy
  | dropped hstack => exact nomatch hsucceeds
  | endDispatch hstack =>
    dsimp only [Succeeds] at hsucceeds
    rw [hstack] at hsucceeds
    exact (h.pop hstack nofun).setElementReady (Nat.mod_lt _ (by decide)) hsucceeds
  | taskEnds hstack => exact h.pop hstack nofun
  | directOk hstack => exact h.pop hstack nofun
  | directBusy hstack => exact (h.pop hstack nofun).setBusy (getPortFromPidPort_lt _)
  | directError hstack => exact absurd rfl hsucceeds
  | continuedOk hstack =>
    dsimp only [Dispatches] at hdispatches
    rw [hstack] at hdispatches
    exact h.remove hstack hdispatches
  | continuedBusy hstack =>
    have hport := (h.held _).tasks _ _ _ (hstack ▸ mem_cons_self)
    exact (h.setBusy hport).remove hstack (.inr (update_self ..))
  | continuedError hstack => exact absurd rfl hsucceeds

end WiringDelivery
