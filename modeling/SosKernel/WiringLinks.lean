import SosKernel.WiringTokens

/-! # Continue tasks and the tokens that they point to

Whatever elements return and however much memory there is, a continue task that is pending points
to a token that is posted, and a token is posted only while its task is pending. -/
namespace WiringLinks

open WiringEngine WiringTokens List Function

variable {mask : ℕ → BitVec 8} {epid port posts serial : ℕ} {l : List Node} {n : Node} {s t : Flow}
variable {m : Node}

lemma mem_markHandled (h : m ∈ markHandled serial l) :
    (m ∈ l ∧ m.serial ≠ serial) ∨
      ∃ k ∈ l, k.serial = serial ∧ m = { k with status := .handled } := by
  obtain ⟨k, hk, rfl⟩ := mem_map.mp h
  by_cases hs : k.serial = serial
  · exact .inr ⟨k, hk, hs, if_pos hs⟩
  · rw [if_neg hs]
    exact .inl ⟨hk, hs⟩

lemma mem_markHandled_of_ne (h : m ∈ l) (hs : m.serial ≠ serial) :
    m ∈ markHandled serial l := mem_map.mpr ⟨m, h, if_neg hs⟩

lemma map_serial_markHandled : (markHandled serial l).map Node.serial = l.map Node.serial := by
  unfold markHandled
  rw [map_map]
  refine map_congr_left (fun n _ => ?_)
  dsimp only [Function.comp]
  split <;> rfl

lemma mem_removeToken : m ∈ removeToken serial l ↔ m ∈ l ∧ m.serial ≠ serial := by
  simp [removeToken]

lemma tokensPosted_eq_false : tokensPosted l = false ↔ ∀ n ∈ l, n.status ≠ .posted := by
  simp [tokensPosted]

lemma tokensPosted_eq_true : tokensPosted l = true ↔ ∃ n ∈ l, n.status = .posted := by
  simp [tokensPosted]

structure Posted (l l' : List Node) (ids : List ℕ) : Prop where
  serials : l'.map Node.serial = l.map Node.serial
  posted : ∀ n ∈ l', n.status = .posted ↔ n.serial ∈ ids
  sublist : ids.Sublist (l.map Node.serial)
  origin : ∀ n ∈ l', n ∈ l ∨ ∃ m ∈ l, m.status = .queued ∧ n = { m with status := .posted }

section Posted

variable {l' : List Node} {ids : List ℕ} {routes : ℕ → Option (List Route)} {st : List Frame}
  {d : Bool}

lemma Posted.none (h : ∀ n ∈ l, n.status ≠ .posted) : Posted l l [] :=
  ⟨rfl, fun n hn => iff_of_false (h n hn) not_mem_nil, nil_sublist _, fun _ hn => .inl hn⟩

lemma Posted.skip (h : Posted l l' ids) (hn : n.status ≠ .posted)
    (hs : n.serial ∉ l.map Node.serial) : Posted (n :: l) (n :: l') ids := by
  refine ⟨?_, ?_, h.sublist.cons n.serial, ?_⟩
  · rw [map_cons, map_cons, h.serials]
  · refine forall_mem_cons.mpr ⟨?_, h.posted⟩
    exact iff_of_false hn (fun hmem => hs (h.sublist.subset hmem))
  · refine forall_mem_cons.mpr ⟨.inl mem_cons_self, fun m hm => ?_⟩
    exact (h.origin m hm).imp (mem_cons_of_mem n)
      (fun ⟨k, hk, hpost⟩ => ⟨k, mem_cons_of_mem n hk, hpost⟩)

lemma Posted.post (h : Posted l l' ids) (hn : n.status = .queued)
    (hs : n.serial ∉ l.map Node.serial) :
    Posted (n :: l) ({ n with status := .posted } :: l') (n.serial :: ids) := by
  refine ⟨?_, ?_, h.sublist.cons_cons n.serial, ?_⟩
  · rw [map_cons, map_cons, h.serials]
  · refine forall_mem_cons.mpr ⟨iff_of_true rfl mem_cons_self, fun m hm => ?_⟩
    have hne : m.serial ≠ n.serial := by
      intro heq
      have hmem : m.serial ∈ l'.map Node.serial := mem_map_of_mem hm
      rw [h.serials] at hmem
      exact hs (heq ▸ hmem)
    rw [h.posted m hm, mem_cons, or_iff_right hne]
  · refine forall_mem_cons.mpr ⟨.inr ⟨n, mem_cons_self, hn, rfl⟩, fun m hm => ?_⟩
    exact (h.origin m hm).imp (mem_cons_of_mem n)
      (fun ⟨k, hk, hpost⟩ => ⟨k, mem_cons_of_mem n hk, hpost⟩)

lemma Posted.mem_ids (h : Posted l l' ids) (k : ℕ) :
    k ∈ ids ↔ ∃ n ∈ l', n.serial = k ∧ n.status = .posted := by
  constructor
  · intro hk
    have hmem : k ∈ l'.map Node.serial := h.serials ▸ h.sublist.subset hk
    obtain ⟨n, hn, rfl⟩ := mem_map.mp hmem
    exact ⟨n, hn, rfl, (h.posted n hn).mpr hk⟩
  · rintro ⟨n, hn, rfl, hstatus⟩
    exact (h.posted n hn).mp hstatus

lemma postTokens_posted (hnone : ∀ n ∈ l, n.status ≠ .posted) (hnodup : (l.map Node.serial).Nodup) :
    Posted l (postTokens epid mask posts l).2.1 (postTokens epid mask posts l).2.2 := by
  induction l generalizing mask posts with
  | nil => exact Posted.none hnone
  | cons n l ih =>
    obtain ⟨hn, htail⟩ := forall_mem_cons.mp hnone
    obtain ⟨hs, hnodup⟩ := nodup_cons.mp hnodup
    unfold postTokens
    dsimp only
    split
    · rename_i hpost
      cases posts with
      | zero => exact Posted.none hnone
      | succ posts => exact (ih htail hnodup).post hpost.2 hs
    · exact (ih htail hnodup).skip hn hs

end Posted

structure Linked (s : Flow) (e : ℕ) : Prop where
  fresh : ∀ n ∈ s.mqueue e, n.serial < s.nextSerial
  nodup : ((s.mqueue e).map Node.serial).Nodup
  pending : ∀ k, (e, k) ∈ s.pending ↔ ∃ n ∈ s.mqueue e, n.serial = k ∧ n.status = .posted
  running : ∀ k p d, Frame.continued e k p d ∈ s.stack → k < s.nextSerial ∧
    ∀ n ∈ s.mqueue e, n.serial = k → n.status = .handled

structure Links (s : Flow) : Prop where
  linked : ∀ e, Linked s e
  nodup : s.pending.Nodup

lemma Linked.congr {e : ℕ} (h : Linked s e) (hqueue : t.mqueue e = s.mqueue e)
    (hserial : s.nextSerial ≤ t.nextSerial)
    (hpending : ∀ k, (e, k) ∈ t.pending ↔ (e, k) ∈ s.pending)
    (hstack : ∀ k p d, Frame.continued e k p d ∈ t.stack →
      ∃ d', Frame.continued e k p d' ∈ s.stack) : Linked t e := by
  refine ⟨?_, hqueue ▸ h.nodup, ?_, ?_⟩
  · rw [hqueue]
    exact fun n hn => Nat.lt_of_lt_of_le (h.fresh n hn) hserial
  · rw [hqueue]
    exact fun k => (hpending k).trans (h.pending k)
  · rw [hqueue]
    intro k p d hframe
    obtain ⟨d', hframe⟩ := hstack k p d hframe
    exact (h.running k p d' hframe).imp (Nat.lt_of_lt_of_le · hserial) id

lemma links_initial : Links initial := by
  refine ⟨fun e => ⟨nofun, nodup_nil, fun k => ?_, nofun⟩, nodup_nil⟩
  exact iff_of_false not_mem_nil (fun ⟨_, h, _⟩ => absurd h not_mem_nil)

lemma Linked.posted_of_pending {e : ℕ} (h : Linked s e) (hpending : (e, n.serial) ∈ s.pending)
    (hn : n ∈ s.mqueue e) : n.status = .posted := by
  obtain ⟨m, hm, hserial, hstatus⟩ := (h.pending n.serial).mp hpending
  rwa [inj_on_of_nodup_map h.nodup hn hm hserial.symm]

lemma mem_noteDispatch {e k p : ℕ} :
    Frame.continued e k p d ∈ (s.noteDispatch epid).stack ↔
      ∃ d', Frame.continued e k p d' ∈ s.stack ∧ d = (d' || decide (e = epid)) := by
  unfold Flow.noteDispatch
  rw [mem_map]
  constructor
  · rintro ⟨f, hf, heq⟩
    cases f with
    | continued e' k' p' d' =>
      obtain ⟨rfl, rfl, rfl, rfl⟩ := Frame.continued.inj heq
      exact ⟨d', hf, rfl⟩
    | task => exact nomatch heq
    | direct r => exact nomatch heq
    | dispatch pid token rs => exact nomatch heq
  · rintro ⟨d', hf, rfl⟩
    exact ⟨_, hf, rfl⟩

section

variable (h : Links s)
include h

lemma Links.congr (hqueue : t.mqueue = s.mqueue) (hpending : t.pending = s.pending)
    (hserial : s.nextSerial ≤ t.nextSerial) (hstack : ∀ e k p d, Frame.continued e k p d ∈ t.stack →
      ∃ d', Frame.continued e k p d' ∈ s.stack) : Links t :=
  ⟨fun e => (h.linked e).congr (congrFun hqueue e) hserial (fun _ => by rw [hpending]) (hstack e),
    hpending ▸ h.nodup⟩

lemma Links.update (epid : ℕ) (hqueue : ∀ e, e ≠ epid → t.mqueue e = s.mqueue e)
    (hserial : s.nextSerial ≤ t.nextSerial)
    (hpending : ∀ e, e ≠ epid → ∀ k, (e, k) ∈ t.pending ↔ (e, k) ∈ s.pending)
    (hstack : ∀ e, e ≠ epid → ∀ k p d, Frame.continued e k p d ∈ t.stack →
      ∃ d', Frame.continued e k p d' ∈ s.stack)
    (hepid : Linked t epid) (hnodup : t.pending.Nodup) : Links t := by
  refine ⟨fun e => ?_, hnodup⟩
  by_cases he : e = epid
  · exact he ▸ hepid
  · exact (h.linked e).congr (hqueue e he) hserial (hpending e he) (hstack e he)

lemma Links.enqueue (r : Route) (token : ℕ) : Links (s.enqueue r token) := by
  have hl := h.linked (inputPort r).epid
  refine h.update (inputPort r).epid (fun e he => update_of_ne he _ _)
    (Nat.le_succ _) (fun _ _ _ => Iff.rfl) (fun _ _ _ _ d hframe => ⟨d, hframe⟩) ?_ h.nodup
  refine ⟨?_, ?_, fun k => ?_, fun k p d hframe => ?_⟩ <;> unfold Flow.enqueue <;> dsimp only <;>
    rw [update_self]
  · refine forall_mem_append.mpr ⟨fun m hm => Nat.lt_succ_of_lt (hl.fresh m hm), ?_⟩
    exact forall_mem_singleton.mpr (Nat.lt_succ_self _)
  · rw [map_append, nodup_append']
    refine ⟨hl.nodup, nodup_singleton _, disjoint_singleton.mpr fun hmem => ?_⟩
    obtain ⟨m, hm, hserial⟩ := mem_map.mp hmem
    exact absurd hserial (Nat.ne_of_lt (hl.fresh m hm))
  · refine (hl.pending k).trans ?_
    simp
  · obtain ⟨hk, hrun⟩ := hl.running k p d hframe
    refine ⟨Nat.lt_succ_of_lt hk, forall_mem_append.mpr ⟨hrun, ?_⟩⟩
    -- the serial number of the new token is not in use
    exact forall_mem_singleton.mpr (fun hserial => absurd hserial.symm (Nat.ne_of_lt hk))

lemma Links.continueTask (hn : n ∈ s.mqueue epid) (i : InputPort) (token : ℕ) :
    Links { s.deliver i token with
      pending := s.pending.erase (epid, n.serial)
      mqueue := Function.update s.mqueue epid (markHandled n.serial (s.mqueue epid))
      stack := [.continued epid n.serial n.portId false] } := by
  have hl := h.linked epid
  refine h.update epid (fun e he => update_of_ne he _ _) le_rfl
    (fun e he k => ?_) (fun e he k p d hframe => ?_) ?_ (h.nodup.erase _)
  · exact h.nodup.mem_erase_iff.trans (and_iff_right (fun heq => he (Prod.ext_iff.mp heq).1))
  · exact absurd (Frame.continued.inj (mem_singleton.mp hframe)).1 he
  refine ⟨?_, ?_, fun k => ?_, fun k p d hframe => ?_⟩ <;> dsimp only <;> rw [update_self]
  · intro m hm
    rcases mem_markHandled hm with ⟨hm, -⟩ | ⟨k, hk, -, rfl⟩
    · exact hl.fresh m hm
    · exact hl.fresh k hk
  · rw [map_serial_markHandled]
    exact hl.nodup
  · rw [h.nodup.mem_erase_iff, hl.pending k]
    constructor
    · rintro ⟨hne, m, hm, rfl, hstatus⟩
      exact ⟨m, mem_markHandled_of_ne hm (fun heq => hne (by rw [heq])), rfl, hstatus⟩
    · rintro ⟨m, hm, rfl, hstatus⟩
      rcases mem_markHandled hm with ⟨hm, hne⟩ | ⟨k, -, -, rfl⟩
      · exact ⟨fun heq => hne (Prod.ext_iff.mp heq).2, m, hm, rfl, hstatus⟩
      · exact nomatch hstatus
  · obtain ⟨-, rfl, rfl, rfl⟩ := Frame.continued.inj (mem_singleton.mp hframe)
    refine ⟨hl.fresh n hn, fun m hm hserial => ?_⟩
    rcases mem_markHandled hm with ⟨-, hne⟩ | ⟨k, -, -, rfl⟩
    · exact absurd hserial hne
    · rfl

lemma Links.remove
    (hstack : s.stack = .continued epid serial port d :: st) :
    Links { s with
      stack := st
      mqueue := Function.update s.mqueue epid (removeToken serial (s.mqueue epid)) } := by
  have hl := h.linked epid
  have hhandled := (hl.running serial port d (hstack ▸ mem_cons_self)).2
  have hframes : ∀ {e k p d'}, Frame.continued e k p d' ∈ st → Frame.continued e k p d' ∈ s.stack :=
    fun hframe => hstack ▸ mem_cons_of_mem _ hframe
  refine h.update epid (fun e he => update_of_ne he _ _) le_rfl
    (fun _ _ _ => Iff.rfl) (fun e _ k p d hframe => ⟨d, hframes hframe⟩) ?_ h.nodup
  refine ⟨?_, ?_, fun k => ?_, fun k p d hframe => ?_⟩ <;> dsimp only <;> rw [update_self]
  · exact fun n hn => hl.fresh n (mem_removeToken.mp hn).1
  · exact hl.nodup.sublist (filter_sublist.map _)
  · refine (hl.pending k).trans ⟨fun ⟨n, hn, hk, hstatus⟩ => ?_, fun ⟨n, hn, hk⟩ => ?_⟩
    · refine ⟨n, mem_removeToken.mpr ⟨hn, fun hserial => ?_⟩, hk, hstatus⟩
      exact nomatch hstatus.symm.trans (hhandled n hn hserial)
    · exact ⟨n, (mem_removeToken.mp hn).1, hk⟩
  · refine (hl.running k p d (hframes hframe)).imp id (fun hrun => ?_)
    exact fun n hn => hrun n (mem_removeToken.mp hn).1

lemma Links.noteDispatch (epid : ℕ) : Links (s.noteDispatch epid) := by
  refine h.congr rfl rfl le_rfl (fun e k p d hframe => ?_)
  obtain ⟨d', hframe, -⟩ := mem_noteDispatch.mp hframe
  exact ⟨d', hframe⟩

lemma Links.not_pending (hnone : tokensPosted (s.mqueue epid) = false) (k : ℕ) :
    (epid, k) ∉ s.pending := by
  intro hk
  obtain ⟨n, hn, -, hstatus⟩ := ((h.linked epid).pending k).mp hk
  exact tokensPosted_eq_false.mp hnone n hn hstatus

lemma Links.post {l' : List Node} {ids : List ℕ}
    (hnone : tokensPosted (s.mqueue epid) = false) (hr : Posted (s.mqueue epid) l' ids)
    (mask : ℕ → BitVec 8) :
    Links { s with
      busyBitMask := mask
      mqueue := Function.update s.mqueue epid l'
      pending := s.pending ++ ids.map (fun serial => (epid, serial)) } := by
  have hl := h.linked epid
  refine h.update epid (fun e he => update_of_ne he _ _) le_rfl
    (fun e he k => ?_) (fun _ _ _ _ d hframe => ⟨d, hframe⟩) ?_ ?_
  · simp [Ne.symm he]
  · refine ⟨?_, ?_, fun k => ?_, fun k p d hframe => ?_⟩ <;> dsimp only <;>
      rw [update_self]
    · intro n hn
      rcases hr.origin n hn with hn | ⟨m, hm, -, rfl⟩
      · exact hl.fresh n hn
      · exact hl.fresh m hm
    · rw [hr.serials]
      exact hl.nodup
    · rw [mem_append, or_iff_right (h.not_pending hnone k), ← hr.mem_ids]
      simp
    · refine (hl.running k p d hframe).imp id (fun hrun n hn hserial => ?_)
      rcases hr.origin n hn with hn | ⟨m, hm, hqueued, rfl⟩
      · exact hrun n hn hserial
      · exact nomatch hqueued.symm.trans (hrun m hm hserial)
  · refine nodup_append'.mpr ⟨h.nodup, ?_, fun x hx hnew => ?_⟩
    · exact (hl.nodup.sublist hr.sublist).map (fun _ _ heq => (Prod.ext_iff.mp heq).2)
    · obtain ⟨k, -, rfl⟩ := mem_map.mp hnew
      exact h.not_pending hnone k hx

lemma Links.setElementReady (epid posts : ℕ) : Links (s.setElementReady epid posts) := by
  unfold Flow.setElementReady
  split
  · exact h
  · rename_i hnone
    have hnone := Bool.eq_false_of_not_eq_true hnone
    exact h.post hnone (postTokens_posted (tokensPosted_eq_false.mp hnone) (h.linked epid).nodup) _

lemma Links.setStack
    (hstack : ∀ e k p d, Frame.continued e k p d ∈ st → Frame.continued e k p d ∈ s.stack) :
    Links { s with stack := st } :=
  h.congr rfl rfl le_rfl (fun e k p d hframe => ⟨d, hstack e k p d hframe⟩)

inductive Stepped (routes : ℕ → Option (List Route)) (s : Flow) : Event → Flow → Prop
  | task (hstack : s.stack = []) : Stepped routes s .task { s with stack := [.task] }
  | continueTask {epid : ℕ} {n : Node} (hstack : s.stack = [])
      (hpending : (epid, n.serial) ∈ s.pending) (hn : n ∈ s.mqueue epid) :
      Stepped routes s (.continueTask epid n.serial)
        { s.deliver ⟨epid, n.portId, n.cb⟩ n.token with
          pending := s.pending.erase (epid, n.serial)
          mqueue := Function.update s.mqueue epid (markHandled n.serial (s.mqueue epid))
          stack := [.continued epid n.serial n.portId false] }
  | dispatch {pid gid token : ℕ} {rs : List Route} (hroutes : routes gid = some rs) :
      Stepped routes s (.dispatch pid gid token)
        { s with stack := .dispatch pid token rs :: s.stack }
  | direct {pid token : ℕ} {r : Route} {rs : List Route} {st : List Frame} {mem : Bool}
      (hstack : s.stack = .dispatch pid token (r :: rs) :: st)
      (hready : isElementReady s.busyBitMask r.pidPort = true) :
      Stepped routes s (.route mem)
        { s with
          dispatched := s.dispatched ++ [(inputPort r, token)]
          delivered := s.delivered ++ [(inputPort r, token)]
          stack := .direct r :: .dispatch pid token rs :: st }
  | queued {pid token : ℕ} {r : Route} {rs : List Route} {st : List Frame}
      (hstack : s.stack = .dispatch pid token (r :: rs) :: st)
      (hbusy : isElementReady s.busyBitMask r.pidPort = false) :
      Stepped routes s (.route true)
        ({ s with
          dispatched := s.dispatched ++ [(inputPort r, token)]
          stack := .dispatch pid token rs :: st }.enqueue r token)
  | dropped {pid token : ℕ} {r : Route} {rs : List Route} {st : List Frame}
      (hstack : s.stack = .dispatch pid token (r :: rs) :: st) :
      Stepped routes s (.route false)
        { s with
          dispatched := s.dispatched ++ [(inputPort r, token)]
          stack := .dispatch pid token rs :: st }
  | endDispatch {pid token posts : ℕ} {st : List Frame}
      (hstack : s.stack = .dispatch pid token [] :: st) :
      Stepped routes s (.endDispatch posts)
        (({ s with stack := st }.setElementReady (getEpidFromPid pid) posts).noteDispatch
          (getEpidFromPid pid))
  | taskEnds {status : WiringTokens.Status} {st : List Frame} (hstack : s.stack = .task :: st) :
      Stepped routes s (.ret status) { s with stack := st }
  | directOk {r : Route} {st : List Frame} (hstack : s.stack = .direct r :: st) :
      Stepped routes s (.ret .ok) { s with stack := st }
  | directBusy {r : Route} {st : List Frame} (hstack : s.stack = .direct r :: st) :
      Stepped routes s (.ret .busy)
        ({ s with stack := st }.setBusy (inputPort r).epid (inputPort r).portId)
  | directError {r : Route} {f : Frame} {st : List Frame}
      (hstack : s.stack = .direct r :: f :: st) :
      Stepped routes s (.ret .error) { s with stack := st }
  | continuedOk {epid serial portId : ℕ} {d : Bool} {st : List Frame}
      (hstack : s.stack = .continued epid serial portId d :: st) :
      Stepped routes s (.ret .ok)
        { s with
          stack := st
          mqueue := Function.update s.mqueue epid (removeToken serial (s.mqueue epid)) }
  | continuedBusy {epid serial portId : ℕ} {d : Bool} {st : List Frame}
      (hstack : s.stack = .continued epid serial portId d :: st) :
      Stepped routes s (.ret .busy)
        ({ s with
          stack := st
          mqueue := Function.update s.mqueue epid
            (removeToken serial (s.mqueue epid)) }.setBusy epid portId)
  | continuedError {epid serial portId : ℕ} {d : Bool} {st : List Frame}
      (hstack : s.stack = .continued epid serial portId d :: st) :
      Stepped routes s (.ret .error) { s with stack := st }

omit h in
lemma step_cases {e : Event} (h : step routes s e = some t) : Stepped routes s e t := by
  cases e with
  | task =>
    dsimp only [step] at h
    split at h
    · rename_i hstack
      cases h
      exact .task hstack
    · exact nomatch h
  | continueTask epid serial =>
    dsimp only [step] at h
    split at h
    · rename_i hguard
      obtain ⟨n, hfind, rfl⟩ := Option.map_eq_some_iff.mp h
      have hserial := find?_some hfind
      obtain rfl : n.serial = serial := of_decide_eq_true hserial
      exact .continueTask hguard.1 hguard.2 (mem_of_find?_eq_some hfind)
    · exact nomatch h
  | dispatch pid gid token =>
    dsimp only [step] at h
    split at h
    · rename_i f st hstack
      split at h
      · obtain ⟨rs, hroutes, rfl⟩ := Option.map_eq_some_iff.mp h
        rw [← hstack]
        exact .dispatch hroutes
      · exact nomatch h
    · exact nomatch h
  | route mem =>
    dsimp only [step] at h
    split at h
    · rename_i pid token r rs st hstack
      cases hready : isElementReady s.busyBitMask r.pidPort with
      | true =>
        rw [hready] at h
        cases h
        exact .direct hstack hready
      | false =>
        rw [hready] at h
        cases mem with
        | true =>
          cases h
          exact .queued hstack hready
        | false =>
          cases h
          exact .dropped hstack
    · exact nomatch h
  | endDispatch posts =>
    dsimp only [step] at h
    split at h
    · rename_i pid token st hstack
      cases h
      exact .endDispatch hstack
    · exact nomatch h
  | ret status =>
    dsimp only [step] at h
    split at h
    · rename_i hstack
      cases h
      exact .taskEnds hstack
    · rename_i hstack
      cases h
      exact .directOk hstack
    · rename_i hstack
      cases h
      exact .directBusy hstack
    · rename_i hstack
      cases h
      exact .directError hstack
    · rename_i hstack
      cases h
      exact .continuedOk hstack
    · rename_i hstack
      cases h
      exact .continuedBusy hstack
    · rename_i hstack
      cases h
      exact .continuedError hstack
    · exact nomatch h

lemma step_links {e : Event} (hstep : step routes s e = some t) : Links t := by
  have hpop : ∀ {f st}, s.stack = f :: st → Links { s with stack := st } := by
    intro f st hstack
    refine h.setStack (fun e k p d hframe => ?_)
    rw [hstack]
    exact mem_cons_of_mem _ hframe
  -- the frame of `dispatch` with one route less
  have hroute : ∀ (sent : List (InputPort × ℕ)) {pid token r rs st},
      s.stack = .dispatch pid token (r :: rs) :: st →
      Links { s with dispatched := sent, stack := .dispatch pid token rs :: st } := by
    intro sent pid token r rs st hstack
    refine h.congr rfl rfl le_rfl (fun e k p d hframe => ⟨d, ?_⟩)
    rw [hstack]
    exact mem_cons_of_mem _ ((mem_cons.mp hframe).resolve_left nofun)
  cases step_cases hstep with
  | task hstack => exact h.setStack (fun e k p d hframe => nomatch mem_singleton.mp hframe)
  | continueTask _ _ hn => exact h.continueTask hn _ _
  | dispatch => exact h.setStack (fun e k p d hframe => (mem_cons.mp hframe).resolve_left nofun)
  | direct hstack =>
    refine (hroute s.dispatched hstack).congr rfl rfl le_rfl (fun e k p d hframe => ⟨d, ?_⟩)
    exact (mem_cons.mp hframe).resolve_left nofun
  | queued hstack => exact (hroute _ hstack).enqueue _ _
  | dropped hstack => exact hroute _ hstack
  | endDispatch hstack => exact ((hpop hstack).setElementReady _ _).noteDispatch _
  | taskEnds hstack => exact hpop hstack
  | directOk hstack => exact hpop hstack
  | directBusy hstack =>
    exact (hpop hstack).congr rfl rfl le_rfl (fun _ _ _ d hframe => ⟨d, hframe⟩)
  | directError hstack =>
    refine h.setStack (fun e k p d hframe => ?_)
    rw [hstack]
    exact mem_cons_of_mem _ (mem_cons_of_mem _ hframe)
  | continuedOk hstack => exact h.remove hstack
  | continuedBusy hstack =>
    exact (h.remove hstack).congr rfl rfl le_rfl (fun _ _ _ d hframe => ⟨d, hframe⟩)
  | continuedError hstack => exact hpop hstack

end

end WiringLinks
