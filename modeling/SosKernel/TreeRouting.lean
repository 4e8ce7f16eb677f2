import Mathlib.Data.Int.Notation
import Mathlib.Data.List.Perm.Subperm

/-! # Packets on their way to the base station, `tree_routing.c`

A packet carries the hop count of the node that sent it last, and a node sends it on only if its
own hop count is smaller. Whatever the parents are, each packet is sent a bounded number of times.
`sys_msg_take_data` does not return `NULL`: it kills the module instead. Byte order is left out. -/
namespace TreeRouting

open List Option Function

def bcastAddress : ℕ := 0xFFFF
def routeInvalid : UInt8 := 0xFF
def baseStationAddress : ℕ := 1
def einval : ℤ := 22

structure Node where
  parent : ℕ
  hopCount : UInt8
  seqNo : Int16
  children : List ℕ

structure Header where
  originaddr : ℕ
  seqno : Int16
  hopcount : UInt8
  originhopcount : UInt8
  dstPid : ℕ
  parentaddr : ℕ
  children : List ℕ

/-- What a handler does with a packet; `freed` is with the result that it returns. -/
inductive Outcome where
  | freed (ret : ℤ)
  | sent (daddr : ℕ) (hdr : Header)
  | delivered (pid : ℕ) (hdr : Header)

def trSendData (s : Node) (hdr : Header) : Node × Outcome :=
  if s.parent = bcastAddress then (s, .freed 0)
  else if hdr.hopcount ≤ s.hopCount then (s, .freed (-einval))
  else ({ s with seqNo := s.seqNo + 1 },
    .sent s.parent { hdr with hopcount := s.hopCount, seqno := s.seqNo })

def sendPacket (id : ℕ) (s : Node) (sid : ℕ) (hdr : Header) : Node × Outcome :=
  trSendData s { hdr with
    originaddr := id, hopcount := routeInvalid, dstPid := sid, originhopcount := s.hopCount
    parentaddr := s.parent, children := s.children }

/-- `MSG_TR_DATA_PKT`; a packet for another node is left alone. -/
def dataPkt (id : ℕ) (s : Node) (daddr : ℕ) (hdr : Header) : Option (Node × Outcome) :=
  if daddr = id then
    some (if id = baseStationAddress then (s, .delivered hdr.dstPid hdr) else trSendData s hdr)
  else none

/-- The nodes by their addresses, the packet while it is on its way to one of them, and what the
handlers did with it. -/
structure Net where
  nodes : ℕ → Node
  packet : Option (ℕ × Header)
  outcomes : List (ℕ × Outcome)

inductive Event where
  | change (nodes : ℕ → Node)
  | receive (a : ℕ)
  | lose

def Outcome.packet : Outcome → Option (ℕ × Header)
  | .sent daddr hdr => some (daddr, hdr)
  | _ => none

def Outcome.hop (o : Outcome) : Option ℕ := o.packet.map (fun p => p.2.hopcount.toNat)

def handled (nodes : ℕ → Node) (a : ℕ) (before : List (ℕ × Outcome)) (r : Node × Outcome) : Net :=
  ⟨update nodes a r.1, r.2.packet, before ++ [(a, r.2)]⟩

def inject (nodes : ℕ → Node) (a sid : ℕ) (hdr : Header) : Net :=
  handled nodes a [] (sendPacket a (nodes a) sid hdr)

def step (s : Net) : Event → Net
  | .change nodes => { s with nodes := nodes }
  | .receive a =>
    (s.packet.bind fun p => dataPkt a (s.nodes a) p.1 p.2).elim s (handled s.nodes a s.outcomes)
  | .lose => { s with packet := none }

def hops (os : List (ℕ × Outcome)) : List ℕ := os.filterMap (Outcome.hop ·.2)

structure Falling (s : Net) : Prop where
  hops : (routeInvalid.toNat :: hops s.outcomes).Pairwise (· > ·)
  last : ∀ p ∈ s.packet, ∀ h ∈ routeInvalid.toNat :: TreeRouting.hops s.outcomes,
    p.2.hopcount.toNat ≤ h
  sent : ∀ p ∈ s.packet, ∀ o ∈ s.outcomes, o.2.packet.isSome
  init : ∀ o ∈ s.outcomes.dropLast, o.2.packet.isSome
  base : ∀ o ∈ s.outcomes, ∀ pid hdr, o.2 = .delivered pid hdr → o.1 = baseStationAddress

variable {s : Net} {nodes : ℕ → Node} {a : ℕ} {hdr : Header} {before : List (ℕ × Outcome)}

/-- A packet goes to the parent if it comes from farther away, and is freed otherwise. -/
def Forwards (n : Node) (hop : UInt8) : Outcome → Prop
  | .freed _ => n.parent = bcastAddress ∨ hop ≤ n.hopCount
  | .sent daddr hdr =>
    daddr = n.parent ∧ daddr ≠ bcastAddress ∧ n.hopCount < hop ∧ hdr.hopcount = n.hopCount
  | .delivered _ _ => False

def Settles (n : Node) (a : ℕ) (hdr : Header) (o : Outcome) : Prop :=
  if a = baseStationAddress then o = .delivered hdr.dstPid hdr else Forwards n hdr.hopcount o

lemma trSendData_forwards (n : Node) (hdr : Header) :
    Forwards n hdr.hopcount (trSendData n hdr).2 := by
  unfold trSendData
  split_ifs with hparent hhop
  · exact .inl hparent
  · exact .inr hhop
  · exact ⟨rfl, hparent, UInt8.not_le.mp hhop, rfl⟩

lemma trSendData_not_delivered (n : Node) (hdr : Header) (pid : ℕ) (hdr' : Header) :
    (trSendData n hdr).2 ≠ .delivered pid hdr' := by
  intro h
  have hforwards := trSendData_forwards n hdr
  rwa [h] at hforwards

lemma trSendData_hop {n : Node} {p : ℕ × Header} (hp : p ∈ (trSendData n hdr).2.packet) :
    p.2.hopcount.toNat < hdr.hopcount.toNat := by
  have hforwards := trSendData_forwards n hdr
  cases h : (trSendData n hdr).2 with
  | sent daddr hdr' =>
    rw [h] at hp hforwards
    obtain rfl := Option.some.inj hp
    obtain ⟨-, -, hlt, heq⟩ := hforwards
    exact heq ▸ UInt8.lt_iff_toNat_lt.mp hlt
  | freed ret => simp [h, Outcome.packet] at hp
  | delivered pid hdr' => simp [h, Outcome.packet] at hp

lemma receive_settles (s : Net) (hp : s.packet = some (a, hdr)) :
    ∃ o, (step s (.receive a)).outcomes = s.outcomes ++ [(a, o)] ∧
      (step s (.receive a)).packet = o.packet ∧ Settles (s.nodes a) a hdr o := by
  simp only [step, hp, bind_some, dataPkt, if_true, elim_some, handled]
  refine ⟨_, rfl, rfl, ?_⟩
  unfold Settles
  split_ifs with hbase
  · rfl
  · exact trSendData_forwards _ _

lemma falling_handled {r : Node × Outcome}
    (hhops : (routeInvalid.toNat :: hops before).Pairwise (· > ·))
    (hsent : ∀ o ∈ before, o.2.packet.isSome)
    (hbase : ∀ pid hdr, r.2 = .delivered pid hdr → a = baseStationAddress)
    (hlow : ∀ p ∈ r.2.packet, ∀ h ∈ routeInvalid.toNat :: hops before, p.2.hopcount.toNat < h) :
    Falling (handled nodes a before r) := by
  have happend : hops (before ++ [(a, r.2)]) = hops before ++ r.2.hop.toList := by
    cases h : r.2.hop <;> simp [h, hops]
  have hnew : ∀ h ∈ r.2.hop.toList, ∃ p ∈ r.2.packet, p.2.hopcount.toNat = h := fun h hh =>
    map_eq_some_iff.mp (mem_toList.mp hh)
  refine ⟨?_, fun p hp h hh => ?_, fun p hp o ho => ?_, ?_, fun o ho pid hdr hdel => ?_⟩
  · rw [handled, happend]
    refine pairwise_append.mpr ⟨hhops, ?_, fun h hh h' hh' => ?_⟩
    · cases r.2.hop <;> simp
    · obtain ⟨p, hp, rfl⟩ := hnew h' hh'
      exact hlow p hp h hh
  · rw [handled, happend, ← cons_append] at hh
    rcases mem_append.mp hh with hh | hh
    · exact Nat.le_of_lt (hlow p hp h hh)
    · obtain ⟨q, hq, rfl⟩ := hnew h hh
      exact Nat.le_of_eq (by rw [mem_unique hp hq])
  · rcases mem_append.mp ho with ho | ho
    · exact hsent o ho
    · rw [mem_singleton.mp ho]
      exact isSome_iff_exists.mpr ⟨p, hp⟩
  · rw [handled, dropLast_concat]
    exact hsent
  · rcases mem_append.mp ho with ho | ho
    · have hsome := hsent o ho
      rw [hdel] at hsome
      cases hsome
    · rw [mem_singleton.mp ho] at hdel ⊢
      exact hbase pid hdr hdel

lemma falling_inject (nodes : ℕ → Node) (a sid : ℕ) (hdr : Header) :
    Falling (inject nodes a sid hdr) := by
  refine falling_handled (pairwise_singleton _ _) (by simp)
    (fun pid hdr' h => (trSendData_not_delivered _ _ pid hdr' h).elim) fun p hp h hh => ?_
  rw [mem_singleton.mp hh]
  exact trSendData_hop hp

lemma falling_step (hs : Falling s) (e : Event) : Falling (step s e) := by
  cases e with
  | change nodes => exact ⟨hs.hops, hs.last, hs.sent, hs.init, hs.base⟩
  | lose => exact ⟨hs.hops, nofun, nofun, hs.init, hs.base⟩
  | receive a =>
    rw [step]
    cases hr : s.packet.bind fun p => dataPkt a (s.nodes a) p.1 p.2 with
    | none => exact hs
    | some r =>
      obtain ⟨p, hp, hr⟩ := bind_eq_some_iff.mp hr
      unfold dataPkt at hr
      split_ifs at hr with haddr hid <;> obtain rfl := Option.some.inj hr
      · exact falling_handled hs.hops (hs.sent p hp) (fun _ _ _ => hid) nofun
      · refine falling_handled hs.hops (hs.sent p hp)
          (fun pid hdr h => (trSendData_not_delivered _ _ pid hdr h).elim) fun q hq h hh => ?_
        exact Nat.lt_of_lt_of_le (trSendData_hop hq) (hs.last p hp h hh)

/-- Whatever becomes of the nodes, a packet is sent at most 255 times with falling hop counts, and
every handler but the last one that gets it sends it on. The node that it is addressed to forwards
it, frees it or, at the base station, delivers it. -/
theorem packet_sent_finitely (nodes : ℕ → Node) (a sid : ℕ) (hdr : Header) (events : List Event) :
    let t := events.foldl step (inject nodes a sid hdr)
    (hops t.outcomes).Pairwise (· > ·) ∧ (hops t.outcomes).length ≤ 255 ∧
      (∀ o ∈ t.outcomes.dropLast, ∃ daddr hdr, o.2 = .sent daddr hdr) ∧
      (∀ o ∈ t.outcomes, ∀ pid hdr, o.2 = .delivered pid hdr → o.1 = baseStationAddress) ∧
      (∀ daddr hdr, t.packet = some (daddr, hdr) →
        ∃ o, (step t (.receive daddr)).outcomes = t.outcomes ++ [(daddr, o)] ∧
          (step t (.receive daddr)).packet = o.packet ∧ Settles (t.nodes daddr) daddr hdr o) ∧
      Forwards (nodes a) routeInvalid (sendPacket a (nodes a) sid hdr).2 := by
  have hrun : ∀ s, Falling s → Falling (events.foldl step s) := by
    induction events with
    | nil => exact fun _ hs => hs
    | cons e es ih => exact fun s hs => ih (step s e) (falling_step hs e)
  have ht := hrun _ (falling_inject nodes a sid hdr)
  obtain ⟨hlt, hpair⟩ := pairwise_cons.mp ht.hops
  refine ⟨hpair, ?_, fun o ho => ?_, ht.base, fun _ _ => receive_settles _,
    trSendData_forwards _ _⟩
  · have hsub : hops (events.foldl step (inject nodes a sid hdr)).outcomes ⊆ List.range 255 :=
      fun h hh => mem_range.mpr (hlt h hh)
    have hnodup : (hops (events.foldl step (inject nodes a sid hdr)).outcomes).Nodup :=
      hpair.imp fun {_ _} h => Nat.ne_of_gt h
    have hle := (hnodup.subperm hsub).length_le
    rwa [length_range] at hle
  · have hsome := ht.init o ho
    cases h : o.2 with
    | sent daddr hdr => exact ⟨daddr, hdr, rfl⟩
    | freed ret => simp [h, Outcome.packet] at hsome
    | delivered pid hdr => simp [h, Outcome.packet] at hsome

end TreeRouting
