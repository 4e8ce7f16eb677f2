import SosKernel.NeighborTable

/-! # The blocks that the handlers of `tree_routing.c` hold

A request for memory fails by a panic, which ends the module; only the test suite gets `NULL`.
Posts succeed. -/
namespace TreeRoutingBlocks

open TreeRouting NeighborTable List

/-- What is done to a block, `0` for `NULL`; `release` is `sys_free`, or a post with
`SOS_MSG_RELEASE`. -/
inductive Use where
  | get (p : ℕ)
  | access (p : ℕ)
  | release (p : ℕ)
  | panic
  deriving DecidableEq

/-- What `sys_msg_take_data` and `sys_malloc` return. -/
structure Blocks where
  taken : ℕ
  fresh : ℕ
  apart : fresh = 0 ∨ fresh ≠ taken

inductive Request where
  | dataPkt (daddr : ℕ) (hopcount : UInt8)
  | sendPacket
  | sendToChildren (len currChild : ℕ)
  | shm (nbs : List Entry)
  | other

variable (testSuite : Bool)

def got (p : ℕ) (rest : List Use) : List Use :=
  if p = 0 ∧ testSuite = false then [.panic] else .get p :: rest

def trSendData (s : Node) (hopcount : UInt8) (hdr : ℕ) : List Use :=
  if hdr = 0 then []
  else if s.parent = bcastAddress then [.release hdr]
  else if hopcount ≤ s.hopCount then [.access hdr, .release hdr]
  else [.access hdr, .access hdr, .release hdr]

/-- The first child that is not the node itself. -/
def nextChild (id : ℕ) (s : Node) (currChild : ℕ) : ℕ :=
  currChild + ((s.children.drop currChild).takeWhile (· = id)).length

def handle (id : ℕ) (s : Node) (b : Blocks) : Request → List Use
  | .dataPkt daddr hopcount =>
    if daddr = id then
      got testSuite b.taken
        (if id = baseStationAddress then [.access b.taken, .release b.taken]
        else trSendData s hopcount b.taken)
    else []
  | .sendPacket => got testSuite b.taken (.access b.taken :: trSendData s routeInvalid b.taken)
  | .sendToChildren len currChild =>
    got testSuite b.taken
      (if nextChild id s currChild = 10 then [.release b.taken]
      else if len = 0 then [.get 0, .release b.taken]
      else got testSuite b.fresh
        (if b.fresh = 0 then [.release b.taken]
        else [.access b.fresh, .access b.taken, .release b.fresh, .release b.taken]))
  | .shm nbs =>
    if id = baseStationAddress then []
    else (nbs.foldl (consider id) startChoice).newParent.elim [] fun _ =>
      got testSuite b.fresh [.access b.fresh, .release b.fresh, .release b.fresh]
  | .other => []

/-- Blocks are used and released only while they are held, which `NULL` never is, and none is held
in the end. -/
def sound : List ℕ → List Use → Bool
  | held, [] => held.isEmpty
  | _, .panic :: _ => true
  | held, .get p :: us => sound (if p = 0 then held else p :: held) us
  | held, .access p :: us => p ∈ held && sound held us
  | held, .release p :: us => if p = 0 then sound held us else p ∈ held && sound (held.erase p) us

def Fine (id : ℕ) (s : Node) (b : Blocks) : Request → Prop
  | .dataPkt daddr _ => testSuite ∧ b.taken = 0 → ¬(daddr = id ∧ id = baseStationAddress)
  | .sendPacket => ¬(testSuite ∧ b.taken = 0)
  | .sendToChildren len currChild =>
    testSuite ∧ b.taken = 0 → nextChild id s currChild = 10 ∨ len = 0 ∨ b.fresh = 0
  | .shm nbs => (∃ nb ∈ nbs, Eligible id nb) →
      id = baseStationAddress ∨ b.fresh = 0 ∧ testSuite = false
  | .other => True

variable {testSuite}

lemma sound_trSendData (s : Node) (hopcount : UInt8) (p : ℕ) :
    sound (if p = 0 then [] else [p]) (trSendData s hopcount p) := by
  unfold trSendData
  split_ifs <;> simp [sound, *]

theorem blocks_released_iff (id : ℕ) (s : Node) (b : Blocks) (r : Request) :
    sound [] (handle testSuite id s b r) ↔ Fine testSuite id s b r := by
  obtain ⟨taken, fresh, hapart⟩ := b
  cases r with
  | dataPkt daddr hopcount =>
    have hsend := sound_trSendData s hopcount taken
    simp only [handle, Fine, got]
    split_ifs <;> simp_all [sound]
    grind
  | sendPacket =>
    have hsend := sound_trSendData s routeInvalid taken
    simp only [handle, Fine, got]
    split_ifs <;> simp_all [sound]
    grind
  | sendToChildren len currChild =>
    simp only [handle, Fine, got]
    split_ifs <;> simp_all [sound]
    grind
  | shm nbs =>
    simp only [handle, Fine, got, choice_eq]
    cases hbest : (nbs.filter (Eligible id ·)).argmin Entry.key with
    | none =>
      have hno := filter_eq_nil_iff.mp (argmin_eq_none.mp hbest)
      simp_all [choiceOf, startChoice, sound]
    | some nb =>
      have hnb := mem_filter.mp (argmin_mem hbest)
      have hex : ∃ nb ∈ nbs, Eligible id nb := ⟨nb, hnb.1, of_decide_eq_true hnb.2⟩
      simp only [choiceOf, hex]
      split_ifs <;> simp_all [sound]
  | other => simp [handle, Fine, sound]

theorem own_id_released_twice :
    handle false 5 ⟨0xFFFF, 255, 0, []⟩ ⟨0, 100, by decide⟩ (.shm [⟨2, 1, 0, 0, 0, 0, 1, 200, 200⟩])
      = [.get 100, .access 100, .release 100, .release 100] ∧
    ¬sound [] [.get 100, .access 100, .release 100, .release 100] := by
  decide

end TreeRoutingBlocks
