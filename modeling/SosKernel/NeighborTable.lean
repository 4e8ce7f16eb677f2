import Mathlib.Algebra.Ring.Nat
import Mathlib.Data.List.MinMax
import Mathlib.Data.Prod.Lex
import SosKernel.TreeRouting

/-! # Links to the neighbours, `neighbor.c` and `choose_parent` of `tree_routing.c` -/
namespace NeighborTable

open TreeRouting List Function

def nbrflagNew : UInt8 := 0x02
def nbrflagEstInit : UInt8 := 0x04
def estimateToRouteRatio : ℕ := 5
def minLiveliness : UInt8 := 2
def maxAllowableLinkCost : ℕ := 1536

/-- `nbr_entry_t`; the sequence number is left out. -/
structure Entry where
  id : ℕ
  parent : ℕ
  missed : UInt8
  received : UInt8
  flags : UInt8
  liveliness : UInt8
  hop : UInt8
  receiveEst : UInt8
  sendEst : UInt8

def updateEst (nb : Entry) : Entry :=
  if nb.flags &&& nbrflagNew ≠ 0 then nb
  else
    let usActTotal := max (nb.received.toNat + nb.missed.toNat) estimateToRouteRatio
    let newAve := 255 * nb.received.toNat / usActTotal
    let nb := { nb with
      missed := 0, received := 0, liveliness := 0
      sendEst := if nb.liveliness < minLiveliness then nb.sendEst <<< 1 else nb.sendEst }
    if nb.flags &&& nbrflagEstInit ≠ 0 then
      { nb with receiveEst := .ofNat ((2 * nb.receiveEst.toNat + newAve * 6) / 8) }
    else { nb with receiveEst := .ofNat newAve, flags := nb.flags ^^^ nbrflagEstInit }

/-- Nothing was heard since the last round. -/
structure Quiet (nb : Entry) : Prop where
  notNew : nb.flags &&& nbrflagNew = 0
  estInit : nb.flags &&& nbrflagEstInit ≠ 0
  received : nb.received = 0
  liveliness : nb.liveliness = 0

variable {nb : Entry}

lemma forall_uint8 {P : UInt8 → Prop} (h : ∀ n < 256, P (.ofNat n)) (v : UInt8) : P v := by
  have hv := h v.toNat v.toNat_lt
  rwa [UInt8.ofNat_toNat] at hv

lemma flags_after : ∀ f : UInt8, f &&& nbrflagNew = 0 → f &&& nbrflagEstInit = 0 →
    (f ^^^ nbrflagEstInit) &&& nbrflagNew = 0 ∧ (f ^^^ nbrflagEstInit) &&& nbrflagEstInit ≠ 0 :=
  forall_uint8 (by decide +kernel)

lemma updateEst_quiet (h : nb.flags &&& nbrflagNew = 0) : Quiet (updateEst nb) := by
  rw [updateEst, if_neg (not_not.mpr h)]
  dsimp only
  split
  next hinit => exact ⟨h, hinit, rfl, rfl⟩
  next hinit =>
    have hflags := flags_after nb.flags h (not_not.mp hinit)
    exact ⟨hflags.1, hflags.2, rfl, rfl⟩

lemma quiet_ests (h : Quiet nb) : (updateEst nb).sendEst = nb.sendEst <<< 1 ∧
    (updateEst nb).receiveEst.toNat = nb.receiveEst.toNat / 4 := by
  rw [updateEst, if_neg (not_not.mpr h.notNew), if_pos h.estInit]
  have hlt := nb.receiveEst.toNat_lt
  simp only [h.received, h.liveliness, UInt8.toNat_ofNat', UInt8.toNat_zero, Nat.mul_zero,
    Nat.zero_div, Nat.zero_mul]
  exact ⟨rfl, by omega⟩

def shift (v : UInt8) : UInt8 := v <<< 1

lemma shift_eq_zero (v : UInt8) {n : ℕ} (hn : 8 ≤ n) : shift^[n] v = 0 := by
  have hall : ∀ v, shift^[8] v = 0 := forall_uint8 (by decide +kernel)
  have hzero (j : ℕ) : shift^[j] 0 = 0 := iterate_fixed rfl j
  rw [← Nat.sub_add_cancel hn, iterate_add_apply, hall, hzero]

/-- Shifting makes a number smaller as long as only ones follow its first one. -/
lemma shift_le_iff (v : UInt8) :
    (∀ n, shift^[n + 1] v ≤ shift^[n] v) ↔ ∃ k ≤ 8, v.toNat + 2 ^ k = 256 := by
  have hall : ∀ v, (∀ n < 8, shift^[n + 1] v ≤ shift^[n] v) ↔ ∃ k ≤ 8, v.toNat + 2 ^ k = 256 :=
    forall_uint8 (by decide +kernel)
  rw [← hall v]
  refine ⟨fun h n _ => h n, fun h n => ?_⟩
  by_cases hn : n < 8
  · exact h n hn
  · rw [shift_eq_zero v (by omega : 8 ≤ n + 1)]
    exact UInt8.zero_le

lemma quiet_rounds (h : Quiet nb) (n : ℕ) : (updateEst^[n] nb).sendEst = shift^[n] nb.sendEst ∧
    (updateEst^[n] nb).receiveEst.toNat = nb.receiveEst.toNat / 4 ^ n := by
  induction n generalizing nb with
  | zero => simp
  | succ n ih =>
    obtain ⟨hsend, hreceive⟩ := quiet_ests h
    obtain ⟨hsends, hreceives⟩ := ih (updateEst_quiet h.notNew)
    rw [iterate_succ_apply, hsends, hreceives, hsend, hreceive, Nat.div_div_eq_div_mul,
      Nat.pow_succ']
    exact ⟨rfl, rfl⟩

lemma first_sendEst (hnew : nb.flags &&& nbrflagNew = 0) : (updateEst nb).sendEst =
    if nb.liveliness < minLiveliness then shift nb.sendEst else nb.sendEst := by
  rw [updateEst, if_neg (not_not.mpr hnew)]
  dsimp only
  split <;> rfl

/-- The estimates of a silent neighbour run out, but the one for sending is doubled on the way. -/
theorem silent_estimates_iff (hnew : nb.flags &&& nbrflagNew = 0) :
    ((∀ n, (updateEst^[n + 1] nb).sendEst ≤ (updateEst^[n] nb).sendEst) ↔
      ∃ k ≤ 8, nb.sendEst.toNat + 2 ^ k = 256) ∧
    (∀ n ≥ 9, (updateEst^[n] nb).sendEst = 0) ∧
    (∀ n ≥ 1, (updateEst^[n + 1] nb).receiveEst ≤ (updateEst^[n] nb).receiveEst) ∧
    ∃ N, ∀ n ≥ N, (updateEst^[n] nb).receiveEst = 0 := by
  have hsend (n : ℕ) : (updateEst^[n + 1] nb).sendEst = shift^[n] (updateEst nb).sendEst :=
    (quiet_rounds (updateEst_quiet hnew) n).1
  have hreceive (n : ℕ) : (updateEst^[n + 1] nb).receiveEst.toNat =
      (updateEst nb).receiveEst.toNat / 4 ^ n := (quiet_rounds (updateEst_quiet hnew) n).2
  refine ⟨?_, fun n hn => ?_, fun n hn => ?_, 5, fun n hn => ?_⟩
  · rw [← shift_le_iff]
    simp only [first_sendEst hnew] at hsend
    split at hsend
    next =>
      have hall (n : ℕ) : (updateEst^[n] nb).sendEst = shift^[n] nb.sendEst := by
        cases n with
        | zero => rfl
        | succ n => exact hsend n
      simp only [hall]
    next =>
      refine ⟨fun h n => ?_, fun h n => ?_⟩
      · rw [← hsend, ← hsend]
        exact h (n + 1)
      · cases n with
        | zero => exact UInt8.le_of_eq (hsend 0)
        | succ n =>
          rw [hsend, hsend]
          exact h n
  · obtain ⟨n, rfl⟩ : ∃ k, n = k + 1 := ⟨n - 1, by omega⟩
    rw [hsend, shift_eq_zero _ (by omega)]
  · obtain ⟨n, rfl⟩ : ∃ k, n = k + 1 := ⟨n - 1, by omega⟩
    rw [UInt8.le_iff_toNat_le, hreceive, hreceive, Nat.pow_succ, ← Nat.div_div_eq_div_mul]
    exact Nat.div_le_self ..
  · obtain ⟨n, rfl⟩ : ∃ k, n = k + 1 := ⟨n - 1, by omega⟩
    have hpow : 4 ^ 4 ≤ 4 ^ n := Nat.pow_le_pow_right (by decide) (by omega)
    rw [← UInt8.toNat_inj, hreceive]
    exact Nat.div_eq_of_lt (Nat.lt_of_lt_of_le (updateEst nb).receiveEst.toNat_lt hpow)

theorem estimates_of_lost_neighbor : ∃ N, ∀ n ≥ N,
    (updateEst^[n] ⟨2, 1, 0, 0, nbrflagEstInit, 0, 1, 255, 255⟩).receiveEst = 0 :=
  (silent_estimates_iff (by decide)).2.2.2

theorem silent_sendEst_grows :
    (updateEst ⟨2, 1, 0, 0, nbrflagEstInit, 0, 1, 60, 60⟩).sendEst = 120 := by
  decide

def evaluateCost (sendEst receiveEst : UInt8) : ℕ :=
  let transEst := sendEst.toNat * receiveEst.toNat
  if transEst = 0 then 1 <<< 16 else (1 <<< 24) / transEst

/-- The variables of the loop in `choose_parent`. -/
structure Choice where
  minLinkCost : ℕ
  newParent : Option Entry
  newHopCount : UInt8

def Entry.cost (nb : Entry) : ℕ := evaluateCost nb.sendEst nb.receiveEst

def consider (id : ℕ) (c : Choice) (nb : Entry) : Choice :=
  if nb.parent = id then c
  else if nb.parent = bcastAddress then c
  else if nb.hop = routeInvalid then c
  else if nb.sendEst < 25 then c
  else if nb.hop ≠ 0 ∧ nb.receiveEst < 25 then c
  else if nb.hop ≠ 0 ∧ maxAllowableLinkCost < nb.cost then c
  else if nb.hop < c.newHopCount ∨ nb.hop = c.newHopCount ∧ nb.cost < c.minLinkCost then
    ⟨nb.cost, some nb, nb.hop⟩
  else c

def startChoice : Choice := ⟨2 ^ 32 - 1, none, routeInvalid⟩

def chooseParent (id : ℕ) (nbs : List Entry) (s : Node) : Node :=
  if id = baseStationAddress then s
  else
    let c := nbs.foldl (consider id) startChoice
    c.newParent.elim s fun nb => { s with parent := nb.id, hopCount := c.newHopCount + 1 }

def Eligible (id : ℕ) (nb : Entry) : Prop :=
  nb.parent ≠ id ∧ nb.parent ≠ bcastAddress ∧ nb.hop ≠ routeInvalid ∧ 25 ≤ nb.sendEst ∧
    (nb.hop ≠ 0 → 25 ≤ nb.receiveEst ∧ nb.cost ≤ maxAllowableLinkCost)
  deriving Decidable

/-- The hop count first, then the link cost. -/
def Entry.key (nb : Entry) : ℕ ×ₗ ℕ := toLex (nb.hop.toNat, nb.cost)

def choiceOf (best : Option Entry) : Choice :=
  best.elim startChoice fun nb => ⟨nb.cost, some nb, nb.hop⟩

variable {id : ℕ}

/-- One round of the loop is one of `argmin`, over the eligible neighbours only. -/
lemma consider_choiceOf (best : Option Entry) (nb : Entry) :
    consider id (choiceOf best) nb = choiceOf
      (if decide (Eligible id nb) = true then argAux (fun b c => b.key < c.key) best nb
      else best) := by
  have hlast : ∀ v : UInt8, v ≠ routeInvalid → v < routeInvalid := forall_uint8 (by decide +kernel)
  cases best with
  | none => grind [consider, Eligible, choiceOf, startChoice, argAux]
  | some x =>
    have hkey : nb.key < x.key ↔ nb.hop < x.hop ∨ nb.hop = x.hop ∧ nb.cost < x.cost := by
      rw [Entry.key, Entry.key, Prod.Lex.toLex_lt_toLex, UInt8.lt_iff_toNat_lt, UInt8.toNat_inj]
    grind [consider, Eligible, choiceOf, argAux]

lemma choice_eq (id : ℕ) (nbs : List Entry) : nbs.foldl (consider id) startChoice =
    choiceOf ((nbs.filter (Eligible id ·)).argmin Entry.key) := by
  rw [List.argmin, foldl_filter, ← show choiceOf none = startChoice from rfl]
  exact foldl_hom choiceOf consider_choiceOf

theorem parent_first_minimal (hid : id ≠ baseStationAddress) (nbs : List Entry) (s : Node) :
    chooseParent id nbs s = ((nbs.filter (Eligible id ·)).argmin Entry.key).elim s
      fun nb => { s with parent := nb.id, hopCount := nb.hop + 1 } := by
  rw [chooseParent, if_neg hid, choice_eq]
  cases (nbs.filter (Eligible id ·)).argmin Entry.key <;> rfl

theorem parent_of_two : chooseParent 5 [⟨2, 1, 0, 0, 0, 0, 2, 200, 200⟩,
    ⟨3, 1, 0, 0, 0, 0, 1, 120, 120⟩] ⟨0xFFFF, 255, 0, []⟩ = ⟨3, 2, 0, []⟩ := by
  rw [parent_first_minimal (by decide)]
  rfl

end NeighborTable
