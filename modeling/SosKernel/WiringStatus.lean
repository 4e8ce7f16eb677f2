import SosKernel.WiringEngine

/-! # Busy input ports

The mask of an element has a bit for each input port, cleared while the port is busy. Everything
that changes the masks goes through the three operations below. -/
namespace WiringStatus

open WiringEngine GuardedRuns

inductive Operation where
  | busy (epid : Fin 16) (port : Fin 8)
  | ready (epid : Fin 16)
  | reset
  deriving DecidableEq, Repr

def apply (mask : ℕ → BitVec 8) : Operation → ℕ → BitVec 8
  | .busy epid port => setElementStatus mask epid port .elementBusy
  | .ready epid => setElementStatus mask epid 0 .elementReady
  | .reset => fun _ => 0xFF#8

def maskAfter (ops : List Operation) : ℕ → BitVec 8 := ops.foldl apply (fun _ => 0xFF#8)

def Busy (ops : List Operation) (epid : Fin 16) (port : Fin 8) : Prop :=
  ∃ before after, ops = before ++ .busy epid port :: after ∧ .ready epid ∉ after ∧ .reset ∉ after

lemma isGraphBusy_eq_false (mask : ℕ → BitVec 8) : isGraphBusy mask = false := by
  rw [isGraphBusy, List.any_eq_false]
  simp only [gt_iff_lt, decide_eq_true_eq, not_lt]
  omega

/-- `hot_swap_configuration` goes on with the running elements instead of installing anew. -/
def KeepsElements (e : Engine) : Prop :=
  ∀ P cfg, hotSwapConfiguration P e cfg = swapConfiguration P e cfg

lemma keepsElements_iff (e : Engine) : KeepsElements e ↔ isGraphBusy e.busyBitMask = false := by
  constructor
  · intro hkeeps
    by_contra hbusy
    rw [Bool.not_eq_false] at hbusy
    have hsame := hkeeps ⟨0, 0, id, id⟩ ⟨[], true, true, true, false, fun _ => 0⟩
    rw [hotSwapConfiguration, if_pos hbusy] at hsame
    simp [installNewConfiguration, swapConfiguration, Option.bind_eq_some_iff] at hsame
  · intro hidle P cfg
    rw [hotSwapConfiguration, hidle]
    rfl

/-- With any masks, the test for a busy graph is right and the elements are only kept on an idle
graph exactly if no port is busy. -/
theorem busy_test_right_iff_idle (e : Engine) (ops : List Operation) :
    ((isGraphBusy (maskAfter ops) = true ↔ ∃ epid port, Busy ops epid port) ∧
      (KeepsElements { e with busyBitMask := maskAfter ops } → ∀ epid port, ¬ Busy ops epid port)) ↔
      ∀ epid port, ¬ Busy ops epid port := by
  have hkeeps : KeepsElements { e with busyBitMask := maskAfter ops } :=
    (keepsElements_iff _).mpr (isGraphBusy_eq_false _)
  rw [isGraphBusy_eq_false]
  constructor
  · exact fun h => h.2 hkeeps
  · refine fun hidle => ⟨iff_of_false Bool.noConfusion ?_, fun _ => hidle⟩
    rintro ⟨epid, port, hbusy⟩
    exact hidle epid port hbusy

def running : Engine :=
  { initial (fun _ => 0) (fun a => [1, 5, 0, 0, 19].getD a 0) (fun _ _ => 255) with
    allocated := true, numElements := 1, busyBitMask := maskAfter [.busy 3 2]
    header := Function.update (fun _ => none) 19 (some 105) }

def replacement : Config :=
  { rows := [(⟨outputRecord, 6, 0, 0, 0⟩, ⟨20, 0, true, true, 7⟩),
      (⟨inputRecord, 6, 0, 0, endRecord⟩, ⟨20, 0, true, true, 7⟩),
      (⟨endTable, 0, 0, 0, 0⟩, ⟨20, 0, true, true, 7⟩)]
    beginsWiring := true, updateDiff := false, savedMem := true, loadMem := true
    pages := fun _ => 0 }

/-- The element is removed while its port is busy, by a swap that finds the graph idle. -/
theorem busy_element_is_swapped :
    Busy [.busy 3 2] 3 2 ∧ isElementReady running.busyBitMask (pidPortOf 19 2) = false ∧
      isGraphBusy running.busyBitMask = false ∧
      ∃ r, hotSwapConfiguration ⟨256, 2, (· + 100), fun _ => 1⟩ running replacement = some r ∧
        r.2 = true ∧ r.1.deregistered = [19] := by
  refine ⟨⟨[], [], rfl, by decide, by decide⟩, by decide, by decide, ?_⟩
  decide +kernel

end WiringStatus
