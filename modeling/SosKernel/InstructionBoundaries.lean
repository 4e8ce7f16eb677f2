import SosKernel.ModuleVerifier

/-! # Three decoders of AVR code

`find_succ` of `basicblock.c`, `avr_get_sandbox_desc` of `avr_sbx.c` and `verify_instr` each keep
a flag between words. Here is what they take for the second word of an instruction. -/
namespace InstructionBoundaries

open AvrCode ModuleVerifier List

/-- The flag `twowordinstr` afterwards, and whether the word counts as a second word. The word is
matched before the flag is read. -/
def findSucc (two : Bool) (w : Word) : Bool × Bool :=
  if isTwoWord w then (true, false) else (false, two)

def avrGetSandboxDesc (two : Bool) (w : Word) : Bool × Bool :=
  if two then (false, true) else (isTwoWord w, false)

def seconds (decode : Bool → Word → Bool × Bool) : Bool → List Word → List Bool
  | _, [] => []
  | two, w :: ws => (decode two w).2 :: seconds decode (decode two w).1 ws

/-- The word that is rejected is the last one. -/
def verifierSeconds (K : Kernel) (lb ub : ℕ) : VerifyState → List Word → List Bool
  | _, [] => []
  | st, w :: ws =>
    (st != .first) ::
      match verifyInstr K lb ub st w with
      | (_, none) => []
      | (st, some _) => verifierSeconds K lb ub st ws

/-- No second word looks like the first word of a two-word instruction. -/
def Plain (two : Bool) (ws : List Word) : Prop :=
  ∀ p ∈ ws.zip (seconds avrGetSandboxDesc two ws), p.2 = true → isTwoWord p.1 = false

variable {K : Kernel} {lb ub : ℕ} {st st' : VerifyState} {w w' : Word}

lemma findSucc_agrees_iff (two : Bool) (ws : List Word) :
    seconds findSucc two ws = seconds avrGetSandboxDesc two ws ↔ Plain two ws := by
  induction ws generalizing two with
  | nil => simp [seconds, Plain]
  | cons w ws ih =>
    cases hw : isTwoWord w <;> cases two <;>
      simp_all [seconds, Plain, findSucc, avrGetSandboxDesc]

lemma avrGetSandboxDesc_accepted (h : verifyInstr K lb ub st w = (st', some w')) :
    (avrGetSandboxDesc (st != .first) w).1 = (st' != .first) := by
  by_cases hst : st = .first
  · subst hst
    change isTwoWord w = _
    rw [verifyInstr] at h
    split_ifs at h <;> simp_all [isTwoWord] <;> simp [← h.1]
  · rw [verifyInstr_second h hst]
    cases st <;> simp_all [avrGetSandboxDesc]

lemma verifier_agrees (st : VerifyState) (ws : List Word) :
    verifierSeconds K lb ub st ws <+: seconds avrGetSandboxDesc (st != .first) ws := by
  induction ws generalizing st with
  | nil => exact prefix_rfl
  | cons w ws ih =>
    have hhead : (avrGetSandboxDesc (st != .first) w).2 = (st != .first) := by cases st <;> rfl
    rw [verifierSeconds, seconds, hhead, prefix_cons_inj]
    rcases h : verifyInstr K lb ub st w with ⟨st', _ | w'⟩
    · exact nil_prefix
    · rw [avrGetSandboxDesc_accepted h]
      exact ih st'

/-- The verifier and the rewriter's sandboxing pass agree up to the word that is rejected. The
rewriter's control flow pass agrees with them exactly on plain code. -/
theorem decoders_agree_iff (K : Kernel) (lb ub : ℕ) (ws : List Word) :
    (seconds findSucc false ws = seconds avrGetSandboxDesc false ws ↔ Plain false ws) ∧
      verifierSeconds K lb ub .first ws <+: seconds avrGetSandboxDesc false ws :=
  ⟨findSucc_agrees_iff false ws, verifier_agrees .first ws⟩

/-- `CALL` with a target that looks like `LDS`. -/
theorem call_target_read_as_lds :
    seconds findSucc false [0x940E, 0x9000, 0] = [false, false, true] ∧
      seconds avrGetSandboxDesc false [0x940E, 0x9000, 0] = [false, true, false] := by
  decide +kernel

end InstructionBoundaries
