import Mathlib.Data.Finset.Card
import SosKernel.AvrCode

/-! # The module verifier, `sos_mod_verify.c`

One pass over the words of a module checks them and puts the addresses of the kernel's entry
points in the place of their codes. What it says about `JMP`, `CALL` and stores holds at every
instruction of the patched module. It checks no relative transfer, and not where internal
transfers lead to. -/
namespace ModuleVerifier

open AvrCode List Option

inductive VerifyState where
  | first | data | jmp | call
  deriving DecidableEq

structure Kernel where
  kerRestoreRetAddr : Word
  kerMemmapPermsCheckXptr : Word
  kerMemmapPermsCheckYptr : Word
  kerMemmapPermsCheckZptr : Word
  kerSaveRetAddr : Word
  kerIcallCheck : Word

/-- The codes of `sos_mod_patch_code.h` and the addresses that replace them. -/
def Kernel.entries (K : Kernel) : List (Word × Word) :=
  [(1, K.kerMemmapPermsCheckXptr), (2, K.kerMemmapPermsCheckYptr), (3, K.kerMemmapPermsCheckZptr),
    (5, K.kerSaveRetAddr), (4, K.kerIcallCheck)]

def kerRetCheckCode : Word := 0
def sysJumpTblStart : ℕ := 0x8C
def sysJumpTblSize : ℕ := 4

def checkJmp (K : Kernel) (lb ub : ℕ) (w : Word) : Option Word :=
  if w = kerRetCheckCode then some K.kerRestoreRetAddr
  else if w = K.kerRestoreRetAddr ∨ lb ≤ w.toNat ∧ w.toNat < ub then some w else none

def inJumpTable (w : Word) : Prop :=
  sysJumpTblStart ≤ 2 * w.toNat % 65536 ∧
    2 * w.toNat % 65536 < sysJumpTblStart + sysJumpTblSize * 64
  deriving Decidable

def checkCall (K : Kernel) (lb ub : ℕ) (w : Word) : Option Word :=
  if lb ≤ w.toNat ∧ w.toNat < ub ∨ inJumpTable w then some w
  else K.entries.findSome? (fun e => if w = e.1 then some e.2 else if w = e.2 then some w else none)

/-- The state afterwards, and the word as it is in the patched module; `none` is `-EINVAL`. -/
def verifyInstr (K : Kernel) (lb ub : ℕ) : VerifyState → Word → VerifyState × Option Word
  | .jmp, w => ((checkJmp K lb ub w).elim .jmp (fun _ => .first), checkJmp K lb ub w)
  | .call, w => ((checkCall K lb ub w).elim .call (fun _ => .first), checkCall K lb ub w)
  | .data, w => (.first, some w)
  | .first, w =>
    if isJmp w then (.jmp, some w)
    else if isCall w then (.call, some w)
    else if isLds w then (.data, some w)
    else if isSts w then (.data, none)
    else if isSt w ∨ isStd w ∨ w = opRet ∨ w = opIcall then (.first, none)
    else (.first, some w)

/-- The loop of `ker_verify_module` over the words from the end of the module header on. -/
def verifyFrom (K : Kernel) (lb ub : ℕ) : VerifyState → List Word → VerifyState × Option (List Word)
  | st, [] => (st, some [])
  | st, w :: ws =>
    match verifyInstr K lb ub st w with
    | (st, none) => (st, none)
    | (st, some w) =>
      let r := verifyFrom K lb ub st ws
      (r.1, r.2.map (w :: ·))

/-- Addresses have 16 bits. -/
def kerVerifyModule (K : Kernel) (lb : ℕ) (st : VerifyState) (ws : List Word) :
    VerifyState × Option (List Word) := verifyFrom K lb ((lb + ws.length) % 65536) st ws

def relative (lb : ℕ) (ws : List Word) (i : ℕ) (w : Word) : List ℤ :=
  let next : ℤ := lb + i + size w
  if isJmp w then []
  else if isCall w then [next]
  else if isSkip w then [next, next + (ws[i + 1]?.map size).getD 1]
  else if isBranch w then [next, next + getK7 w]
  else if isRjmp w then [next + getK12 w]
  else if isRcall w then [next, next + getK12 w]
  else if w = opRet ∨ w = opReti ∨ w = opIjmp then []
  else [next]

/-- The word behind the module, which is not checked, counts as its own address. -/
def absolute (lb : ℕ) (ws : List Word) (i : ℕ) (w : Word) : List ℤ :=
  if isJmp w ∨ isCall w then [(ws[i + 1]?.elim (lb + ws.length) BitVec.toNat : ℕ)] else []

def targets (lb : ℕ) (ws : List Word) (i : ℕ) (w : Word) : List ℤ :=
  relative lb ws i w ++ absolute lb ws i w

inductive Reached (lb : ℕ) (ws : List Word) : ℕ → Prop
  | start {i : ℕ} (h : Boundary ws i) : Reached lb ws i
  | step {i j : ℕ} {w : Word} (h : Reached lb ws i) (hw : ws[i]? = some w)
      (ht : (lb : ℤ) + j ∈ targets lb ws i w) (hj : j < ws.length) : Reached lb ws j

def Inside (lb : ℕ) (ws : List Word) (a : ℤ) : Prop := lb ≤ a ∧ a < lb + ws.length
  deriving Decidable

/-- The system jump table and the entry points of the checkers. -/
def Exit (K : Kernel) (a : ℤ) : Prop :=
  sysJumpTblStart ≤ 2 * a ∧ 2 * a < sysJumpTblStart + sysJumpTblSize * 64 ∨
    a = K.kerRestoreRetAddr.toNat ∨ ∃ e ∈ K.entries, a = e.2.toNat

def Forbidden (w : Word) : Prop := Unsafe w ∨ w = opReti ∨ w = opIjmp

def Isolated (K : Kernel) (lb : ℕ) (ws : List Word) : Prop :=
  ∀ i, Reached lb ws i → Boundary ws i ∧ ∀ w, ws[i]? = some w → ¬ Forbidden w ∧
    ∀ a ∈ targets lb ws i w, Inside lb ws a ∨ Exit K a

/-- What the verifier leaves to the module: it has no `RETI` or `IJMP`, transfers inside of it lead
to instructions, and all transfers but `JMP` and `CALL` with a byte address of 16 bits stay inside
or take an exit. -/
structure Trusted (K : Kernel) (lb : ℕ) (ws : List Word) (i : ℕ) (w : Word) : Prop where
  returns : w ≠ opReti ∧ w ≠ opIjmp
  starts : ∀ j : ℕ, (lb : ℤ) + j ∈ targets lb ws i w → j < ws.length → Boundary ws j
  leaves : ∀ a ∈ targets lb ws i w, Inside lb ws a ∨ Exit K a ∨
    (isJmp w ∨ isCall w) ∧ ∃ t, ws[i + 1]? = some t ∧ a = t.toNat ∧ t.toNat < 0x8000

structure Checked (K : Kernel) (lb ub : ℕ) (w : Word) (operand : Option Word) : Prop where
  allowed : ¬ Unsafe w
  jmp : isJmp w → ∀ t ∈ operand, t = K.kerRestoreRetAddr ∨ lb ≤ t.toNat ∧ t.toNat < ub
  call : isCall w → ∀ t ∈ operand,
    (lb ≤ t.toNat ∧ t.toNat < ub) ∨ inJumpTable t ∨ ∃ e ∈ K.entries, t = e.2

section Words

variable {K : Kernel} {lb ub : ℕ} {st st' : VerifyState} {w w' t : Word} {ws ws' : List Word}
  {i : ℕ}

lemma checkJmp_ok (h : checkJmp K lb ub w = some t) :
    t = K.kerRestoreRetAddr ∨ lb ≤ t.toNat ∧ t.toNat < ub := by
  unfold checkJmp at h
  split_ifs at h <;> simp_all

lemma checkCall_ok (h : checkCall K lb ub w = some t) :
    (lb ≤ t.toNat ∧ t.toNat < ub) ∨ inJumpTable t ∨ ∃ e ∈ K.entries, t = e.2 := by
  unfold checkCall at h
  split_ifs at h with hw
  · obtain rfl := some.inj h
    exact hw.imp_right .inl
  · obtain ⟨e, he, hs⟩ := exists_of_findSome?_eq_some h
    refine .inr (.inr ⟨e, he, ?_⟩)
    split_ifs at hs <;> simp_all

def awaiting (w : Word) : VerifyState :=
  if isJmp w then .jmp else if isCall w then .call else if isLds w then .data else .first

lemma awaiting_eq_first (hw : isTwoWord w = false) : awaiting w = .first := by
  simp_all [awaiting, isTwoWord]

lemma verifyInstr_first (h : verifyInstr K lb ub .first w = (st', some w')) :
    w' = w ∧ st' = awaiting w ∧ ¬ Unsafe w := by
  rw [verifyInstr] at h
  unfold awaiting
  split_ifs at h ⊢ with hj hc hl hs hr
  · exact ⟨by simp_all, by simp_all, not_unsafe hj (by decide +kernel)⟩
  · exact ⟨by simp_all, by simp_all, not_unsafe hc (by decide +kernel)⟩
  · exact ⟨by simp_all, by simp_all, not_unsafe hl (by decide +kernel)⟩
  · simp at h
  · simp at h
  · simp_all [Unsafe, Stores]

lemma verifyInstr_second (h : verifyInstr K lb ub st w = (st', some w')) (hst : st ≠ .first) :
    st' = .first := by
  cases st <;> simp_all [verifyInstr]
  all_goals
    obtain ⟨h1, h2⟩ := h
    simp_all

lemma verifyFrom_cons (h : verifyFrom K lb ub st ws = (st', some (w' :: ws'))) :
    ∃ w vs mid, ws = w :: vs ∧ verifyInstr K lb ub st w = (mid, some w') ∧
      verifyFrom K lb ub mid vs = (st', some ws') := by
  cases ws with
  | nil => simp [verifyFrom] at h
  | cons w vs =>
    rw [verifyFrom] at h
    split at h
    · simp at h
    · next mid v hv =>
      obtain ⟨hm, hr⟩ := Prod.mk.inj h
      obtain ⟨us, hu, he⟩ := map_eq_some_iff.mp hr
      obtain ⟨rfl, rfl⟩ := List.cons.inj he
      exact ⟨w, vs, mid, rfl, hv, Prod.ext hm hu⟩

lemma verifyFrom_length (h : verifyFrom K lb ub st ws = (st', some ws')) :
    ws'.length = ws.length := by
  induction ws generalizing ws' st with
  | nil => simp_all [verifyFrom]
  | cons w vs ih =>
    cases ws' with
    | nil =>
      rw [verifyFrom] at h
      split at h <;> simp at h
    | cons w' us =>
      obtain ⟨_, _, mid, hws, -, hr⟩ := verifyFrom_cons h
      obtain ⟨rfl, rfl⟩ := List.cons.inj hws
      simp [ih hr]

lemma verifyFrom_head (h : verifyFrom K lb ub .first ws = (st', some (w :: ws'))) :
    Checked K lb ub w ws'[0]? ∧ ∃ vs, verifyFrom K lb ub (awaiting w) vs = (st', some ws') := by
  obtain ⟨v, vs, mid, rfl, hv, hr⟩ := verifyFrom_cons h
  obtain ⟨rfl, rfl, hok⟩ := verifyInstr_first hv
  refine ⟨⟨hok, fun hj t ht => ?_, fun hc t ht => ?_⟩, vs, hr⟩
  all_goals
    obtain ⟨us, rfl⟩ : ∃ us, ws' = t :: us := by
      cases ws' with
      | nil => simp at ht
      | cons u us => exact ⟨us, by simp_all⟩
    obtain ⟨u, _, _, rfl, hu, -⟩ := verifyFrom_cons hr
  · simp only [awaiting, hj, if_true, verifyInstr, Prod.mk.injEq] at hu
    exact checkJmp_ok hu.2
  · have hj : isJmp w = false := fits_disjoint (by decide +kernel) hc
    simp only [awaiting, hj, hc, if_true, Bool.false_eq_true, if_false, verifyInstr,
      Prod.mk.injEq] at hu
    exact checkCall_ok hu.2

lemma verifyFrom_checked (hb : Boundary ws' i)
    (h : verifyFrom K lb ub .first ws = (st', some ws')) (hw : ws'[i]? = some w) :
    Checked K lb ub w ws'[i + 1]? := by
  induction hb generalizing ws with
  | head =>
    obtain rfl : _ = w := by simpa using hw
    exact (verifyFrom_head h).1
  | one hv hb ih =>
    obtain ⟨vs, hr⟩ := (verifyFrom_head h).2
    rw [awaiting_eq_first hv] at hr
    exact ih hr hw
  | @two v u us i hv hb ih =>
    obtain ⟨hc, vs, hr⟩ := verifyFrom_head h
    obtain ⟨_, vs, mid, rfl, hu, hr⟩ := verifyFrom_cons hr
    have hst : awaiting v ≠ .first := by
      have hs : ¬ isSts v := fun hs => hc.allowed (.inl (.inr (.inr hs)))
      unfold awaiting
      split_ifs <;> simp_all [isTwoWord]
    rw [verifyInstr_second hu hst] at hr
    exact ih hr hw

lemma Checked.leaves (hc : Checked K lb ub w (some t)) (hub : ub ≤ lb + ws.length)
    (hw : isJmp w ∨ isCall w) (ht : t.toNat < 0x8000) : Inside lb ws t.toNat ∨ Exit K t.toNat := by
  have hin (h : lb ≤ t.toNat ∧ t.toNat < ub) : Inside lb ws t.toNat := ⟨by omega, by omega⟩
  rcases hw with hw | hw
  · rcases hc.jmp hw t rfl with rfl | h
    · exact .inr (.inr (.inl rfl))
    · exact .inl (hin h)
  · rcases hc.call hw t rfl with h | ⟨hl, hu⟩ | ⟨e, he, rfl⟩
    · exact .inl (hin h)
    · exact .inr (.inl ⟨by omega, by omega⟩)
    · exact .inr (.inr (.inr ⟨e, he, rfl⟩))

end Words

/-- Execution of an accepted module stays on checked instructions, and leaves it through the jump
table or a checker, if and only if the module keeps to what is left to it. -/
theorem kerVerifyModule_isolates_iff (K : Kernel) (lb : ℕ) {st' : VerifyState} {ws ws' : List Word}
    (h : kerVerifyModule K lb .first ws = (st', some ws')) :
    Isolated K lb ws' ↔ ∀ i w, Boundary ws' i → ws'[i]? = some w → Trusted K lb ws' i w := by
  have hub : (lb + ws.length) % 65536 ≤ lb + ws'.length := by
    rw [verifyFrom_length h]
    exact Nat.mod_le _ _
  constructor
  · intro hi i w hb hw
    obtain ⟨hf, hl⟩ := (hi i (.start hb)).2 w hw
    exact ⟨⟨fun hr => hf (.inr (.inl hr)), fun hr => hf (.inr (.inr hr))⟩,
      fun j hj hlt => (hi j (.step (.start hb) hw hj hlt)).1, fun a ha => (hl a ha).imp_right .inl⟩
  intro ht i hi
  have hb : Boundary ws' i := by
    induction hi with
    | start h => exact h
    | step _ hw htj hj ih => exact (ht _ _ ih hw).starts _ htj hj
  refine ⟨hb, fun w hw => ?_⟩
  have hc := verifyFrom_checked hb h hw
  obtain ⟨hr, -, hl⟩ := ht i w hb hw
  refine ⟨?_, fun a ha => ?_⟩
  · rintro (hu | hu | hu)
    exacts [hc.allowed hu, hr.1 hu, hr.2 hu]
  · rcases hl a ha with h | h | ⟨hjc, t, hto, rfl, hlt⟩
    · exact .inl h
    · exact .inr h
    · exact (hto ▸ hc).leaves hub hjc hlt

theorem kerVerifyModule_isolates_loop :
    let K : Kernel := ⟨0x200, 0x201, 0x202, 0x203, 0x204, 0x205⟩
    kerVerifyModule K 0x1000 .first [0x940E, 1, 0xCFFD] = (.first, some [0x940E, 0x201, 0xCFFD]) ∧
      Isolated K 0x1000 [0x940E, 0x201, 0xCFFD] := by
  refine ⟨rfl, (@kerVerifyModule_isolates_iff _ _ .first [0x940E, 1, 0xCFFD] _ rfl).mpr ?_⟩
  rintro i w (_ | ⟨hw, hb⟩ | ⟨hw, _ | ⟨hv, hb⟩ | _⟩) h
  · obtain rfl := some.inj h
    have ht : targets 0x1000 [0x940E, 0x201, 0xCFFD] 0 0x940E = [0x1002, 0x201] := by decide
    refine ⟨by decide, fun j hj hl => ?_, fun a ha => ?_⟩
    · obtain rfl : j = 2 := by
        simp only [ht, mem_cons, not_mem_nil, or_false] at hj
        omega
      exact .two rfl .head
    · rw [ht] at ha
      obtain rfl | rfl : a = 0x1002 ∨ a = 0x201 := by simpa using ha
      · exact .inl (by decide)
      · exact .inr (.inr ⟨.inr rfl, _, rfl, rfl, by decide⟩)
  · exact absurd hw (by decide)
  · obtain rfl := some.inj h
    have ht : targets 0x1000 [0x940E, 0x201, 0xCFFD] 2 0xCFFD = [0x1000] := by decide
    refine ⟨by decide, fun j hj hl => ?_, fun a ha => ?_⟩
    · obtain rfl : j = 0 := by
        simp only [ht, mem_singleton] at hj
        omega
      exact .head
    · rw [ht] at ha
      obtain rfl : a = 0x1000 := by simpa using ha
      exact .inl (by decide)
  · cases hb

/-- A jump over the first word of `LDS` runs its second word as a store. -/
theorem relative_jump_accepted :
    let K : Kernel := ⟨0x200, 0x201, 0x202, 0x203, 0x204, 0x205⟩
    kerVerifyModule K 0x1000 .first [0xC001, 0x9000, 0x920C] =
      (.first, some [0xC001, 0x9000, 0x920C]) ∧
      ¬ Isolated K 0x1000 [0xC001, 0x9000, 0x920C] := by
  refine ⟨rfl, fun h => ?_⟩
  have ht : ((0x1000 : ℕ) : ℤ) + (2 : ℕ) ∈ targets 0x1000 [0xC001, 0x9000, 0x920C] 0 0xC001 := by
    decide
  exact ((h 2 (.step (.start .head) rfl ht (by decide))).2 0x920C rfl).1 (.inl (by decide))

/-- `verify_state` is a static variable: what one call leaves in it is where the next call
starts. -/
def stateAfter (K : Kernel) (calls : List (ℕ × List Word)) : VerifyState :=
  calls.foldl (fun st c => (kerVerifyModule K c.1 st c.2).1) .first

def verdict (K : Kernel) (calls : List (ℕ × List Word)) (lb : ℕ) (ws : List Word) :
    Option (List Word) := (kerVerifyModule K lb (stateAfter K calls) ws).2

section Probes

variable {K : Kernel} {lb : ℕ} {st st' : VerifyState} {w : Word}

def probe (K : Kernel) (lb : ℕ) (st : VerifyState) (w : Word) : Option Word :=
  (verifyInstr K lb ((lb + 1) % 65536) st w).2

lemma kerVerifyModule_singleton :
    (kerVerifyModule K lb st [w]).2 = (probe K lb st w).map ([·]) := by
  simp only [kerVerifyModule, verifyFrom, probe, length_singleton]
  split <;> simp_all

lemma probe_jmp_none (hw : 0 < w.toNat) (hne : w ≠ K.kerRestoreRetAddr) :
    probe K 0 .jmp w = none := by
  have h0 : w ≠ kerRetCheckCode := by
    rintro rfl
    exact absurd hw (by decide)
  refine (if_neg h0).trans (if_neg ?_)
  rintro (h | h)
  · exact hne h
  · omega

lemma exists_probe_call_none (K : Kernel) : ∃ w, probe K 0 .call w = none := by
  obtain ⟨w, hw, hne⟩ : ∃ w ∈ ([6, 7, 8, 9, 10, 11] : List Word).toFinset,
      w ∉ (K.entries.map Prod.snd).toFinset := by
    refine Finset.exists_mem_notMem_of_card_lt_card ?_
    calc (K.entries.map Prod.snd).toFinset.card ≤ 5 := toFinset_card_le _
      _ < _ := by decide
  have hw' : ¬ (0 ≤ w.toNat ∧ w.toNat < (0 + 1) % 65536 ∨ inJumpTable w) ∧
      ∀ e ∈ K.entries, w ≠ e.1 := by
    revert w
    simp [Kernel.entries, inJumpTable, sysJumpTblStart]
  refine ⟨w, (if_neg hw'.1).trans (findSome?_eq_none_iff.mpr fun e he => ?_)⟩
  rw [if_neg (hw'.2 e he), if_neg]
  rintro rfl
  exact hne (mem_toFinset.mpr (mem_map_of_mem he))

lemma exists_probe_ne (hne : st ≠ st') : ∃ lb w, probe K lb st w ≠ probe K lb st' w := by
  -- `RET` is refused where an instruction starts only
  have hret : ∀ st, st ≠ .first → probe K 0x9508 st opRet = some opRet := by
    rintro (_ | _ | _ | _) h
    · exact absurd rfl h
    · rfl
    · exact if_pos (.inr (by decide))
    · rfl
  have hfirst : ∀ st, st ≠ .first → probe K 0x9508 .first opRet ≠ probe K 0x9508 st opRet := by
    intro st h
    rw [hret st h]
    exact some_ne_none _ ∘ Eq.symm
  obtain ⟨w, hw⟩ := exists_probe_call_none K
  obtain ⟨v, hv, hjmp, hcall⟩ : ∃ v, probe K 0 .data v = some v ∧ probe K 0 .jmp v = none ∧
      probe K 0 .call v = some v := by
    by_cases h : (0x46 : Word) = K.kerRestoreRetAddr
    · exact ⟨0x47, rfl, probe_jmp_none (by decide) (h ▸ by decide), rfl⟩
    · exact ⟨0x46, rfl, probe_jmp_none (by decide) h, rfl⟩
  have hdata : probe K 0 .data w ≠ probe K 0 .call w := by
    rw [hw]
    exact some_ne_none w
  cases st <;> cases st'
  case first.first | data.data | jmp.jmp | call.call => exact absurd rfl hne
  case first.data | first.jmp | first.call => exact ⟨_, _, hfirst _ hne.symm⟩
  case data.first | jmp.first | call.first => exact ⟨_, _, (hfirst _ hne).symm⟩
  case data.jmp | jmp.data | jmp.call | call.jmp => exact ⟨0, v, by simp [hv, hjmp, hcall]⟩
  case data.call => exact ⟨0, w, hdata⟩
  case call.data => exact ⟨0, w, hdata.symm⟩

end Probes

/-- Two histories give the same verdicts, and the same patched words, if and only if they leave
the same state. -/
theorem verdicts_agree_iff (K : Kernel) (calls calls' : List (ℕ × List Word)) :
    (∀ lb ws, verdict K calls lb ws = verdict K calls' lb ws) ↔
      stateAfter K calls = stateAfter K calls' := by
  refine ⟨fun h => by_contra fun hne => ?_, fun h lb ws => by rw [verdict, verdict, h]⟩
  obtain ⟨lb, w, hw⟩ := exists_probe_ne hne
  have hinj : Function.Injective (fun v : Word => [v]) := fun a b hab => (List.cons.inj hab).1
  refine hw (map_injective hinj ?_)
  rw [← kerVerifyModule_singleton, ← kerVerifyModule_singleton]
  exact h lb [w]

/-- A module that is refused at its `STS` makes the next one pass with a `RET`. -/
theorem refused_store_admits_return :
    let K : Kernel := ⟨0x200, 0x201, 0x202, 0x203, 0x204, 0x205⟩
    verdict K [(0x1000, [0x9200])] 0x1000 [opRet] = some [opRet] ∧
      verdict K [] 0x1000 [opRet] = none := by
  decide

end ModuleVerifier
