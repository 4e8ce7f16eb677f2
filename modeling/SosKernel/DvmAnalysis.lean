import SosKernel.DvmBounds
import SosKernel.DvmQueues

/-! # The static analysis of scripts

`analyzeVars` walks over the instructions of a script and collects the locks of the variables and
buffers they name. -/
namespace DvmAnalysis

open DvmMachine DvmMachine.Dvm DvmInterpreter DvmMoves DvmPolicy DvmBounds DvmQueues GuardedRuns

variable {script : Script} {p n k : ℕ} {base : BitVec 16} {s t : Dvm} {len fuel i op : ℕ}
  {code : ℕ → ℕ}

def startsFrom (code : ℕ → ℕ) (handlerLen : ℕ) : ℕ → ℕ → List ℕ
  | 0, _ => []
  | fuel + 1, i =>
    if i < handlerLen then
      i :: startsFrom code handlerLen fuel ((i + bytelength (code i)) % 65536)
    else []

def starts (script : Script) : List ℕ := startsFrom script.code script.dataSize script.dataSize 0

def Found (script : Script) (n : ℕ) : Prop := ∃ i ∈ locksOf script, i.val = n
  deriving Decidable

lemma mem_startsFrom_lt (h : p ∈ startsFrom code len fuel i) : p < len := by
  induction fuel generalizing i with
  | zero => exact absurd h List.not_mem_nil
  | succ fuel ih =>
    unfold startsFrom at h
    split at h
    · rcases List.mem_cons.mp h with rfl | h
      · assumption
      · exact ih h
    · exact absurd h List.not_mem_nil

lemma mem_locksFrom (h : p ∈ startsFrom code len fuel i)
    (hn : lockNum (code p) = some n) : Fin.ofNat 12 n ∈ locksFrom code len fuel i := by
  induction fuel generalizing i with
  | zero => exact absurd h List.not_mem_nil
  | succ fuel ih =>
    unfold startsFrom at h
    unfold locksFrom
    split at h
    · rename_i hi
      rw [if_pos hi]
      rcases List.mem_cons.mp h with rfl | h
      · rw [hn]
        exact Finset.mem_insert_self _ _
      · split
        · exact Finset.mem_insert_of_mem (ih h)
        · exact ih h
    · exact absurd h List.not_mem_nil

lemma lockNum_lt (h : lockNum op = some n) : n < 12 := by
  unfold lockNum at h
  split_ifs at h <;> simp only [Option.some.injEq] at h <;> omega

lemma found_of_start (h : p ∈ starts script) (hn : lockNum (script.code p) = some n) :
    Found script n :=
  ⟨Fin.ofNat 12 n, mem_locksFrom h hn, Nat.mod_eq_of_lt (lockNum_lt hn)⟩

def AllowedBy (script : Script) : Access → Prop
  | .shared k => Found script (4 + k)
  | .buffer k => Found script k
  | _ => True

def PointsTo (base : BitVec 16) (script : Script) (v : Slot) : Prop :=
  v.type = typeBuffer → ∃ k, bufferOf base v.word = some k ∧ Found script k
  deriving Decidable

def locksPolicy (base : BitVec 16) (script : Script) : Policy where
  base := base
  allowed := AllowedBy script
  good := PointsTo base script
  goodShared := fun _ => True
  stack_allowed := fun _ _ => trivial
  local_allowed := fun _ _ => trivial
  entry_allowed := fun _ _ => trivial
  pointer_allowed := trivial
  plain := fun _ hne ht => absurd ht hne
  shared_of_good := fun _ _ => trivial
  follow := fun _ hv ht => hv ht

def lockOf : Instr → Option ℕ
  | .getVar k | .setVar k | .getVarF k | .setVarF k => some (4 + k)
  | .bpush k => some k
  | _ => none

lemma lockNum_eq (h : op < libIdBit) (hne : op ≠ 84) : lockNum op = lockOf (decode op) := by
  revert op
  decide +kernel

lemma bufferAddr_inj {j : ℕ} (hj : j < dvmNumBufs) (hk : k < dvmNumBufs)
    (h : bufferAddr base j = bufferAddr base k) : j = k := by
  have hofs : BitVec.ofNat 16 ((dvmBufLen + 1) * j) = BitVec.ofNat 16 ((dvmBufLen + 1) * k) :=
    (BitVec.add_right_inj base).mp h
  have hnat := congrArg BitVec.toNat hofs
  simp only [BitVec.toNat_ofNat, dvmBufLen, dvmNumBufs] at hnat hj hk
  omega

lemma bufferOf_bufferAddr (hk : k < dvmNumBufs) : bufferOf base (bufferAddr base k) = some k := by
  obtain ⟨j, hj⟩ := Option.isSome_iff_exists.mp (bufferOf_bufferAddr_isSome base hk)
  have he := of_decide_eq_true
    (List.find?_some (p := fun j => decide (bufferAddr base j = bufferAddr base k)) hj)
  rw [hj, bufferAddr_inj (bufferOf_lt hj) hk he]

def Place (script : Script) (p : ℕ) : Prop :=
  p ∈ starts script ∨ decode (script.code p) = .halt
  deriving Decidable

/-- The walk meets all instructions, and the lock of the second variable that `OP_SETVARF` writes
is found elsewhere, as is that of the last `OP_GETVARF`. -/
@[mk_iff] structure Closed (script : Script) : Prop where
  size : script.dataSize ≤ 65536
  first : Place script 0
  fall : ∀ p ∈ starts script, script.code p < libIdBit → decode (script.code p) ≠ .halt →
    Place script ((p + bytelength (script.code p)) % 65536)
  jump : ∀ p ∈ starts script, script.code p < libIdBit → Jumps (decode (script.code p)) →
    Place script (script.code ((p + 1) % 65536) % 256)
  second : ∀ p ∈ starts script, 70 ≤ script.code p ∧ script.code p ≤ 76 →
    Found script (4 + (script.code p - 70 + 1))
  last : ∀ p ∈ starts script, script.code p = 84 → Found script 11

lemma Closed.next {p' : ℕ} (h : Closed script) (hp : Place script p)
    (hop : script.code p < libIdBit) (hn : Next script.code p p') : Place script p' := by
  rcases hn with rfl | ⟨hpost, rfl⟩ | ⟨hne, rfl⟩ | ⟨hj, rfl⟩
  · exact hp
  · rcases hp with hp | hp
    · have hlt : p < 65536 := Nat.lt_of_lt_of_le (mem_startsFrom_lt hp) h.size
      rw [Nat.mod_eq_of_lt hlt]
      exact .inl hp
    · rw [hp] at hpost
      exact nomatch hpost
  · rcases hp with hp | hp
    · exact h.fall p hp hop hne
    · exact absurd hp hne
  · rcases hp with hp | hp
    · exact h.jump p hp hop hj
    · rw [hp] at hj
      exact hj.elim

lemma decode_setVarF (h : op < libIdBit) :
    decode op = .setVarF k → 70 ≤ op ∧ op ≤ 76 ∧ k = op - 70 := by
  have htable : ∀ op < libIdBit, (match decode op with
      | .setVarF k => decide (70 ≤ op ∧ op ≤ 76 ∧ k = op - 70)
      | _ => true) = true := by decide +kernel
  intro hd
  have hop := htable op h
  rw [hd] at hop
  exact of_decide_eq_true hop

lemma Closed.permits (h : Closed script) (hp : Place script p) (hop : script.code p < libIdBit) :
    Permits (locksPolicy base script) (decode (script.code p)) := by
  rcases hp with hp | hp
  · have hrange := decode_inRange hop
    by_cases hlast : script.code p = 84
    · have hf := h.last p hp hlast
      rw [hlast]
      exact hf
    · have hlock := lockNum_eq hop hlast
      have hfound : ∀ n, lockOf (decode (script.code p)) = some n → Found script n :=
        fun n hn => found_of_start hp (hlock.trans hn)
      have hsecond := h.second p hp
      generalize hi : decode (script.code p) = i at hrange hfound ⊢
      cases i with
      | getVar k | setVar k | getVarF k => exact hfound _ rfl
      | setVarF k =>
        obtain ⟨h70, h76, rfl⟩ := decode_setVarF hop hi
        exact ⟨hfound _ rfl, hsecond ⟨h70, h76⟩⟩
      | bpush k => exact fun _ => ⟨k, bufferOf_bufferAddr (of_decide_eq_true hrange), hfound _ rfl⟩
      | getLocal k | getLocalF k | setLocal k =>
        exact of_decide_eq_true (p := k < dvmNumLocalVars) hrange
      | setLocalF k => exact of_decide_eq_true (p := k + 1 < dvmNumLocalVars) hrange
      | _ => trivial
  · rw [hp]
    trivial

def locks (base : BitVec 16) : Discipline where
  policy := locksPolicy base
  base := base
  admitted := Closed
  place := Place
  base_eq := fun _ => rfl
  shared_eq := fun _ => trivial
  start := fun h => h.first
  next := fun h hp hop hn => h.next hp hop hn
  permits := fun h hp hop => h.permits hp hop

structure Covered (s : Dvm) : Prop where
  used : ∀ c, locksOf (s.script c) ⊆ s.usedVars c
  blank : ∀ c, s.loaded c = false → locksOf (s.script c) = ∅

def still : Guard where
  begin := fun _ _ => True
  deliver := fun _ _ => True
  fail := fun _ _ => True
  retry := fun _ _ => True
  reboot := fun _ => False
  load := fun _ => False
  begin_other := fun _ _ _ _ => trivial
  deliver_quiet := fun _ _ => trivial
  fail_quiet := fun _ _ => trivial
  retry_quiet := fun _ _ => trivial

structure Alike (s t : Dvm) : Prop where
  loaded : t.loaded = s.loaded
  script : t.script = s.script
  usedVars : t.usedVars = s.usedVars

lemma Alike.trans {u : Dvm} (h : Alike s t) (k : Alike t u) : Alike s u :=
  ⟨k.loaded.trans h.loaded, k.script.trans h.script, k.usedVars.trans h.usedVars⟩

lemma alike_of_same (h : Same s t) : Alike s t := ⟨h.loaded, h.script, h.usedVars⟩

lemma begin_alike (s : Dvm) (c : Id) (data : Option Slot) (ok : Bool) :
    Alike s (s.begin c data ok) := by
  have hp : Alike s ((s.initializeContext c).pushData c data) := by
    cases data <;> exact ⟨rfl, rfl, rfl⟩
  exact hp.trans (alike_of_same (resumeContext_same _ c ok))

lemma move_alike (h : Move still s t) : Alike s t := by
  cases h with
  | quiet h => rw [h]; exact ⟨rfl, rfl, rfl⟩
  | release => exact ⟨rfl, rfl, rfl⟩
  | begin c data ok => exact begin_alike s c data ok
  | deliver c m ok =>
    exact Alike.trans (t := s.settle c m) ⟨rfl, rfl, rfl⟩
      (alike_of_same (resumeContext_same _ c ok))
  | answered => exact ⟨rfl, rfl, rfl⟩
  | asking c => exact ⟨rfl, rfl, rfl⟩
  | park c =>
    exact Alike.trans (t := s.setState c .waiting) ⟨rfl, rfl, rfl⟩
      (alike_of_same (queueEnqueue_same _ c _))
  | block c ok =>
    exact Alike.trans (t := s.setState c .blocked) ⟨rfl, rfl, rfl⟩
      (alike_of_same (yieldContext_same _ c ok))
  | ask c rest ok =>
    exact Alike.trans (t := (s.dequeued c .getDataWaitQueue rest).setState c .blocked)
      ⟨rfl, rfl, rfl⟩ (alike_of_same (yieldContext_same _ c ok))
  | askAgain c rest =>
    exact Alike.trans (t := (s.dequeued c .getDataWaitQueue rest).setState c .waiting)
      ⟨rfl, rfl, rfl⟩ (alike_of_same (queueEnqueue_same _ c _))
  | fail c => exact ⟨rfl, rfl, rfl⟩
  | @retry c ok u _ _ hu =>
    have hsu : Alike s u := by rcases hu with rfl | ⟨_, rfl⟩ <;> exact ⟨rfl, rfl, rfl⟩
    have hy := hsu.trans (alike_of_same (yieldContext_same u c ok))
    have hr := hy.trans (alike_of_same (resumeContext_same _ c ok))
    exact hr.trans ⟨rfl, rfl, rfl⟩
  | halt c ok => exact alike_of_same (haltContext_same s c ok)
  | expire c =>
    have hq : Alike s ((s.setState c .ready).queueEnqueue c .runQueue) :=
      Alike.trans (t := s.setState c .ready) ⟨rfl, rfl, rfl⟩
        (alike_of_same (queueEnqueue_same _ c .runQueue))
    exact ⟨hq.loaded, hq.script, hq.usedVars⟩
  | pick c rest => exact ⟨rfl, rfl, rfl⟩
  | reboot con lib h => exact h.elim
  | load c script ok h => exact h.elim

lemma Covered.alike (h : Covered s) (ha : Alike s t) : Covered t := by
  refine ⟨?_, ?_⟩
  · rw [ha.script, ha.usedVars]
    exact h.used
  · rw [ha.script, ha.loaded]
    exact h.blank

def Equipped (s : Dvm) : Prop :=
  ∀ c, s.loaded c = true →
    s.conLibraries &&& (s.script c).libraryMask = (s.script c).libraryMask
  deriving Decidable

lemma engineReboot_covered (h : ∀ c, s.loaded c = false → locksOf (s.script c) = ∅)
    (he : Equipped s) : Covered s.engineReboot := by
  refine ⟨fun c => ?_, h⟩
  change locksOf (s.script c) ⊆ s.analyzed c
  unfold analyzed
  cases hl : s.loaded c with
  | true => rw [if_pos ⟨rfl, he c hl⟩]
  | false =>
    rw [h c hl]
    exact Finset.empty_subset _

def Supplied (s : Dvm) : Event → Prop
  | .addLibrary lib => Equipped { s with conLibraries := s.conLibraries ||| (1#8 <<< lib.val) }
  | .removeLibrary lib => Equipped { s with conLibraries := s.conLibraries ^^^ (1#8 <<< lib.val) }
  | .load c script => Equipped (s.install c script)
  | _ => True

lemma Covered.load (h : Covered s) {c : Id} {ok : Bool} (he : Equipped (s.install c script)) :
    Covered (s.loaderDataAvailable c script ok) := by
  have hblank : ∀ d, (s.install c script).loaded d = false →
      locksOf ((s.install c script).script d) = ∅ := by
    intro d hd
    have hne : d ≠ c := by
      rintro rfl
      simp [install] at hd
    have hld : s.loaded d = false := by simpa [install, hne] using hd
    simpa [install, hne] using h.blank d hld
  have hboot : Covered (s.rebooted c script ok) := by
    refine rebootContexts_induct (fun _ _ hu => hu.alike ⟨rfl, rfl, rfl⟩)
      (fun u d hu _ _ => hu.alike (alike_of_same (haltContext_same u d ok))) ?_
    exact engineReboot_covered hblank he
  unfold loaderDataAvailable
  dsimp only
  split
  · exact hboot.alike (begin_alike _ _ none ok)
  · exact hboot

lemma Covered.step (h : Covered s) {ev : Event × Reply} (hc : Computing s)
    (hs : Supplied s ev.1) (ht : step s ev = some t) : Covered t := by
  have hmoves : DvmMoves.Legal still s ev → Covered t := fun hl =>
    step_keeps (fun _ _ hu hm => hu.alike (move_alike hm)) h hc hl ht
  obtain ⟨e, r⟩ := ev
  -- only the first three make the machine analyse the scripts again
  cases e with
  | addLibrary lib | removeLibrary lib =>
    unfold DvmMachine.step at ht
    split at ht
    · cases ht
    · cases ht
      exact engineReboot_covered h.blank hs
  | load c script =>
    unfold DvmMachine.step at ht
    split at ht
    · cases ht
    · cases ht
      exact h.load hs
  | instruction => exact hmoves (fun _ _ => ⟨fun _ => trivial, fun _ => trivial⟩)
  | runTask => exact hmoves trivial
  | halt => exact hmoves trivial
  | resume => exact hmoves trivial
  | timeout id => exact hmoves (fun _ _ => trivial)
  | userEvent sid type data => exact hmoves (fun _ _ => trivial)
  | dataReady value => exact hmoves (fun _ _ => trivial)

def HasLock (used : Finset LockId) : Access → Prop
  | .shared k => ∃ i ∈ used, i.val = 4 + k
  | .buffer k => ∃ i ∈ used, i.val = k
  | _ => True

def Analysed (base : BitVec 16) (s : Dvm) (ev : Event × Reply) : Prop :=
  DvmBounds.Legal (locks base) s ev ∧ Supplied s ev.1

lemma blank_closed : Closed ⟨0, 0, 0, 0, fun _ => 0⟩ :=
  ⟨by decide, .inr rfl, nofun, nofun, nofun, nofun⟩

lemma HasLock.of_allowed {used : Finset LockId} {a : Access} (h : AllowedBy script a)
    (hsub : locksOf script ⊆ used) : HasLock used a := by
  cases a with
  | shared k | buffer k =>
    obtain ⟨i, hi, hval⟩ := h
    exact ⟨i, hsub hi, hval⟩
  | _ => trivial

/-- In such a run, whatever an instruction touches has its lock in the set that was computed for
its script. -/
theorem accesses_analysed_over_runs (base : BitVec 16) (entries : ℕ → ℕ → BitVec 8)
    (es : List (Event × Reply)) (s : Dvm) (c : Id) (r : Reply)
    (hv : ValidTrace step (Analysed base) (initial base entries) es)
    (hrun : runTrace step (initial base entries) es = some s)
    (hc : s.runningContext = some c) (hop : s.opcode c < libIdBit)
    (hl : Analysed base s (.instruction, r)) :
    ∀ a ∈ (s.executed c r).accesses, HasLock (s.usedVars c) a := by
  have hinv : ∀ s ev t, Kept (locks base) s ∧ Covered s ∧ Computing s → Analysed base s ev →
      step s ev = some t → Kept (locks base) t ∧ Covered t ∧ Computing t :=
    fun _ _ _ h hl ht => ⟨h.1.step hl.1 ht, h.2.1.step h.2.2 hl.2 ht, step_computing ht⟩
  have hinit : Kept (locks base) (initial base entries) ∧ Covered (initial base entries) ∧
      Computing (initial base entries) :=
    ⟨initial_kept entries blank_closed, ⟨fun _ => Finset.empty_subset _, fun _ _ => rfl⟩, nofun⟩
  obtain ⟨hk, hcov, -⟩ := run_invariant_of_some hinv hinit hv hrun
  have hsafe := hl.1 c hc
  rw [if_neg (Nat.not_le_of_lt hop)] at hsafe
  obtain ⟨_, _, hok⟩ := hk.executed hop hsafe
  exact fun a ha => HasLock.of_allowed (hok.allowed a ha) (hcov.used c)

section Decidable

instance : DecidablePred Jumps := fun i =>
  decidable_of_iff ((match i with | .jmp | .jz | .jnz | .jump _ => true | _ => false) = true) (by
    unfold Jumps
    split <;> simp)

instance : DecidablePred Closed := fun script => decidable_of_iff' _ (closed_iff script)

instance : DecidablePred ((locks base).policy script).good :=
  inferInstanceAs (DecidablePred (PointsTo base script))

instance : DecidablePred ((locks base).place script) :=
  inferInstanceAs (DecidablePred (Place script))

instance : DecidablePred (locks base).admitted := inferInstanceAs (DecidablePred Closed)

instance (e : Event) : Decidable (Supplied s e) := by
  induction e using Event.casesOn <;> (dsimp only [Supplied]; infer_instance)

instance (ev : Event × Reply) : Decidable (Analysed base s ev) :=
  inferInstanceAs (Decidable (_ ∧ _))

end Decidable

/-- `PUSHC 1; SETVARF+0; PUSHC 2; SETVAR+1; HALT`, which names both variables. -/
def storing : List (Event × Reply) :=
  [(.load 1 (timerScript [1, 1, 70, 1, 2, 58, 0]), smooth), (.timeout 1, smooth),
    (.runTask, smooth), (.instruction, smooth)]

theorem accesses_analysed_sample :
    ∃ s, runTrace step booted storing = some s ∧ s.runningContext = some 1 ∧
      Access.shared 1 ∈ (s.executed 1 smooth).accesses ∧
      ∀ a ∈ (s.executed 1 smooth).accesses, HasLock (s.usedVars 1) a := by
  obtain ⟨s, hrun, hc, hop, hl, hmem⟩ : ∃ s, runTrace step booted storing = some s ∧
      s.runningContext = some 1 ∧ s.opcode 1 < libIdBit ∧
      Analysed 4096 s (.instruction, smooth) ∧
      Access.shared 1 ∈ (s.executed 1 smooth).accesses := by decide +kernel
  exact ⟨s, hrun, hc, hmem, accesses_analysed_over_runs 4096 (fun _ _ => 0) storing s 1 smooth
    (by decide +kernel) hrun hc hop hl⟩

/-- `PUSHC 1; SETVARF+0; HALT` writes variable 1, and `GETVARF+7; HALT` reads variable 7, without
their locks. -/
theorem float_variable_not_analysed :
    (runTrace step booted [(.load 1 (timerScript [1, 1, 70, 0]), smooth), (.timeout 1, smooth),
      (.runTask, smooth), (.instruction, smooth)]).elim False
      (fun s => s.runningContext = some 1 ∧ s.usedVars 1 = {4} ∧
        Access.shared 1 ∈ (s.executed 1 smooth).accesses) ∧
    (runTrace step booted [(.load 1 (timerScript [84, 0]), smooth), (.timeout 1, smooth),
      (.runTask, smooth)]).elim False
      (fun s => s.runningContext = some 1 ∧ s.usedVars 1 = ∅ ∧
        Access.shared 7 ∈ (s.executed 1 smooth).accesses) := by
  decide +kernel

end DvmAnalysis
