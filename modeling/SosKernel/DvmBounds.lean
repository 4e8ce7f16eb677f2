import SosKernel.DvmMoves
import SosKernel.DvmPolicy

/-! # Scripts stay within their bounds

A discipline is a policy for every script, with the places where its program counter may be. The
virtual machine keeps it as long as the operands of each instruction are safe. -/
namespace DvmBounds

open DvmMachine DvmMachine.Dvm DvmInterpreter DvmMoves DvmPolicy GuardedRuns Function

structure Discipline where
  policy : Script → Policy
  base : BitVec 16
  admitted : Script → Prop
  place : Script → ℕ → Prop
  base_eq : ∀ script, (policy script).base = base
  shared_eq : ∀ {script script' v}, (policy script).goodShared v → (policy script').goodShared v
  start : ∀ {script}, admitted script → place script 0
  next : ∀ {script p p'}, admitted script → place script p → script.code p < libIdBit →
    Next script.code p p' → place script p'
  permits : ∀ {script p}, admitted script → place script p → script.code p < libIdBit →
    Permits (policy script) (decode (script.code p))

variable {D : Discipline} {s t : Dvm} {c : Id} {ok : Bool} {r : Reply} {p k : ℕ} {script : Script}

@[mk_iff] structure FrameOk (D : Discipline) (script : Script) (f : Frame) : Prop where
  place : D.place script f.pc
  sp : f.sp ≤ dvmOpdepth
  stack : ∀ i, i < dvmOpdepth → (D.policy script).good (f.stack i)
  vars : ∀ i, i < dvmNumLocalVars → (D.policy script).good (f.vars i)

structure SharedOk (D : Discipline) (sh : Shared) : Prop where
  vars : ∀ script k, (D.policy script).goodShared (sh.sharedVars k)
  size : ∀ k, (sh.buffers k).size ≤ dvmBufLen
  base : sh.buffersAddr = D.base

structure Kept (D : Discipline) (s : Dvm) : Prop where
  admitted : ∀ c, D.admitted (s.script c)
  frame : ∀ c, FrameOk D (s.script c) (s.frame c)
  shared : SharedOk D s.shared

section

variable (h : Kept D s)
include h

lemma Kept.same (hscript : t.script = s.script) (hframe : t.frame = s.frame)
    (hshared : t.shared = s.shared) : Kept D t := by
  refine ⟨?_, ?_, ?_⟩
  · rw [hscript]
    exact h.admitted
  · rw [hscript, hframe]
    exact h.frame
  · rw [hshared]
    exact h.shared

lemma Kept.of_same (hs : Same s t) : Kept D t := h.same hs.script hs.frame hs.shared

lemma Kept.replace {f : Frame} {sh : Shared} (hf : FrameOk D (s.script c) f)
    (hsh : SharedOk D sh) (ht : t.script = s.script) (htf : t.frame = update s.frame c f)
    (hts : t.shared = sh) : Kept D t := by
  refine ⟨?_, ?_, ?_⟩
  · rw [ht]
    exact h.admitted
  · intro d
    rw [ht, htf]
    by_cases he : d = c
    · rw [he, update_self]
      exact hf
    · rw [update_of_ne he]
      exact h.frame d
  · rw [hts]
    exact hsh

lemma Kept.machine (c : Id) : Ok (D.policy (s.script c)) (s.frame c).pc [] (s.machine c) :=
  ⟨rfl, (h.frame c).sp, (h.frame c).stack, (h.frame c).vars, h.shared.vars _, h.shared.size,
    h.shared.base.trans (D.base_eq _).symm, nofun, rfl, nofun⟩

lemma Kept.settle {m : Machine} (hm : Ok (D.policy (s.script c)) p [] m)
    (hp : D.place (s.script c) p) : Kept D (s.settle c m) := by
  have hf : FrameOk D (s.script c) m.frame := ⟨hm.pc ▸ hp, hm.sp, hm.stack, hm.vars⟩
  have hsh : SharedOk D m.shared :=
    ⟨fun _ k => D.shared_eq (hm.shared k), hm.size, hm.base.trans (D.base_eq _)⟩
  exact h.replace hf hsh rfl rfl rfl

lemma Kept.setPc (hp : D.place (s.script c) p) : Kept D (s.setPc c p) := by
  have hf : FrameOk D (s.script c) { s.frame c with pc := p } :=
    ⟨hp, (h.frame c).sp, (h.frame c).stack, (h.frame c).vars⟩
  exact h.replace hf h.shared rfl rfl rfl

end

section

variable (h : Kept D s)
include h

lemma Kept.computeNext : Kept D (s.computeNext c ok) := by
  unfold Dvm.computeNext
  split_ifs <;> exact h.same rfl rfl rfl

lemma Kept.computeInstruction : Kept D (s.computeInstruction c r) := by
  unfold Dvm.computeInstruction
  split
  · exact (h.of_same (haltContext_same s c r.submitPost)).same rfl rfl rfl
  · exact h.computeNext

lemma Kept.expire : Kept D s.expire := by
  unfold Dvm.expire
  split
  · rename_i c _
    split
    · have hready : Kept D (s.setState c .ready) := h.same rfl rfl rfl
      exact (hready.of_same (queueEnqueue_same _ c .runQueue)).same rfl rfl rfl
    · exact h
  · exact h

lemma Kept.pick : Kept D s.pick := by
  unfold Dvm.pick
  split
  · split
    · exact h
    · exact h.same rfl rfl rfl
  · exact h

lemma Kept.opdone : Kept D (s.opdone r) := by
  unfold Dvm.opdone
  split
  · exact h.same rfl rfl rfl
  · have hp := h.expire.pick
    dsimp only
    split
    · exact hp.same rfl rfl rfl
    · split
      · exact hp.computeInstruction
      · exact hp.same rfl rfl rfl

lemma Kept.tryget : Kept D (s.tryget c r) := by
  unfold Dvm.tryget
  split
  · have hb : Kept D ({ s with busy := true, executing := some c }.setState c .blocked) :=
      h.same rfl rfl rfl
    exact hb.of_same (yieldContext_same _ c _)
  · have hw : Kept D (s.setState c .waiting) := h.same rfl rfl rfl
    exact hw.of_same (queueEnqueue_same _ c _)

lemma Kept.retryPost : Kept D (s.retryPost c r) := by
  have hy := h.of_same (yieldContext_same s c r.submitPost)
  exact (hy.of_same (resumeContext_same _ c r.submitPost)).same rfl rfl rfl

lemma Kept.past (hop : s.opcode c < libIdBit) (hlen : length (decode (s.opcode c)) = 1)
    (hne : decode (s.opcode c) ≠ .halt) : Kept D (s.setPc c (((s.frame c).pc + 1) % 65536)) := by
  refine h.setPc (D.next (h.admitted c) (h.frame c).place hop (.inr (.inr (.inl ⟨hne, ?_⟩))))
  rw [show bytelength ((s.script c).code (s.frame c).pc) = 1 from (bytelength_eq hop).trans hlen]

section

variable (hop : s.opcode c < libIdBit)
    (hsafe : Safe (D.policy (s.script c)) (s.machine c) r.answer (decode (s.opcode c)))
include hop hsafe

lemma Kept.executed :
    ∃ p, D.place (s.script c) p ∧ Ok (D.policy (s.script c)) p [] (s.executed c r) := by
  have hplace := (h.frame c).place
  have hpermits := D.permits (h.admitted c) hplace hop
  obtain ⟨p, hnext, hok⟩ := run_ok r.posted (h.machine c) hop hpermits hsafe
  exact ⟨p, D.next (h.admitted c) hplace hop hnext, hok⟩

lemma Kept.execute (ht : s.execute c r = some t) : Kept D t := by
  have hsettle : Kept D (s.settle c (s.executed c r)) := by
    obtain ⟨p, hp, hok⟩ := h.executed hop hsafe
    exact h.settle hok hp
  unfold Dvm.execute at ht
  split at ht
  · cases ht
    have hh : Kept D ((s.haltContext c r.submitPost).setState c .halt) :=
      (h.of_same (haltContext_same s c r.submitPost)).same rfl rfl rfl
    exact hh.setPc (D.start (hh.admitted c))
  · rename_i k hi
    cases ht
    have hp := h.past hop (by rw [hi]; rfl) (by rw [hi]; exact nofun)
    split
    · have hw : Kept D ((s.setPc c (((s.frame c).pc + 1) % 65536)).setState c .waiting) :=
        hp.same rfl rfl rfl
      exact hw.of_same (queueEnqueue_same _ c _)
    · exact hp.tryget
  · rename_i hi
    cases ht
    have hp := h.past hop (by rw [hi]; rfl) (by rw [hi]; exact nofun)
    have hb : Kept D (((s.setPc c (((s.frame c).pc + 1) % 65536)).setState c .blocked).postRunTask
        r.nopPost) := hp.same rfl rfl rfl
    exact hb.of_same (yieldContext_same _ c _)
  · split at ht
    · cases ht
    · cases ht
      split
      · exact hsettle
      · exact hsettle.retryPost
  · split at ht
    · cases ht
    · cases ht
      exact hsettle

end

end

/-- What has to be known of the operands of an instruction, and of what comes from outside. -/
def Legal (D : Discipline) (s : Dvm) (ev : Event × Reply) : Prop :=
  match ev.1 with
  | .instruction => ∀ c, s.runningContext = some c →
      if libIdBit ≤ s.opcode c then FrameOk D (s.script c) ev.2.library
      else Safe (D.policy (s.script c)) (s.machine c) ev.2.answer (decode (s.opcode c))
  | .userEvent _ _ data => ∀ c, ∀ v ∈ data c, (D.policy (s.script c)).good v
  | .load _ script => D.admitted script
  | _ => True

lemma Kept.instruction (h : Kept D s) (hl : if libIdBit ≤ s.opcode c
      then FrameOk D (s.script c) r.library
      else Safe (D.policy (s.script c)) (s.machine c) r.answer (decode (s.opcode c)))
    (ht : s.instruction c r = some t) : Kept D t := by
  obtain ⟨u, hu, rfl⟩ := Option.map_eq_some_iff.mp ht
  refine Kept.computeNext ?_
  split at hu
  · rename_i hop
    rw [if_pos hop] at hl
    cases hu
    exact h.replace hl h.shared rfl rfl rfl
  · rename_i hop
    rw [if_neg hop] at hl
    have hcount : Kept D { s with
        numExecuted := update s.numExecuted c (s.numExecuted c + 1) } :=
      h.same rfl rfl rfl
    exact hcount.execute (Nat.lt_of_not_le hop) hl hu

lemma Kept.initializeContext (h : Kept D s) : Kept D (s.initializeContext c) := by
  have hf : FrameOk D (s.script c) { s.frame c with pc := 0, sp := 0 } :=
    ⟨D.start (h.admitted c), Nat.zero_le _, (h.frame c).stack, (h.frame c).vars⟩
  exact h.replace hf h.shared rfl rfl rfl

lemma Kept.push (h : Kept D s) {v : Slot} (hv : (D.policy (s.script c)).good v) :
    Kept D (s.settle c (pushOperand v (s.machine c)).2) :=
  h.settle (pushOperand_part hv _ (h.machine c)).2 (h.frame c).place

lemma Kept.begin (h : Kept D s) {data : Option Slot}
    (hd : ∀ v ∈ data, (D.policy (s.script c)).good v) : Kept D (s.begin c data ok) := by
  have hi := h.initializeContext (c := c)
  refine Kept.of_same ?_ (resumeContext_same _ c ok)
  cases data with
  | none => exact hi
  | some v => exact hi.push (hd v rfl)

variable {sid type : ℕ} {data : Id → Option Slot}

lemma wake_script : (s.wake c sid type data ok).script = s.script := by
  unfold Dvm.wake
  split
  · exact (begin_same s c (data c) ok).2.1
  · rfl

section

variable (h : Kept D s)
include h

lemma Kept.wake (hd : ∀ v ∈ data c, (D.policy (s.script c)).good v) :
    Kept D (s.wake c sid type data ok) := by
  unfold Dvm.wake
  split
  · exact h.begin hd
  · exact h

lemma Kept.eventHandlerDefault (hd : ∀ c, ∀ v ∈ data c, (D.policy (s.script c)).good v) :
    Kept D (s.eventHandlerDefault sid type data ok) := by
  have hfold : Kept D (s.eventHandlerDefault sid type data ok) ∧
      (s.eventHandlerDefault sid type data ok).script = s.script := by
    refine List.foldlRecOn (motive := fun (u : Dvm) => Kept D u ∧ u.script = s.script) _ _
      ⟨h, rfl⟩ ?_
    rintro u ⟨hu, hscript⟩ c _
    refine ⟨hu.wake ?_, wake_script.trans hscript⟩
    rw [hscript]
    exact hd c
  exact hfold.1

lemma Kept.dataReady {value : BitVec 16} : Kept D (s.dataReady value r) := by
  have hdelivered : Kept D ({ s with busy := false }.delivered value r.submitPost) := by
    have hb : Kept D { s with busy := false } := h.same rfl rfl rfl
    unfold delivered
    split
    · rename_i c _
      have hpush := hb.push (c := c) ((D.policy _).plain ⟨typeInteger, value⟩ nofun)
      exact (hpush.of_same (resumeContext_same _ c _)).same rfl rfl rfl
    · exact hb
  unfold Dvm.dataReady
  dsimp only
  split
  · exact hdelivered
  · rename_i current rest _
    have hdeq := hdelivered.same (t := Dvm.dequeued _ current .getDataWaitQueue rest) rfl rfl rfl
    exact hdeq.tryget

lemma Kept.engineReboot : Kept D s.engineReboot := by
  refine ⟨h.admitted, h.frame, ?_, fun _ => Nat.zero_le _, h.shared.base⟩
  exact fun script k => (D.policy script).shared_of_good _ ((D.policy script).plain _ nofun)

lemma Kept.rebootContext : Kept D (s.rebootContext c ok) := by
  have hplain : ∀ i, i < dvmNumLocalVars → (D.policy (s.script c)).good ⟨typeInteger, 0⟩ :=
    fun _ _ => (D.policy _).plain _ nofun
  have hf : FrameOk D (s.script c) { s.frame c with vars := fun _ => ⟨typeInteger, 0⟩ } :=
    ⟨(h.frame c).place, (h.frame c).sp, (h.frame c).stack, hplain⟩
  have hvars := h.replace (t := { s with frame := update s.frame c _ }) hf h.shared
    rfl rfl rfl
  unfold Dvm.rebootContext
  split
  · split
    · exact hvars
    · exact hvars.of_same (haltContext_same _ c ok)
  · exact h

lemma Kept.install (hs : D.admitted script) : Kept D (s.install c script) := by
  have hzero : (D.policy script).good ⟨0, 0⟩ := (D.policy script).plain _ (by decide)
  refine ⟨fun d => ?_, fun d => ?_, h.shared⟩
  · change D.admitted (update s.script c script d)
    by_cases he : d = c
    · rw [he, update_self]
      exact hs
    · rw [update_of_ne he]
      exact h.admitted d
  · change FrameOk D (update s.script c script d) (update s.frame c _ d)
    by_cases he : d = c
    · rw [he, update_self, update_self]
      exact ⟨D.start hs, Nat.zero_le _, fun _ _ => hzero, fun _ _ => hzero⟩
    · rw [update_of_ne he, update_of_ne he]
      exact h.frame d

lemma Kept.loaderDataAvailable (hs : D.admitted script) :
    Kept D (s.loaderDataAvailable c script ok) := by
  have hboot : Kept D (s.rebooted c script ok) := by
    have hi : Kept D { s.install c script with
        usedVars := update (s.install c script).usedVars c
          ((s.install c script).analyzed c) } := (h.install hs).same rfl rfl rfl
    refine List.foldlRecOn (motive := Kept D) _ _ hi.initializeContext.engineReboot ?_
    exact fun _ hu _ _ => hu.rebootContext
  unfold Dvm.loaderDataAvailable
  dsimp only
  split
  · exact hboot.begin nofun
  · exact hboot

lemma Kept.step {ev : Event × Reply} (hl : Legal D s ev) (ht : step s ev = some t) : Kept D t := by
  obtain ⟨e, r⟩ := ev
  unfold DvmMachine.step at ht
  split at ht
  · cases e with
    | instruction =>
      split at ht
      · rename_i c _ hc
        exact h.instruction (hl c hc) ht
      · cases ht
    | _ => cases ht
  · cases e with
    | instruction => cases ht
    | runTask =>
      simp only [handle] at ht
      split at ht
      · cases ht
      · cases ht
        exact (h.same (t := { s with runTasks := s.runTasks - 1 }) rfl rfl rfl).opdone
    | halt =>
      cases ht
      exact h.same rfl rfl rfl
    | resume =>
      cases ht
      split
      · exact h.same rfl rfl rfl
      · exact (h.same (t := { s with halted := false, taskRunning := true }) rfl rfl rfl).opdone
    | timeout id =>
      simp only [handle] at ht
      split at ht
      · cases ht
        unfold Dvm.timeout
        split
        · exact h.begin (fun _ hv => absurd hv (Option.some_ne_none _).symm)
        · exact h
      · cases ht
    | userEvent sid type data =>
      cases ht
      exact h.eventHandlerDefault hl
    | dataReady value =>
      cases ht
      exact h.dataReady
    | addLibrary lib =>
      cases ht
      exact Kept.engineReboot (h.same rfl rfl rfl)
    | removeLibrary lib =>
      cases ht
      exact Kept.engineReboot (h.same rfl rfl rfl)
    | load c script =>
      cases ht
      exact h.loaderDataAvailable hl

end

lemma initial_kept (entries : ℕ → ℕ → BitVec 8) (hblank : D.admitted ⟨0, 0, 0, 0, fun _ => 0⟩) :
    Kept D (initial D.base entries) := by
  have hgood : ∀ script, (D.policy script).good ⟨0, 0⟩ :=
    fun script => (D.policy script).plain _ (by decide)
  refine ⟨fun _ => hblank, fun _ => ?_, ?_, fun _ => Nat.zero_le _, rfl⟩
  · exact ⟨D.start hblank, Nat.zero_le _, fun _ _ => hgood _, fun _ _ => hgood _⟩
  · exact fun script k => (D.policy script).shared_of_good _ ((D.policy script).plain _ nofun)

def InBounds : Access → Prop
  | .stack i => i < dvmOpdepth
  | .local i => i < dvmNumLocalVars
  | .shared k => k < dvmNumSharedVars
  | .buffer k => k < dvmNumBufs
  | .entry i => i < dvmBufLen
  | .pointer type => type = typeBuffer

def Points (base : BitVec 16) (v : Slot) : Prop :=
  v.type = typeBuffer → (bufferOf base v.word).isSome

lemma bufferOf_lt {base addr : BitVec 16} (h : bufferOf base addr = some k) :
    k < dvmNumBufs := List.mem_range.mp (List.mem_of_find?_eq_some h)

lemma bufferOf_bufferAddr_isSome (base : BitVec 16) (h : k < dvmNumBufs) :
    (bufferOf base (bufferAddr base k)).isSome :=
  List.find?_isSome.mpr ⟨k, List.mem_range.mpr h, decide_eq_true rfl⟩

def boundsPolicy (base : BitVec 16) : Policy where
  base := base
  allowed := InBounds
  good := Points base
  goodShared := Points base
  stack_allowed := fun _ h => h
  local_allowed := fun _ h => h
  entry_allowed := fun _ h => h
  pointer_allowed := rfl
  plain := fun _ hne ht => absurd ht hne
  shared_of_good := fun _ h => h
  follow := fun v hv ht => by
    obtain ⟨k, hk⟩ := Option.isSome_iff_exists.mp (hv ht)
    exact ⟨k, hk, bufferOf_lt hk⟩

def inRange : Instr → Bool
  | .getVar k | .setVar k | .getVarF k => k < dvmNumSharedVars
  | .setVarF k => k + 1 < dvmNumSharedVars
  | .bpush k => k < dvmNumBufs
  | .getLocal k | .getLocalF k | .setLocal k => k < dvmNumLocalVars
  | .setLocalF k => k + 1 < dvmNumLocalVars
  | _ => true

lemma decode_inRange {op : ℕ} (h : op < libIdBit) : inRange (decode op) = true := by
  revert op
  decide +kernel

lemma boundsPolicy_permits {base : BitVec 16} {i : Instr} (h : inRange i = true) :
    Permits (boundsPolicy base) i := by
  cases i with
  | getVar k | setVar k | getVarF k => exact of_decide_eq_true (p := k < dvmNumSharedVars) h
  | setVarF k =>
    have hk : k + 1 < dvmNumSharedVars := of_decide_eq_true h
    exact ⟨Nat.lt_of_succ_lt hk, hk⟩
  | bpush k => exact fun _ => bufferOf_bufferAddr_isSome base (of_decide_eq_true h)
  | getLocal k | getLocalF k | setLocal k => exact of_decide_eq_true (p := k < dvmNumLocalVars) h
  | setLocalF k => exact of_decide_eq_true (p := k + 1 < dvmNumLocalVars) h
  | _ => trivial

def bounds (base : BitVec 16) : Discipline where
  policy := fun _ => boundsPolicy base
  base := base
  admitted := fun _ => True
  place := fun _ _ => True
  base_eq := fun _ => rfl
  shared_eq := fun h => h
  start := fun _ => trivial
  next := fun _ _ _ _ => trivial
  permits := fun _ _ hop => boundsPolicy_permits (decode_inRange hop)

/-- In a run whose instructions find operands of the kind they need, no instruction leaves the
bounds of an array, and only buffers are followed. -/
theorem accesses_in_bounds_over_runs (base : BitVec 16) (entries : ℕ → ℕ → BitVec 8)
    (es : List (Event × Reply)) (s : Dvm) (c : Id) (r : Reply)
    (hv : ValidTrace step (Legal (bounds base)) (initial base entries) es)
    (hrun : runTrace step (initial base entries) es = some s)
    (hc : s.runningContext = some c) (hop : s.opcode c < libIdBit)
    (hl : Legal (bounds base) s (.instruction, r)) :
    ∀ a ∈ (s.executed c r).accesses, InBounds a := by
  have hinv : ∀ s ev t, Kept (bounds base) s → Legal (bounds base) s ev → step s ev = some t →
      Kept (bounds base) t := fun _ _ _ h hl ht => h.step hl ht
  have hk := run_invariant_of_some hinv (initial_kept entries trivial) hv hrun
  have hsafe := hl c hc
  rw [if_neg (Nat.not_le_of_lt hop)] at hsafe
  obtain ⟨_, _, hok⟩ := hk.executed hop hsafe
  exact hok.allowed

section Decidable

variable {π : Policy}

instance [DecidablePred π.good] (ans : Answer) : Decidable (GoodAnswer π ans) :=
  decidable_of_iff' _ (goodAnswer_iff π ans)

instance [DecidablePred π.good] (m : Machine) (ans : Answer) (i : Instr) :
    Decidable (Safe π m ans i) := by
  cases i <;> (dsimp only [Safe]; infer_instance)

instance [∀ script, DecidablePred (D.policy script).good] [∀ script, DecidablePred (D.place script)]
    (script : Script) (f : Frame) : Decidable (FrameOk D script f) :=
  decidable_of_iff' _ (frameOk_iff D script f)

instance [∀ script, DecidablePred (D.policy script).good] [∀ script, DecidablePred (D.place script)]
    [DecidablePred D.admitted] (ev : Event × Reply) : Decidable (Legal D s ev) := by
  obtain ⟨e, r⟩ := ev
  unfold Legal
  split <;> infer_instance

end Decidable

instance (base : BitVec 16) (script : Script) :
    DecidablePred ((bounds base).policy script).good := fun v =>
  inferInstanceAs (Decidable (v.type = typeBuffer → (bufferOf base v.word).isSome))

instance (base : BitVec 16) (script : Script) : DecidablePred ((bounds base).place script) :=
  fun _ => inferInstanceAs (Decidable True)

instance (base : BitVec 16) : DecidablePred (bounds base).admitted :=
  fun _ => inferInstanceAs (Decidable True)

def clearing : List (Event × Reply) :=
  [(.load 1 (timerScript [65, 19, 0]), smooth), (.timeout 1, smooth), (.runTask, smooth),
    (.instruction, smooth)]

theorem accesses_in_bounds_sample :
    ∃ s, runTrace step booted clearing = some s ∧ s.runningContext = some 1 ∧
      Access.pointer typeBuffer ∈ (s.executed 1 smooth).accesses ∧
      ∀ a ∈ (s.executed 1 smooth).accesses, InBounds a := by
  obtain ⟨s, hrun, hc, hop, hl, hmem⟩ : ∃ s, runTrace step booted clearing = some s ∧
      s.runningContext = some 1 ∧ s.opcode 1 < libIdBit ∧
      Legal (bounds 4096) s (.instruction, smooth) ∧
      Access.pointer typeBuffer ∈ (s.executed 1 smooth).accesses := by decide +kernel
  exact ⟨s, hrun, hc, hmem, accesses_in_bounds_over_runs 4096 (fun _ _ => 0) clearing s 1 smooth
    (by decide +kernel) hrun hc hop hl⟩

/-- `PUSHC 5; BCLEAR` follows a number as a pointer, and a number with decimals in the last local
variable takes one more slot, where the handle of the script is. -/

theorem operand_leaves_bounds :
    (runTrace step booted [(.load 1 (timerScript [1, 5, 19, 0]), smooth), (.timeout 1, smooth),
      (.runTask, smooth), (.instruction, smooth)]).elim False
      (fun s => s.runningContext = some 1 ∧
        Access.pointer typeInteger ∈ (s.executed 1 smooth).accesses) ∧
    (runTrace step booted [(.load 1 (timerScript [69, 0, 0, 0, 0, 105, 0]), smooth),
      (.timeout 1, smooth), (.runTask, smooth), (.instruction, smooth)]).elim False
      (fun s => s.runningContext = some 1 ∧
        Access.local dvmNumLocalVars ∈ (s.executed 1 smooth).accesses ∧
        (step s (.instruction, smooth)).isNone) := by
  decide +kernel

end DvmBounds
