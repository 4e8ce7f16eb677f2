import Mathlib.Tactic.MkIffOfInductiveProp
import SosKernel.DvmInterpreter

/-! # What an instruction may touch

A policy says which accesses are allowed and which slots a script may have: those whose pointers
lead to allowed buffers. -/
namespace DvmPolicy

open DvmInterpreter StatePrograms

structure Policy where
  base : BitVec 16
  allowed : Access → Prop
  good : Slot → Prop
  goodShared : Slot → Prop
  stack_allowed : ∀ i, i < dvmOpdepth → allowed (.stack i)
  local_allowed : ∀ i, i < dvmNumLocalVars → allowed (.local i)
  entry_allowed : ∀ i, i < dvmBufLen → allowed (.entry i)
  pointer_allowed : allowed (.pointer typeBuffer)
  plain : ∀ v, v.type ≠ typeBuffer → good v
  shared_of_good : ∀ v, good v → goodShared v
  follow : ∀ v, good v → v.type = typeBuffer →
    ∃ k, bufferOf base v.word = some k ∧ allowed (.buffer k)

variable {π : Policy} {p i k n : ℕ} {v : Slot} {m : Machine} {pins : List ℕ} {α : Type}
  {R : α → Prop} {x : BitVec 16} {ans : Answer} {dst src b : ℕ} {P : Slot → Prop}

/-- The machine obeys the policy at program counter `p`. The slots `pins` hold buffers. -/
structure Ok (π : Policy) (p : ℕ) (pins : List ℕ) (m : Machine) : Prop where
  pc : m.frame.pc = p
  sp : m.frame.sp ≤ dvmOpdepth
  stack : ∀ i, i < dvmOpdepth → π.good (m.frame.stack i)
  vars : ∀ i, i < dvmNumLocalVars → π.good (m.frame.vars i)
  shared : ∀ k, π.goodShared (m.shared.sharedVars k)
  size : ∀ k, (m.shared.buffers k).size ≤ dvmBufLen
  base : m.shared.buffersAddr = π.base
  allowed : ∀ a ∈ m.accesses, π.allowed a
  broken : m.broken = false
  pinned : ∀ i ∈ pins, (m.frame.stack i).type = typeBuffer

abbrev Obeys {α : Type} (π : Policy) (p : ℕ) (pins : List ℕ) (e : Exec α) : Prop :=
  Keeps (Ok π p pins) e (fun _ => True)

lemma Ok.unpin (h : Ok π p pins m) : Ok π p [] m := { h with pinned := nofun }

lemma Ok.tail (h : Ok π p (i :: pins) m) : Ok π p pins m :=
  { h with pinned := fun j hj => h.pinned j (List.mem_cons_of_mem i hj) }

lemma Ok.pin (h : Ok π p pins m) (hi : (m.frame.stack i).type = typeBuffer) :
    Ok π p (i :: pins) m :=
  { h with pinned := fun j hj => (List.mem_cons.mp hj).elim (fun e => e ▸ hi) (h.pinned j) }

lemma access_part {a : Access} (ha : π.allowed a) : Obeys π p pins (access a) := by
  refine Keeps.modify (fun m h => ?_)
  refine { h with allowed := fun b hb => ?_ }
  rcases List.mem_append.mp hb with hb | hb
  · exact h.allowed b hb
  · rw [List.mem_singleton.mp hb]
    exact ha

lemma error_part : Obeys π p pins error := Keeps.modify (fun _ h => { h with })

lemma setSp_part (hn : n ≤ dvmOpdepth) : Obeys π p pins (setSp n) :=
  Keeps.modify (fun _ h => { h with sp := hn })

lemma slotAt_sat (hi : i < dvmOpdepth) : Sat (Ok π p pins) (slotAt i)
    (fun v m => π.good v ∧ (v.type = typeBuffer → Ok π p (i :: pins) m) ∧ Ok π p pins m) := by
  refine Sat.bind (access_part (π.stack_allowed i hi)) (fun _ m h => ?_)
  exact ⟨h.2.stack i hi, fun hv => h.2.pin hv, h.2⟩

lemma slotAt_part (hi : i < dvmOpdepth) : Keeps (Ok π p pins) (slotAt i) π.good :=
  Sat.conseq (slotAt_sat hi) (fun _ h => h) (fun _ _ h => ⟨h.1, h.2.2⟩)

lemma setStack_part (hi : i < dvmOpdepth) (hv : π.good v) (hpin : i ∉ pins) :
    Obeys π p pins (setStack i v) := by
  refine Keeps.bind (access_part (π.stack_allowed i hi)) (fun _ _ => Keeps.modify (fun m h => ?_))
  refine { h with stack := fun j hj => ?_, pinned := fun j hj => ?_ }
  · by_cases he : j = i
    · simpa [he] using hv
    · simpa [he] using h.stack j hj
  · have he : j ≠ i := fun e => hpin (e ▸ hj)
    simpa [he] using h.pinned j hj

lemma pushOperand_part (hv : π.good v) : Obeys π p [] (pushOperand v) := by
  intro m h
  have he : pushOperand v m = (if dvmOpdepth ≤ m.frame.sp then error
    else (do setStack m.frame.sp v; setSp (m.frame.sp + 1)) : Exec Unit) m := rfl
  refine Keeps.ite (fun _ => error_part) (fun hsp => ?_) m h
  have hlt : m.frame.sp < dvmOpdepth := Nat.lt_of_not_le hsp
  exact Keeps.bind (setStack_part hlt hv List.not_mem_nil) (fun _ _ => setSp_part hlt)

lemma pushValue_part {val : BitVec 16} {type : ℕ} (ht : type ≠ typeBuffer) :
    Obeys π p [] (pushValue val type) :=
  pushOperand_part (π.plain _ ht)

lemma pushHalves_part {low high : BitVec 16} :
    Obeys π p [] (do pushValue low typeFloatDec; pushValue high typeFloat) :=
  Keeps.bind (pushValue_part (by decide)) (fun _ _ => pushValue_part (by decide))

lemma pushFloat_part {res : BitVec 32} : Obeys π p [] (pushFloat res) := pushHalves_part

lemma popOperand_eq (m : Machine) : popOperand m = (if m.frame.sp = 0 then
      (do let v ← slotAt 0; setStack 0 { v with type := typeNone }; error; return 0)
    else (do setSp (m.frame.sp - 1); access (.stack (m.frame.sp - 1)); return m.frame.sp - 1) :
      Exec ℕ) m := rfl

lemma popOperand_part (hpin : 0 ∉ pins) :
    Keeps (Ok π p pins) popOperand (fun i => i < dvmOpdepth) := by
  intro m h
  have hsp := h.sp
  rw [popOperand_eq]
  by_cases hzero : m.frame.sp = 0
  · rw [if_pos hzero]
    have hnone : ∀ v : Slot, π.good { v with type := typeNone } := fun v => π.plain _ nofun
    exact Keeps.bind (slotAt_part (by decide)) (fun v _ =>
      Keeps.bind (setStack_part (by decide) (hnone v) hpin) (fun _ _ =>
        Keeps.bind error_part (fun _ _ => Keeps.pure (show 0 < dvmOpdepth by decide)))) m h
  · rw [if_neg hzero]
    have hlt : m.frame.sp - 1 < dvmOpdepth := by omega
    exact Keeps.bind (setSp_part (Nat.le_of_lt hlt)) (fun _ _ =>
      Keeps.bind (access_part (π.stack_allowed _ hlt)) (fun _ _ => Keeps.pure hlt)) m h

lemma pop_part : Keeps (Ok π p []) popOperand (fun i => i < dvmOpdepth) :=
  popOperand_part List.not_mem_nil

lemma operand_part {f : Slot → Exec α} (hf : ∀ v, π.good v → Keeps (Ok π p []) (f v) R) :
    Keeps (Ok π p []) (do let i ← popOperand; let v ← slotAt i; f v) R :=
  Keeps.bind pop_part (fun _ hi => Keeps.bind (slotAt_part hi) hf)

lemma operands_part {α : Type} {f : Slot → Slot → Exec α} (hf : ∀ v w, Obeys π p [] (f v w)) :
    Obeys π p []
      (do let i ← popOperand; let j ← popOperand; let v ← slotAt i; let w ← slotAt j; f v w) := by
  refine Keeps.bind pop_part (fun _ hi => Keeps.bind pop_part (fun _ hj => ?_))
  exact Keeps.bind (slotAt_part hi) (fun v _ => Keeps.bind (slotAt_part hj) (fun w _ => hf v w))

/-- A second operand, if the first one is a fixed-point number. -/
lemma float_part {α : Type} {f : Slot → Exec α} {e : Exec α} (hf : ∀ w, Obeys π p [] (f w))
    (he : Obeys π p [] e) : Obeys π p []
      (if v.type = typeFloat then (do let i ← popOperand; let w ← slotAt i; f w) else e) :=
  Keeps.ite (fun _ => operand_part (fun w _ => hf w)) (fun _ => he)

def topSlot (m : Machine) : Slot :=
  if m.frame.sp = 0 then { m.frame.stack 0 with type := typeNone }
  else m.frame.stack (m.frame.sp - 1)

lemma popOperand_top (m : Machine) : (popOperand m).2.frame.stack (popOperand m).1 = topSlot m ∧
    (popOperand m).1 = m.frame.sp - 1 := by
  rw [popOperand_eq, topSlot]
  by_cases hzero : m.frame.sp = 0
  · rw [if_pos hzero, if_pos hzero, hzero]
    refine ⟨?_, rfl⟩
    change Function.update m.frame.stack 0 { m.frame.stack 0 with type := typeNone } 0 = _
    rw [Function.update_self]
  · rw [if_neg hzero, if_neg hzero]
    exact ⟨rfl, rfl⟩

lemma popOperand_sat :
    Sat (fun m => Ok π p [] m ∧ P (topSlot m)) popOperand
      (fun i m => i < dvmOpdepth ∧ P (m.frame.stack i) ∧ Ok π p [] m) := by
  intro m ⟨h, hP⟩
  obtain ⟨hi, hok⟩ := popOperand_part List.not_mem_nil m h
  refine ⟨hi, ?_, hok⟩
  rw [(popOperand_top m).1]
  exact hP

lemma popOperand_pin :
    Sat (fun m => Ok π p [] m ∧ (topSlot m).type = typeBuffer ∧ n < m.frame.sp) popOperand
      (fun i m => i < dvmOpdepth ∧ n ≤ i ∧ Ok π p [i] m) := by
  intro m ⟨h, htop, hsp⟩
  obtain ⟨hi, htype, hok⟩ := popOperand_sat
    (P := fun v => v.type = typeBuffer) m ⟨h, htop⟩
  refine ⟨hi, ?_, hok.pin htype⟩
  rw [(popOperand_top m).2]
  omega

lemma localAt_part (hi : i < dvmNumLocalVars) : Keeps (Ok π p pins) (localAt i) π.good :=
  Keeps.bind (access_part (π.local_allowed i hi)) (fun _ _ => Keeps.read (fun _ h => h.vars i hi))

lemma setLocalVar_part (hi : i < dvmNumLocalVars) (hv : π.good v) :
    Obeys π p pins (setLocalVar i v) := by
  refine Keeps.bind (access_part (π.local_allowed i hi)) (fun _ _ => Keeps.modify (fun m h => ?_))
  refine { h with vars := fun j hj => ?_, broken := ?_ }
  · by_cases he : j = i
    · simpa [he] using hv
    · simpa [he] using h.vars j hj
  · simp [h.broken, Nat.not_le_of_lt hi]

lemma sharedAt_part (hk : π.allowed (.shared k)) : Keeps (Ok π p pins) (sharedAt k) π.goodShared :=
  Keeps.bind (access_part hk) (fun _ _ => Keeps.read (fun _ h => h.shared k))

lemma setSharedVar_part (hk : π.allowed (.shared k)) (hv : π.good v) :
    Obeys π p pins (setSharedVar k v) := by
  refine Keeps.bind (access_part hk) (fun _ _ => Keeps.modify (fun m h => ?_))
  refine { h with shared := fun j => ?_ }
  by_cases he : j = k
  · simpa [he] using π.shared_of_good v hv
  · simpa [he] using h.shared j

lemma entryAt_part (hi : i < dvmBufLen) : Obeys π p pins (entryAt k i) :=
  Keeps.bind (access_part (π.entry_allowed i hi)) (fun _ _ => Keeps.read (fun _ _ => trivial))

section

variable (hi : i < dvmOpdepth) (hpin : i ∈ pins)
include hi hpin

lemma slotAt_pinned :
    Keeps (Ok π p pins) (slotAt i) (fun v => π.good v ∧ v.type = typeBuffer) :=
  Keeps.bind (access_part (π.stack_allowed i hi))
    (fun _ _ => Keeps.read (fun _ h => ⟨h.stack i hi, h.pinned i hpin⟩))

lemma pointerAt_part :
    Keeps (Ok π p pins) (pointerAt i) (fun b => ∃ k, b = some k ∧ π.allowed (.buffer k)) := by
  refine Keeps.bind (slotAt_pinned hi hpin) (fun v ⟨hv, ht⟩ => ?_)
  refine Keeps.bind (access_part (ht ▸ π.pointer_allowed)) (fun _ _ m h => ?_)
  obtain ⟨k, hk, hallowed⟩ := π.follow v hv ht
  have hb : bufferOf m.shared.buffersAddr v.word = some k := by
    rw [h.base]
    exact hk
  refine ⟨⟨k, hb, hallowed⟩, { h with broken := ?_ }⟩
  change (m.broken || (bufferOf m.shared.buffersAddr v.word).isNone) = false
  rw [hb, h.broken]
  rfl

lemma through_part {f : Option ℕ → Exec α}
    (hf : ∀ k, π.allowed (.buffer k) → Keeps (Ok π p pins) (f (some k)) R) :
    Keeps (Ok π p pins) (pointerAt i >>= f) R := by
  refine Keeps.bind (pointerAt_part hi hpin) ?_
  rintro _ ⟨k, rfl, hk⟩
  exact hf k hk

end

section

variable (hk : π.allowed (.buffer k))
include hk

lemma sizeOf_part :
    Keeps (Ok π p pins) (sizeOf k) (fun n => n ≤ dvmBufLen) :=
  Keeps.bind (access_part hk) (fun _ _ => Keeps.read (fun _ h => h.size k))

lemma setBuffer_part {f : Buffer → Buffer}
    (hf : ∀ b, b.size ≤ dvmBufLen → (f b).size ≤ dvmBufLen) : Obeys π p pins (setBuffer k f) := by
  refine Keeps.bind (access_part hk) (fun _ _ => Keeps.modify (fun m h => ?_))
  refine { h with size := fun j => ?_ }
  by_cases he : j = k
  · simpa [he] using hf _ (h.size k)
  · simpa [he] using h.size j

lemma setSize_part (hn : n ≤ dvmBufLen) : Obeys π p pins (setSize k n) :=
  setBuffer_part hk (fun _ _ => hn)

lemma setEntry_part {x : BitVec 8} (hi : i < dvmBufLen) : Obeys π p pins (setEntry k i x) :=
  Keeps.bind (access_part (π.entry_allowed i hi)) (fun _ _ => setBuffer_part hk (fun _ h => h))

lemma bufferGet_part (hn : 0 < n) : Obeys π p pins (bufferGet k n i x) := by
  refine Keeps.bind (sizeOf_part hk) (fun size hsize => Keeps.ite (fun hfit => ?_) (fun _ => ?_))
  · refine Keeps.ite (fun htwo => ?_) (fun _ => ?_)
    · refine Keeps.bind (entryAt_part (by omega)) (fun _ _ => ?_)
      exact Keeps.bind (entryAt_part (by omega)) (fun _ _ => Keeps.pure trivial)
    · exact Keeps.bind (entryAt_part (by omega)) (fun _ _ => Keeps.pure trivial)
  · exact Keeps.pure trivial

lemma bufferSet_part : Obeys π p pins (bufferSet k i x) := by
  refine Keeps.ite (fun hfit => ?_) (fun _ => Keeps.pure trivial)
  refine Keeps.bind (setSize_part hk hfit) (fun _ _ => ?_)
  refine Keeps.bind (setEntry_part hk (by omega)) (fun _ _ => ?_)
  exact setEntry_part hk (by omega)

lemma bufferAppend_part (hn : 0 < n) : Obeys π p pins (bufferAppend k n x) := by
  refine Keeps.bind (sizeOf_part hk) (fun size _ => Keeps.ite (fun hfit => ?_)
    (fun _ => Keeps.pure trivial))
  refine Keeps.bind (setEntry_part hk (by omega)) (fun _ _ => ?_)
  refine Keeps.bind (setSize_part hk (by omega)) (fun _ _ => ?_)
  refine Keeps.ite (fun htwo => ?_) (fun _ => Keeps.pure trivial)
  refine Keeps.bind (setEntry_part hk (by omega)) (fun _ _ => ?_)
  exact setSize_part hk (by omega)

end

section

variable (hd : π.allowed (.buffer dst)) (hs : π.allowed (.buffer src))
include hd hs

lemma concatenateFrom_part {start last : ℕ} (fuel i : ℕ) (x : BitVec 16) :
    Obeys π p pins (concatenateFrom dst src start last fuel i x) := by
  induction fuel generalizing i x with
  | zero => exact Keeps.pure trivial
  | succ fuel ih =>
    refine Keeps.ite (fun hlt => ?_) (fun _ => Keeps.pure trivial)
    have hnum : 0 < if 2 ≤ last - i then 2 else last - i := by split <;> omega
    refine Keeps.bind (bufferGet_part hs hnum) (fun y _ => ?_)
    exact Keeps.bind (bufferAppend_part hd hnum) (fun _ _ => ih _ y)

lemma bufferConcatenate_part : Obeys π p pins (bufferConcatenate dst src x) :=
  Keeps.bind (sizeOf_part hd) (fun _ _ => Keeps.bind (sizeOf_part hs)
    (fun _ _ => concatenateFrom_part hd hs _ _ x))

end

lemma ledOp_part : Obeys π p [] ledOp := operand_part (fun _ _ => Keeps.pure trivial)

section

variable (hk : π.allowed (.shared k))
include hk

lemma getVarFOp_part : Obeys π p [] (getVarFOp k) :=
  Keeps.bind (sharedAt_part hk) (fun _ _ => pushFloat_part)

lemma setVarOp_part : Obeys π p [] (setVarOp k) :=
  operand_part (fun _ hv => setSharedVar_part hk hv)

lemma setVarFOp_part (hnext : π.allowed (.shared (k + 1))) :
    Obeys π p [] (setVarFOp k) := by
  refine operand_part (fun _ _ => ?_)
  refine Keeps.bind (setSharedVar_part hnext (π.plain _ nofun)) (fun _ _ => ?_)
  exact setSharedVar_part hk (π.plain _ nofun)

end

lemma randOp_part (ans : Answer) : Obeys π p [] (randOp ans) :=
  operand_part (fun _ _ => pushValue_part nofun)

lemma arithOp_part (ans : Answer) (op : Arith) : Obeys π p [] (arithOp ans op) := by
  refine operands_part (fun v1 v2 => float_part (fun v3 => ?_) ?_)
  · exact float_part (fun _ => pushFloat_part) pushFloat_part
  · exact float_part (fun _ => pushFloat_part) (pushValue_part nofun)

lemma unaryOp_part (op : Unary) : Obeys π p [] (unaryOp op) := by
  exact operand_part (fun _ _ => float_part (fun _ => pushFloat_part) (pushValue_part nofun))

lemma modOp_part (ans : Answer) : Obeys π p [] (modOp ans) := by
  exact operands_part (fun _ _ => pushValue_part nofun)

lemma testedOp_part : Obeys π p [] testedOp := by
  exact operand_part (fun _ _ => float_part (fun _ => Keeps.pure trivial) (Keeps.pure trivial))

lemma comparedOp_part : Obeys π p [] comparedOp := by
  have hend {x : BitVec 32 × BitVec 32} : Obeys π p [] (pure x) := Keeps.pure trivial
  refine operands_part (fun v1 v2 => float_part (fun v3 => ?_) ?_)
  · exact float_part (fun _ => hend) hend
  · exact float_part (fun _ => hend) hend

lemma getVarOp_ok (h : Ok π p [] m) (hk : π.allowed (.shared k))
    (hv : π.good (m.shared.sharedVars k)) : Ok π p [] (getVarOp k m).2 :=
  (pushOperand_part hv _ (access_part hk m h).2).2

lemma pushLocals_part (hk : k + 1 < dvmNumLocalVars) (hv : π.good v) :
    Obeys π p [] (do let w ← localAt (k + 1); pushOperand w; pushOperand v) :=
  Keeps.bind (localAt_part hk) (fun _ hw =>
    Keeps.bind (pushOperand_part hw) (fun _ _ => pushOperand_part hv))

section

variable (h : Ok π p [] m) (hk : k < dvmNumLocalVars)
    (hv : k + 1 < dvmNumLocalVars ∨ (m.frame.vars k).type ≠ typeFloat)
include h hk hv

lemma getLocalOp_ok : Ok π p [] (getLocalOp k m).2 := by
  have hread : π.good (localAt k m).1 ∧ Ok π p [] (localAt k m).2 := localAt_part hk m h
  have hvalue : (localAt k m).1 = m.frame.vars k := rfl
  refine (Keeps.ite (R := fun _ => True) (fun hf => ?_) (fun _ => ?_) _ hread.2).2
  · have hnext : k + 1 < dvmNumLocalVars := hv.resolve_right (fun hne => hne (hvalue ▸ hf))
    exact pushLocals_part hnext hread.1
  · exact pushOperand_part hread.1

lemma getLocalFOp_ok : Ok π p [] (getLocalFOp k m).2 := by
  have hread : π.good (localAt k m).1 ∧ Ok π p [] (localAt k m).2 := localAt_part hk m h
  have hvalue : (localAt k m).1 = m.frame.vars k := rfl
  refine (Keeps.ite (fun _ => pushFloat_part)
    (fun _ => Keeps.ite (fun hf => ?_) (fun _ => Keeps.pure trivial)) _ hread.2).2
  have hnext : k + 1 < dvmNumLocalVars := hv.resolve_right (fun hne => hne (hvalue ▸ hf))
  exact pushLocals_part hnext hread.1

end

lemma slotAt_value (hi : i < dvmOpdepth) (hP : P (m.frame.stack i))
    (h : Ok π p pins m) : π.good (slotAt i m).1 ∧ P (slotAt i m).1 ∧ Ok π p pins (slotAt i m).2 :=
  ⟨(slotAt_part hi m h).1, hP, (slotAt_part hi m h).2⟩

lemma setLocalOp_ok (h : Ok π p [] m) (hk : k < dvmNumLocalVars)
    (hv : k + 1 < dvmNumLocalVars ∨ (topSlot m).type ≠ typeFloat) :
    Ok π p [] (setLocalOp k m).2 := by
  obtain ⟨hi, hP, hok⟩ := popOperand_sat
    (P := fun v => k + 1 < dvmNumLocalVars ∨ v.type ≠ typeFloat) m ⟨h, hv⟩
  obtain ⟨hgood, hP, hok⟩ := slotAt_value
    (P := fun v => k + 1 < dvmNumLocalVars ∨ v.type ≠ typeFloat) hi hP hok
  refine (Keeps.bind (T := fun _ => True) (setLocalVar_part hk hgood) (fun _ _ =>
    Keeps.ite (fun hf => ?_) (fun _ => Keeps.pure trivial)) _ hok).2
  have hnext : k + 1 < dvmNumLocalVars := hP.resolve_right (fun hne => hne hf)
  exact operand_part (fun _ hv1 => setLocalVar_part hnext hv1)

lemma setLocalFOp_part (hk : k + 1 < dvmNumLocalVars) : Obeys π p [] (setLocalFOp k) := by
  have hk' : k < dvmNumLocalVars := Nat.lt_of_succ_lt hk
  refine Keeps.bind pop_part (fun var hi => ?_)
  refine Keeps.bind (slotAt_part hi) (fun v _ => Keeps.ite (fun _ => ?_) (fun _ =>
    Keeps.ite (fun _ => ?_) (fun _ => Keeps.pure trivial)))
  · exact Keeps.bind (setLocalVar_part hk (π.plain _ nofun)) (fun _ _ =>
      setLocalVar_part hk' (π.plain _ nofun))
  · refine Keeps.bind pop_part (fun _ h1 => ?_)
    refine Keeps.bind (slotAt_part hi) (fun _ hv => Keeps.bind (slotAt_part h1) (fun _ hv1 => ?_))
    exact Keeps.bind (setLocalVar_part hk' hv) (fun _ _ => setLocalVar_part hk hv1)

lemma branch_part {e e' : Exec α} (hbuf : v.type = typeBuffer → Keeps (Ok π p (i :: pins)) e R)
    (helse : v.type ≠ typeBuffer → Keeps (Ok π p pins) e' R) :
    Sat (fun m => π.good v ∧ (v.type = typeBuffer → Ok π p (i :: pins) m) ∧ Ok π p pins m)
      (if v.type = typeBuffer then e else e') (fun a m => R a ∧ Ok π p pins m) := by
  refine Sat.ite (fun ht => ?_) (fun ht => ?_)
  · exact Sat.conseq (hbuf ht) (fun _ h => h.2.1 ht) (fun _ _ h => ⟨h.1, h.2.tail⟩)
  · exact Sat.conseq (helse ht) (fun _ h => h.2.2) (fun _ _ h => h)

lemma appendArg_part (hb : b < dvmOpdepth) (hpos : 0 < b) : Obeys π p [b] (appendArg ans b) := by
  have hnot : 0 ∉ [b] := by simp [Nat.ne_of_lt hpos]
  refine Keeps.bind (popOperand_part hnot) (fun i hi => Sat.bind (slotAt_sat hi) (fun v => ?_))
  refine branch_part (fun _ => ?_) (fun _ => Keeps.ite (fun _ => ?_) (fun _ => ?_))
  · refine through_part hb (by simp) (fun _ hd => ?_)
    refine through_part hi (by simp) (fun _ hs => ?_)
    exact bufferConcatenate_part hd hs
  · refine Keeps.bind (popOperand_part hnot) (fun _ h1 => ?_)
    refine Keeps.bind (slotAt_part h1) (fun _ _ => ?_)
    refine through_part hb (by simp) (fun _ hd => ?_)
    exact Keeps.bind (bufferAppend_part hd (by decide)) (fun _ _ =>
      bufferAppend_part hd (by decide))
  · refine through_part hb (by simp) (fun _ hd => ?_)
    exact bufferAppend_part hd (by decide)

lemma appendArgs_part (hb : b < dvmOpdepth) (hpos : 0 < b) (n : ℕ) :
    Obeys π p [b] (appendArgs ans b n) := by
  induction n with
  | zero => exact Keeps.pure trivial
  | succ n ih => exact Keeps.bind (appendArg_part hb hpos) (fun _ _ => ih)

lemma pushBack_sat (hi : i < dvmOpdepth) :
    Sat (Ok π p [i]) (do let v ← slotAt i; pushOperand v) (fun _ m => Ok π p [] m) :=
  Sat.conseq (Keeps.bind (slotAt_part hi) (fun _ hv => pushOperand_part hv))
    (fun _ h => h.unpin) (fun _ _ h => h.2)

lemma Keeps.unpin {e : Exec α} (h : Keeps (Ok π p pins) e R) :
    Sat (Ok π p pins) e (fun _ m => Ok π p [] m) :=
  Sat.conseq h (fun _ h => h) (fun _ _ h => h.2.unpin)

section

variable (h : Ok π p [] m) (htop : (topSlot m).type = typeBuffer)
include h htop

lemma withBuffer_ok {f : ℕ → Exec Unit} (hsp : n < m.frame.sp)
    (hf : ∀ b, b < dvmOpdepth → n ≤ b → Sat (Ok π p [b]) (f b) (fun _ m => Ok π p [] m)) :
    Ok π p [] ((popOperand >>= f) m).2 :=
  Sat.bind popOperand_pin (fun b m' ⟨hb, hn, hok⟩ => hf b hb hn m' hok) m ⟨h, htop, hsp⟩

lemma bappendOp_ok (ans : Answer) (n : ℕ) (hsp : 1 < m.frame.sp) :
    Ok π p [] (bappendOp ans n m).2 := by
  refine withBuffer_ok h htop hsp (fun b hb hpos => ?_)
  exact Sat.bind (appendArgs_part hb hpos n) (fun _ => Sat.conseq (pushBack_sat hb)
    (fun _ h => h.2) (fun _ _ h => h))

lemma bclearOp_ok (hsp : 0 < m.frame.sp) : Ok π p [] (bclearOp m).2 := by
  refine withBuffer_ok h htop hsp (fun b hb _ => Sat.bind (pointerAt_part hb (by simp)) ?_)
  rintro _ m' ⟨⟨k, rfl, hk⟩, hm'⟩
  exact Sat.bind (setSize_part hk (Nat.zero_le _)) (fun _ => Sat.conseq (pushBack_sat hb)
    (fun _ h => h.2) (fun _ _ h => h)) m' hm'

lemma breadFOp_ok (ans : Answer) (hsp : 1 < m.frame.sp) : Ok π p [] (breadFOp ans m).2 := by
  refine withBuffer_ok h htop hsp (fun b hb hpos => ?_)
  have hnot : 0 ∉ [b] := by simp [Nat.ne_of_lt hpos]
  refine Sat.bind (popOperand_part hnot) (fun i => ?_)
  rintro m1 ⟨hi, h1⟩
  refine Sat.bind (T := fun _ m => Ok π p [] m) (pointerAt_part hb (by simp)) ?_ m1 h1
  rintro _ m2 ⟨⟨k, rfl, hk⟩, h2⟩
  refine Sat.bind (T := fun _ m => Ok π p [] m) (slotAt_part hi) (fun v => ?_) m2 h2
  rintro m3 ⟨-, h3⟩
  refine (Keeps.bind (T := fun _ => True) (bufferGet_part hk (by decide)) (fun low _ => ?_) m3
    h3.unpin).2
  exact Keeps.bind (bufferGet_part hk (by decide)) (fun high _ => pushHalves_part)

lemma bsetOp_ok (hsp : 1 < m.frame.sp) : Ok π p [] (bsetOp m).2 := by
  refine withBuffer_ok h htop hsp (fun b hb hpos => Keeps.unpin (R := fun _ => True) ?_)
  have hnot : 0 ∉ [b] := by simp [Nat.ne_of_lt hpos]
  refine Keeps.bind (popOperand_part hnot) (fun i hi => ?_)
  refine Keeps.bind (slotAt_part hi) (fun v _ => Keeps.ite (fun _ => ?_) (fun _ => ?_))
  · refine Keeps.bind (popOperand_part hnot) (fun j hj => ?_)
    refine Keeps.bind (popOperand_part hnot) (fun l hl => ?_)
    refine Keeps.bind (slotAt_part hj) (fun v1 _ => Keeps.bind (slotAt_part hl) (fun w _ => ?_))
    refine through_part hb (by simp) (fun _ hk => ?_)
    exact Keeps.bind (bufferSet_part hk) (fun _ _ => bufferSet_part hk)
  · refine Keeps.bind (popOperand_part hnot) (fun j hj => ?_)
    refine Keeps.bind (slotAt_part hj) (fun w _ => ?_)
    refine through_part hb (by simp) (fun _ hk => ?_)
    exact bufferSet_part hk

end

lemma postedOp_part : Obeys π p [] postedOp := by
  refine Keeps.bind pop_part (fun i hi => Sat.bind (slotAt_sat hi) (fun v => ?_))
  refine branch_part (fun _ => ?_) (fun _ => Keeps.ite (fun _ => ?_) (fun _ => Keeps.pure trivial))
  · refine through_part hi (by simp) (fun _ hb => ?_)
    exact Keeps.bind (sizeOf_part hb) (fun _ _ => Keeps.pure trivial)
  · exact operand_part (fun _ _ => Keeps.pure trivial)

lemma postNetOp_part : Obeys π p [] postNetOp := by
  refine Keeps.bind pop_part (fun _ h1 => ?_)
  refine Keeps.bind pop_part (fun _ h2 => ?_)
  refine Keeps.bind pop_part (fun _ h3 => ?_)
  exact Keeps.bind (slotAt_part h1) (fun _ _ => Keeps.bind (slotAt_part h2) (fun _ _ =>
    Keeps.bind (slotAt_part h3) (fun _ _ => postedOp_part)))

lemma bcastOp_part : Obeys π p [] bcastOp := by exact operands_part (fun _ _ => postedOp_part)

lemma callSize_part (hi : i < dvmOpdepth) : Obeys π p [] (callSize i) := by
  refine Sat.bind (slotAt_sat hi) (fun v => branch_part (fun _ => ?_) (fun _ => Keeps.pure trivial))
  refine through_part hi (by simp) (fun _ hb => ?_)
  exact Keeps.bind (sizeOf_part hb) (fun _ _ => Keeps.pure trivial)

@[mk_iff] structure GoodAnswer (π : Policy) (ans : Answer) : Prop where
  result : π.good ans.result
  size : ans.resultBuffer.size ≤ dvmBufLen

lemma callResult_part (hans : GoodAnswer π ans) (hi : i < dvmOpdepth) :
    Obeys π p [] (callResult ans i) := by
  have hset : Obeys π p [] (setStack i ans.result) := setStack_part hi hans.result List.not_mem_nil
  refine Keeps.bind (slotAt_part hi) (fun v hv m h => ?_)
  refine Keeps.ite (fun ht => ?_) (fun _ => hset) m h
  obtain ⟨k, hk, hallowed⟩ := π.follow v hv ht
  rw [h.base, hk]
  exact Keeps.bind (setBuffer_part hallowed (fun _ _ => hans.size)) (fun _ _ => hset)

lemma callOp_part (hans : GoodAnswer π ans) : Obeys π p [] (callOp ans) := by
  refine Keeps.bind pop_part (fun _ h1 => ?_)
  refine Keeps.bind pop_part (fun _ h2 => ?_)
  refine Keeps.bind (callSize_part h1) (fun _ _ => ?_)
  refine Keeps.bind (callResult_part hans h2) (fun _ _ => ?_)
  exact Keeps.bind (slotAt_part h2) (fun _ hv => pushOperand_part hv)

lemma postOp_part (posted : Bool) : Obeys π p [] (postOp posted) := by
  refine Keeps.bind pop_part (fun _ h1 => ?_)
  refine Keeps.ite (fun _ => Keeps.pure trivial) (fun _ => ?_)
  exact Keeps.bind (slotAt_part h1) (fun _ hv => pushOperand_part hv)

lemma pushBuffer_part (hk : π.good ⟨typeBuffer, bufferAddr π.base k⟩) :
    Obeys π p [] (pushBuffer k) := by
  intro m h
  have hgood : π.good ⟨typeBuffer, bufferAddr m.shared.buffersAddr k⟩ := by
    rw [h.base]
    exact hk
  exact pushOperand_part hgood m h

def Permits (π : Policy) : Instr → Prop
  | .getVar k | .setVar k | .getVarF k => π.allowed (.shared k)
  | .setVarF k => π.allowed (.shared k) ∧ π.allowed (.shared (k + 1))
  | .bpush k => π.good ⟨typeBuffer, bufferAddr π.base k⟩
  | .getLocal k | .getLocalF k | .setLocal k => k < dvmNumLocalVars
  | .setLocalF k => k + 1 < dvmNumLocalVars
  | _ => True

def Safe (π : Policy) (m : Machine) (ans : Answer) : Instr → Prop
  | .getVar k => π.good (m.shared.sharedVars k)
  | .getLocal k | .getLocalF k => k + 1 < dvmNumLocalVars ∨ (m.frame.vars k).type ≠ typeFloat
  | .setLocal k => k + 1 < dvmNumLocalVars ∨ (topSlot m).type ≠ typeFloat
  | .bclear => (topSlot m).type = typeBuffer ∧ 0 < m.frame.sp
  | .bappend _ | .breadF | .bset => (topSlot m).type = typeBuffer ∧ 1 < m.frame.sp
  | .call => GoodAnswer π ans
  | _ => True

def Jumps : Instr → Prop
  | .jmp | .jz | .jnz | .jump _ => True
  | _ => False

/-- Where the program counter can be after an instruction at `p`; a failed `OP_POST` stays. -/
def Next (code : ℕ → ℕ) (p p' : ℕ) : Prop :=
  p' = p ∨ decode (code p) = .post ∧ p' = p % 65536 ∨
    decode (code p) ≠ .halt ∧ p' = (p + bytelength (code p)) % 65536 ∨
    Jumps (decode (code p)) ∧ p' = code ((p + 1) % 65536) % 256

def length : Instr → ℕ
  | .pushF => 5
  | .call | .post => 3
  | .push | .jmp | .jz | .jnz | .jump _ => 2
  | _ => 1

lemma bytelength_eq {op : ℕ} (h : op < 128) : bytelength op = length (decode op) := by
  revert op
  decide +kernel

lemma advance_ok (n : ℕ) (h : Ok π p [] m) : Ok π ((p + n) % 65536) [] (advance n m).2 := by
  refine { h with pc := ?_ }
  change (m.frame.pc + n) % 65536 = _
  rw [h.pc]

lemma setPc_ok (n : ℕ) (h : Ok π p [] m) : Ok π n [] (setPc n m).2 := { h with pc := rfl }

lemma run_ok {code : ℕ → ℕ} (posted : Bool) (h : Ok π p [] m) (hop : code p < 128)
    (hpermits : Permits π (decode (code p))) (hsafe : Safe π m ans (decode (code p))) :
    ∃ p', Next code p p' ∧ Ok π p' [] (run code ans posted (decode (code p)) m).2 := by
  have hlen := bytelength_eq hop
  have hpc := h.pc
  -- an instruction falls through, jumps, or stays where it is
  have hfall : ∀ {u : Machine}, Ok π p [] u → decode (code p) ≠ .halt →
      ∃ p', Next code p p' ∧ Ok π p' [] (advance (length (decode (code p))) u).2 := by
    intro u hu hne
    exact ⟨_, .inr (.inr (.inl ⟨hne, hlen ▸ rfl⟩)), advance_ok _ hu⟩
  have hjump : ∀ {u : Machine}, Ok π p [] u → Jumps (decode (code p)) → ∃ p', Next code p p' ∧
        Ok π p' [] (setPc (BitVec.ofNat 8 (code ((m.frame.pc + 1) % 65536))).toNat u).2 := by
    intro u hu hj
    refine ⟨_, .inr (.inr (.inr ⟨hj, ?_⟩)), setPc_ok _ hu⟩
    rw [hpc, BitVec.toNat_ofNat]
  have hstay : ∃ p', Next code p p' ∧ Ok π p' [] m := ⟨p, .inl rfl, h⟩
  generalize hi : decode (code p) = ins at *
  -- the instructions with three operands are kept folded
  cases ins with
  | halt => exact hstay
  | getData k => exact hstay
  | nop => exact hstay
  | push => exact hfall (pushValue_part (by decide) m h).2 nofun
  | pop => exact hfall (pop_part m h).2 nofun
  | led => exact hfall (ledOp_part m h).2 nofun
  | setTimer k => exact hfall (ledOp_part m h).2 nofun
  | getLocal k => exact hfall (getLocalOp_ok h hpermits hsafe) nofun
  | getLocalF k => exact hfall (getLocalFOp_ok h hpermits hsafe) nofun
  | setLocal k => exact hfall (setLocalOp_ok h hpermits hsafe) nofun
  | setLocalF k => exact hfall (setLocalFOp_part hpermits m h).2 nofun
  | bset => exact hfall (bsetOp_ok h hsafe.1 hsafe.2) nofun
  | bclear => exact hfall (bclearOp_ok h hsafe.1 hsafe.2) nofun
  | breadF => exact hfall (breadFOp_ok h hsafe.1 ans hsafe.2) nofun
  | bappend n => exact hfall (bappendOp_ok h hsafe.1 ans n hsafe.2) nofun
  | rand => exact hfall (randOp_part ans m h).2 nofun
  | call =>
    have hok := (callOp_part hsafe m h).2
    unfold run
    generalize callOp ans = e at hok ⊢
    exact hfall hok nofun
  | postNet =>
    have hok := (postNetOp_part m h).2
    unfold run
    generalize postNetOp = e at hok ⊢
    exact hfall hok nofun
  | bcast =>
    have hok := (bcastOp_part m h).2
    unfold run
    exact hfall hok nofun
  | arith op => exact hfall (arithOp_part ans op m h).2 nofun
  | mod => exact hfall (modOp_part ans m h).2 nofun
  | unary op => exact hfall (unaryOp_part op m h).2 nofun
  | getVar k => exact hfall (getVarOp_ok h hpermits hsafe) nofun
  | setVar k => exact hfall (setVarOp_part hpermits m h).2 nofun
  | bpush k => exact hfall (pushBuffer_part hpermits m h).2 nofun
  | setVarF k => exact hfall (setVarFOp_part hpermits.1 hpermits.2 m h).2 nofun
  | getVarF k => exact hfall (getVarFOp_part hpermits m h).2 nofun
  | other => exact hfall h nofun
  | pushF => exact hfall (pushHalves_part m h).2 nofun
  | jmp => exact hjump h trivial
  | jz =>
    have hok := (testedOp_part m h).2
    change ∃ p', Next code p p' ∧ Ok π p' [] ((if (testedOp m).1 = 0 then
      setPc (BitVec.ofNat 8 (code ((m.frame.pc + 1) % 65536))).toNat else advance 2)
        (testedOp m).2).2
    split
    · exact hjump hok trivial
    · exact hfall hok nofun
  | jnz =>
    have hok := (testedOp_part m h).2
    change ∃ p', Next code p p' ∧ Ok π p' [] ((if (testedOp m).1 = 0 then advance 2 else
      setPc (BitVec.ofNat 8 (code ((m.frame.pc + 1) % 65536))).toNat) (testedOp m).2).2
    split
    · exact hfall hok nofun
    · exact hjump hok trivial
  | jump c =>
    have hok := (comparedOp_part m h).2
    change ∃ p', Next code p p' ∧ Ok π p' []
      ((if compare (comparedOp m).1.1 (comparedOp m).1.2 c = true then
        setPc (BitVec.ofNat 8 (code ((m.frame.pc + 1) % 65536))).toNat else advance 2)
          (comparedOp m).2).2
    split
    · exact hjump hok trivial
    · exact hfall hok nofun
  | post =>
    have hok := (postOp_part posted m h).2
    cases posted with
    | true => exact hfall hok nofun
    | false => exact ⟨_, .inr (.inl ⟨hi, rfl⟩), advance_ok 0 hok⟩

end DvmPolicy
