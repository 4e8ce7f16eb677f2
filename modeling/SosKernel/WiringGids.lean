import SosKernel.WiringElements
import SosKernel.WiringRoutes
import SosKernel.WiringStatus

/-! # Group ids over a hot swap

A hot swap rewrites the routing table under elements that go on running. -/
namespace WiringGids

open WiringEngine WiringScan WiringRoutes GuardedRuns List Option Function
open WiringElements (loadElementsTable unmarkedPids)

variable {P : Platform} {e e' e0 e1 : Engine} {s s' : Scan} {cfg : Config} {row : Row}
  {ans : Answer} {pid hdr p g : ℕ} {name : ℕ × ℕ} {pre rows : List (Row × Answer)}
  {x : Row × Answer}

def EndsTable (x : Row × Answer) : Prop :=
  x.1.type = endTable ∨ x.1.type = beginParameters
  deriving Decidable

def records (rows : List (Row × Answer)) : List (Row × Answer) :=
  rows.takeWhile (fun x => ¬ EndsTable x)

def Subject (pre : List (Row × Answer)) (name : ℕ × ℕ) (p i : ℕ) : Prop :=
  ∃ x, pre[i]? = some x ∧ x.1.type = outputRecord ∧ target x.1 = name ∧ x.1.portId = p

def Wired (pre : List (Row × Answer)) (name : ℕ × ℕ) (p : ℕ) : Prop := ∃ i, Subject pre name p i

lemma Subject.append {i : ℕ} (h : Subject pre name p i) (post : List (Row × Answer)) :
    Subject (pre ++ post) name p i := by
  obtain ⟨x, hx, htype, hname, hport⟩ := h
  refine ⟨x, ?_, htype, hname, hport⟩
  rw [getElem?_append_left (List.getElem?_eq_some_iff.mp hx).1]
  exact hx

lemma wired_concat : Wired (pre ++ [x]) name p ↔
    Wired pre name p ∨ x.1.type = outputRecord ∧ target x.1 = name ∧ x.1.portId = p := by
  constructor
  · rintro ⟨i, y, hy, htype, hname, hport⟩
    rcases Nat.lt_or_ge i pre.length with hi | hi
    · rw [getElem?_append_left hi] at hy
      exact .inl ⟨i, y, hy, htype, hname, hport⟩
    · rw [getElem?_append_right hi] at hy
      obtain rfl := mem_singleton.mp (mem_of_getElem? hy)
      exact .inr ⟨htype, hname, hport⟩
  · rintro (⟨i, h⟩ | ⟨htype, hname, hport⟩)
    · exact ⟨i, h.append [x]⟩
    · exact ⟨pre.length, x, by simp, htype, hname, hport⟩

lemma discoveredFrom_marks {l : List Element} {ret : Existence} {y : Element}
    (hy : y ∈ (discoveredFrom row ret l).1) (hm : y.marked = true) :
    y ∈ l ∨ nameOf y = target row ∧ pidOf l (target row) = some y.pid := by
  fun_induction discoveredFrom row ret l with
  | case1 => exact absurd hy not_mem_nil
  | case2 ret z l hcid hinst =>
    rcases mem_cons.mp hy with rfl | hy
    · have hname : nameOf z = target row := (nameOf_eq_target z).mpr ⟨hcid, hinst⟩
      refine .inr ⟨hname, ?_⟩
      rw [pidOf_cons, if_pos hname]
    · exact .inl (mem_cons_of_mem z hy)
  | case3 ret z l _ hinst r ih =>
    rcases mem_cons.mp hy with rfl | hy
    · exact .inl mem_cons_self
    · rw [pidOf_cons, if_neg (fun hz => hinst ((nameOf_eq_target z).mp hz).2)]
      exact (ih hy).imp_left (mem_cons_of_mem z)
  | case4 ret z l hcid r ih =>
    rcases mem_cons.mp hy with rfl | hy
    · exact .inl mem_cons_self
    · rw [pidOf_cons, if_neg (fun hz => hcid ((nameOf_eq_target z).mp hz).1)]
      exact (ih hy).imp_left (mem_cons_of_mem z)

inductive Origin (P : Platform) (e : Engine) (row : Row) (ans : Answer) (e' : Engine) :
    ℕ → ℕ → Prop
  | found {pid hdr : ℕ} (hpid : pidOf e.moduleTable (target row) = some pid)
      (hunmark : e'.moduleTable.map unmark = e.moduleTable.map unmark)
      (hmarks : ∀ y ∈ e'.moduleTable, y.marked = true →
        y ∈ e.moduleTable ∨ nameOf y = target row ∧ y.pid = pid)
      (hheader : e'.header = e.header) (hgid : e'.gid = e.gid) (hhdr : e.header pid = some hdr) :
      Origin P e row ans e' pid hdr
  | spawned {hdr : ℕ} (hnone : pidOf e.moduleTable (target row) = none)
      (htable : e'.moduleTable = e.moduleTable ++ [⟨row.cid, row.instanceId, ans.spawned, true⟩])
      (hheader : e'.header = update e.header ans.spawned (some hdr))
      (hgid : ∀ h, h ≠ hdr → e'.gid h = e.gid h)
      (himage : hdr = P.codeHeader row.cid → e'.gid = e.gid) :
      Origin P e row ans e' ans.spawned hdr

lemma processModule_origin (h : processModule P e row ans = (e', some (pid, hdr)))
    (hcopy : ans.copied ≠ P.codeHeader row.cid) : Origin P e row ans e' pid hdr := by
  obtain ⟨hpid, hhdr, rfl⟩ | ⟨hnone, rfl, x, rfl, rfl⟩ := processModule_some h
  · refine .found hpid discoveredFrom_unmark (fun y hy hm => ?_) rfl rfl hhdr
    refine (discoveredFrom_marks hy hm).imp_right (fun hfirst => ⟨hfirst.1, ?_⟩)
    exact some.inj (hfirst.2.symm.trans hpid)
  · unfold spawn
    split
    · exact .spawned hnone rfl rfl (fun _ _ => rfl) (fun _ => rfl)
    · exact .spawned hnone rfl rfl (fun h hne => update_of_ne hne _ _)
        (fun heq => absurd heq hcopy)

def position (s : Scan) : ℕ :=
  match s.group with
  | none => s.currentGid % 256
  | some g => (s.currentGid + g.fanout + 1) % 256

structure Advanced (P : Platform) (s : Scan) (x : Row × Answer) (s' : Scan) : Prop where
  row : ∃ e pid hdr, processModule P s.engine x.1 x.2 = (e, some (pid, hdr)) ∧
    s'.engine.moduleTable = e.moduleTable ∧ s'.engine.header = e.header ∧
    (x.1.type = outputRecord ∧
        (∀ h q, s'.engine.gid h q =
          if h = hdr ∧ q = x.1.portId then position s else e.gid h q) ∨
      x.1.type = inputRecord ∧ s'.engine.gid = e.gid)
  position : position s' = (position s + 1) % 256
  small : s'.currentGid < 256

lemma scanRow_advanced (h : scanRow P s x = .more s') (hsmall : s.currentGid < 256) :
    Advanced P s x s' := by
  cases scanRow_more h with
  | @output e pid hdr hgroup htype hproc =>
    have hpos : position s = s.currentGid := by
      rw [position, hgroup]
      exact Nat.mod_eq_of_lt hsmall
    refine ⟨⟨e, pid, hdr, hproc, rfl, rfl, .inl ⟨htype, ?_⟩⟩, ?_, hsmall⟩
    · intro h q
      rw [hpos]
      exact patchGid_gid ..
    · rw [hpos]
      rfl
  | @input e pid hdr g hgroup htype hproc =>
    refine ⟨⟨e, pid, hdr, hproc, rfl, rfl, .inr ⟨htype, rfl⟩⟩, ?_, hsmall⟩
    rw [position, position, hgroup]
    dsimp only [addRoute]
    omega
  | @last e pid hdr g hgroup htype hproc =>
    obtain ⟨m, ws, hengine⟩ := closeGroup_engine P
      { s with engine := e, group := some (addRoute g pid x.1 x.2) } (addRoute g pid x.1 x.2)
    obtain ⟨hgid, hnone⟩ := closeGroup_control P
      { s with engine := e, group := some (addRoute g pid x.1 x.2) } (addRoute g pid x.1 x.2)
    refine ⟨⟨e, pid, hdr, hproc, ?_, ?_, .inr ⟨htype, ?_⟩⟩, ?_, ?_⟩
    · rw [hengine]
    · rw [hengine]
    · rw [hengine]
    · rw [position, position, hnone, hgroup, hgid]
      dsimp only [addRoute]
      omega
    · rw [hgid]
      exact Nat.mod_lt _ (by decide)

def Own (P : Platform) (e0 : Engine) (name : ℕ × ℕ) (pid hdr : ℕ) : Prop :=
  pid ∈ e0.moduleTable.map Element.pid ∨ hdr = P.codeHeader name.1

/-- After the records `pre`: a port has the group id of its record if there is one, and otherwise
that which it had before. -/
structure Ports (P : Platform) (e0 : Engine) (pre : List (Row × Answer)) (e : Engine) : Prop where
  wired : ∀ name pid hdr, pidOf e.moduleTable name = some pid → e.header pid = some hdr → ∀ p,
    Wired pre name p → ∃ i, Subject pre name p i ∧ e.gid hdr p = i % 256
  inherited : ∀ name pid hdr, pidOf e.moduleTable name = some pid → e.header pid = some hdr →
    Own P e0 name pid hdr → ∀ p, ¬ Wired pre name p → e.gid hdr p = e0.gid hdr p
  untouched : ∀ h, (∀ q ∈ e.moduleTable.map Element.pid, e.header q ≠ some h) → e.gid h = e0.gid h
  named : ∀ name p, Wired pre name p → ∃ pid, pidOf e.moduleTable name = some pid
  kept : ∀ q ∈ e0.moduleTable.map Element.pid, q ∈ e.moduleTable.map Element.pid
  marked : ∀ y ∈ e.moduleTable, y.marked = true → pidOf e.moduleTable (nameOf y) = some y.pid

section

variable (h : Ports P e0 pre e)
include h

lemma Ports.congr
    (hsame : ∀ name, pidOf e'.moduleTable name = pidOf e.moduleTable name)
    (hpids : e'.moduleTable.map Element.pid = e.moduleTable.map Element.pid)
    (hheader : e'.header = e.header) (hgid : e'.gid = e.gid)
    (hmarked : ∀ y ∈ e'.moduleTable, y.marked = true →
      pidOf e.moduleTable (nameOf y) = some y.pid) : Ports P e0 pre e' := by
  refine ⟨?_, ?_, ?_, ?_, ?_, ?_⟩ <;> simp only [hsame, hpids, hheader, hgid]
  · exact h.wired
  · exact h.inherited
  · exact h.untouched
  · exact h.named
  · exact h.kept
  · exact hmarked

lemma Ports.process (ho : Origin P e row ans e' pid hdr)
    (hsep : Separate e') : Ports P e0 pre e' := by
  cases ho with
  | found hpid hunmark hmarks hheader hgid hhdr =>
    refine h.congr (fun _ => pidOf_congr hunmark) (pids_of_unmark hunmark) hheader hgid ?_
    intro y hy hm
    rcases hmarks y hy hm with hold | ⟨hname, hypid⟩
    · exact h.marked y hold hm
    · rw [hname, hypid]
      exact hpid
  | spawned hnone htable hheader hgid himage =>
    have hpids :
        e'.moduleTable.map Element.pid = e.moduleTable.map Element.pid ++ [ans.spawned] := by
      rw [htable, map_append]
      rfl
    have hfresh : ∀ q ∈ e.moduleTable.map Element.pid, q ≠ ans.spawned :=
      spawned_fresh (htable ▸ hsep.pids)
    have hold : ∀ q ∈ e.moduleTable.map Element.pid, e'.header q = e.header q := by
      intro q hq
      rw [hheader, update_of_ne (hfresh q hq)]
    have hnew : e'.header ans.spawned = some hdr := by rw [hheader, update_self]
    have hmem : ans.spawned ∈ e'.moduleTable.map Element.pid := by
      rw [hpids]
      simp
    have hin : ∀ q ∈ e.moduleTable.map Element.pid, q ∈ e'.moduleTable.map Element.pid := by
      intro q hq
      rw [hpids]
      exact mem_append_left _ hq
    -- the new header is not that of an element before
    have hfree : ∀ q ∈ e.moduleTable.map Element.pid, e.header q ≠ some hdr := by
      intro q hq heq
      have hsame := hsep.pid_eq (hin q hq) hmem ((hold q hq).trans heq) hnew
      exact hfresh q hq hsame
    have hpid : ∀ name pid, pidOf e'.moduleTable name = some pid →
        pidOf e.moduleTable name = some pid ∨ name = target row ∧ pid = ans.spawned := by
      intro name pid hp
      rw [htable, pidOf_append] at hp
      rcases or_eq_some_iff.mp hp with hp | ⟨-, hp⟩
      · exact .inl hp
      · rw [pidOf_cons] at hp
        split at hp
        · rename_i hname
          exact .inr ⟨hname.symm, (some.inj hp).symm⟩
        · cases hp
    have hkeep : ∀ name pid, pidOf e.moduleTable name = some pid →
        pidOf e'.moduleTable name = some pid := by
      intro name pid hp
      rw [htable, pidOf_append, hp]
      rfl
    have hsame : ∀ q h p, q ∈ e.moduleTable.map Element.pid → e.header q = some h →
        e'.gid h p = e.gid h p := by
      intro q h p hq hh
      have hne : h ≠ hdr := fun heq => hfree q hq (heq ▸ hh)
      rw [hgid h hne]
    refine ⟨?_, ?_, ?_, ?_, fun q hq => hin q (h.kept q hq), ?_⟩
    · intro name q hd hp hh p hw
      rcases hpid name q hp with hp | ⟨rfl, rfl⟩
      · have hq := pid_mem_of_pidOf hp
        rw [hold q hq] at hh
        rw [hsame q hd p hq hh]
        exact h.wired name q hd hp hh p hw
      · obtain ⟨q, hq⟩ := h.named _ p hw
        rw [hnone] at hq
        cases hq
    · intro name q hd hp hh hown p hw
      rcases hpid name q hp with hp | ⟨rfl, rfl⟩
      · have hq := pid_mem_of_pidOf hp
        rw [hold q hq] at hh
        rw [hsame q hd p hq hh]
        exact h.inherited name q hd hp hh hown p hw
      · obtain rfl : hdr = hd := some.inj (hnew.symm.trans hh)
        rcases hown with hq | himg
        · exact absurd rfl (hfresh _ (h.kept _ hq))
        · rw [himage himg, h.untouched hdr hfree]
    · intro hd hno
      have hne : hd ≠ hdr := fun heq => hno _ hmem (heq ▸ hnew)
      rw [hgid hd hne]
      refine h.untouched hd (fun q hq => ?_)
      rw [← hold q hq]
      exact hno q (hin q hq)
    · intro name p hw
      obtain ⟨q, hq⟩ := h.named name p hw
      exact ⟨q, hkeep name q hq⟩
    · intro y hy hm
      rw [htable] at hy
      rcases mem_append.mp hy with hy | hy
      · exact hkeep _ _ (h.marked y hy hm)
      · obtain rfl := mem_singleton.mp hy
        have hname : nameOf (⟨row.cid, row.instanceId, ans.spawned, true⟩ : Element) = target row :=
          rfl
        rw [htable, pidOf_append, hname, hnone, pidOf_cons, if_pos hname]
        rfl

lemma Ports.input (hx : x.1.type = inputRecord) : Ports P e0 (pre ++ [x]) e := by
  have hwired : ∀ name p, Wired (pre ++ [x]) name p ↔ Wired pre name p := by
    intro name p
    rw [wired_concat, or_iff_left]
    intro hout
    exact absurd (hx.symm.trans hout.1) (by decide)
  refine ⟨?_, ?_, h.untouched, ?_, h.kept, h.marked⟩
  · intro name pid hdr hp hh p hw
    obtain ⟨i, hi, hg⟩ := h.wired name pid hdr hp hh p ((hwired name p).mp hw)
    exact ⟨i, hi.append [x], hg⟩
  · intro name pid hdr hp hh hown p hw
    exact h.inherited name pid hdr hp hh hown p (fun hw' => hw ((hwired name p).mpr hw'))
  · exact fun name p hw => h.named name p ((hwired name p).mp hw)

lemma Ports.output (hsep : Separate e) (hx : x.1.type = outputRecord)
    (hpid : pidOf e.moduleTable (target x.1) = some pid) (hhdr : e.header pid = some hdr)
    (htable : e'.moduleTable = e.moduleTable) (hheader : e'.header = e.header)
    (hgid : ∀ h q, e'.gid h q = if h = hdr ∧ q = x.1.portId then pre.length % 256 else e.gid h q) :
    Ports P e0 (pre ++ [x]) e' := by
  have hlast : Subject (pre ++ [x]) (target x.1) x.1.portId pre.length := ⟨x, by simp, hx, rfl, rfl⟩
  -- a port whose group id was patched is that of the record
  have hown : ∀ name q hd p, pidOf e.moduleTable name = some q → e.header q = some hd →
      hd = hdr ∧ p = x.1.portId → name = target x.1 ∧ p = x.1.portId := by
    rintro name q hd p hp hh ⟨rfl, rfl⟩
    have hq : q = pid := hsep.pid_eq (pid_mem_of_pidOf hp) (pid_mem_of_pidOf hpid) hh hhdr
    exact ⟨hsep.name_eq (hq ▸ hp) hpid, rfl⟩
  refine ⟨?_, ?_, ?_, ?_, ?_, ?_⟩ <;> simp only [htable, hheader]
  · intro name q hd hp hh p hw
    rw [hgid]
    split
    · rename_i hpatched
      obtain ⟨rfl, rfl⟩ := hown name q hd p hp hh hpatched
      exact ⟨pre.length, hlast, rfl⟩
    · rename_i hother
      rcases wired_concat.mp hw with hw | ⟨-, rfl, rfl⟩
      · obtain ⟨i, hi, hg⟩ := h.wired name q hd hp hh p hw
        exact ⟨i, hi.append [x], hg⟩
      · obtain rfl : pid = q := some.inj (hpid.symm.trans hp)
        exact absurd ⟨some.inj (hh.symm.trans hhdr), rfl⟩ hother
  · intro name q hd hp hh ho p hw
    rw [hgid, if_neg]
    · refine h.inherited name q hd hp hh ho p (fun hw' => hw (wired_concat.mpr (.inl hw')))
    · intro hpatched
      obtain ⟨rfl, rfl⟩ := hown name q hd p hp hh hpatched
      exact hw ⟨_, hlast⟩
  · intro hd hno
    have hne : hd ≠ hdr := fun heq => hno pid (pid_mem_of_pidOf hpid) (heq ▸ hhdr)
    rw [← h.untouched hd hno]
    funext q
    rw [hgid, if_neg (fun hpatched => hne hpatched.1)]
  · intro name p hw
    rcases wired_concat.mp hw with hw | ⟨-, rfl, -⟩
    · exact h.named name p hw
    · exact ⟨pid, hpid⟩
  · exact h.kept
  · exact h.marked

end

structure Tracked (P : Platform) (e0 : Engine) (pre : List (Row × Answer)) (s : Scan) : Prop where
  position : position s = pre.length % 256
  small : s.currentGid < 256
  ports : Ports P e0 pre s.engine

def Copies (P : Platform) (x : Row × Answer) : Prop := x.2.copied ≠ P.codeHeader x.1.cid

lemma Tracked.step (h : Tracked P e0 pre s) (hrow : scanRow P s x = .more s')
    (hcopy : Copies P x) (hsep : Separate s'.engine) : Tracked P e0 (pre ++ [x]) s' := by
  obtain ⟨⟨e, pid, hdr, hproc, htable, hheader, hgid⟩, hpos, hsmall⟩ :=
    scanRow_advanced hrow h.small
  have hsep' : Separate e := ⟨htable ▸ hsep.pids, htable ▸ hheader ▸ hsep.headers⟩
  have hports := h.ports.process (processModule_origin hproc hcopy) hsep'
  obtain ⟨hpid, hhdr⟩ := Processed.element (processModule_cases hproc)
  refine ⟨?_, hsmall, ?_⟩
  · rw [hpos, h.position, length_append, length_singleton]
    omega
  · rcases hgid with ⟨hout, hgid⟩ | ⟨hin, hgid⟩
    · rw [h.position] at hgid
      exact hports.output hsep' hout hpid hhdr htable hheader hgid
    · refine (hports.congr (fun _ => ?_) ?_ hheader hgid ?_).input hin <;> rw [htable]
      exact hports.marked

end WiringGids
