import SosKernel.WiringEngine

/-! # Scanning a configuration

What one row can do to the engine, and how facts about rows become facts about configurations. -/
namespace WiringScan

open WiringEngine List Option

def nameOf (x : Element) : ℕ × ℕ := (x.cid, x.instanceId)

def target (row : Row) : ℕ × ℕ := (row.cid, row.instanceId)

def unmark (x : Element) : Element := { x with marked := false }

def pidOf (l : List Element) (name : ℕ × ℕ) : Option ℕ :=
  (l.find? (fun x => nameOf x = name)).map Element.pid

variable {P : Platform} {e e' : Engine} {row : Row} {ans : Answer} {l : List Element}
  {ret : Existence} {pid hdr : ℕ} {name : ℕ × ℕ} {s s' : Scan} {x : Row × Answer}
  {rows : List (Row × Answer)}

lemma pidOf_cons (x : Element) :
    pidOf (x :: l) name = if nameOf x = name then some x.pid else pidOf l name := by
  by_cases h : nameOf x = name <;> simp [pidOf, h]

lemma pidOf_append (l' : List Element) :
    pidOf (l ++ l') name = (pidOf l name).or (pidOf l' name) := by
  rw [pidOf, pidOf, pidOf, find?_append, map_or]

lemma pidOf_congr {l' : List Element} (h : l'.map unmark = l.map unmark) :
    pidOf l' name = pidOf l name := by
  have hunmark : ∀ l : List Element, pidOf l name = pidOf (l.map unmark) name := by
    intro l
    induction l with
    | nil => rfl
    | cons x l ih =>
      rw [map_cons, pidOf_cons, pidOf_cons, ih]
      rfl
  rw [hunmark l', h, ← hunmark]

lemma exists_of_pidOf (h : pidOf l name = some pid) : ∃ x ∈ l, nameOf x = name ∧ x.pid = pid := by
  obtain ⟨x, hx, hpid⟩ := map_eq_some_iff.mp h
  exact ⟨x, mem_of_find?_eq_some hx, by simpa using find?_some hx, hpid⟩

lemma nameOf_ne_of_pidOf (h : pidOf l name = none) : ∀ x ∈ l, nameOf x ≠ name := by
  intro x hx
  have hnone := find?_eq_none.mp (map_eq_none_iff.mp h) x hx
  simpa using hnone

lemma nameOf_eq_target (x : Element) :
    nameOf x = target row ↔ x.cid = row.cid ∧ x.instanceId = row.instanceId := Prod.mk_inj

lemma discoveredFrom_unmark : (discoveredFrom row ret l).1.map unmark = l.map unmark := by
  fun_induction discoveredFrom row ret l with
  | case1 => rfl
  | case2 => rfl
  | case3 ret x l _ _ r ih => exact congrArg (unmark x :: ·) ih
  | case4 ret x l _ r ih => exact congrArg (unmark x :: ·) ih

lemma discoveredFrom_found (h : pidOf l (target row) = some pid) :
    (discoveredFrom row ret l).2 = (.thisInstance, pid) := by
  fun_induction discoveredFrom row ret l with
  | case1 => simp [pidOf] at h
  | case2 ret x l hcid hinst =>
    rw [pidOf_cons, if_pos ((nameOf_eq_target x).mpr ⟨hcid, hinst⟩)] at h
    exact congrArg _ (some.inj h)
  | case3 ret x l _ hinst r ih =>
    rw [pidOf_cons, if_neg (fun hx => hinst ((nameOf_eq_target x).mp hx).2)] at h
    exact ih h
  | case4 ret x l hcid r ih =>
    rw [pidOf_cons, if_neg (fun hx => hcid ((nameOf_eq_target x).mp hx).1)] at h
    exact ih h

lemma discoveredFrom_missing (h : pidOf l (target row) = none) (hret : ret ≠ .thisInstance) :
    (discoveredFrom row ret l).1 = l ∧ (discoveredFrom row ret l).2.1 ≠ .thisInstance := by
  fun_induction discoveredFrom row ret l with
  | case1 => exact ⟨rfl, hret⟩
  | case2 ret x l hcid hinst =>
    exact absurd ((nameOf_eq_target x).mpr ⟨hcid, hinst⟩)
      (nameOf_ne_of_pidOf h x mem_cons_self)
  | case3 ret x l _ hinst r ih =>
    rw [pidOf_cons, if_neg (fun hx => hinst ((nameOf_eq_target x).mp hx).2)] at h
    obtain ⟨hsame, hother⟩ := ih h Existence.noConfusion
    exact ⟨congrArg (x :: ·) hsame, hother⟩
  | case4 ret x l hcid r ih =>
    rw [pidOf_cons, if_neg (fun hx => hcid ((nameOf_eq_target x).mp hx).1)] at h
    obtain ⟨hsame, hother⟩ := ih h hret
    exact ⟨congrArg (x :: ·) hsame, hother⟩

lemma discoveredFrom_marked (h : ∀ x ∈ l, x.marked = true) :
    ∀ x ∈ (discoveredFrom row ret l).1, x.marked = true := by
  fun_induction discoveredFrom row ret l with
  | case1 => exact h
  | case2 ret x l => exact forall_mem_cons.mpr ⟨rfl, (forall_mem_cons.mp h).2⟩
  | case3 ret x l _ _ r ih =>
    exact forall_mem_cons.mpr
      ⟨(forall_mem_cons.mp h).1, ih (forall_mem_cons.mp h).2⟩
  | case4 ret x l _ r ih =>
    exact forall_mem_cons.mpr
      ⟨(forall_mem_cons.mp h).1, ih (forall_mem_cons.mp h).2⟩

/-- What `process_module` did when it returned an element: it was in the list, or it was spawned
and added at the end. -/
inductive Processed (e : Engine) (row : Row) (ans : Answer) : Engine → ℕ → ℕ → Prop
  | found {pid hdr : ℕ} {l : List Element} (hpid : pidOf e.moduleTable (target row) = some pid)
      (hhdr : e.header pid = some hdr) (hunmark : l.map unmark = e.moduleTable.map unmark)
      (hmarked : (∀ x ∈ e.moduleTable, x.marked = true) → ∀ x ∈ l, x.marked = true) :
      Processed e row ans { e with moduleTable := l } pid hdr
  | spawned {hdr : ℕ} {gid : ℕ → ℕ → ℕ} (hnone : pidOf e.moduleTable (target row) = none)
      (hgid : ∀ h, h ≠ hdr → gid h = e.gid h) :
      Processed e row ans
        { e with
          moduleTable := e.moduleTable ++ [⟨row.cid, row.instanceId, ans.spawned, true⟩]
          header := Function.update e.header ans.spawned (some hdr)
          gid := gid }
        ans.spawned hdr

lemma processModule_some (h : processModule P e row ans = (e', some (pid, hdr))) :
    (pidOf e.moduleTable (target row) = some pid ∧ e.header pid = some hdr ∧
        e' = { e with moduleTable := (discovered e.moduleTable row).1 }) ∨
      pidOf e.moduleTable (target row) = none ∧ pid = ans.spawned ∧
        ∃ x, hdr = (spawn P e row ans x).2 ∧ e' = { (spawn P e row ans x).1 with
          moduleTable := e.moduleTable ++ [⟨row.cid, row.instanceId, ans.spawned, true⟩] } := by
  cases hpid : pidOf e.moduleTable (target row) with
  | some p =>
    have hfound : (discovered e.moduleTable row).2 = (.thisInstance, p) := discoveredFrom_found hpid
    simp only [processModule, hfound, if_true, Prod.mk.injEq, map_eq_some_iff] at h
    obtain ⟨rfl, hdr', hhdr, rfl, rfl⟩ := h
    exact .inl ⟨rfl, hhdr, rfl⟩
  | none =>
    obtain ⟨hsame, hother⟩ : (discovered e.moduleTable row).1 = e.moduleTable ∧
        (discovered e.moduleTable row).2.1 ≠ .thisInstance :=
      discoveredFrom_missing hpid Existence.noConfusion
    simp only [processModule, hother, if_false, hsame] at h
    by_cases hnull : ans.spawned = nullPid
    · simp [hnull] at h
    cases hmem : ans.elementMem with
    | false => simp [hnull, hmem] at h
    | true =>
      simp only [hnull, hmem, if_false, if_true, Prod.mk.injEq, some.injEq] at h
      obtain ⟨rfl, rfl, rfl⟩ := h
      exact .inr ⟨rfl, rfl, _, rfl, rfl⟩

lemma processModule_cases (h : processModule P e row ans = (e', some (pid, hdr))) :
    Processed e row ans e' pid hdr := by
  obtain ⟨hpid, hhdr, rfl⟩ | ⟨hnone, rfl, x, rfl, rfl⟩ := processModule_some h
  · exact .found hpid hhdr discoveredFrom_unmark discoveredFrom_marked
  · unfold spawn
    split
    · exact .spawned hnone (fun _ _ => rfl)
    · exact .spawned hnone (fun h hne => Function.update_of_ne hne _ _)

def addRoute (g : Group) (pid : ℕ) (row : Row) (ans : Answer) : Group :=
  ⟨(g.fanout + 1) % 256, g.routes ++ [⟨pidPortOf pid row.portId, ans.cb⟩]⟩

inductive Scanned (P : Platform) (s : Scan) (row : Row) (ans : Answer) : Scan → Prop
  | output {e : Engine} {pid hdr : ℕ} (hgroup : s.group = none) (htype : row.type = outputRecord)
      (hproc : processModule P s.engine row ans = (e, some (pid, hdr))) :
      Scanned P s row ans
        { s with engine := patchGid e hdr row.portId s.currentGid, group := some ⟨0, []⟩ }
  | input {e : Engine} {pid hdr : ℕ} {g : Group} (hgroup : s.group = some g)
      (htype : row.type = inputRecord)
      (hproc : processModule P s.engine row ans = (e, some (pid, hdr)))
      (hend : row.gidOrEnd ≠ endRecord) :
      Scanned P s row ans { s with engine := e, group := some (addRoute g pid row ans) }
  | last {e : Engine} {pid hdr : ℕ} {g : Group} (hgroup : s.group = some g)
      (htype : row.type = inputRecord)
      (hproc : processModule P s.engine row ans = (e, some (pid, hdr)))
      (hend : row.gidOrEnd = endRecord) :
      Scanned P s row ans
        (closeGroup P { s with engine := e, group := some (addRoute g pid row ans) }
          (addRoute g pid row ans))

lemma scanOutput_more (h : scanOutput P s row ans = .more s') (hgroup : s.group = none) :
    Scanned P s row ans s' := by
  unfold scanOutput at h
  split at h
  · cases h
  split at h
  · cases h
  split at h
  · cases h
  next htype _ e pid hdr heq =>
    cases h
    exact .output hgroup (not_not.mp htype) heq

lemma scanInput_more {g : Group} (h : scanInput P s g row ans = .more s')
    (hgroup : s.group = some g) : Scanned P s row ans s' := by
  unfold scanInput at h
  split at h
  · cases h
  split at h
  · cases h
  next htype _ e pid hdr heq =>
    split at h
    · cases h
    cases h
    split
    next hend => exact .last hgroup (not_not.mp htype) heq hend
    next hend => exact .input hgroup (not_not.mp htype) heq hend

lemma scanRow_more (h : scanRow P s x = .more s') : Scanned P s x.1 x.2 s' := by
  unfold scanRow at h
  split at h
  next hgroup => exact scanOutput_more h hgroup
  next g hgroup => exact scanInput_more h hgroup

lemma scanRow_done (h : scanRow P s x = .done s') :
    s' = s ∧ s.group = none ∧ (x.1.type = endTable ∨ x.1.type = beginParameters) := by
  unfold scanRow at h
  split at h
  next hgroup =>
    unfold scanOutput at h
    split at h
    next hend =>
      cases h
      exact ⟨rfl, hgroup, hend⟩
    split at h
    · cases h
    split at h <;> cases h
  next g hgroup =>
    unfold scanInput at h
    split at h
    · cases h
    split at h
    · cases h
    split at h <;> cases h

lemma closeGroup_engine (P : Platform) (s : Scan) (g : Group) :
    ∃ m ws, (closeGroup P s g).engine = { s.engine with routingTable := m, writes := ws } := by
  have hrows : ∀ (rows : List (List UInt8)) (s : Scan), ∃ m ws,
      (rows.foldl writeRow s).engine = { s.engine with routingTable := m, writes := ws } := by
    intro rows
    induction rows with
    | nil => exact fun s => ⟨_, _, rfl⟩
    | cons buf rows ih =>
      intro s
      obtain ⟨m, ws, heq⟩ := ih (writeRow s buf)
      exact ⟨m, ws, heq⟩
  exact hrows (fanoutBytes P g.fanout :: g.routes.map (routeBytes P)) _

/-- Of the engine, a row changes what its element does, the group ids and the routing table. -/
lemma Scanned.engine (h : Scanned P s row ans s') :
    ∃ e pid hdr, Processed s.engine row ans e pid hdr ∧
      ∃ m ws gid, s'.engine = { e with routingTable := m, writes := ws, gid := gid } := by
  cases h with
  | output _ _ hproc | input _ _ hproc => exact ⟨_, _, _, processModule_cases hproc, _, _, _, rfl⟩
  | last _ _ hproc =>
    obtain ⟨m, ws, heq⟩ := closeGroup_engine P _ _
    exact ⟨_, _, _, processModule_cases hproc, m, ws, _, heq⟩

lemma scanRows_cons (h : scanRows P s (x :: rows) = some (.ok s')) :
    (∃ s1, Scanned P s x.1 x.2 s1 ∧ scanRows P s1 rows = some (.ok s')) ∨
      scanRow P s x = .done s ∧ s' = s := by
  unfold scanRows at h
  split at h
  next s1 hrow => exact .inl ⟨s1, scanRow_more hrow, h⟩
  next s1 hrow =>
    cases h
    obtain ⟨rfl, -⟩ := scanRow_done hrow
    exact .inr ⟨hrow, rfl⟩
  · cases h

variable {I : Scan → Prop}

lemma scanRows_keeps
    (hstep : ∀ s, ∀ x ∈ rows, ∀ s1, I s → Scanned P s x.1 x.2 s1 → I s1)
    (hrun : scanRows P s rows = some (.ok s')) (h : I s) : I s' := by
  induction rows generalizing s with
  | nil => cases hrun
  | cons x rows ih =>
    rcases scanRows_cons hrun with ⟨s1, hrow, hrest⟩ | ⟨-, rfl⟩
    · exact ih (fun s y hy => hstep s y (mem_cons_of_mem x hy)) hrest
        (hstep s x mem_cons_self s1 h hrow)
    · exact h

lemma interpretWiringConfig_ok {cfg : Config} (h : interpretWiringConfig P e cfg = some (.ok e')) :
    ∃ s, scanRows P ⟨e, 0, 0, none⟩ cfg.rows = some (.ok s) ∧ e' = writeElements s.engine := by
  unfold interpretWiringConfig at h
  split at h
  · obtain ⟨r, hscan, hr⟩ := map_eq_some_iff.mp h
    cases r with
    | error e => cases hr
    | ok s => exact ⟨s, hscan, (Except.ok.inj hr).symm⟩
  · cases h

end WiringScan
