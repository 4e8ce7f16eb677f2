import Mathlib.Data.List.Nodup
import SosKernel.CodeMemoryCoherence
import SosKernel.WiringScan

/-! # The routing table

The group id of an output port is the row of the routing table at which its routes start. -/
namespace WiringRoutes

open ByteMemory WiringEngine WiringScan GuardedRuns List Function
open CodeMemory (blit flashRead)
open CodeMemoryCoherence (blit_apply flashRead_congr flashRead_append)

structure Wire where
  output : Row × Answer
  inputs : List (Row × Answer)
  last : Row × Answer
  opens : output.1.type = outputRecord
  goesOn : ∀ x ∈ inputs, x.1.gidOrEnd ≠ endRecord
  ends : last.1.gidOrEnd = endRecord

namespace Wire

def all (w : Wire) : List (Row × Answer) := w.inputs ++ [w.last]

def rows (w : Wire) : List (Row × Answer) := w.output :: w.all

def port (w : Wire) : (ℕ × ℕ) × ℕ := (target w.output.1, w.output.1.portId)

def size (w : Wire) : ℕ := w.all.length + 1

end Wire

def total (wires : List Wire) : ℕ := (wires.map Wire.size).sum

def layout : ℕ → List Wire → List (ℕ × Wire)
  | _, [] => []
  | n, w :: wires => (n, w) :: layout (n + w.size) wires

variable {P : Platform} {m m' : Mem} {e e' e0 e1 e2 : Engine} {s s' : Scan} {cfg : Config}
  {row : Row} {ans : Answer} {pid hdr n k g : ℕ} {w : Wire} {wires done : List Wire}
  {xs rest : List (Row × Answer)} {routes : List Route} {l : List Element} {name : ℕ × ℕ}
  {Q : (ℕ × ℕ) × ℕ → Prop}

lemma total_cons : total (w :: wires) = w.size + total wires := by rfl

lemma total_append (wires' : List Wire) : total (wires ++ wires') = total wires + total wires' := by
  rw [total, map_append, sum_append]
  rfl

lemma layout_append (wires' : List Wire) :
    layout n (wires ++ wires') = layout n wires ++ layout (n + total wires) wires' := by
  induction wires generalizing n with
  | nil => rfl
  | cons w wires ih =>
    rw [cons_append, layout, ih, Nat.add_assoc]
    rfl

lemma layout_snd : (layout n wires).map Prod.snd = wires := by
  induction wires generalizing n with
  | nil => rfl
  | cons w wires ih => rw [layout, map_cons, ih]

lemma layout_bounds {x : ℕ × Wire} (hx : x ∈ layout n wires) :
    n ≤ x.1 ∧ x.1 + x.2.size ≤ n + total wires := by
  induction wires generalizing n with
  | nil => cases hx
  | cons w wires ih =>
    rw [total_cons, ← Nat.add_assoc]
    rcases mem_cons.mp hx with rfl | hx
    · exact ⟨le_rfl, Nat.le_add_right ..⟩
    · have hbounds := ih hx
      omega

lemma leBytes_length (k v : ℕ) : (leBytes k v).length = k := by
  induction k generalizing v with
  | zero => rfl
  | succ k ih => rw [leBytes, length_cons, ih]

def blockRows (P : Platform) (routes : List Route) : List (List UInt8) :=
  fanoutBytes P routes.length :: routes.map (routeBytes P)

lemma blockRows_length (P : Platform) (routes : List Route) :
    (blockRows P routes).length = routes.length + 1 := by
  rw [blockRows, length_cons, length_map]

lemma length_of_mem_blockRows {buf : List UInt8} (h : buf ∈ blockRows P routes) :
    buf.length = routingTableEntrySize P := by
  rcases mem_cons.mp h with rfl | h
  · rw [fanoutBytes, length_cons, length_replicate, routingTableEntrySize, Nat.add_comm]
  · obtain ⟨r, -, rfl⟩ := mem_map.mp h
    rw [routeBytes, length_cons, leBytes_length, routingTableEntrySize, Nat.add_comm]

def RowsAt (P : Platform) (m : Mem) (n : ℕ) (bufs : List (List UInt8)) : Prop :=
  ∀ i buf, bufs[i]? = some buf →
    flashRead m (routingTableEntrySize P * (n + i)) (routingTableEntrySize P) = buf

variable {bufs : List (List UInt8)} {portId : ℕ}

lemma RowsAt.congr (h : RowsAt P m n bufs) (hk : n + bufs.length ≤ k)
    (hsame : ∀ a < routingTableEntrySize P * k, m' a = m a) : RowsAt P m' n bufs := by
  intro i buf hi
  rw [← h i buf hi]
  refine flashRead_congr (fun j hj => hsame _ ?_)
  have hlt : n + i + 1 ≤ k := by
    have hbound := (List.getElem?_eq_some_iff.mp hi).1
    omega
  calc routingTableEntrySize P * (n + i) + j
      < routingTableEntrySize P * (n + i) + routingTableEntrySize P := Nat.add_lt_add_left hj _
    _ ≤ routingTableEntrySize P * k := Nat.mul_le_mul_left _ hlt

lemma flashRead_blit (m : Mem) (a : ℕ) (buf : List UInt8) :
    flashRead (blit m a buf) a buf.length = buf := by
  refine ext_getElem? (fun i => ?_)
  by_cases hi : i < buf.length
  · simp [flashRead, blit_apply, hi]
  · simp [flashRead, Nat.le_of_not_lt hi]

/-- The offset, a `uint16_t`, and the length of the write of row `k`. -/
def rowWrite (P : Platform) (k : ℕ) : ℕ × ℕ :=
  (routingTableEntrySize P * k % 65536, routingTableEntrySize P)

section

variable (hoff : s.flashRoutingTableOffset = routingTableEntrySize P * n % 65536)
include hoff

lemma writeRow_offset {buf : List UInt8} (hbuf : buf.length = routingTableEntrySize P) :
    (writeRow s buf).flashRoutingTableOffset = routingTableEntrySize P * (n + 1) % 65536 := by
  rw [writeRow, hoff, hbuf, Nat.mod_add_mod, Nat.mul_succ]

lemma writeRows_writes (hlen : ∀ buf ∈ bufs, buf.length = routingTableEntrySize P) :
    (bufs.foldl writeRow s).engine.writes =
        s.engine.writes ++ (range' n bufs.length).map (rowWrite P) ∧
      (bufs.foldl writeRow s).flashRoutingTableOffset =
        routingTableEntrySize P * (n + bufs.length) % 65536 := by
  induction bufs generalizing s n with
  | nil => exact ⟨(append_nil _).symm, hoff⟩
  | cons buf bufs ih =>
    obtain ⟨hbuf, hbufs⟩ := forall_mem_cons.mp hlen
    obtain ⟨hwrites, hend⟩ := ih (writeRow_offset hoff hbuf) hbufs
    rw [foldl_cons, length_cons, ← Nat.add_assoc, Nat.add_right_comm]
    refine ⟨?_, hend⟩
    rw [hwrites, writeRow, hoff, hbuf]
    exact append_assoc ..

lemma writeRows_spec (hlen : ∀ buf ∈ bufs, buf.length = routingTableEntrySize P)
    (hfit : routingTableEntrySize P * (n + bufs.length) ≤ 65536) :
    RowsAt P (bufs.foldl writeRow s).engine.routingTable n bufs ∧
      ∀ a < routingTableEntrySize P * n,
        (bufs.foldl writeRow s).engine.routingTable a = s.engine.routingTable a := by
  induction bufs generalizing s n with
  | nil => exact ⟨fun i buf h => (by cases h), fun _ _ => rfl⟩
  | cons buf bufs ih =>
    obtain ⟨hbuf, hbufs⟩ := forall_mem_cons.mp hlen
    have hpos : 0 < routingTableEntrySize P := Nat.add_pos_left Nat.one_pos _
    have hexact : s.flashRoutingTableOffset = routingTableEntrySize P * n := by
      rw [hoff]
      refine Nat.mod_eq_of_lt (lt_of_lt_of_le ?_ hfit)
      exact Nat.mul_lt_mul_of_pos_left (by simp) hpos
    rw [length_cons, ← Nat.add_assoc, Nat.add_right_comm] at hfit
    obtain ⟨hrows, hbefore⟩ := ih (writeRow_offset hoff hbuf) hbufs hfit
    have hwrite : (writeRow s buf).engine.routingTable =
        blit s.engine.routingTable (routingTableEntrySize P * n) buf := by
      rw [writeRow, hexact]
    rw [foldl_cons]
    refine ⟨?_, ?_⟩
    · intro i b hi
      cases i with
      | zero =>
        -- the later rows leave the first one alone
        rw [← Option.some.inj hi]
        refine Eq.trans (flashRead_congr (fun j hj => hbefore _ ?_)) ?_
        · exact Nat.add_lt_add_left hj _
        · rw [hwrite, ← hbuf]
          exact flashRead_blit ..
      | succ i =>
        rw [← Nat.add_assoc, Nat.add_right_comm]
        exact hrows i b hi
    · intro a ha
      rw [hbefore a (ha.trans (Nat.mul_lt_mul_of_pos_left (Nat.lt_succ_self n) hpos)), hwrite,
        blit_apply, if_neg (by omega)]

/-- The fan-out is cut to a `uint8_t`, as its byte in flash would be. -/
lemma closeGroup_rows (hclose : closeGroup P s ⟨routes.length % 256, routes⟩ = s') :
    s'.engine.writes =
        s.engine.writes ++ (range' n (routes.length + 1)).map (rowWrite P) ∧
      s'.flashRoutingTableOffset =
        routingTableEntrySize P * (n + (routes.length + 1)) % 65536 ∧
      (routingTableEntrySize P * (n + (routes.length + 1)) ≤ 65536 →
        RowsAt P s'.engine.routingTable n (blockRows P routes) ∧
          ∀ a < routingTableEntrySize P * n,
            s'.engine.routingTable a = s.engine.routingTable a) := by
  have hcut : UInt8.ofNat (routes.length % 256) = UInt8.ofNat routes.length :=
    UInt8.ofNat_mod_size
  rw [← hclose, closeGroup, fanoutBytes, hcut, ← blockRows_length P]
  obtain ⟨hwrites, hoffset⟩ := writeRows_writes (s := { s with
    currentGid := (s.currentGid + routes.length % 256 + 1) % 256, group := none }) hoff
    (fun _ => length_of_mem_blockRows)
  exact ⟨hwrites, hoffset, writeRows_spec hoff (fun _ => length_of_mem_blockRows)⟩

end

lemma closeGroup_control (P : Platform) (s : Scan) (g : Group) :
    (closeGroup P s g).currentGid = (s.currentGid + g.fanout + 1) % 256 ∧
      (closeGroup P s g).group = none := by
  have hrows : ∀ (bufs : List (List UInt8)) (s : Scan),
      (bufs.foldl writeRow s).currentGid = s.currentGid ∧
        (bufs.foldl writeRow s).group = s.group := by
    intro bufs
    induction bufs with
    | nil => exact fun s => ⟨rfl, rfl⟩
    | cons buf bufs ih => exact fun s => ih (writeRow s buf)
  exact hrows (fanoutBytes P g.fanout :: g.routes.map (routeBytes P)) _

def gidOf (e : Engine) (port : (ℕ × ℕ) × ℕ) : Option ℕ :=
  ((pidOf e.moduleTable port.1).bind e.header).map (fun hdr => e.gid hdr port.2)

structure Separate (e : Engine) : Prop where
  pids : (e.moduleTable.map Element.pid).Nodup
  headers : ∀ x ∈ e.moduleTable, ∀ y ∈ e.moduleTable, ∀ hdr,
    e.header x.pid = some hdr → e.header y.pid = some hdr → x.pid = y.pid

lemma gidOf_eq_some {port : (ℕ × ℕ) × ℕ} : gidOf e port = some g ↔
    ∃ pid hdr, pidOf e.moduleTable port.1 = some pid ∧ e.header pid = some hdr ∧
      e.gid hdr port.2 = g := by
  rw [gidOf, Option.map_eq_some_iff]
  constructor
  · rintro ⟨hdr, hbind, hg⟩
    obtain ⟨pid, hpid, hhdr⟩ := Option.bind_eq_some_iff.mp hbind
    exact ⟨pid, hdr, hpid, hhdr, hg⟩
  · rintro ⟨pid, hdr, hpid, hhdr, hg⟩
    exact ⟨hdr, Option.bind_eq_some_iff.mpr ⟨pid, hpid, hhdr⟩, hg⟩

lemma pids_of_unmark {l' : List Element} (h : l'.map unmark = l.map unmark) :
    l'.map Element.pid = l.map Element.pid := by
  have hcomp : ∀ l : List Element, l.map Element.pid = (l.map unmark).map Element.pid := by
    intro l
    rw [map_map]
    rfl
  rw [hcomp l', h, ← hcomp]

lemma pid_mem_of_pidOf (h : pidOf l name = some pid) : pid ∈ l.map Element.pid := by
  obtain ⟨x, hx, -, rfl⟩ := exists_of_pidOf h
  exact mem_map_of_mem hx

lemma Separate.pid_eq {p q : ℕ} (h : Separate e) (hp : p ∈ e.moduleTable.map Element.pid)
    (hq : q ∈ e.moduleTable.map Element.pid) (hhp : e.header p = some hdr)
    (hhq : e.header q = some hdr) : p = q := by
  obtain ⟨x, hx, rfl⟩ := mem_map.mp hp
  obtain ⟨y, hy, rfl⟩ := mem_map.mp hq
  exact h.headers x hx y hy hdr hhp hhq

lemma Separate.name_eq {name' : ℕ × ℕ} (h : Separate e)
    (hname : pidOf e.moduleTable name = some pid) (hname' : pidOf e.moduleTable name' = some pid) :
    name = name' := by
  obtain ⟨x, hx, rfl, hxpid⟩ := exists_of_pidOf hname
  obtain ⟨y, hy, rfl, hypid⟩ := exists_of_pidOf hname'
  rw [inj_on_of_nodup_map h.pids hx hy (hxpid.trans hypid.symm)]

lemma Separate.of_pids (h : Separate e1)
    (hpids : e2.moduleTable.map Element.pid = e1.moduleTable.map Element.pid)
    (hheader : e2.header = e1.header) : Separate e2 := by
  refine ⟨hpids ▸ h.pids, fun x hx y hy hdr hhx hhy => ?_⟩
  rw [hheader] at hhx hhy
  exact h.pid_eq (hpids ▸ mem_map_of_mem hx) (hpids ▸ mem_map_of_mem hy) hhx hhy

lemma spawned_fresh {x : Element} (h : ((l ++ [x]).map Element.pid).Nodup) :
    ∀ p ∈ l.map Element.pid, p ≠ x.pid := by
  rw [map_append, nodup_append] at h
  exact fun p hp => h.2.2 p hp x.pid (mem_singleton.mpr rfl)

structure Later (Q : (ℕ × ℕ) × ℕ → Prop) (e e' : Engine) : Prop where
  pids : ∀ name pid, pidOf e.moduleTable name = some pid → pidOf e'.moduleTable name = some pid
  gids : ∀ port g, Q port → gidOf e port = some g → gidOf e' port = some g

lemma Later.trans {e3 : Engine} (h : Later Q e1 e2) (h' : Later Q e2 e3) : Later Q e1 e3 :=
  ⟨fun name pid hpid => h'.pids name pid (h.pids name pid hpid),
    fun port g hq hg => h'.gids port g hq (h.gids port g hq hg)⟩

lemma Processed.later (Q : (ℕ × ℕ) × ℕ → Prop) (h : Processed e row ans e' pid hdr)
    (hsep : Separate e') : Later Q e e' := by
  cases h with
  | found _ _ hunmark =>
    have hsame : ∀ name, pidOf _ name = pidOf e.moduleTable name := fun name => pidOf_congr hunmark
    refine ⟨fun name pid hpid => (hsame name).trans hpid, fun port g _ hg => ?_⟩
    rw [← hg, gidOf, hsame]
    rfl
  | spawned hnone hgid =>
    have hpids : ∀ name pid, pidOf e.moduleTable name = some pid →
        pidOf (e.moduleTable ++ [⟨row.cid, row.instanceId, ans.spawned, true⟩]) name =
          some pid := by
      intro name pid hpid
      rw [pidOf_append, hpid]
      rfl
    refine ⟨hpids, fun port g _ hg => ?_⟩
    obtain ⟨p, hd, hp, hhd, hg⟩ := gidOf_eq_some.mp hg
    have hne : p ≠ ans.spawned := spawned_fresh hsep.pids p (pid_mem_of_pidOf hp)
    have hheader : update e.header ans.spawned (some hdr) p = some hd :=
      (update_of_ne hne _ _).trans hhd
    refine gidOf_eq_some.mpr ⟨p, hd, hpids _ _ hp, hheader, ?_⟩
    rw [← hg]
    refine congrFun (hgid hd (fun heq => hne ?_)) _
    -- a header in use is not given out again
    refine hsep.pid_eq (pid_mem_of_pidOf (hpids _ _ hp)) ?_ hheader ?_
    · simp
    · rw [heq]
      exact update_self ..

section

variable (h : Processed e row ans e' pid hdr)
include h

lemma Processed.separate (hsep : Separate e') :
    Separate e := by
  cases h with
  | found _ _ hunmark => exact hsep.of_pids (pids_of_unmark hunmark).symm rfl
  | spawned hnone hgid =>
    have hfresh := spawned_fresh hsep.pids
    have hold : ∀ p ∈ e.moduleTable.map Element.pid,
        update e.header ans.spawned (some hdr) p = e.header p :=
      fun p hp => update_of_ne (hfresh p hp) _ _
    refine ⟨?_, fun x hx y hy hd hhx hhy => ?_⟩
    · have hnodup := hsep.pids
      rw [map_append, nodup_append] at hnodup
      exact hnodup.1
    · refine hsep.headers x (mem_append_left _ hx) y (mem_append_left _ hy) hd ?_ ?_
      · exact (hold _ (mem_map_of_mem hx)).trans hhx
      · exact (hold _ (mem_map_of_mem hy)).trans hhy

lemma Processed.element :
    pidOf e'.moduleTable (target row) = some pid ∧ e'.header pid = some hdr := by
  cases h with
  | found hpid hhdr hunmark => exact ⟨(pidOf_congr hunmark).trans hpid, hhdr⟩
  | spawned hnone _ =>
    refine ⟨?_, update_self ..⟩
    rw [pidOf_append, hnone, pidOf_cons, if_pos (by rfl)]
    rfl

lemma Processed.frame :
    e'.routingTable = e.routingTable ∧ e'.writes = e.writes := by
  cases h <;> exact ⟨rfl, rfl⟩

end

lemma patchGid_gid (e : Engine) (hdr portId g h q : ℕ) :
    (patchGid e hdr portId g).gid h q = if h = hdr ∧ q = portId then g else e.gid h q := by
  by_cases hh : h = hdr
  · subst hh
    by_cases hq : q = portId <;> simp [patchGid, hq]
  · simp [patchGid, hh]

lemma gidOf_patchGid {name : ℕ × ℕ} {g : ℕ} (hpid : pidOf e.moduleTable name = some pid)
    (hhdr : e.header pid = some hdr) : gidOf (patchGid e hdr portId g) (name, portId) = some g := by
  refine gidOf_eq_some.mpr ⟨pid, hdr, hpid, hhdr, ?_⟩
  rw [patchGid_gid, if_pos ⟨rfl, rfl⟩]

lemma patchGid_later (hsep : Separate e) (hpid : pidOf e.moduleTable name = some pid)
    (hhdr : e.header pid = some hdr) : Later (· ≠ (name, portId)) e (patchGid e hdr portId g) := by
  refine ⟨fun _ _ h => h, fun port g' hport hg => ?_⟩
  obtain ⟨p, hd, hp, hhd, rfl⟩ := gidOf_eq_some.mp hg
  refine gidOf_eq_some.mpr ⟨p, hd, hp, hhd, ?_⟩
  rw [patchGid_gid, if_neg]
  rintro ⟨rfl, hid⟩
  have hsame : p = pid := hsep.pid_eq (pid_mem_of_pidOf hp) (pid_mem_of_pidOf hpid) hhd hhdr
  have hname : port.1 = name := hsep.name_eq (hsame ▸ hp) hpid
  exact hport (Prod.ext hname hid)

inductive Inputs : Engine → List (Row × Answer) → Engine → List Route → Prop
  | nil (e : Engine) : Inputs e [] e []
  | cons {e e1 e2 : Engine} {x : Row × Answer} {xs : List (Row × Answer)} {routes : List Route}
      {pid hdr : ℕ} (hproc : Processed e x.1 x.2 e1 pid hdr) (hrest : Inputs e1 xs e2 routes) :
      Inputs e (x :: xs) e2 (⟨pidPortOf pid x.1.portId, x.2.cb⟩ :: routes)

def Routed (e : Engine) (xs : List (Row × Answer)) (routes : List Route) : Prop :=
  Forall₂ (fun x r => ∃ pid, pidOf e.moduleTable (target x.1) = some pid ∧
    r = ⟨pidPortOf pid x.1.portId, x.2.cb⟩) xs routes

lemma Routed.later (h : Routed e xs routes) (hlater : Later Q e e') : Routed e' xs routes :=
  Forall₂.imp (fun _ _ ⟨pid, hpid, hr⟩ => ⟨pid, hlater.pids _ _ hpid, hr⟩) h

lemma Inputs.separate (h : Inputs e xs e' routes) (hsep : Separate e') : Separate e := by
  induction h with
  | nil => exact hsep
  | cons hproc _ ih => exact Processed.separate hproc (ih hsep)

lemma Inputs.later (Q : (ℕ × ℕ) × ℕ → Prop) (h : Inputs e xs e' routes) (hsep : Separate e') :
    Later Q e e' := by
  induction h with
  | nil => exact ⟨fun _ _ h => h, fun _ _ _ h => h⟩
  | cons hproc hrest ih => exact (Processed.later Q hproc (hrest.separate hsep)).trans (ih hsep)

lemma Inputs.routed (h : Inputs e xs e' routes) (hsep : Separate e') : Routed e' xs routes := by
  induction h with
  | nil => exact .nil
  | cons hproc hrest ih =>
    have hlater := hrest.later (fun _ => True) hsep
    exact .cons ⟨_, hlater.pids _ _ (Processed.element hproc).1, rfl⟩ (ih hsep)

lemma Inputs.frame (h : Inputs e xs e' routes) :
    e'.routingTable = e.routingTable ∧ e'.writes = e.writes := by
  induction h with
  | nil => exact ⟨rfl, rfl⟩
  | cons hproc _ ih =>
    obtain ⟨htable, hwrites⟩ := Processed.frame hproc
    exact ⟨ih.1.trans htable, ih.2.trans hwrites⟩

/-- The conditions on a configuration. -/
structure Fits (P : Platform) (wires : List Wire) : Prop where
  page : routingTableEntrySize P * total wires ≤ P.flashmemPageSize
  fanouts : ∀ w ∈ wires, w.all.length < 255
  ports : (wires.map Wire.port).Nodup
  inputs : ∀ w ∈ wires, ∀ x ∈ w.all, x.1.portId < 8 ∧ x.2.cb < 256 ^ P.sizeofFuncCbPtr

structure Placed (P : Platform) (e : Engine) (x : ℕ × Wire) : Prop where
  gid : gidOf e x.2.port = some x.1
  routes : ∃ routes, Routed e x.2.all routes ∧ RowsAt P e.routingTable x.1 (blockRows P routes)

structure Written (P : Platform) (e0 : Engine) (done : List Wire) (s : Scan) : Prop where
  group : s.group = none
  gid : s.currentGid = total done % 256
  offset : s.flashRoutingTableOffset = routingTableEntrySize P * total done % 65536
  writes : s.engine.writes = e0.writes ++ (List.range (total done)).map (rowWrite P)
  placed : Fits P done → ∀ x ∈ layout 0 done, Placed P s.engine x

lemma Routed.length (h : Routed e xs routes) : routes.length = xs.length :=
  (Forall₂.length_eq h).symm

lemma Placed.later {x : ℕ × Wire} (h : Placed P e x) (hlater : Later Q e e') (hq : Q x.2.port)
    (hk : x.1 + x.2.size ≤ k)
    (htable : ∀ a < routingTableEntrySize P * k, e'.routingTable a = e.routingTable a) :
    Placed P e' x := by
  obtain ⟨routes, hrouted, hrows⟩ := h.routes
  refine ⟨hlater.gids _ _ hq h.gid, routes, hrouted.later hlater, hrows.congr ?_ htable⟩
  rw [blockRows_length, hrouted.length]
  exact hk

lemma total_concat : total (done ++ [w]) = total done + w.size := by
  rw [total_append]
  rfl

lemma layout_concat : layout 0 (done ++ [w]) = layout 0 done ++ [(total done, w)] := by
  rw [layout_append, Nat.zero_add]
  rfl

section

variable (hproc : Processed e w.output.1 w.output.2 e1 pid hdr)
    (hinputs : Inputs (patchGid e1 hdr w.output.1.portId g) w.all e2 routes)
include hproc hinputs

lemma wire_later (hsep : Separate e2) :
    Later (· ≠ w.port) e e2 ∧ gidOf e2 w.port = some g ∧ Routed e2 w.all routes := by
  have hpatched := hinputs.separate hsep
  have hsep1 : Separate e1 := ⟨hpatched.pids, hpatched.headers⟩
  obtain ⟨hpid, hhdr⟩ := Processed.element hproc
  refine ⟨?_, ?_, hinputs.routed hsep⟩
  · exact ((Processed.later _ hproc hsep1).trans (patchGid_later hsep1 hpid hhdr)).trans
      (hinputs.later _ hsep)
  · exact (hinputs.later (fun _ => True) hsep).gids _ _ trivial (gidOf_patchGid hpid hhdr)

lemma wire_frame : e2.routingTable = e.routingTable ∧ e2.writes = e.writes := by
  obtain ⟨htable, hwrites⟩ := Processed.frame hproc
  obtain ⟨htable', hwrites'⟩ := hinputs.frame
  exact ⟨htable'.trans htable, hwrites'.trans hwrites⟩

end

lemma Fits.of_concat (h : Fits P (done ++ [w])) : Fits P done := by
  have hmem : ∀ v ∈ done, v ∈ done ++ [w] := fun _ => mem_append_left _
  refine ⟨le_trans (Nat.mul_le_mul_left _ ?_) h.page, fun v hv => h.fanouts v (hmem v hv), ?_,
    fun v hv => h.inputs v (hmem v hv)⟩
  · rw [total_concat]
    exact Nat.le_add_right ..
  · have hports := h.ports
    rw [map_append] at hports
    exact hports.of_append_left

lemma Written.step {e1 e2 : Engine} (h : Written P e0 done s)
    (hsmall : P.flashmemPageSize < 65536) (hstart : total done < invalidGid)
    (hproc : Processed s.engine w.output.1 w.output.2 e1 pid hdr)
    (hinputs : Inputs (patchGid e1 hdr w.output.1.portId s.currentGid) w.all e2 routes)
    (hclose : closeGroup P { s with engine := e2 } ⟨routes.length % 256, routes⟩ = s')
    (hsep : Separate s'.engine) : Written P e0 (done ++ [w]) s' := by
  obtain ⟨m, ws, hengine⟩ := hclose ▸ closeGroup_engine P { s with engine := e2 }
    ⟨routes.length % 256, routes⟩
  have hsep2 : Separate e2 := by
    rw [hengine] at hsep
    exact ⟨hsep.pids, hsep.headers⟩
  have hclosed : ∀ Q, Later Q e2 s'.engine := by
    intro Q
    rw [hengine]
    exact ⟨fun _ _ h => h, fun _ _ _ h => h⟩
  obtain ⟨hlater, hgid, hrouted⟩ := wire_later hproc hinputs hsep2
  obtain ⟨htable, hwrites⟩ := wire_frame hproc hinputs
  have hsize : w.size = routes.length + 1 := by rw [hrouted.length]; rfl
  obtain ⟨hrows, hoffset, hplace⟩ :=
    closeGroup_rows (s := { s with engine := e2 }) h.offset hclose
  obtain ⟨hnext, hgroup⟩ := hclose ▸ closeGroup_control P { s with engine := e2 }
    ⟨routes.length % 256, routes⟩
  refine ⟨hgroup, ?_, ?_, ?_, fun hfits => ?_⟩
  · have hgid' : (s.currentGid + routes.length % 256 + 1) % 256 =
        (total done + (routes.length + 1)) % 256 := by
      rw [h.gid]
      omega
    rw [hnext, total_concat, hsize]
    exact hgid'
  · rw [hoffset, total_concat, hsize]
  · have hrange := @List.range'_append_1 0 (total done) (routes.length + 1)
    rw [Nat.zero_add, ← range_eq_range', ← range_eq_range'] at hrange
    rw [hrows, hwrites, h.writes, append_assoc, ← map_append, hrange, total_concat, hsize]
  · have hpage := hfits.page
    rw [total_concat, hsize] at hpage
    obtain ⟨hat, hbefore⟩ := hplace (hpage.trans hsmall.le)
    rw [layout_concat]
    refine forall_mem_append.mpr ⟨fun x hx => ?_, forall_mem_singleton.mpr ?_⟩
    · have hmem : x.2 ∈ done := by
        rw [← @layout_snd 0 done]
        exact mem_map_of_mem hx
      have hne : x.2.port ≠ w.port := by
        have hports := hfits.ports
        rw [map_append, nodup_append] at hports
        exact hports.2.2 _ (mem_map_of_mem hmem) _ mem_cons_self
      have hbounds := layout_bounds hx
      rw [Nat.zero_add] at hbounds
      refine (h.placed hfits.of_concat x hx).later (hlater.trans (hclosed _)) hne hbounds.2
        (fun a ha => ?_)
      rw [hbefore a ha, htable]
    · refine ⟨?_, routes, hrouted.later (hclosed (fun _ => True)), hat⟩
      have hexact : s.currentGid = total done := by
        rw [h.gid]
        exact Nat.mod_eq_of_lt (hstart.trans (by decide))
      rw [← hexact]
      exact (hclosed (fun _ => True)).gids _ _ trivial hgid

lemma Scanned.separate (h : Scanned P s row ans s') (hsep : Separate s'.engine) :
    Separate s.engine := by
  obtain ⟨_, _, _, hproc, _, _, _, hengine⟩ := h.engine
  rw [hengine] at hsep
  exact Processed.separate hproc ⟨hsep.pids, hsep.headers⟩

def tableEnd : Row × Answer := (⟨endTable, 0, 0, 0, 0⟩, ⟨0, 0, true, true, 0⟩)

def ring : List Wire :=
  [⟨(⟨outputRecord, 6, 0, 0, 0⟩, ⟨20, 0, true, true, 0⟩),
      [(⟨inputRecord, 7, 0, 1, 0⟩, ⟨21, 0, true, true, 300⟩)],
      (⟨inputRecord, 6, 0, 2, endRecord⟩, ⟨0, 0, true, true, 301⟩), rfl, by decide, rfl⟩,
    ⟨(⟨outputRecord, 7, 0, 0, 0⟩, ⟨0, 0, true, true, 0⟩), [],
      (⟨inputRecord, 6, 0, 0, endRecord⟩, ⟨0, 0, true, true, 302⟩), rfl, by decide, rfl⟩]

def star (n : ℕ) : List Wire :=
  (List.range n).map (fun i =>
    ⟨(⟨outputRecord, 6, 0, i, 0⟩, ⟨20, 0, true, true, 0⟩), [],
      (⟨inputRecord, 7, 0, 0, endRecord⟩, ⟨21, 0, true, true, 300⟩), rfl, by simp, rfl⟩)

def configOf (wires : List Wire) : Config :=
  ⟨wires.flatMap Wire.rows ++ [tableEnd], true, false, true, true, fun _ => 0⟩

def board (ports : ℕ) : Platform := ⟨256, 2, (· + 100), fun _ => ports⟩

def idle : Engine := initial (fun _ => 0) (fun _ => 0) (fun _ _ => 255)

end WiringRoutes
