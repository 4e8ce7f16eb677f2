import SosKernel.CodeMemory
import SosKernel.GuardedRuns

/-! # The wiring engine, `wiring_engine.c`

A configuration wires output ports of elements to input ports. The engine spawns the elements,
writes the routes of each output port to one page of flash and the list of elements to another,
and patches the position of the routes into the module header of the sending element, where
`dispatch` finds it.

The bytes of the two pages are plain memories here, without the cache of the code memory.
Parameters, tokens and the copy of the wiring that is saved for later updates are left out. What
the kernel answers comes with each record of the configuration. -/
namespace WiringEngine

open ByteMemory GuardedRuns Function
open CodeMemory (blit flashRead)

def invalidGid : ℕ := 0xFF
def maxNumElements : ℕ := 16
def rtableInputPortBits : ℕ := 3
def rtableInputPortMask : ℕ := 0x07
def elementsTableSkipOffset : ℕ := 1
def nullPid : ℕ := 255

def outputRecord : ℕ := 1
def inputRecord : ℕ := 2
def endRecord : ℕ := 3
def endTable : ℕ := 4
def beginParameters : ℕ := 6

structure Platform where
  flashmemPageSize : ℕ
  sizeofFuncCbPtr : ℕ
  /-- `ker_codemem_get_header_from_code_id`. -/
  codeHeader : ℕ → ℕ
  numOutPort : ℕ → ℕ

structure Row where
  type : ℕ
  cid : ℕ
  instanceId : ℕ
  portId : ℕ
  gidOrEnd : ℕ
  deriving DecidableEq, Repr

structure Answer where
  /-- From `ker_spawn_module`. -/
  spawned : ℕ
  /-- From `copy_module_header`. -/
  copied : ℕ
  elementMem : Bool
  routeMem : Bool
  /-- From `fntable_real_subscribe`. -/
  cb : ℕ
  deriving DecidableEq, Repr

structure Element where
  cid : ℕ
  instanceId : ℕ
  pid : ℕ
  marked : Bool
  deriving DecidableEq, Repr

structure Engine where
  allocated : Bool
  routingTable : Mem
  elementsTable : Mem
  numElements : ℕ
  /-- One byte for each element, since an element has at most eight input ports. -/
  busyBitMask : ℕ → BitVec 8
  moduleTable : List Element
  /-- The header of each running module, `ker_get_module`. -/
  header : ℕ → Option ℕ
  /-- The `fid` byte of each output port, by header and port. -/
  gid : ℕ → ℕ → ℕ
  /-- The modules that the engine has deregistered. -/
  deregistered : List ℕ
  /-- The writes into the routing table, each with its offset and length. -/
  writes : List (ℕ × ℕ)

inductive Existence where
  | noInstance
  | thisInstance
  | anotherInstance
  deriving DecidableEq, Repr

def discoveredFrom (row : Row) (ret : Existence) : List Element → List Element × Existence × ℕ
  | [] => ([], ret, 0)
  | x :: l =>
    if x.cid = row.cid then
      if x.instanceId = row.instanceId then ({ x with marked := true } :: l, .thisInstance, x.pid)
      else
        let r := discoveredFrom row .anotherInstance l
        (x :: r.1, r.2)
    else
      let r := discoveredFrom row ret l
      (x :: r.1, r.2)

def discovered (l : List Element) (row : Row) : List Element × Existence × ℕ :=
  discoveredFrom row .noInstance l

section Platform

variable (P : Platform)

def kerDeregisterModule (e : Engine) (pid : ℕ) : Engine :=
  { e with
    header := update e.header pid none, deregistered := e.deregistered ++ [pid] }

/-- `invalidate_output_ports` and `ker_deregister_module`; `none` for a module that is not there,
whose header is read all the same. -/
def deregister (e : Engine) (pid : ℕ) : Option Engine :=
  (e.header pid).map (fun hdr =>
    kerDeregisterModule { e with
      gid := fun h port =>
        if h = hdr ∧ port < P.numOutPort hdr then invalidGid else e.gid h port } pid)

def deregisterEach (e : Engine) (pids : List ℕ) : Option Engine := pids.foldlM (deregister P) e

/-- A second instance of a module gets a copy of its header, as the header is at that time. -/
def spawn (e : Engine) (row : Row) (ans : Answer) (existence : Existence) : Engine × ℕ :=
  if existence = .noInstance then
    ({ e with header := update e.header ans.spawned (some (P.codeHeader row.cid)) },
      P.codeHeader row.cid)
  else
    ({ e with
      header := update e.header ans.spawned (some ans.copied)
      gid := update e.gid ans.copied (e.gid (P.codeHeader row.cid)) }, ans.copied)

def processModule (e : Engine) (row : Row) (ans : Answer) : Engine × Option (ℕ × ℕ) :=
  let found := discovered e.moduleTable row
  let e := { e with moduleTable := found.1 }
  if found.2.1 = .thisInstance then (e, (e.header found.2.2).map (fun hdr => (found.2.2, hdr)))
  else if ans.spawned = nullPid then (e, none)
  else
    let spawned := spawn P e row ans found.2.1
    if ans.elementMem then
      ({ spawned.1 with
        moduleTable := e.moduleTable ++ [⟨row.cid, row.instanceId, ans.spawned, true⟩] },
        some (ans.spawned, spawned.2))
    else (kerDeregisterModule spawned.1 ans.spawned, none)

structure Route where
  pidPort : ℕ
  cb : ℕ

def getEpidFromPid (pid : ℕ) : ℕ := pid % maxNumElements
def getPortFromPidPort (p : ℕ) : ℕ := p &&& rtableInputPortMask
def getEpidFromPidPort (p : ℕ) : ℕ := (p &&& 0xF8) >>> rtableInputPortBits

def pidPortOf (pid portId : ℕ) : ℕ :=
  (getEpidFromPid pid <<< rtableInputPortBits ||| getPortFromPidPort portId) % 256

def leBytes : ℕ → ℕ → List UInt8
  | 0, _ => []
  | n + 1, v => UInt8.ofNat v :: leBytes n (v / 256)

def ofLeBytes : List UInt8 → ℕ
  | [] => 0
  | b :: l => b.toNat + 256 * ofLeBytes l

def routingTableEntrySize : ℕ := 1 + P.sizeofFuncCbPtr

def fanoutBytes (fanout : ℕ) : List UInt8 :=
  UInt8.ofNat fanout :: List.replicate P.sizeofFuncCbPtr 0

def routeBytes (r : Route) : List UInt8 := UInt8.ofNat r.pidPort :: leBytes P.sizeofFuncCbPtr r.cb

structure Group where
  fanout : ℕ
  routes : List Route

/-- The variables of `interpret_wiring_config`. Its two loops are one loop here over the rows:
between an output record and the end of its input records a group is open. -/
structure Scan where
  engine : Engine
  currentGid : ℕ
  flashRoutingTableOffset : ℕ
  group : Option Group

def writeRow (s : Scan) (buf : List UInt8) : Scan :=
  { s with
    engine := { s.engine with
      routingTable := blit s.engine.routingTable s.flashRoutingTableOffset buf
      writes := s.engine.writes ++ [(s.flashRoutingTableOffset, buf.length)] }
    flashRoutingTableOffset := (s.flashRoutingTableOffset + buf.length) % 65536 }

/-- The rows of an output port are written at once, when its last input record was read. -/
def closeGroup (s : Scan) (g : Group) : Scan :=
  let s := { s with currentGid := (s.currentGid + g.fanout + 1) % 256, group := none }
  (g.routes.map (routeBytes P)).foldl writeRow (writeRow s (fanoutBytes P g.fanout))

def patchGid (e : Engine) (hdr portId gid : ℕ) : Engine :=
  { e with gid := update e.gid hdr (update (e.gid hdr) portId gid) }

inductive Verdict where
  | more (s : Scan)
  | done (s : Scan)
  | failed (e : Engine)

def scanOutput (s : Scan) (row : Row) (ans : Answer) : Verdict :=
  if row.type = endTable ∨ row.type = beginParameters then .done s
  else if row.type ≠ outputRecord then .failed s.engine
  else
    match processModule P s.engine row ans with
    | (e, none) => .failed e
    | (e, some (_, hdr)) =>
      .more { s with engine := patchGid e hdr row.portId s.currentGid, group := some ⟨0, []⟩ }

def scanInput (s : Scan) (g : Group) (row : Row) (ans : Answer) : Verdict :=
  if row.type ≠ inputRecord then .failed s.engine
  else
    match processModule P s.engine row ans with
    | (e, none) => .failed e
    | (e, some (pid, _)) =>
      if ans.routeMem = false ∨ ans.cb = 0 then .failed e
      else
        let g := ⟨(g.fanout + 1) % 256, g.routes ++ [⟨pidPortOf pid row.portId, ans.cb⟩]⟩
        let s := { s with engine := e, group := some g }
        .more (if row.gidOrEnd = endRecord then closeGroup P s g else s)

def scanRow (s : Scan) (x : Row × Answer) : Verdict :=
  match s.group with
  | none => scanOutput P s x.1 x.2
  | some g => scanInput P s g x.1 x.2

/-- `none` if the file ends without an `END_TABLE`. -/
def scanRows (s : Scan) : List (Row × Answer) → Option (Except Engine Scan)
  | [] => none
  | x :: rows =>
    match scanRow P s x with
    | .more s => scanRows s rows
    | .done s => some (.ok s)
    | .failed e => some (.error e)

def elementBytes (x : Element) : List UInt8 :=
  [UInt8.ofNat x.cid, UInt8.ofNat (x.cid / 256), UInt8.ofNat x.instanceId, UInt8.ofNat x.pid]

def writeElementsFrom (m : Mem) (offset : ℕ) : List Element → Mem
  | [] => m
  | x :: l =>
    if x.marked then writeElementsFrom (blit m offset (elementBytes x)) ((offset + 4) % 65536) l
    else writeElementsFrom m offset l

def markedElements (e : Engine) : List Element := e.moduleTable.filter Element.marked

/-- The end of `interpret_wiring_config`. The number of elements is counted up. -/
def writeElements (e : Engine) : Engine :=
  let n := (e.numElements + (markedElements e).length) % 65536
  { e with
    numElements := n
    elementsTable := writeElementsFrom (blit e.elementsTable 0 [UInt8.ofNat n])
      elementsTableSkipOffset e.moduleTable }

def readElement (m : Mem) (offset : ℕ) : Element :=
  ⟨(m offset).toNat + 256 * (m (offset + 1)).toNat, (m (offset + 2)).toNat, (m (offset + 3)).toNat,
    false⟩

/-- The records that `load_elements_table` visits. The count is an `int8_t`, and nothing is
visited if it is negative. -/
def tableRecords (m : Mem) : List Element :=
  if 128 ≤ (m 0).toNat then []
  else (List.range (m 0).toNat).map (fun i => readElement m (elementsTableSkipOffset + 4 * i))

structure Config where
  rows : List (Row × Answer)
  beginsWiring : Bool
  updateDiff : Bool
  savedMem : Bool
  loadMem : Bool
  pages : Mem

def interpretWiringConfig (e : Engine) (cfg : Config) : Option (Except Engine Engine) :=
  if cfg.savedMem then
    (scanRows P ⟨e, 0, 0, none⟩ cfg.rows).map (Except.map (fun s => writeElements s.engine))
  else some (.error e)

def abandon (e : Engine) : Option (Engine × Bool) :=
  (deregisterEach P e (e.moduleTable.map Element.pid)).map (fun e =>
    ({ e with moduleTable := [] }, false))

def resetBusyMask (e : Engine) : Engine := { e with busyBitMask := fun _ => 0xFF#8 }

def installNewConfiguration (e : Engine) (cfg : Config) : Option (Engine × Bool) :=
  let e := { resetBusyMask e with moduleTable := [] }
  (deregisterEach P e ((tableRecords e.elementsTable).map Element.pid)).bind (fun e =>
    if cfg.beginsWiring = false then some (e, false)
    else if cfg.updateDiff then some (e, true)
    else
      (interpretWiringConfig P e cfg).bind (fun
        | .ok e => some (e, true)
        | .error e => abandon P e))

inductive Status where
  | elementBusy
  | elementReady

section

variable (mask : ℕ → BitVec 8)

/-- `set_element_status`; an element becomes ready with all its ports. -/
def setElementStatus (epid portId : ℕ) : Status → ℕ → BitVec 8
  | .elementBusy => update mask epid (mask epid &&& ~~~ (0x80#8 >>> (portId % 8)))
  | .elementReady => update mask epid 0xFF#8

/-- The byte is promoted to `int` before it is inverted. -/
def isGraphBusy : Bool := (List.range maxNumElements).any (fun i => -((mask i).toNat : ℤ) - 1 > 0)

def isElementReady (pidPort : ℕ) : Bool :=
  (mask (getEpidFromPidPort pidPort) <<< (getPortFromPidPort pidPort % 8)) &&& 0x80#8 > 0#8

def resetElementBusyMask (pids : List ℕ) : ℕ → BitVec 8 :=
  pids.foldl (fun mask pid => setElementStatus mask (getEpidFromPid pid) 0 .elementReady) mask

end

/-- `hot_swap_configuration` on a graph that it finds idle. -/
def swapConfiguration (e : Engine) (cfg : Config) : Option (Engine × Bool) :=
  let e := { e with moduleTable := if cfg.loadMem then tableRecords e.elementsTable else [] }
  if e.moduleTable = [] then some (e, false)
  else if cfg.beginsWiring = false then some (e, false)
  else
    (if cfg.updateDiff then some (.ok e) else interpretWiringConfig P e cfg).bind (fun
      | .error e => abandon P e
      | .ok e =>
        let unmarked := (e.moduleTable.filter (fun x => x.marked = false)).map Element.pid
        (deregisterEach P e unmarked).map (fun e =>
          ({ e with busyBitMask := resetElementBusyMask e.busyBitMask unmarked }, true)))

def hotSwapConfiguration (e : Engine) (cfg : Config) : Option (Engine × Bool) :=
  if isGraphBusy e.busyBitMask then installNewConfiguration P e cfg else swapConfiguration P e cfg

def resetEngine (e : Engine) : Engine :=
  { resetBusyMask e with allocated := false, numElements := 0, moduleTable := [] }

/-- Fresh pages, if there are none. The number of elements in a fresh table is written as zero.
An allocation that fails, and what the freed page leaves behind, is not modelled. -/
def allocatePages (e : Engine) (cfg : Config) : Engine :=
  if e.allocated then e
  else
    { e with
      allocated := true
      routingTable := cfg.pages
      elementsTable := blit cfg.pages 0 [0] }

/-- `MSG_LOADER_DATA_AVAILABLE` with a wiring section. -/
def loaderDataAvailable (e : Engine) (hotSwap : Bool) (cfg : Config) : Option (Engine × Bool) :=
  let e := allocatePages e cfg
  (if hotSwap then hotSwapConfiguration P e cfg else installNewConfiguration P e cfg).map (fun r =>
    if r.2 then r else (resetEngine r.1, false))

def initial (routingTable elementsTable : Mem) (gid : ℕ → ℕ → ℕ) : Engine :=
  ⟨false, routingTable, elementsTable, 0, fun _ => 0xFF#8, [], fun _ => none, gid, [], []⟩

def readRoute (m : Mem) (row : ℕ) : Route :=
  ⟨(m (routingTableEntrySize P * row)).toNat,
    ofLeBytes (flashRead m (routingTableEntrySize P * row + 1) P.sizeofFuncCbPtr)⟩

/-- The routes that `dispatch` follows from an output port with this group id. Its loop does not
end if a `uint8_t` can not pass the number of ports. -/
def dispatchRoutes (m : Mem) (gid : ℕ) : Option (List Route) :=
  if gid = invalidGid then some []
  else
    let numConnectedPorts := (m (routingTableEntrySize P * gid)).toNat
    if numConnectedPorts = 255 then none
    else some ((List.range numConnectedPorts).map (fun i => readRoute P m (gid + (i + 1))))

end Platform

end WiringEngine
