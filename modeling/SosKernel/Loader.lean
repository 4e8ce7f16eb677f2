import SosKernel.Fetcher

/-! # The module loader, `loader.c`

A version table gives a version and a size for each of sixteen entries. Where the version of
an entry differs, the loader drops the old code and has the new one fetched into code
memory of its own, one fetch for each pass over the table. The fetcher reports a fetch by
a queued message that carries the fetch state. What allocators answer is an input; `none`
stands for an access through a null pointer or outside an array, and for an answer that
`ker_malloc` cannot give. -/
namespace Loader

open ByteMemory HeapBlocks CodeMemory Fetcher Function

def kerDftLoaderPid : ℕ := 17
def numLoaderParamsEntries : ℕ := 8
def numLoaderModuleEntries : ℕ := 8
def loaderSizeMultiplier : ℕ := 256

structure VersionData where
  version : ℕ
  pamVer : ℕ → UInt8
  pamSize : ℕ → UInt8
  modVer : ℕ → UInt8
  modSize : ℕ → UInt8

structure TableEntry where
  ver : UInt8
  size : UInt8
  fetchtype : FetchType

def VersionData.entry (v : VersionData) (i : ℕ) : TableEntry :=
  if i < numLoaderParamsEntries then ⟨v.pamVer i, v.pamSize i, .data⟩
  else ⟨v.modVer (i - numLoaderParamsEntries), v.modSize (i - numLoaderParamsEntries), .module⟩

def sysShmName (pid id : ℕ) : ℕ := pid * 2 ^ 8 + id

/-- The code memory from which `handle_fetcher_done` links, verifies and registers a module, or
announces data, with the fetch it does so for and the code memory that this fetch filled. -/
structure Applied where
  used : ℕ
  fetch : FetcherState
  filled : ℕ

structure State where
  fetcher : Fetcher.State
  cm : ℕ → ℕ
  version : ℕ → UInt8
  versionData : VersionData
  recentNeighbor : ℕ
  pending : List ℕ
  applied : List Applied

structure Answers where
  camMem : Bool
  shmOk : Bool
  junk : FetcherCam
  hdrMem : Bool
  page : Option Mem
  block : ℕ

variable (c : Config)

section

variable (s : State)

def State.setCam (key : ℕ) (cam : Option FetcherCam) : State :=
  { s with fetcher := { s.fetcher with cams := update s.fetcher.cams key cam } }

def State.setCodemem (codemem : CodeMemory.State) : State :=
  { s with fetcher := { s.fetcher with codemem := codemem } }

def freeCode (cm : ℕ) : Option State :=
  (kerCodememFree c s.fetcher.codemem cm).map (fun r => s.setCodemem r.1)

def requestNewModule (key : ℕ) (size : UInt8) (saddr : ℕ) (type : FetchType)
    (ans : Answers) : Option (State × ℤ) :=
  (s.fetcher.cams key).bind (fun cam =>
    (kerCodememAlloc c s.fetcher.codemem (size.toNat * loaderSizeMultiplier) ans.hdrMem
      ans.page).bind (fun r =>
        let s1 := (s.setCodemem r.1).setCam key (some { cam with cm := r.2, fetchtype := type })
        if r.2 = codememInvalid then some (s1, -enomem)
        else if ans.block ∈ addrs s.fetcher.heap then none
        else
          (fetcherRequest c s1.fetcher kerDftLoaderPid key (size.toNat * loaderSizeMultiplier) saddr
            ans.block).bind (fun q =>
              let s2 := { s1 with fetcher := q.1 }
              if q.2 ≠ 0 then (freeCode c s2 r.2).map (fun s3 => (s3, -enomem))
              else some ({ s2 with cm := update s.cm ans.block r.2 }, 0))))

/-- The end of the loop body of `process_version_data`; the loop stops at a fetch. -/
def insertModule (key : ℕ) (e : TableEntry) (saddr : ℕ) (ans : Answers) :
    Option (State × Bool) :=
  (requestNewModule c s key e.size saddr e.fetchtype ans).map (fun r =>
    if r.2 ≠ 0 then (r.1.setCam key none, false)
    else ({ r.1 with version := update r.1.version key e.ver }, true))

def dropCode (key : ℕ) (cam : FetcherCam) : Option State :=
  (if cam.status ≠ .done then
    (fetcherCancel s.fetcher key).map (fun r => { s with fetcher := r.1 })
  else some s).bind (fun s1 => freeCode c s1 cam.cm)

def processEntry (v : VersionData) (saddr : ℕ) (ans : Answers) (i : ℕ) :
    Option (State × Bool) :=
  let key := sysShmName kerDftLoaderPid i
  let e := v.entry i
  match s.fetcher.cams key with
  | none =>
    if e.size = 0 then some (s, false)
    else if ans.camMem = false ∨ ans.shmOk = false then some (s, true)
    else insertModule c (s.setCam key (some ans.junk)) key e saddr ans
  | some cam =>
    if s.version key = e.ver then some (s, false)
    else (dropCode c s key cam).bind (fun s1 =>
      if e.size = 0 then some (s1.setCam key none, false)
      else insertModule c s1 key e saddr ans)

end

def processEntries (v : VersionData) (saddr : ℕ) (ans : ℕ → Answers) :
    List ℕ → State → Option State
  | [], s => some s
  | i :: is, s => (processEntry c s v saddr (ans i) i).bind (fun r =>
    if r.2 then some r.1 else processEntries v saddr ans is r.1)

def processVersionData (s : State) (v : VersionData) (saddr : ℕ) (ans : ℕ → Answers) :
    Option State :=
  processEntries c v saddr ans
    (List.range (numLoaderParamsEntries + numLoaderModuleEntries)) s

/-- `MSG_VERSION_DATA`; a table is processed if it is newer than the last one. -/
def handleVersionData (s : State) (pkt : VersionData) (saddr : ℕ) (ans : ℕ → Answers) :
    Option State :=
  let s1 := if s.versionData.version ≤ pkt.version then { s with recentNeighbor := saddr } else s
  if s.versionData.version < pkt.version then
    processVersionData c { s1 with versionData := pkt } pkt saddr ans
  else some s1

def fetcherCommit (s : State) (key : ℕ) : State :=
  (s.fetcher.cams key).elim s (fun _ => s.setCodemem (kerCodememFlush c s.fetcher.codemem).1)

/-- `handle_fetcher_done` for the oldest message. A payload that the handler does not take is
freed by the scheduler afterwards, which is a step of others. -/
def handleFetcherDone (s : State) (ans : ℕ → Answers) : Option State :=
  match s.pending with
  | [] => some s
  | p :: rest =>
    let f := s.fetcher.states p
    let s0 := { s with pending := rest }
    if isFetcherSucceed f then
      let s1 := fetcherCommit c s0 f.map.key
      (s1.fetcher.cams f.map.key).bind (fun cam =>
        let s2 := { s1 with applied := s1.applied ++ [⟨cam.cm, f, s.cm p⟩] }
        processVersionData c s2 s2.versionData s2.recentNeighbor ans)
    else
      (fetcherRestart { s.fetcher with heap := kerChangeOwn s.fetcher.heap p kerDftLoaderPid } p
        s.recentNeighbor).map (fun f' => { s0 with fetcher := f' })

inductive Event where
  | versionData (pkt : VersionData) (saddr : ℕ) (ans : ℕ → Answers)
  | fetcherDone (ans : ℕ → Answers)
  | fetcher (e : Fetcher.Event)
  | outside (heap : Heap) (codemem : CodeMemory.State)

def posted (s s' : Fetcher.State) : List ℕ :=
  if s'.done.length = s.done.length then [] else s.fst.toList

def step (s : State) : Event → Option State
  | .versionData pkt saddr ans => handleVersionData c s pkt saddr ans
  | .fetcherDone ans => handleFetcherDone c s ans
  | .fetcher e => (Fetcher.step c s.fetcher e).map (fun f =>
    { s with fetcher := f, pending := s.pending ++ posted s.fetcher f })
  | .outside heap codemem =>
    some { s with fetcher := { s.fetcher with heap := heap, codemem := codemem } }

end Loader
