import SosKernel.WiringElements
import SosKernel.WiringLinks
import SosKernel.WiringRoutes
import SosKernel.WiringStatus

/-! # Continue tasks across configurations

A configuration frees queues of tokens while continue tasks that point into them may wait in the
queue of the kernel. -/
namespace WiringContinue

open WiringEngine WiringTokens WiringLinks GuardedRuns List Option Function
open WiringRoutes (board star configOf)
open WiringElements (unmarkedPids)

inductive Message where
  | continueTask (epid serial : ℕ)
  | loaderData (hotSwap : Bool) (cfg : Config)

def Message.isHighPriority : Message → Bool
  | .continueTask _ _ => true
  | .loaderData _ _ => false

structure System where
  engine : Engine
  flow : Flow
  queue : List Message

def start (routingTable elementsTable : ByteMemory.Mem) (gid : ℕ → ℕ → ℕ) : System :=
  ⟨WiringEngine.initial routingTable elementsTable gid, WiringTokens.initial, []⟩

/-- The order in which the messages are handled, with and without `SOS_USE_PREEMPTION`. With it
this is right for modules of one priority, where no message is dispatched inside `post`. -/
def byPriority (preemption : Bool) (q : List Message) : List Message :=
  if preemption then q
  else q.filter Message.isHighPriority ++ q.filter (fun m => !m.isHighPriority)

def mqDequeue (preemption : Bool) (q : List Message) : Option (Message × List Message) :=
  match byPriority preemption q with
  | [] => none
  | m :: q => some (m, q)

def purgeTokens (mqueue : ℕ → List Node) (pids : List ℕ) : ℕ → List Node :=
  fun epid => if epid ∈ pids.map getEpidFromPid then [] else mqueue epid

/-- A new installation and a failure free all queues, `reset_mesg_queue`. -/
def mqueueAfterLoad (f : Flow) (hotSwap : Bool) (r : Engine × Bool) : ℕ → List Node :=
  if hotSwap ∧ isGraphBusy f.busyBitMask = false ∧ r.2 then
    purgeTokens f.mqueue (unmarkedPids r.1)
  else fun _ => []

section Steps

variable (P : Platform) {epid token serial : ℕ} {hotSwap : Bool}

def load (s : System) (hotSwap : Bool) (cfg : Config) : Option (Engine × Bool) :=
  loaderDataAvailable P { s.engine with busyBitMask := s.flow.busyBitMask } hotSwap cfg

def afterLoad (s : System) (hotSwap : Bool) (q : List Message) (r : Engine × Bool) : System :=
  ⟨r.1, { s.flow with
    busyBitMask := r.1.busyBitMask, mqueue := mqueueAfterLoad s.flow hotSwap r }, q⟩

inductive Event where
  | element (e : WiringTokens.Event)
  | post (hotSwap : Bool) (cfg : Config)
  | handle
  | reset

def step (preemption : Bool) (s : System) : Event → Option System
  | .element (.continueTask _ _) => none
  | .element e =>
    (WiringTokens.step (dispatchRoutes P s.engine.routingTable) s.flow e).map (fun f =>
      { s with
        flow := f
        queue := s.queue ++ (f.pending.drop s.flow.pending.length).map
          (fun x => .continueTask x.1 x.2) })
  | .post hotSwap cfg => some { s with queue := s.queue ++ [.loaderData hotSwap cfg] }
  | .handle =>
    if s.flow.stack = [] then
      (mqDequeue preemption s.queue).bind (fun
        | (.continueTask epid serial, q) =>
          (WiringTokens.step (dispatchRoutes P s.engine.routingTable) s.flow
            (.continueTask epid serial)).map (fun f => { s with flow := f, queue := q })
        | (.loaderData hotSwap cfg, q) => (load P s hotSwap cfg).map (afterLoad s hotSwap q))
    else none
  | .reset =>
    if s.flow.stack = [] then
      some ⟨resetEngine s.engine, { s.flow with
        busyBitMask := fun _ => 0xFF#8, mqueue := fun _ => [], pending := [] }, []⟩
    else none

end Steps

def Registered (cbHeader : ℕ → ℕ) (e : Engine) (epid cb : ℕ) : Prop :=
  ∃ pid < 256, getEpidFromPid pid = epid ∧ e.header pid = some (cbHeader cb)

instance (cbHeader : ℕ → ℕ) (e : Engine) (epid cb : ℕ) :
    Decidable (Registered cbHeader e epid cb) :=
  inferInstanceAs (Decidable (∃ pid < 256, _))

structure Guarded (Q : ℕ → ℕ → Prop) (f : Flow) : Prop where
  nodes : ∀ e, ∀ n ∈ f.mqueue e, Q e n.cb
  routes : ∀ pid token rs, Frame.dispatch pid token rs ∈ f.stack →
    ∀ r ∈ rs, Q (inputPort r).epid r.cb

variable {Q : ℕ → ℕ → Prop} {f g : Flow} {routes : ℕ → Option (List Route)}

lemma mem_dispatch_noteDispatch {pid : ℕ} {rs : List Route}
    (h : Frame.dispatch pid token rs ∈ (f.noteDispatch epid).stack) :
    Frame.dispatch pid token rs ∈ f.stack := by
  obtain ⟨fr, hfr, heq⟩ := mem_map.mp h
  cases fr with
  | dispatch pid' token' rs' => exact heq ▸ hfr
  | task => exact nomatch heq
  | direct r => exact nomatch heq
  | continued e k p d => exact nomatch heq

section

variable (h : Guarded Q f)
include h

lemma Guarded.update {l : List Node} (hqueue : g.mqueue = update f.mqueue epid l)
    (hl : ∀ n ∈ l, Q epid n.cb) (hstack : ∀ pid token rs, Frame.dispatch pid token rs ∈ g.stack →
      Frame.dispatch pid token rs ∈ f.stack) : Guarded Q g := by
  refine ⟨fun e n hn => ?_, fun pid token rs hframe => h.routes pid token rs (hstack _ _ _ hframe)⟩
  rw [hqueue] at hn
  by_cases he : e = epid
  · subst he
    rw [update_self] at hn
    exact hl n hn
  · rw [update_of_ne he] at hn
    exact h.nodes e n hn

lemma Guarded.setStack (hqueue : g.mqueue = f.mqueue)
    (hstack : ∀ pid token rs, Frame.dispatch pid token rs ∈ g.stack →
      Frame.dispatch pid token rs ∈ f.stack) : Guarded Q g :=
  ⟨fun e n hn => h.nodes e n (hqueue ▸ hn),
    fun pid token rs hframe => h.routes pid token rs (hstack _ _ _ hframe)⟩

lemma Guarded.enqueue {r : Route}
    (hr : Q (inputPort r).epid r.cb) : Guarded Q (f.enqueue r token) := by
  refine h.update rfl ?_ (fun _ _ _ hframe => hframe)
  exact forall_mem_append.mpr ⟨h.nodes _, forall_mem_singleton.mpr hr⟩

lemma Guarded.setElementReady (hlinks : Links f) (epid posts : ℕ) :
    Guarded Q (f.setElementReady epid posts) := by
  unfold Flow.setElementReady
  split
  · exact h
  · rename_i hnone
    have hqueued := tokensPosted_eq_false.mp (Bool.eq_false_of_not_eq_true hnone)
    refine h.update rfl (fun n hn => ?_) (fun _ _ _ hframe => hframe)
    rcases (postTokens_posted hqueued (hlinks.linked epid).nodup).origin n hn with
      hn | ⟨m, hm, -, rfl⟩
    · exact h.nodes epid n hn
    · exact h.nodes epid m hm

lemma step_guarded {e : WiringTokens.Event} (hlinks : Links f)
    (hroutes : ∀ pid gid token, e = .dispatch pid gid token → ∀ rs, routes gid = some rs →
      ∀ r ∈ rs, Q (inputPort r).epid r.cb)
    (hstep : WiringTokens.step routes f e = some g) : Guarded Q g := by
  have hpop : ∀ {fr st}, f.stack = fr :: st → ∀ pid token rs, Frame.dispatch pid token rs ∈ st →
      Frame.dispatch pid token rs ∈ f.stack :=
    fun hstack _ _ _ hframe => hstack ▸ mem_cons_of_mem _ hframe
  have hnext : ∀ (sent : List (InputPort × ℕ)) {pid token r rs st},
      f.stack = .dispatch pid token (r :: rs) :: st → Q (inputPort r).epid r.cb ∧
        Guarded Q { f with dispatched := sent, stack := .dispatch pid token rs :: st } := by
    intro sent pid token r rs st hstack
    have hall := h.routes pid token (r :: rs) (hstack ▸ mem_cons_self)
    refine ⟨hall r mem_cons_self, h.nodes, fun pid' token' rs' hframe => ?_⟩
    rcases mem_cons.mp hframe with heq | hframe
    · cases heq
      exact fun r' hr' => hall r' (mem_cons_of_mem _ hr')
    · exact h.routes pid' token' rs' (hpop hstack _ _ _ hframe)
  have hremove : ∀ {epid serial : ℕ}, ∀ n ∈ removeToken serial (f.mqueue epid), Q epid n.cb :=
    fun n hn => h.nodes _ n (mem_removeToken.mp hn).1
  cases step_cases hstep with
  | task hstack => exact h.setStack rfl (fun _ _ _ hframe => nomatch mem_singleton.mp hframe)
  | continueTask hstack hpending hn =>
    refine h.update rfl (fun m hm => ?_) (fun _ _ _ hframe => nomatch mem_singleton.mp hframe)
    rcases mem_markHandled hm with ⟨hm, -⟩ | ⟨k, hk, -, rfl⟩
    · exact h.nodes _ m hm
    · exact h.nodes _ k hk
  | dispatch hrs =>
    refine ⟨h.nodes, fun pid' token' rs' hframe => ?_⟩
    rcases mem_cons.mp hframe with heq | hframe
    · cases heq
      exact hroutes _ _ _ rfl _ hrs
    · exact h.routes pid' token' rs' hframe
  | direct hstack hready =>
    refine (hnext f.dispatched hstack).2.setStack rfl (fun _ _ _ hframe => ?_)
    exact (mem_cons.mp hframe).resolve_left nofun
  | queued hstack hbusy =>
    obtain ⟨hr, hrest⟩ := hnext _ hstack
    exact hrest.enqueue hr
  | dropped hstack => exact (hnext _ hstack).2
  | @endDispatch _ _ _ st hstack =>
    have hlinks : Links { f with stack := st } :=
      hlinks.setStack (fun _ _ _ _ hframe => hstack ▸ mem_cons_of_mem _ hframe)
    have hrest : Guarded Q { f with stack := st } := h.setStack rfl (hpop hstack)
    exact (hrest.setElementReady hlinks _ _).setStack rfl
      (fun _ _ _ hframe => mem_dispatch_noteDispatch hframe)
  | taskEnds hstack => exact h.setStack rfl (hpop hstack)
  | directOk hstack => exact h.setStack rfl (hpop hstack)
  | directBusy hstack => exact h.setStack rfl (hpop hstack)
  | directError hstack =>
    refine h.setStack rfl (fun _ _ _ hframe => ?_)
    rw [hstack]
    exact mem_cons_of_mem _ (mem_cons_of_mem _ hframe)
  | continuedOk hstack => exact h.update rfl hremove (hpop hstack)
  | continuedBusy hstack => exact h.update rfl hremove (hpop hstack)
  | continuedError hstack => exact h.setStack rfl (hpop hstack)

end

lemma step_pending {e : WiringTokens.Event} (he : ∀ epid serial, e ≠ .continueTask epid serial)
    (hstep : WiringTokens.step routes f e = some g) : ∃ new, g.pending = f.pending ++ new := by
  cases step_cases hstep with
  | continueTask => exact absurd rfl (he _ _)
  | endDispatch hstack =>
    unfold Flow.setElementReady
    split
    · exact ⟨[], (append_nil _).symm⟩
    · exact ⟨_, rfl⟩
  | _ => exact ⟨[], (append_nil _).symm⟩

section Headers

variable {P : Platform} {e e' : Engine} {cfg : Config} {pid hdr : ℕ}

lemma deregisterEach_header {pids : List ℕ} (h : deregisterEach P e pids = some e')
    (hpid : pid ∉ pids) : e'.header pid = e.header pid := by
  induction pids generalizing e with
  | nil =>
    cases h
    rfl
  | cons q pids ih =>
    obtain ⟨e1, hfirst, hrest⟩ := bind_eq_some_iff.mp h
    obtain ⟨hd, -, rfl⟩ := map_eq_some_iff.mp hfirst
    obtain ⟨hq, hpids⟩ := not_or.mp (mt mem_cons.mpr hpid)
    exact (ih hrest hpids).trans (update_of_ne hq _ _)

lemma scanned_header {s s' : Scan} {row : Row} {ans : Answer}
    (h : WiringScan.Scanned P s row ans s') (hspawned : ans.spawned ≠ pid) :
    s'.engine.header pid = s.engine.header pid := by
  obtain ⟨_, _, _, hproc, _, _, _, heq⟩ := h.engine
  rw [heq]
  cases hproc with
  | found => rfl
  | spawned => exact update_of_ne (Ne.symm hspawned) _ _

lemma swap_header (h : swapConfiguration P e cfg = some (e', true))
    (hspawned : ∀ x ∈ cfg.rows, x.2.spawned ≠ pid) (hpid : pid ∉ unmarkedPids e') :
    e'.header pid = e.header pid := by
  obtain ⟨e1, e2, hswap, rfl⟩ := WiringElements.swapConfiguration_cases h
  have hpid : pid ∉ unmarkedPids e1 := by rwa [hswap.modules] at hpid
  refine (deregisterEach_header hswap.deregistered hpid).trans ?_
  rcases hswap.scanned with ⟨-, rfl⟩ | ⟨-, hinterpret⟩
  · rfl
  · obtain ⟨s, hscan, rfl⟩ := WiringScan.interpretWiringConfig_ok hinterpret
    exact WiringScan.scanRows_keeps (I := fun s => s.engine.header pid = e.header pid)
      (fun s x hx s1 hs hrow => (scanned_header hrow (hspawned x hx)).trans hs) hscan rfl

lemma loaderDataAvailable_swap (h : loaderDataAvailable P e true cfg = some (e', true)) :
    swapConfiguration P (allocatePages e cfg) cfg = some (e', true) := by
  obtain ⟨r, hr, heq⟩ := map_eq_some_iff.mp h
  rw [if_pos rfl, hotSwapConfiguration, WiringStatus.isGraphBusy_eq_false,
    if_neg Bool.false_ne_true] at hr
  split at heq
  · exact heq ▸ hr
  · cases heq

lemma allocatePages_header : (allocatePages e cfg).header = e.header := by
  unfold allocatePages
  split <;> rfl

end Headers

def Message.task? : Message → Option (ℕ × ℕ)
  | .continueTask epid serial => some (epid, serial)
  | .loaderData _ _ => none

def Message.swappedRows : Message → List (Row × Answer)
  | .loaderData true cfg => cfg.rows
  | _ => []

def tasks (q : List Message) : List (ℕ × ℕ) := q.filterMap Message.task?

variable {m : Message} {q q' : List Message}

lemma mem_tasks : (epid, serial) ∈ tasks q ↔ Message.continueTask epid serial ∈ q := by
  unfold tasks
  rw [mem_filterMap]
  constructor
  · rintro ⟨m, hm, htask⟩
    cases m with
    | continueTask e k =>
      cases htask
      exact hm
    | loaderData hotSwap cfg => exact nomatch htask
  · exact fun hm => ⟨_, hm, rfl⟩

lemma tasks_append (q q' : List Message) : tasks (q ++ q') = tasks q ++ tasks q' := filterMap_append

lemma tasks_byPriority : tasks (byPriority false q) = tasks q := by
  rw [byPriority, if_neg Bool.false_ne_true, tasks_append]
  induction q with
  | nil => rfl
  | cons m q ih =>
    cases m with
    | continueTask epid serial => exact congrArg ((epid, serial) :: ·) ih
    | loaderData hotSwap cfg => exact ih

lemma mqDequeue_eq_some (h : mqDequeue false q = some (m, q')) :
    byPriority false q = m :: q' := by
  unfold mqDequeue at h
  split at h
  · exact nomatch h
  · rename_i heq
    cases h
    exact heq

lemma mqDequeue_tasks (h : mqDequeue false q = some (m, q')) : tasks q = tasks (m :: q') := by
  rw [← tasks_byPriority, mqDequeue_eq_some h]

lemma tasks_eq_nil {cfg : Config}
    (h : mqDequeue false q = some (.loaderData hotSwap cfg, q')) : tasks q = [] := by
  have horder := mqDequeue_eq_some h
  rw [byPriority] at horder
  refine eq_nil_iff_forall_not_mem.mpr (fun x hx => ?_)
  have hhigh : Message.continueTask x.1 x.2 ∈ q.filter Message.isHighPriority :=
    mem_filter.mpr ⟨mem_tasks.mp hx, rfl⟩
  cases hfilter : q.filter Message.isHighPriority with
  | nil =>
    rw [hfilter] at hhigh
    exact absurd hhigh not_mem_nil
  | cons m l =>
    have hm : m ∈ q.filter Message.isHighPriority := hfilter ▸ mem_cons_self
    rw [hfilter] at horder
    obtain ⟨rfl, -⟩ := List.cons.inj horder
    exact nomatch (mem_filter.mp hm).2

section Runs

variable (P : Platform) (preemption : Bool) (cbHeader : ℕ → ℕ)

/-- Dispatched routes lead to elements that run, and the kernel spawns modules under free pids. -/
def Serves (s : System) : Event → Prop
  | .element (.dispatch _ gid _) =>
    (dispatchRoutes P s.engine.routingTable gid).elim True
      (fun rs => ∀ r ∈ rs, Registered cbHeader s.engine (inputPort r).epid r.cb)
  | .handle =>
    (mqDequeue preemption s.queue).elim True
      (fun x => ∀ y ∈ x.1.swappedRows, s.engine.header y.2.spawned = none)
  | _ => True

end Runs

structure Inv (cbHeader : ℕ → ℕ) (s : System) : Prop where
  links : Links s.flow
  guarded : Guarded (Registered cbHeader s.engine) s.flow
  queued : tasks s.queue = s.flow.pending

variable {P : Platform} {cbHeader : ℕ → ℕ} {s t : System}

lemma links_free (h : Links f) (hstack : f.stack = []) {mqueue : ℕ → List Node}
    (hfree : ∀ e, mqueue e = f.mqueue e ∨ mqueue e = [])
    (hspared : ∀ y ∈ f.pending, mqueue y.1 = f.mqueue y.1) (mask : ℕ → BitVec 8) :
    Links { f with busyBitMask := mask, mqueue := mqueue } := by
  have hno : ∀ {e k p d}, Frame.continued e k p d ∉ f.stack :=
    fun hframe => absurd (hstack ▸ hframe) not_mem_nil
  refine ⟨fun e => ?_, h.nodup⟩
  have hl := h.linked e
  rcases hfree e with hsame | hnil
  · exact hl.congr hsame le_rfl (fun _ => Iff.rfl) (fun _ _ d hframe => ⟨d, hframe⟩)
  · refine ⟨?_, ?_, fun k => ?_, fun _ _ _ hframe => absurd hframe hno⟩ <;> dsimp only <;> rw [hnil]
    · exact fun _ hn => absurd hn not_mem_nil
    · exact nodup_nil
    · refine iff_of_false (fun hk => ?_) (fun ⟨_, hn, _⟩ => absurd hn not_mem_nil)
      obtain ⟨n, hn, -⟩ := (hl.pending k).mp hk
      rw [← hspared _ hk, hnil] at hn
      exact absurd hn not_mem_nil

lemma mqueueAfterLoad_cases (f : Flow) (hotSwap : Bool) (r : Engine × Bool) (e : ℕ) :
    (mqueueAfterLoad f hotSwap r e = f.mqueue e ∧ hotSwap = true ∧ r.2 = true ∧
      ∀ pid ∈ unmarkedPids r.1, getEpidFromPid pid ≠ e) ∨ mqueueAfterLoad f hotSwap r e = [] := by
  unfold mqueueAfterLoad
  split
  · rename_i hswap
    unfold purgeTokens
    split
    · exact .inr rfl
    · rename_i hkept
      refine .inl ⟨rfl, hswap.1, hswap.2.2, fun pid hpid heq => hkept ?_⟩
      exact mem_map.mpr ⟨pid, hpid, heq⟩
  · exact .inr rfl

section

variable (h : Inv cbHeader s)
include h

lemma inv_load {cfg : Config} {r : Engine × Bool}
    (hstack : s.flow.stack = []) (hload : load P s hotSwap cfg = some r)
    (hfree : ∀ y ∈ (Message.loaderData hotSwap cfg).swappedRows, s.engine.header y.2.spawned = none)
    (hspared : ∀ y ∈ s.flow.pending, mqueueAfterLoad s.flow hotSwap r y.1 = s.flow.mqueue y.1)
    (hq : tasks s.queue = tasks q) : Inv cbHeader (afterLoad s hotSwap q r) := by
  refine ⟨?_, ⟨fun e n hn => ?_, fun pid token rs hframe => ?_⟩, hq.symm.trans h.queued⟩
  · refine links_free h.links hstack (fun e => ?_) hspared _
    exact (mqueueAfterLoad_cases s.flow hotSwap r e).imp (fun h => h.1) id
  · change n ∈ mqueueAfterLoad s.flow hotSwap r e at hn
    rcases mqueueAfterLoad_cases s.flow hotSwap r e with ⟨hsame, rfl, hok, hkept⟩ | hnil
    · rw [hsame] at hn
      obtain ⟨pid, hlt, hepid, hheader⟩ := h.guarded.nodes e n hn
      obtain ⟨e', ok⟩ := r
      cases hok
      have hspawned : ∀ x ∈ cfg.rows, x.2.spawned ≠ pid := by
        rintro x hx rfl
        exact nomatch (hfree x hx).symm.trans hheader
      have hpid : pid ∉ unmarkedPids e' := fun hmem => hkept pid hmem hepid
      refine ⟨pid, hlt, hepid, ?_⟩
      change e'.header pid = _
      rw [swap_header (loaderDataAvailable_swap hload) hspawned hpid, allocatePages_header]
      exact hheader
    · rw [hnil] at hn
      exact absurd hn not_mem_nil
  · change Frame.dispatch pid token rs ∈ s.flow.stack at hframe
    rw [hstack] at hframe
    exact absurd hframe not_mem_nil

lemma inv_element {e : WiringTokens.Event} (he : ∀ epid serial, e ≠ .continueTask epid serial)
    (hserves : Serves P false cbHeader s (.element e)) {f : Flow}
    (hstep : WiringTokens.step (dispatchRoutes P s.engine.routingTable) s.flow e = some f) :
    Inv cbHeader { s with
      flow := f
      queue := s.queue ++ (f.pending.drop s.flow.pending.length).map
        (fun x => .continueTask x.1 x.2) } := by
  refine ⟨step_links h.links hstep, step_guarded h.guarded h.links ?_ hstep, ?_⟩
  · rintro pid gid token rfl rs hrs
    dsimp only [Serves] at hserves
    rwa [hrs] at hserves
  · obtain ⟨new, hnew⟩ := step_pending he hstep
    have htasks : ∀ l : List (ℕ × ℕ), tasks (l.map (fun x => .continueTask x.1 x.2)) = l := by
      intro l
      unfold tasks
      rw [filterMap_map]
      exact filterMap_some
    rw [tasks_append, htasks, h.queued, hnew, drop_left]

lemma inv_continueTask {f : Flow} (hq : tasks s.queue = (epid, serial) :: tasks q)
    (hstep : WiringTokens.step (dispatchRoutes P s.engine.routingTable) s.flow
      (.continueTask epid serial) = some f) : Inv cbHeader { s with flow := f, queue := q } := by
  refine ⟨step_links h.links hstep, step_guarded h.guarded h.links ?_ hstep, ?_⟩
  · exact fun _ _ _ heq => nomatch heq
  · cases step_cases hstep with
    | continueTask => rw [← h.queued, hq, erase_cons_head]

lemma step_inv {e : Event} (hserves : Serves P false cbHeader s e)
    (hstep : step P false s e = some t) : Inv cbHeader t := by
  cases e with
  | element e =>
    cases e with
    | continueTask epid serial => exact nomatch hstep
    | _ =>
      obtain ⟨f, hf, rfl⟩ := map_eq_some_iff.mp hstep
      refine inv_element h ?_ hserves hf
      exact fun _ _ heq => nomatch heq
  | post hotSwap cfg =>
    cases hstep
    refine ⟨h.links, h.guarded, ?_⟩
    rw [tasks_append, h.queued]
    exact append_nil _
  | handle =>
    dsimp only [step] at hstep
    split at hstep
    · rename_i hstack
      obtain ⟨⟨m, q⟩, hdequeue, hstep⟩ := bind_eq_some_iff.mp hstep
      have htasks := mqDequeue_tasks hdequeue
      cases m with
      | continueTask epid serial =>
        obtain ⟨f, hf, rfl⟩ := map_eq_some_iff.mp hstep
        exact inv_continueTask h htasks hf
      | loaderData hotSwap cfg =>
        obtain ⟨r, hload, rfl⟩ := map_eq_some_iff.mp hstep
        dsimp only [Serves] at hserves
        rw [hdequeue] at hserves
        refine inv_load h hstack hload hserves ?_ htasks
        rw [← h.queued, tasks_eq_nil hdequeue]
        exact fun _ hy => absurd hy not_mem_nil
    · exact nomatch hstep
  | reset =>
    dsimp only [step] at hstep
    split at hstep
    · rename_i hstack
      cases hstep
      refine ⟨⟨fun e => ⟨?_, nodup_nil, fun k => ?_, ?_⟩, nodup_nil⟩, ⟨?_, ?_⟩, rfl⟩
      · exact fun _ hn => absurd hn not_mem_nil
      · exact iff_of_false not_mem_nil (fun ⟨_, hn, _⟩ => absurd hn not_mem_nil)
      · exact fun k p d hframe => absurd (hstack ▸ hframe) not_mem_nil
      · exact fun _ _ hn => absurd hn not_mem_nil
      · exact fun _ _ _ hframe => absurd (hstack ▸ hframe) not_mem_nil
    · exact nomatch hstep

end

/-- Without `SOS_USE_PREEMPTION` a continue task that waits in the queue of the kernel points to a
token that is linked in the queue of its `epid`, for a port of an element that runs. -/
theorem continue_tasks_never_dangle (P : Platform) (cbHeader : ℕ → ℕ)
    (routingTable elementsTable : ByteMemory.Mem) (gid : ℕ → ℕ → ℕ) (es : List Event) (s : System)
    (hrun : runTrace (step P false) (start routingTable elementsTable gid) es = some s)
    (hserves : ValidTrace (step P false) (Serves P false cbHeader)
      (start routingTable elementsTable gid) es) :
    ∀ epid serial, Message.continueTask epid serial ∈ s.queue →
      ∃ n ∈ s.flow.mqueue epid, n.serial = serial ∧ n.status = .posted ∧
        Registered cbHeader s.engine epid n.cb := by
  have hinitial : Inv cbHeader (start routingTable elementsTable gid) :=
    ⟨links_initial, ⟨fun _ _ hn => absurd hn not_mem_nil,
      fun _ _ _ hframe => absurd hframe not_mem_nil⟩, rfl⟩
  have hinv : Inv cbHeader s := run_invariant_of_some
    (fun _ _ _ h hlegal hstep => step_inv h hlegal hstep) hinitial hserves hrun
  intro epid serial htask
  have hpending : (epid, serial) ∈ s.flow.pending := hinv.queued ▸ mem_tasks.mpr htask
  obtain ⟨n, hn, hserial, hstatus⟩ := ((hinv.links.linked epid).pending serial).mp hpending
  exact ⟨n, hn, hserial, hstatus, hinv.guarded.nodes epid n hn⟩

instance (P : Platform) (preemption : Bool) (cbHeader : ℕ → ℕ) (s : System) (e : Event) :
    Decidable (Serves P preemption cbHeader s e) := by
  unfold Serves
  split <;> infer_instance

/-- The graph of two elements, in which the second starts an operation for the first token. The
second token waits; the same configuration arrives again, and then the operation ends. -/
def arrivals : List Event :=
  [.post false (configOf (star 1)), .handle] ++
    [.task, .dispatch 20 0 1, .route true, .ret .busy, .endDispatch 0, .ret .ok,
      .task, .dispatch 20 0 2, .route true, .endDispatch 0, .ret .ok].map Event.element ++
    [.post false (configOf (star 1))] ++
    [.task, .dispatch 21 255 0, .endDispatch 1, .ret .ok].map Event.element

def idle : System := start (fun _ => 0) (fun _ => 0) (fun _ _ => 255)

theorem continue_tasks_never_dangle_sample :
    ∃ s, runTrace (step (board 1) false) idle arrivals = some s ∧
      Message.continueTask 5 0 ∈ s.queue ∧
      ∃ n ∈ s.flow.mqueue 5, n.serial = 0 ∧ n.status = .posted ∧
        Registered (fun _ => 107) s.engine 5 n.cb := by
  obtain ⟨s, hrun, htask⟩ : ∃ s, runTrace (step (board 1) false) idle arrivals =
      some s ∧ (5, 0) ∈ tasks s.queue := by decide +kernel
  have htask := mem_tasks.mp htask
  exact ⟨s, hrun, htask, continue_tasks_never_dangle (board 1) (fun _ => 107)
    (fun _ => 0) (fun _ => 0) (fun _ _ => 255) arrivals s hrun (by decide +kernel) 5 0 htask⟩

/-- With preemption, and one priority for the engine and the elements, the configuration is handled
first. It frees the token, and the continue task still points to it. -/
theorem configuration_frees_posted_token :
    ∃ s, runTrace (step (board 1) true) idle (arrivals ++ [.handle]) = some s ∧
      ValidTrace (step (board 1) true)
        (Serves (board 1) true (fun _ => 107)) idle (arrivals ++ [.handle]) ∧
      Message.continueTask 5 0 ∈ s.queue ∧ s.flow.mqueue 5 = [] ∧
      (step (board 1) true s .handle).isNone = true := by
  obtain ⟨s, hrun, htask, hqueue, hnone⟩ : ∃ s,
      runTrace (step (board 1) true) idle (arrivals ++ [.handle]) = some s ∧
      (5, 0) ∈ tasks s.queue ∧ s.flow.mqueue 5 = [] ∧
      (step (board 1) true s .handle).isNone = true := by decide +kernel
  exact ⟨s, hrun, by decide +kernel, mem_tasks.mp htask, hqueue, hnone⟩

end WiringContinue
