import SosKernel.KernelState

/-! # Dynamic function links, `fntable.c`

A module's state starts with one control block pointer per subscribed function. It
points at the module's own default block or at a block of the provider. Links are
made when the subscriber is registered, when the provider is, and at run time. -/
namespace FunctionTable

open SlabPools KernelState

variable (img : Image)

def functBase (h : ℕ) : ℕ := img.getHeaderMember h img.offsetofFunct

def cbAt (funct i : ℕ) : ℕ := img.getHeaderMember funct (i * img.sizeofFuncCb)

/-- The loop of `fntable_get_prov_cb` over `n` blocks from the `i`-th on; `0` is no block. -/
def provCbFrom (funct fid : ℕ) : ℕ → ℕ → ℕ
  | 0, _ => 0
  | n + 1, i =>
    if (img.funcCb (cbAt img funct i)).fid = fid then cbAt img funct i
    else provCbFrom funct fid n (i + 1)

def getProvCb (funct fid start stop : ℕ) : ℕ := provCbFrom img funct fid (stop - start) start

def provEnd (hd : ModHeader) : ℕ := (hd.numSubFunc + hd.numProvFunc) % 256

def setCb (k : Kernel) (m : Ptr) (i cb : ℕ) : Kernel :=
  { k with cbInRam := Function.update k.cbInRam m (Function.update (k.cbInRam m) i cb) }

lemma setCb_apply (k : Kernel) (m q : Ptr) (i j cb : ℕ) :
    (setCb k m i cb).cbInRam q j = if q = m ∧ j = i then cb else k.cbInRam q j := by
  by_cases hq : q = m
  · subst hq
    by_cases hj : j = i <;> simp [setCb, hj]
  · simp [setCb, hq]

def providedCb (pubH fid : ℕ) : ℕ :=
  getProvCb img (functBase img pubH) fid (img.header pubH).numSubFunc (provEnd (img.header pubH))

/-- `fntable_real_subscribe`, with its effect on the lookup cache. -/
def fntableRealSubscribe (k : Kernel) (subH pubPid fid tableIndex : ℕ) : Option (Kernel × ℕ) :=
  (kerGetModule img k pubPid).map (fun r =>
    match r.2 with
    | none => (r.1, 0)
    | some mod =>
      let pubCb := providedCb img (r.1.handles mod).header fid
      if pubCb = 0 then (r.1, 0)
      else if (img.funcCb pubCb).proto = (img.funct subH tableIndex).proto then (r.1, pubCb)
      else (r.1, 0))

/-- What `fntable_link_subscribed_functions` finds for slot `i`. -/
def subscribedCb (k : Kernel) (m : Ptr) (i : ℕ) : Option (Kernel × ℕ) :=
  let hd := (k.handles m).header
  let sub := img.funct hd i
  -- a function of the module itself is taken without a look at its prototype
  if sub.pid = (k.handles m).pid then some (k, providedCb img hd sub.fid)
  else if sub.pid ≠ runtimePid then fntableRealSubscribe img k hd sub.pid sub.fid i
  else some (k, 0)

def linkSubscribedFrom (m : Ptr) : ℕ → ℕ → Kernel → Option Kernel
  | 0, _, k => some k
  | n + 1, i, k =>
    (subscribedCb img k m i).bind (fun r =>
      linkSubscribedFrom m n (i + 1)
        (setCb r.1 m i (if r.2 ≠ 0 then r.2 else img.functAt (k.handles m).header i)))

def fntableLinkSubscribedFunctions (k : Kernel) (m : Ptr) : Option Kernel :=
  linkSubscribedFrom img m (img.header (k.handles m).header).numSubFunc 0 k

/-- The body of `fntable_link_provided_functions` for slot `i` of module `h`. -/
def relinkSlot (funct start stop : ℕ) (link : Bool) (h : Ptr) (k : Kernel) (i : ℕ) : Kernel :=
  let pubPid := (img.funcCb (cbAt img funct start)).pid
  let hd := (k.handles h).header
  let sub := img.funct hd i
  if sub.pid = pubPid then
    let pubCb := getProvCb img funct sub.fid start stop
    if pubCb = 0 then k
    else if link then
      if (img.funcCb pubCb).proto = sub.proto then setCb k h i pubCb else k
    else setCb k h i (img.functAt hd i)
  else if sub.pid = runtimePid ∧ link = false then
    -- the source compares plain addresses, without the platform's address unit
    if (List.range' start (stop - start)).any
        (fun j => funct + j * img.sizeofFuncCb = k.cbInRam h i) then
      let k' := setCb k h i (img.functAt hd i)
      { k' with posts := k'.posts ++ [⟨(k.handles h).pid, i⟩] }
    else k
  else k

def relinkModule (funct start stop : ℕ) (link : Bool) (k : Kernel) (h : Ptr) : Kernel :=
  (List.range (img.header (k.handles h).header).numSubFunc).foldl
    (relinkSlot img funct start stop link h) k

section

variable (k : Kernel)

def fntableLinkProvidedFunctions (funct start stop : ℕ) (link : Bool) :
    Option Kernel :=
  (allModules img k).map (fun mods => mods.foldl (relinkModule img funct start stop link) k)

def relinkHeader (h : ℕ) (link : Bool) : Option Kernel :=
  if (img.header h).numProvFunc = 0 then some k
  else fntableLinkProvidedFunctions img k (functBase img h) (img.header h).numSubFunc
    (provEnd (img.header h)) link

def fntableLink (m : Ptr) : Option Kernel :=
  (fntableLinkSubscribedFunctions img k m).bind
    (fun k' => relinkHeader img k' (k'.handles m).header true)

def providerPosts (m : Ptr) : List Post :=
  ((List.range (img.header (k.handles m).header).numSubFunc).filter (fun i =>
    let pubPid := (img.funcCb (k.cbInRam m i)).pid
    pubPid ≠ (k.handles m).pid ∧ pubPid ≠ runtimePid)).map
    (fun i => ⟨(img.funcCb (k.cbInRam m i)).pid, (k.handles m).pid⟩)

def fntableRemoveAll (m : Ptr) : Option Kernel :=
  if (img.header (k.handles m).header).numProvFunc = 0 then some k
  else (relinkHeader img k (k.handles m).header false).map
    (fun k' => { k' with posts := k'.posts ++ providerPosts img k' m })

/-- `ker_fntable_subscribe`; `none` is `ker_panic`. -/
def kerFntableSubscribe (subPid pubPid fid tableIndex : ℕ) :
    Option (Kernel × ℤ) :=
  (kerGetModule img k subPid).bind (fun r =>
    match r.2 with
    | none => none
    | some mod =>
      let subH := (r.1.handles mod).header
      (fntableRealSubscribe img r.1 subH pubPid fid tableIndex).map (fun u =>
        (setCb u.1 mod tableIndex (if u.2 ≠ 0 then u.2 else img.functAt subH tableIndex), 0)))

end

end FunctionTable
