import GpuKvSeal.Host.Pipeline

/-!
# The calls of the interface

What each entry point does to the handles and the allocations, and what it
enqueues, from any state in which the allocations are accounted for and under
any driver.
-/

namespace GpuKvSeal.Host

open Device (Ptr Launch blockCount u64 advance HEADER_LEN FRAME_OVERHEAD
  HOST_SBOX expandAes128Key)
open BigEndian (Byte)
open TracedState.Traced (Ensures)

/-! ## Handles -/

/-- A later state of a handle: the tables stay, the workspace may have grown. -/
structure Extends (h h' : KeyHandle) : Prop where
  device : h'.device = h.device
  roundKeys : h'.dRoundKeys = h.dRoundKeys
  hPow2 : h'.dHPow2 = h.dHPow2
  capacity : h.nodeCapacity ≤ h'.nodeCapacity

theorem Extends.refl (h : KeyHandle) : Extends h h := ⟨rfl, rfl, rfl, le_refl _⟩

theorem Extends.trans {h h' h'' : KeyHandle} (first : Extends h h')
    (second : Extends h' h'') : Extends h h'' :=
  ⟨second.device.trans first.device, second.roundKeys.trans first.roundKeys,
    second.hPow2.trans first.hPow2, first.capacity.trans second.capacity⟩

/-- Only the handle of one key may differ. -/
structure Updated (s s' : HostState) (key : Ptr) (h' : KeyHandle) : Prop where
  live : s'.handles.lookup key = some h'
  others : ∀ other, other ≠ key →
    s'.handles.lookup other = s.handles.lookup other

theorem Updated.of_same {s s' : HostState} {key : Ptr} {h : KeyHandle}
    (live : s.handles.lookup key = some h) (same : s'.handles = s.handles) :
    Updated s s' key h where
  live := by
    rw [same]
    exact live
  others := by
    intro other _
    rw [same]

theorem Updated.of_insert {s s' : HostState} {key : Ptr} {h' : KeyHandle}
    (inserted : s'.handles = s.handles.insert key h') :
    Updated s s' key h' where
  live := by
    rw [inserted, AList.lookup_insert]
  others := by
    intro other different
    rw [inserted, AList.lookup_insert_ne different]

theorem requiredNodes_pos (plaintextLen : Nat) : 0 < requiredNodes plaintextLen := by
  show 0 < (blockCount plaintextLen + 1 + 64 - 1) / 64
  omega

/-! ## Reserve, seal and open -/

/-- The common frame of the three operations on a handle. -/
def guarded (key : Ptr) (plaintextLen : Nat) (body : Cuda ReturnCode) :
    Cuda ReturnCode := do
  let h ← readHandle key
  withDevice h.device do
    let erc ← ensureWorkspace key plaintextLen
    if erc ≠ .ok then pure erc else body

/-- The number of the call that is the first launch of an operation, when no
call before it fails. -/
def firstLaunch (s : HostState) (h : KeyHandle) (required : Nat) : Nat :=
  s.calls + guardCalls s.device h.device + growthCalls h required

/-- How an operation on a handle may end: the workspace could not grow, or the
body ran with a workspace that is large enough. -/
inductive GuardedResult (driver : Driver) (s s' : HostState) (key : Ptr)
    (h : KeyHandle) (required : Nat)
    (body : HostState → KeyHandle → ReturnCode → HostState → List Event → Prop) :
    ReturnCode → List Event → Prop
  | refused {events : List Event} (small : h.nodeCapacity < required)
      (handles : s'.handles = s.handles) (error : s'.lastError ≠ cudaSuccess)
      (cause : ¬ driver.Succeeds {.malloc}) (bookkeeping : Bookkeeping events) :
      GuardedResult driver s s' key h required body .errAlloc events
  | ran {rc : ReturnCode} (s₁ s₂ : HostState) (h' : KeyHandle)
      (before after : List Event) (extends_ : Extends h h')
      (fits : required ≤ h'.nodeCapacity)
      (unchanged : required ≤ h.nodeCapacity → h' = h ∧ before = [])
      (updated : Updated s s' key h') (live : s₁.handles.lookup key = some h')
      (bookkeeping : Bookkeeping before) (done : body s₁ h' rc s₂ after)
      (sticky₁ : Sticky s s₁) (sticky₂ : Sticky s₂ s')
      (placed : s₁.lastError = cudaSuccess → s₁.device = h.device)
      (clean : driver.Succeeds {.getDevice, .setDevice, .free} →
        s₁.lastError = s.lastError ∧ s₁.device = h.device ∧
          s'.lastError = s₂.lastError)
      (counted : driver.Succeeds {.getDevice} →
        s₁.calls = firstLaunch s h required) :
      GuardedResult driver s s' key h required body rc (before ++ after)

/-- What every operation on a handle keeps. -/
structure GuardedEffect (driver : Driver) (s s' : HostState) (key : Ptr)
    (h : KeyHandle) (leaked : List Block) (required : Nat)
    (body : HostState → KeyHandle → ReturnCode → HostState → List Event → Prop)
    (rc : ReturnCode) (events : List Event) : Prop where
  result : GuardedResult driver s s' key h required body rc events
  accounted : ∃ lost, Accounted s' (lost ++ leaked) ∧
    (driver.Succeeds {.free} → lost = [])
  outs : s'.outs = s.outs

/-- Switching back the device at the end changes nothing of this. -/
theorem GuardedEffect.switchBack {driver : Driver} {s s' s'' : HostState}
    {key : Ptr} {h : KeyHandle} {leaked : List Block} {required : Nat}
    {body : HostState → KeyHandle → ReturnCode → HostState → List Event → Prop}
    {rc : ReturnCode} {events : List Event}
    (effect : GuardedEffect driver s s' key h leaked required body rc events)
    (heap : SameHeap s' s'') (sticky : Sticky s' s'')
    (clean : driver.Succeeds {.getDevice, .setDevice} →
      s''.lastError = s'.lastError) :
    GuardedEffect driver s s'' key h leaked required body rc events where
  result := by
    cases effect.result with
    | refused small handles error cause bookkeeping =>
        exact .refused small (heap.handles.trans handles)
          (fun clear => error (sticky clear)) cause bookkeeping
    | ran s₁ s₂ h' before after extends_ fits unchanged updated live bookkeeping
        done sticky₁ sticky₂ placed clean' counted =>
        refine .ran s₁ s₂ h' before after extends_ fits unchanged
          ⟨?_, fun other different => ?_⟩ live bookkeeping done sticky₁
          (fun clear => sticky₂ (sticky clear)) placed (fun reliable => ?_) counted
        · rw [heap.handles]
          exact updated.live
        · rw [heap.handles]
          exact updated.others other different
        · obtain ⟨error₁, device₁, error₂⟩ := clean' reliable
          refine ⟨error₁, device₁, (clean fun kind member => ?_).trans error₂⟩
          rcases member with rfl | rfl
          · exact reliable .getDevice (Or.inl rfl)
          · exact reliable .setDevice (Or.inr (Or.inl rfl))
  accounted := by
    obtain ⟨lost, accounted, exact_⟩ := effect.accounted
    exact ⟨lost, accounted.sameHeap heap, exact_⟩
  outs := heap.outs.trans effect.outs

theorem guarded_spec (driver : Driver) {s : HostState} {key : Ptr}
    {h : KeyHandle} {leaked : List Block} (accounted : Accounted s leaked)
    (live : s.handles.lookup key = some h) (plaintextLen : Nat)
    (body : Cuda ReturnCode)
    {post : HostState → KeyHandle → ReturnCode → HostState → List Event → Prop}
    (bodySpec : ∀ s₁ h', s₁.handles.lookup key = some h' →
      requiredNodes plaintextLen ≤ h'.nodeCapacity →
      body.Ensures driver s₁ fun rc s₂ events =>
        Quiet s₁ s₂ ∧ post s₁ h' rc s₂ events) :
    (guarded key plaintextLen body).Ensures driver s fun rc s' events =>
      GuardedEffect driver s s' key h leaked (requiredNodes plaintextLen) post rc
        events := by
  refine Ensures.bind_eq (readHandle_live driver live) ?_
  refine (withDevice_spec driver s h.device _ fun s₀ heap₀ sticky₀ placed₀
    clean₀ counted₀ => ?_).mono fun rc s'' events ⟨s', effect, heap, sticky, clean⟩ =>
      GuardedEffect.switchBack effect heap sticky clean
  have live₀ : s₀.handles.lookup key = some h := by
    rw [heap₀.handles]
    exact live
  have narrow : driver.Succeeds {.getDevice, .setDevice, .free} →
      driver.Succeeds {.getDevice, .setDevice} ∧ driver.Succeeds {.free} := by
    intro reliable
    refine ⟨fun kind member => ?_, fun kind member => ?_⟩
    · rcases member with rfl | rfl
      · exact reliable .getDevice (Or.inl rfl)
      · exact reliable .setDevice (Or.inr (Or.inl rfl))
    · exact reliable kind (Or.inr (Or.inr member))
  refine (ensureWorkspace_spec driver (accounted.sameHeap heap₀) live₀
    plaintextLen).bind ?_
  rintro erc s₁ before workspace
  obtain ⟨lost, accounted₁, exact₁⟩ := workspace.accounted
  have outs₁ : s₁.outs = s.outs := workspace.outs.trans heap₀.outs
  have sticky₁ : Sticky s s₁ := fun clear => sticky₀ (workspace.sticky clear)
  -- With a workspace in place the body runs and the accounts stay as they are.
  have run : ∀ (h' : KeyHandle), Extends h h' →
      requiredNodes plaintextLen ≤ h'.nodeCapacity →
      (requiredNodes plaintextLen ≤ h.nodeCapacity → h' = h ∧ before = []) →
      Updated s s₁ key h' →
      (driver.Succeeds {.free} → s₁.lastError = s₀.lastError) → erc = .ok →
      body.Ensures driver s₁ fun rc s' events =>
        GuardedEffect driver s s' key h leaked (requiredNodes plaintextLen) post
          rc (before ++ events) := by
    intro h' extends_ fits unchanged updated error₁ ok
    refine (bodySpec s₁ h' updated.live fits).mono ?_
    rintro rc s₂ events ⟨quiet, done⟩
    refine ⟨.ran s₁ s₂ h' before events extends_ fits unchanged
      ⟨?_, fun other different => ?_⟩ updated.live workspace.events done sticky₁
      id (fun clear => ?_) (fun reliable => ?_) fun reliable => ?_,
      ⟨lost, accounted₁.sameHeap quiet.sameHeap, exact₁⟩,
      quiet.outs.trans outs₁⟩
    · rw [quiet.handles]
      exact updated.live
    · rw [quiet.handles]
      exact updated.others other different
    · exact workspace.device.trans (placed₀ (workspace.sticky clear))
    · obtain ⟨device, free⟩ := narrow reliable
      obtain ⟨error₀, device₀⟩ := clean₀ device
      exact ⟨(error₁ free).trans error₀, workspace.device.trans device₀, rfl⟩
    · rw [workspace.calls ok, counted₀ reliable, firstLaunch]
  cases workspace.result with
  | enough fits same =>
      subst same
      rw [if_neg (by simp)]
      exact run h (Extends.refl h) fits (fun _ => ⟨rfl, rfl⟩)
        (Updated.of_same live heap₀.handles) (fun _ => rfl) rfl
  | grown a b small distinct handles lastError =>
      rw [if_neg (by simp)]
      let h' : KeyHandle := { h with
        dNodesA := a
        dNodesB := b
        nodeCapacity := requiredNodes plaintextLen }
      have handles' : s₁.handles = s.handles.insert key h' := by
        rw [handles, heap₀.handles]
      exact run h' ⟨rfl, rfl, rfl, small.le⟩ (le_refl _)
        (fun fits => absurd fits (by omega)) (Updated.of_insert handles') lastError
        rfl
  | failed small handles lastError refused =>
      rw [if_pos (by simp)]
      refine Ensures.pure ⟨?_, ⟨lost, accounted₁, exact₁⟩, outs₁⟩
      rw [List.append_nil]
      exact .refused small (handles.trans heap₀.handles) lastError refused
        workspace.events

/-! ### The three entry points -/

theorem lmcacheGpuAes128gcmReserve_eq (key : Ptr) (maxPlaintextLen : Nat)
    (nonnull : key ≠ 0) :
    lmcacheGpuAes128gcmReserve key maxPlaintextLen =
      guarded key maxPlaintextLen (pure .ok) := by
  have collapse : (do
      let erc ← ensureWorkspace key maxPlaintextLen
      if erc ≠ .ok then pure erc else pure .ok) =
        ensureWorkspace key maxPlaintextLen := by
    funext driver s
    simp only [TracedState.Traced.bind_apply]
    by_cases ok : (ensureWorkspace key maxPlaintextLen driver s).value = .ok
    · rw [if_neg (by simpa using ok)]
      simp [← ok]
    · rw [if_pos ok]
      simp
  rw [lmcacheGpuAes128gcmReserve, if_neg nonnull, guarded]
  simp only [collapse]

/-- With a large enough workspace `reserve` has nothing left to do. -/
def ReserveBody : HostState → KeyHandle → ReturnCode → HostState → List Event →
    Prop :=
  fun _ _ rc _ events => rc = .ok ∧ events = []

theorem lmcacheGpuAes128gcmReserve_spec (driver : Driver) {s : HostState}
    {key : Ptr} {h : KeyHandle} {leaked : List Block}
    (accounted : Accounted s leaked) (live : s.handles.lookup key = some h)
    (nonnull : key ≠ 0) (maxPlaintextLen : Nat) :
    (lmcacheGpuAes128gcmReserve key maxPlaintextLen).Ensures driver s
      fun rc s' events => GuardedEffect driver s s' key h leaked
        (requiredNodes maxPlaintextLen) ReserveBody rc events := by
  rw [lmcacheGpuAes128gcmReserve_eq key maxPlaintextLen nonnull]
  exact guarded_spec driver accounted live maxPlaintextLen _ fun s₁ _ _ _ =>
    Ensures.pure ⟨Quiet.refl s₁, rfl, rfl⟩

/-- The arguments with which a seal gets past its checks. -/
structure SealAdmits (key src : Ptr) (plaintextLen : Nat) (dst : Ptr)
    (dstCapacity : Nat) : Prop where
  key : key ≠ 0
  src : src ≠ 0
  dst : dst ≠ 0
  frame : lmcacheGpuAesgcmFrameSize plaintextLen ≤ dstCapacity
  blocks : blockCount plaintextLen ≤ 0xfffffffe

theorem lmcacheGpuAes128gcmSealAsync_eq {key src dst : Ptr}
    {plaintextLen dstCapacity : Nat}
    (admits : SealAdmits key src plaintextLen dst dstCapacity)
    (iv : Vector Byte 12) (stream : Ptr) :
    lmcacheGpuAes128gcmSealAsync key src plaintextLen dst dstCapacity (some iv)
        stream =
      guarded key plaintextLen (enqueueSeal key src plaintextLen dst iv stream) := by
  have pointers : ¬ (key = 0 ∨ src = 0 ∨ dst = 0) := by
    rintro (null | null | null)
    · exact admits.key null
    · exact admits.src null
    · exact admits.dst null
  have frame := admits.frame
  have blocks := admits.blocks
  simp only [lmcacheGpuAes128gcmSealAsync, if_neg pointers]
  rw [if_neg (by omega), if_neg (by omega)]
  rfl

/-- Any other arguments are refused before anything happens. -/
theorem lmcacheGpuAes128gcmSealAsync_refused {key src dst : Ptr}
    {plaintextLen dstCapacity : Nat}
    (refused : ¬ SealAdmits key src plaintextLen dst dstCapacity)
    (iv : Option (Vector Byte 12)) (stream : Ptr) :
    lmcacheGpuAes128gcmSealAsync key src plaintextLen dst dstCapacity iv stream =
      pure .errArgument := by
  unfold lmcacheGpuAes128gcmSealAsync
  cases iv with
  | none => rfl
  | some iv =>
      dsimp only
      split
      · rfl
      split
      · rfl
      split
      · rfl
      · rename_i pointers frame blocks
        refine absurd ⟨fun null => pointers (Or.inl null),
          fun null => pointers (Or.inr (Or.inl null)),
          fun null => pointers (Or.inr (Or.inr null)), ?_, ?_⟩ refused
        · omega
        · omega

/-- What a seal enqueues once the workspace is large enough. -/
def SealBody (driver : Driver) (stream src : Ptr) (plaintextLen : Nat)
    (dst : Ptr) (iv : Vector Byte 12) :
    HostState → KeyHandle → ReturnCode → HostState → List Event → Prop :=
  fun s₁ h' rc s₂ events =>
    Pipe driver s₁ s₂ stream
      (sealLaunches s₁.device h' src plaintextLen dst iv) events ∧
    rc = cudaRc s₂.lastError ∧
    (s₁.lastError = cudaSuccess ∨
      ∃ part, part.Sublist (sealFront s₁.device h' src plaintextLen dst iv) ∧
        events = launchEvents stream part)

theorem lmcacheGpuAes128gcmSealAsync_spec (driver : Driver) {s : HostState}
    {key src dst : Ptr} {plaintextLen dstCapacity : Nat} {h : KeyHandle}
    {leaked : List Block} (accounted : Accounted s leaked)
    (live : s.handles.lookup key = some h)
    (admits : SealAdmits key src plaintextLen dst dstCapacity)
    (iv : Vector Byte 12) (stream : Ptr) :
    (lmcacheGpuAes128gcmSealAsync key src plaintextLen dst dstCapacity (some iv)
      stream).Ensures driver s fun rc s' events =>
        GuardedEffect driver s s' key h leaked (requiredNodes plaintextLen)
          (SealBody driver stream src plaintextLen dst iv) rc events := by
  rw [lmcacheGpuAes128gcmSealAsync_eq admits]
  exact guarded_spec driver accounted live plaintextLen _ fun s₁ h' live₁ fits =>
    (enqueueSeal_spec driver stream live₁ fits src dst iv).mono
      fun rc s₂ events result => ⟨result.1.quiet, result⟩

/-- The arguments with which an open gets past its checks. -/
structure OpenAdmits (key src : Ptr) (frameLen : Nat) (dst : Ptr)
    (plaintextLen : Nat) (authOk : Ptr) : Prop where
  key : key ≠ 0
  src : src ≠ 0
  dst : dst ≠ 0
  authOk : authOk ≠ 0
  frame : lmcacheGpuAesgcmFrameSize plaintextLen ≤ frameLen

theorem lmcacheGpuAes128gcmOpenAsync_eq {key src dst authOk : Ptr}
    {plaintextLen frameLen : Nat}
    (admits : OpenAdmits key src frameLen dst plaintextLen authOk)
    (stream : Ptr) :
    lmcacheGpuAes128gcmOpenAsync key src frameLen dst plaintextLen authOk
        stream =
      guarded key plaintextLen
        (enqueueOpen key src dst plaintextLen authOk stream) := by
  have pointers : ¬ (key = 0 ∨ src = 0 ∨ dst = 0 ∨ authOk = 0) := by
    rintro (null | null | null | null)
    · exact admits.key null
    · exact admits.src null
    · exact admits.dst null
    · exact admits.authOk null
  have frame := admits.frame
  rw [lmcacheGpuAes128gcmOpenAsync, if_neg pointers, if_neg (by omega)]
  rfl

theorem lmcacheGpuAes128gcmOpenAsync_refused {key src dst authOk : Ptr}
    {plaintextLen frameLen : Nat}
    (refused : ¬ OpenAdmits key src frameLen dst plaintextLen authOk)
    (stream : Ptr) :
    lmcacheGpuAes128gcmOpenAsync key src frameLen dst plaintextLen authOk
      stream = pure .errArgument := by
  unfold lmcacheGpuAes128gcmOpenAsync
  split
  · rfl
  split
  · rfl
  · rename_i pointers frame
    refine absurd ⟨fun null => pointers (Or.inl null),
      fun null => pointers (Or.inr (Or.inl null)),
      fun null => pointers (Or.inr (Or.inr (Or.inl null))),
      fun null => pointers (Or.inr (Or.inr (Or.inr null))), ?_⟩ refused
    omega

/-- What an open enqueues once the workspace is large enough. -/
def OpenBody (driver : Driver) (stream src dst : Ptr) (plaintextLen : Nat)
    (authOk : Ptr) :
    HostState → KeyHandle → ReturnCode → HostState → List Event → Prop :=
  fun s₁ h' rc s₂ events =>
    Pipe driver s₁ s₂ stream
      (openLaunches s₁.device h' src dst plaintextLen authOk) events ∧
    rc = cudaRc s₂.lastError ∧
    ((∃ part, part.Sublist (ghashLaunches s₁.device h'
        (advance src HEADER_LEN) plaintextLen) ∧
        events = launchEvents stream part ∧ s₂.lastError ≠ cudaSuccess) ∨
      (s₁.lastError = cudaSuccess ∧ ∃ check counter,
        check.Sublist [verifyLaunch s₁.device h' src plaintextLen authOk] ∧
        counter.Sublist
          (openCtrLaunches s₁.device h' src dst plaintextLen authOk) ∧
        events = launchEvents stream (ghashLaunches s₁.device h'
          (advance src HEADER_LEN) plaintextLen ++ (check ++ counter))))

theorem lmcacheGpuAes128gcmOpenAsync_spec (driver : Driver) {s : HostState}
    {key src dst authOk : Ptr} {plaintextLen frameLen : Nat} {h : KeyHandle}
    {leaked : List Block} (accounted : Accounted s leaked)
    (live : s.handles.lookup key = some h)
    (admits : OpenAdmits key src frameLen dst plaintextLen authOk)
    (stream : Ptr) :
    (lmcacheGpuAes128gcmOpenAsync key src frameLen dst plaintextLen authOk
      stream).Ensures driver s fun rc s' events =>
        GuardedEffect driver s s' key h leaked (requiredNodes plaintextLen)
          (OpenBody driver stream src dst plaintextLen authOk) rc events := by
  rw [lmcacheGpuAes128gcmOpenAsync_eq admits]
  exact guarded_spec driver accounted live plaintextLen _ fun s₁ h' live₁ fits =>
    (enqueueOpen_spec driver stream live₁ fits src dst authOk).mono
      fun rc s₂ events result => ⟨result.1.quiet, result⟩

end GpuKvSeal.Host
