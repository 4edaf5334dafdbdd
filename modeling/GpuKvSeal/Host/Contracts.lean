import GpuKvSeal.Host.Api

/-!
# What each runtime call can do

One lemma per call lists its outcomes: success with its effect, or a failure
that leaves everything but the call counter and the last error as it was.
Everything later is derived from these lists.
-/

namespace GpuKvSeal.Host

open Device (Ptr Launch Kernel)
open BigEndian (Byte)
open TracedState.Traced (Ensures)

/-! ## States that differ in the call counter and the last error only -/

/-- The heap, the handles and the current device are the same. -/
structure Quiet (s s' : HostState) : Prop where
  device : s'.device = s.device
  allocations : s'.allocations = s.allocations
  handles : s'.handles = s.handles
  outs : s'.outs = s.outs
  invalidFrees : s'.invalidFrees = s.invalidFrees

theorem Quiet.refl (s : HostState) : Quiet s s := ⟨rfl, rfl, rfl, rfl, rfl⟩

theorem Quiet.trans {s s' s'' : HostState} (first : Quiet s s')
    (second : Quiet s' s'') : Quiet s s'' where
  device := second.device.trans first.device
  allocations := second.allocations.trans first.allocations
  handles := second.handles.trans first.handles
  outs := second.outs.trans first.outs
  invalidFrees := second.invalidFrees.trans first.invalidFrees

/-- A failed call: counted, and remembered as the last error. -/
def HostState.failed (s : HostState) (kind : RuntimeCall) (rc : CudaError) :
    HostState :=
  { s with
    calls := s.calls + 1
    lastError := rc
    failures := kind :: s.failures }

/-- A call that succeeded without further effect. -/
def HostState.counted (s : HostState) : HostState :=
  { s with calls := s.calls + 1 }

theorem Quiet.failed (s : HostState) (kind : RuntimeCall) (rc : CudaError) :
    Quiet s (s.failed kind rc) := ⟨rfl, rfl, rfl, rfl, rfl⟩

theorem Quiet.counted (s : HostState) : Quiet s s.counted :=
  ⟨rfl, rfl, rfl, rfl, rfl⟩

@[simp] theorem failed_lastError (s : HostState) (kind : RuntimeCall)
    (rc : CudaError) : (s.failed kind rc).lastError = rc := rfl

@[simp] theorem counted_lastError (s : HostState) :
    s.counted.lastError = s.lastError := rfl

@[simp] theorem counted_calls (s : HostState) :
    s.counted.calls = s.calls + 1 := rfl

/-! ## Calls -/

variable (driver : Driver) (s : HostState)

theorem call_spec (kind : RuntimeCall) :
    (call kind).Ensures driver s fun rc s' events => events = [] ∧
      ((rc = cudaSuccess ∧ driver.outcome kind s.calls = cudaSuccess ∧
          s' = s.counted) ∨
        (rc ≠ cudaSuccess ∧ driver.outcome kind s.calls = rc ∧
          s' = s.failed kind rc)) := by
  refine ⟨rfl, ?_⟩
  by_cases success : driver.outcome kind s.calls = cudaSuccess
  · refine Or.inl ⟨success, success, ?_⟩
    simp [call, HostState.counted, success]
  · refine Or.inr ⟨success, rfl, ?_⟩
    simp [call, HostState.failed, success]

theorem cudaMalloc_spec (bytes : Nat) :
    (cudaMalloc bytes).Ensures driver s fun result s' events =>
      (∃ p, result = .ok p ∧ driver.outcome .malloc s.calls = cudaSuccess ∧
        p ≠ 0 ∧ p ∉ s.livePtrs ∧ events = [.malloc p] ∧
        s' = { s.counted with
          allocations := ⟨p, bytes, s.device⟩ :: s.allocations }) ∨
      (∃ rc, result = .error rc ∧ rc ≠ cudaSuccess ∧
        driver.outcome .malloc s.calls = rc ∧ events = [] ∧
        s' = s.failed .malloc rc) := by
  refine (call_spec driver s .malloc).bind ?_
  rintro rc s' events ⟨rfl, ⟨rfl, success, rfl⟩ | ⟨failure, same, rfl⟩⟩
  · rw [if_pos rfl]
    exact Or.inl ⟨_, rfl, success, driver.address_ne_null _ _,
      driver.address_fresh _ _, rfl, rfl⟩
  · rw [if_neg failure]
    exact Or.inr ⟨rc, rfl, failure, same, rfl, rfl⟩

/-- Releasing an address that is allocated. -/
theorem cudaFree_spec {p : Ptr} (live : p ∈ s.livePtrs) :
    (cudaFree p).Ensures driver s fun rc s' events =>
      (rc = cudaSuccess ∧ driver.outcome .free s.calls = cudaSuccess ∧
        events = [.free p] ∧
        s' = { s.counted with
          allocations := s.allocations.filter (·.ptr ≠ p) }) ∨
      (rc ≠ cudaSuccess ∧ driver.outcome .free s.calls = rc ∧
        events = [] ∧ s' = s.failed .free rc) := by
  refine (call_spec driver s .free).bind ?_
  rintro rc s' events ⟨rfl, ⟨rfl, success, rfl⟩ | ⟨failure, same, rfl⟩⟩
  · rw [if_pos rfl]
    have live' : p ∈ s.counted.livePtrs := live
    have released : release p driver s.counted = ⟨cudaSuccess, { s.counted with
        allocations := s.allocations.filter (·.ptr ≠ p) }, [.free p]⟩ :=
      if_pos live'
    exact Ensures.of_eq released (Or.inl ⟨rfl, success, rfl, rfl⟩)
  · rw [if_neg failure]
    exact Or.inr ⟨failure, same, rfl, rfl⟩

theorem cudaMemcpyToSymbol_spec (table : Vector Byte 256) :
    (cudaMemcpyToSymbol table).Ensures driver s fun rc s' events =>
      (rc = cudaSuccess ∧ driver.outcome .memcpyToSymbol s.calls = cudaSuccess ∧
        events = [.memcpyToSymbol s.device table] ∧ s' = s.counted) ∨
      (rc ≠ cudaSuccess ∧ driver.outcome .memcpyToSymbol s.calls = rc ∧
        events = [] ∧ s' = s.failed .memcpyToSymbol rc) := by
  refine (call_spec driver s .memcpyToSymbol).bind ?_
  rintro rc s' events ⟨rfl, ⟨rfl, success, rfl⟩ | ⟨failure, same, rfl⟩⟩
  · exact Or.inl ⟨rfl, success, rfl, rfl⟩
  · refine Or.inr ⟨failure, same, ?_, rfl⟩
    simp [getState, emitWhen, failure]

theorem cudaMemcpy_spec (dst : Ptr) (bytes : Vector Byte 176) :
    (cudaMemcpy dst bytes).Ensures driver s fun rc s' events =>
      (rc = cudaSuccess ∧ driver.outcome .memcpy s.calls = cudaSuccess ∧
        events = [.memcpy dst bytes] ∧ s' = s.counted) ∨
      (rc ≠ cudaSuccess ∧ driver.outcome .memcpy s.calls = rc ∧
        events = [] ∧ s' = s.failed .memcpy rc) := by
  refine (call_spec driver s .memcpy).bind ?_
  rintro rc s' events ⟨rfl, ⟨rfl, success, rfl⟩ | ⟨failure, same, rfl⟩⟩
  · exact Or.inl ⟨rfl, success, rfl, rfl⟩
  · refine Or.inr ⟨failure, same, ?_, rfl⟩
    simp [emitWhen, failure]

theorem cudaDeviceSynchronize_spec :
    cudaDeviceSynchronize.Ensures driver s fun rc s' events =>
      (rc = cudaSuccess ∧ driver.outcome .synchronize s.calls = cudaSuccess ∧
        events = [.synchronize] ∧ s' = s.counted) ∨
      (rc ≠ cudaSuccess ∧ driver.outcome .synchronize s.calls = rc ∧
        events = [] ∧ s' = s.failed .synchronize rc) := by
  refine (call_spec driver s .synchronize).bind ?_
  rintro rc s' events ⟨rfl, ⟨rfl, success, rfl⟩ | ⟨failure, same, rfl⟩⟩
  · exact Or.inl ⟨rfl, success, rfl, rfl⟩
  · refine Or.inr ⟨failure, same, ?_, rfl⟩
    simp [emitWhen, failure]

/-- A launch is accepted and enqueued, or rejected with an error recorded. -/
theorem launchKernel_spec (kernel : Kernel) (grid : Int) (threads : Nat)
    (stream : Ptr) :
    (launchKernel kernel grid threads stream).Ensures driver s
      fun _ s' events => Quiet s s' ∧
        ((1 ≤ grid ∧ driver.outcome .launch s.calls = cudaSuccess ∧
            events = [.launch stream ⟨s.device, kernel, grid, threads⟩] ∧
            s'.lastError = s.lastError) ∨
          ((1 ≤ grid → driver.outcome .launch s.calls ≠ cudaSuccess) ∧
            events = [] ∧ s'.lastError ≠ cudaSuccess)) := by
  refine Ensures.ite (fun small => ?_) fun large => ?_
  · refine ⟨⟨rfl, rfl, rfl, rfl, rfl⟩, Or.inr ⟨fun valid =>
      absurd small (by omega), rfl, ?_⟩⟩
    show cudaErrorInvalidConfiguration ≠ cudaSuccess
    decide
  · refine (call_spec driver s .launch).bind ?_
    rintro rc s' events ⟨rfl, ⟨rfl, success, rfl⟩ | ⟨failure, same, rfl⟩⟩
    · exact ⟨Quiet.counted s, Or.inl ⟨by omega, success, rfl, rfl⟩⟩
    · refine ⟨Quiet.failed s .launch rc, Or.inr ⟨fun _ => same ▸ failure, ?_, failure⟩⟩
      simp [getState, emitWhen, failure]

theorem cudaPeekAtLastError_apply :
    cudaPeekAtLastError driver s = ⟨s.lastError, s, []⟩ := rfl

theorem cudaGetDevice_spec :
    cudaGetDevice.Ensures driver s fun device s' events => events = [] ∧
      ((driver.outcome .getDevice s.calls = cudaSuccess ∧ device = s.device ∧
          s' = s.counted) ∨
        (∃ rc, rc ≠ cudaSuccess ∧ driver.outcome .getDevice s.calls = rc ∧
          device = 0 ∧ s' = s.failed .getDevice rc)) := by
  refine (call_spec driver s .getDevice).bind ?_
  rintro rc s' events ⟨rfl, ⟨rfl, success, rfl⟩ | ⟨failure, same, rfl⟩⟩
  · exact ⟨rfl, Or.inl ⟨success, rfl, rfl⟩⟩
  · refine ⟨rfl, Or.inr ⟨rc, failure, same, ?_, rfl⟩⟩
    exact if_neg failure

theorem cudaSetDevice_spec (target : Int) :
    (cudaSetDevice target).Ensures driver s fun rc s' events => events = [] ∧
      ((rc = cudaSuccess ∧ driver.outcome .setDevice s.calls = cudaSuccess ∧
          s' = { s.counted with device := target }) ∨
        (rc ≠ cudaSuccess ∧ driver.outcome .setDevice s.calls = rc ∧
          s' = s.failed .setDevice rc)) := by
  refine (call_spec driver s .setDevice).bind ?_
  rintro rc s' events ⟨rfl, ⟨rfl, success, rfl⟩ | ⟨failure, same, rfl⟩⟩
  · exact ⟨rfl, Or.inl ⟨rfl, success, rfl⟩⟩
  · refine ⟨rfl, Or.inr ⟨failure, same, ?_⟩⟩
    exact if_neg failure

theorem newKeyHandle_spec :
    newKeyHandle.Ensures driver s fun result s' events => events = [] ∧
      ((∃ p, result = some p ∧ driver.outcome .new s.calls = cudaSuccess ∧
          p ≠ 0 ∧ p ∉ s.handles ∧
          s' = { s.counted with handles := s.handles.insert p {} }) ∨
        (result = none ∧ driver.outcome .new s.calls ≠ cudaSuccess ∧
          s' = s.counted)) := by
  by_cases success : driver.outcome .new s.calls = cudaSuccess
  · refine Ensures.of_eq (if_pos success) ⟨rfl, Or.inl ⟨_, rfl, success,
      driver.object_ne_null _ _, ?_, rfl⟩⟩
    exact driver.object_fresh _ _
  · exact Ensures.of_eq (if_neg success) ⟨rfl, Or.inr ⟨rfl, success, rfl⟩⟩

theorem readHandle_apply (key : Ptr) :
    readHandle key driver s = ⟨(s.handles.lookup key).getD {}, s, []⟩ := rfl

/-! ## The device guard -/

/-- The states are the same up to the current device, the call counter and the
last error. -/
structure SameHeap (s s' : HostState) : Prop where
  allocations : s'.allocations = s.allocations
  handles : s'.handles = s.handles
  outs : s'.outs = s.outs
  invalidFrees : s'.invalidFrees = s.invalidFrees

theorem SameHeap.refl (s : HostState) : SameHeap s s := ⟨rfl, rfl, rfl, rfl⟩

theorem SameHeap.trans {s s' s'' : HostState} (first : SameHeap s s')
    (second : SameHeap s' s'') : SameHeap s s'' where
  allocations := second.allocations.trans first.allocations
  handles := second.handles.trans first.handles
  outs := second.outs.trans first.outs
  invalidFrees := second.invalidFrees.trans first.invalidFrees

theorem Quiet.sameHeap {s s' : HostState} (quiet : Quiet s s') :
    SameHeap s s' :=
  ⟨quiet.allocations, quiet.handles, quiet.outs, quiet.invalidFrees⟩

/-- An error is never cleared: what was recorded stays recorded. -/
def Sticky (s s' : HostState) : Prop :=
  s'.lastError = cudaSuccess → s.lastError = cudaSuccess

/-- No call of these kinds fails from here on. -/
def Driver.Succeeds (driver : Driver) (kinds : Set RuntimeCall) : Prop :=
  ∀ kind ∈ kinds, ∀ i, driver.outcome kind i = cudaSuccess

/-- Every call is counted, whatever its outcome. -/
theorem call_calls (kind : RuntimeCall) :
    (call kind driver s).state.calls = s.calls + 1 := by
  unfold call
  dsimp only
  split <;> rfl

theorem switchWhen_calls (changed : Bool) (target : Int) :
    (switchWhen changed target).Ensures driver s fun _ s' _ =>
      s'.calls = s.calls + if changed then 1 else 0 := by
  cases changed with
  | false => rfl
  | true =>
      refine Eq.trans ?_ (call_calls driver s .setDevice)
      show HostState.calls (if _ then _ else _) = _
      split <;> rfl

/-- The calls a guard makes before its body. -/
def guardCalls (current target : Int) : Nat :=
  1 + if current = target then 0 else 1

theorem switchWhen_spec (changed : Bool) (target : Int) :
    (switchWhen changed target).Ensures driver s fun _ s' events =>
      events = [] ∧ SameHeap s s' ∧ Sticky s s' ∧
      (s'.lastError = cudaSuccess →
        s'.device = if changed then target else s.device) ∧
      (driver.Succeeds {.setDevice} → s'.lastError = s.lastError ∧
        s'.device = if changed then target else s.device) := by
  cases changed with
  | false =>
      exact ⟨rfl, SameHeap.refl s, id, fun _ => rfl, fun _ => ⟨rfl, rfl⟩⟩
  | true =>
      refine (cudaSetDevice_spec driver s target).bind ?_
      rintro rc s' events ⟨rfl, ⟨rfl, success, rfl⟩ | ⟨failure, same, rfl⟩⟩
      · exact ⟨rfl, ⟨rfl, rfl, rfl, rfl⟩, id, fun _ => rfl, fun _ => ⟨rfl, rfl⟩⟩
      · refine ⟨rfl, (Quiet.failed s _ rc).sameHeap,
          fun clear => absurd clear failure, fun clear => absurd clear failure,
          fun reliable => ?_⟩
        rw [reliable .setDevice rfl] at same
        exact absurd same.symm failure

/-- The guard changes no heap and no handle by itself.  The body runs on the
target device unless a device call fails, which leaves an error behind. -/
theorem withDevice_spec {α : Type} (target : Int) (body : Cuda α)
    {post : α → HostState → List Event → Prop}
    (inside : ∀ s', SameHeap s s' → Sticky s s' →
      (s'.lastError = cudaSuccess → s'.device = target) →
      (driver.Succeeds {.getDevice, .setDevice} →
        s'.lastError = s.lastError ∧ s'.device = target) →
      (driver.Succeeds {.getDevice} →
        s'.calls = s.calls + guardCalls s.device target) →
      body.Ensures driver s' post) :
    (withDevice target body).Ensures driver s fun value s'' events =>
      ∃ s', post value s' events ∧ SameHeap s' s'' ∧ Sticky s' s'' ∧
        (driver.Succeeds {.getDevice, .setDevice} →
          s''.lastError = s'.lastError) := by
  refine (cudaGetDevice_spec driver s).bind ?_
  rintro old s₁ events ⟨rfl, got⟩
  have first : SameHeap s s₁ ∧ Sticky s s₁ ∧
      (s₁.lastError = cudaSuccess → old = s₁.device) ∧
      (driver.Succeeds {.getDevice, .setDevice} →
        s₁.lastError = s.lastError ∧ old = s₁.device) := by
    rcases got with ⟨success, rfl, rfl⟩ | ⟨rc, failure, same, rfl, rfl⟩
    · exact ⟨(Quiet.counted s).sameHeap, id, fun _ => rfl, fun _ => ⟨rfl, rfl⟩⟩
    · refine ⟨(Quiet.failed s _ rc).sameHeap,
        fun clear => absurd clear failure, fun clear => absurd clear failure,
        fun reliable => ?_⟩
      rw [reliable .getDevice (Or.inl rfl)] at same
      exact absurd same.symm failure
  obtain ⟨heap₁, sticky₁, known₁, exact₁⟩ := first
  have counted₁ : driver.Succeeds {.getDevice} →
      s₁.calls = s.calls + 1 ∧ old = s.device := by
    intro reliable
    rcases got with ⟨success, rfl, rfl⟩ | ⟨rc, failure, same, rfl, rfl⟩
    · exact ⟨rfl, rfl⟩
    · exact absurd (same.symm.trans (reliable .getDevice rfl _)) failure
  have narrow : driver.Succeeds {.getDevice, .setDevice} →
      driver.Succeeds {.setDevice} := fun reliable kind member =>
    reliable kind (Or.inr member)
  -- A switch from the device that is current ends on the target.
  have reaches : ∀ {current : Int}, old = s₁.device →
      current = (if decide (old ≠ target) = true then target else s₁.device) →
      current = target := by
    rintro current rfl rfl
    by_cases moved : s₁.device = target
    · simp [moved]
    · simp [moved]
  refine ((switchWhen_spec driver s₁ _ target).and
    (switchWhen_calls driver s₁ _ target)).bind ?_
  rintro - s₂ events ⟨⟨rfl, heap₂, sticky₂, known₂, exact₂⟩, counted₂⟩
  refine (inside s₂ (heap₁.trans heap₂) (fun clear => sticky₁ (sticky₂ clear))
    (fun clear => reaches (known₁ (sticky₂ clear)) (known₂ clear))
    (fun reliable => ?_) fun reliable => ?_).bind ?_
  · obtain ⟨error₁, current₁⟩ := exact₁ reliable
    obtain ⟨error₂, current₂⟩ := exact₂ (narrow reliable)
    exact ⟨error₂.trans error₁, reaches current₁ current₂⟩
  · obtain ⟨count₁, rfl⟩ := counted₁ reliable
    rw [counted₂, count₁, guardCalls]
    by_cases same : s.device = target
    · simp [same]
    · simp [same]
  · intro value s₃ events holds
    refine (switchWhen_spec driver s₃ _ old).bind ?_
    rintro - s₄ events' ⟨rfl, heap₄, sticky₄, -, exact₄⟩
    refine Ensures.pure ⟨s₃, ?_, heap₄, sticky₄, fun reliable =>
      (exact₄ (narrow reliable)).1⟩
    simpa using holds

end GpuKvSeal.Host
