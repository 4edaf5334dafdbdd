import GpuKvSeal.Host.Composed

/-!
# The events tell the heap

The device sees every allocation and every successful release.  From the addresses
that were allocated before, the events of a call alone tell which are allocated
after it, whatever failed meanwhile; and they never allocate an address twice or
release one that is not allocated.  So over a whole program every address is
released exactly as often as it was allocated and is not allocated any more.
-/

namespace GpuKvSeal.Host

open Device (Ptr)
open BigEndian (Byte)
open TracedState.Traced (Ensures)

/-- The allocated addresses after events. -/
def heapAfter : List Ptr → List Event → List Ptr
  | live, [] => live
  | live, .malloc p :: rest => heapAfter (p :: live) rest
  | live, .free p :: rest => heapAfter (live.filter (· ≠ p)) rest
  | live, .memcpyToSymbol .. :: rest => heapAfter live rest
  | live, .memcpy .. :: rest => heapAfter live rest
  | live, .launch .. :: rest => heapAfter live rest
  | live, .synchronize :: rest => heapAfter live rest

/-- Only new addresses are allocated, and only allocated ones are released. -/
def Lawful : List Ptr → List Event → Prop
  | _, [] => True
  | live, .malloc p :: rest => (p ≠ 0 ∧ p ∉ live) ∧ Lawful (p :: live) rest
  | live, .free p :: rest => p ∈ live ∧ Lawful (live.filter (· ≠ p)) rest
  | live, .memcpyToSymbol .. :: rest => Lawful live rest
  | live, .memcpy .. :: rest => Lawful live rest
  | live, .launch .. :: rest => Lawful live rest
  | live, .synchronize :: rest => Lawful live rest

@[simp]
theorem heapAfter_nil (live : List Ptr) : heapAfter live [] = live := rfl

theorem heapAfter_append (live : List Ptr) (first second : List Event) :
    heapAfter live (first ++ second) = heapAfter (heapAfter live first) second := by
  induction first generalizing live with
  | nil => rfl
  | cons event rest ih => cases event <;> exact ih _

theorem Lawful.append {live : List Ptr} {first second : List Event}
    (before : Lawful live first) (after : Lawful (heapAfter live first) second) :
    Lawful live (first ++ second) := by
  induction first generalizing live with
  | nil => exact after
  | cons event rest ih =>
      cases event with
      | malloc p => exact ⟨before.1, ih before.2 after⟩
      | free p => exact ⟨before.1, ih before.2 after⟩
      | memcpyToSymbol device table => exact ih before after
      | memcpy dst bytes => exact ih before after
      | launch stream l => exact ih before after
      | synchronize => exact ih before after

/-- The heap after a launch, a copy or a synchronization is the one before. -/
theorem heapAfter_launchEvents (live : List Ptr) (stream : Ptr)
    (launches : List Device.Launch) :
    heapAfter live (launchEvents stream launches) = live := by
  induction launches with
  | nil => rfl
  | cons l rest ih => exact ih

/-! ## Every call -/

/-- The events lead from one heap to the other. -/
structure HeapTrace (live : List Ptr) (events : List Event) (live' : List Ptr) :
    Prop where
  lawful : Lawful live events
  heap : heapAfter live events = live'

theorem HeapTrace.nil (live : List Ptr) : HeapTrace live [] live := ⟨trivial, rfl⟩

theorem HeapTrace.append {live live' live'' : List Ptr} {first second : List Event}
    (before : HeapTrace live first live') (after : HeapTrace live' second live'') :
    HeapTrace live (first ++ second) live'' := by
  obtain ⟨lawful, rfl⟩ := before
  exact ⟨lawful.append after.lawful, (heapAfter_append ..).trans after.heap⟩

/-- One event that is neither an allocation nor a release. -/
theorem HeapTrace.other (live : List Ptr) {event : Event}
    (unallocated : ∀ p, event ≠ .malloc p) (unreleased : ∀ p, event ≠ .free p) :
    HeapTrace live [event] live := by
  cases event with
  | malloc p => exact absurd rfl (unallocated p)
  | free p => exact absurd rfl (unreleased p)
  | memcpyToSymbol device table => exact ⟨trivial, rfl⟩
  | memcpy dst bytes => exact ⟨trivial, rfl⟩
  | launch stream l => exact ⟨trivial, rfl⟩
  | synchronize => exact ⟨trivial, rfl⟩

theorem livePtrs_congr {s s' : HostState} (same : s'.allocations = s.allocations) :
    s'.livePtrs = s.livePtrs := congrArg (List.map Allocation.ptr) same

theorem livePtrs_release (s : HostState) (p : Ptr) :
    (s.allocations.filter (·.ptr ≠ p)).map Allocation.ptr =
      s.livePtrs.filter (· ≠ p) := by
  rw [HostState.livePtrs, List.filter_map]
  rfl

theorem cudaMalloc_heap (driver : Driver) (s : HostState) (bytes : Nat) :
    (cudaMalloc bytes).Ensures driver s fun _ s' events =>
      HeapTrace s.livePtrs events s'.livePtrs := by
  apply (cudaMalloc_spec driver s bytes).mono
  rintro _ s' events
    (⟨p, -, -, nonnull, fresh, rfl, rfl⟩ | ⟨rc, -, -, -, rfl, rfl⟩)
  · exact ⟨⟨⟨nonnull, fresh⟩, trivial⟩, rfl⟩
  · exact .nil _

theorem cudaFree_heap (driver : Driver) (s : HostState) (p : Ptr) :
    (cudaFree p).Ensures driver s fun _ s' events =>
      HeapTrace s.livePtrs events s'.livePtrs := by
  by_cases live : p ∈ s.livePtrs
  · apply (cudaFree_spec driver s live).mono
    rintro _ s' events (⟨-, -, rfl, rfl⟩ | ⟨-, -, rfl, rfl⟩)
    · exact ⟨⟨live, trivial⟩, (livePtrs_release s p).symm⟩
    · exact .nil _
  · apply (call_spec driver s .free).bind
    rintro rc s' events ⟨rfl, ⟨rfl, -, rfl⟩ | ⟨failure, -, rfl⟩⟩
    · have refused : p ∉ s.counted.livePtrs := live
      rw [if_pos rfl]
      exact Ensures.of_eq (if_neg refused) (.nil _)
    · rw [if_neg failure]
      exact .nil _

/-- Every computation of the runtime traces the heap. -/
theorem Composed.heap {α : Type} {program : Cuda α} (composed : Composed program)
    (driver : Driver) (s : HostState) :
    program.Ensures driver s fun _ s' events =>
      HeapTrace s.livePtrs events s'.livePtrs := by
  induction composed generalizing s with
  | pure value => exact .nil _
  | bind before after first second =>
      exact (first s).bind fun value s' events trace =>
        (second value s').mono fun _ _ _ later => trace.append later
  | readHandle key => exact .nil _
  | modifyHandle key f => exact .nil _
  | newKeyHandle =>
      apply (newKeyHandle_spec driver s).mono
      rintro _ s' _ ⟨rfl, ⟨p, -, -, -, -, rfl⟩ | ⟨-, -, rfl⟩⟩
      · exact .nil _
      · exact .nil _
  | deleteHandle key => exact .nil _
  | storeKey out key => exact .nil _
  | cudaPeekAtLastError => exact .nil _
  | cudaGetDevice =>
      apply (cudaGetDevice_spec driver s).mono
      rintro _ s' _ ⟨rfl, ⟨-, -, rfl⟩ | ⟨rc, -, -, -, rfl⟩⟩
      · exact .nil _
      · exact .nil _
  | cudaSetDevice target =>
      apply (cudaSetDevice_spec driver s target).mono
      rintro _ s' _ ⟨rfl, ⟨-, -, rfl⟩ | ⟨-, -, rfl⟩⟩
      · exact .nil _
      · exact .nil _
  | cudaMalloc bytes => exact cudaMalloc_heap driver s bytes
  | cudaFree p => exact cudaFree_heap driver s p
  | cudaMemcpyToSymbol table =>
      apply (cudaMemcpyToSymbol_spec driver s table).mono
      rintro _ s' _ (⟨-, -, rfl, rfl⟩ | ⟨-, -, rfl, rfl⟩)
      · exact .other _ (by simp) (by simp)
      · exact .nil _
  | cudaMemcpy dst bytes =>
      apply (cudaMemcpy_spec driver s dst bytes).mono
      rintro _ s' _ (⟨-, -, rfl, rfl⟩ | ⟨-, -, rfl, rfl⟩)
      · exact .other _ (by simp) (by simp)
      · exact .nil _
  | cudaDeviceSynchronize =>
      apply (cudaDeviceSynchronize_spec driver s).mono
      rintro _ s' _ (⟨-, -, rfl, rfl⟩ | ⟨-, -, rfl, rfl⟩)
      · exact .other _ (by simp) (by simp)
      · exact .nil _
  | launchKernel kernel grid threads stream =>
      apply (launchKernel_spec driver s kernel grid threads stream).mono
      rintro _ s' _ ⟨quiet, ⟨-, -, rfl, -⟩ | ⟨-, rfl, -⟩⟩
      · rw [livePtrs_congr quiet.allocations]
        exact .other _ (by simp) (by simp)
      · rw [livePtrs_congr quiet.allocations]
        exact .nil _

/-! ## Whole programs -/

/-- The host after calls made one after another. -/
def stateAfter (driver : Driver) : HostState → List ApiCall → HostState
  | s, [] => s
  | s, c :: rest => stateAfter driver (c.perform driver s).state rest

/-- The events of a program lead from the heap before it to the one after it. -/
theorem programEvents_heap (driver : Driver) (s : HostState) (calls : List ApiCall) :
    HeapTrace s.livePtrs (programEvents driver s calls)
      (stateAfter driver s calls).livePtrs := by
  induction calls generalizing s with
  | nil => exact .nil _
  | cons c rest ih => exact (c.perform_composed.heap driver s).append (ih _)

/-- In lawful events an address is allocated as often as it is released, and once
more if it is allocated at the end and was not before. -/
theorem Lawful.count {live : List Ptr} {events : List Event} (lawful : Lawful live events)
    (p : Ptr) :
    events.count (.malloc p) + (if p ∈ live then 1 else 0) =
      events.count (.free p) + if p ∈ heapAfter live events then 1 else 0 := by
  induction events generalizing live with
  | nil => rfl
  | cons event rest ih =>
      cases event with
      | malloc q =>
          obtain ⟨⟨-, fresh⟩, later⟩ := lawful
          have counted := ih later
          change _ = _ + if p ∈ heapAfter (q :: live) rest then 1 else 0
          rw [List.count_cons, List.count_cons_of_ne (by simp)]
          by_cases same : q = p
          · subst same
            rw [if_pos (List.mem_cons_self ..)] at counted
            rw [if_pos (beq_self_eq_true _), if_neg fresh]
            exact counted
          · have other : (Event.malloc q == .malloc p) = false := by simpa
            simp only [List.mem_cons, or_iff_right (Ne.symm same)] at counted
            rw [other]
            exact counted
      | free q =>
          obtain ⟨allocated, later⟩ := lawful
          have counted := ih later
          change _ = _ + if p ∈ heapAfter (live.filter (· ≠ q)) rest then 1 else 0
          rw [List.count_cons_of_ne (by simp), List.count_cons]
          by_cases same : q = p
          · subst same
            rw [if_neg (by simp)] at counted
            rw [if_pos (beq_self_eq_true _), if_pos allocated]
            omega
          · have other : (Event.free q == .free p) = false := by simpa
            have kept : p ∈ live.filter (· ≠ q) ↔ p ∈ live := by
              rw [List.mem_filter, and_iff_left (by simpa using Ne.symm same)]
            simp only [kept] at counted
            rw [other]
            exact counted
      | memcpyToSymbol device table =>
          rw [List.count_cons_of_ne (by simp), List.count_cons_of_ne (by simp)]
          exact ih lawful
      | memcpy dst bytes =>
          rw [List.count_cons_of_ne (by simp), List.count_cons_of_ne (by simp)]
          exact ih lawful
      | launch stream l =>
          rw [List.count_cons_of_ne (by simp), List.count_cons_of_ne (by simp)]
          exact ih lawful
      | synchronize =>
          rw [List.count_cons_of_ne (by simp), List.count_cons_of_ne (by simp)]
          exact ih lawful

end GpuKvSeal.Host
