import GpuKvSeal.Device.Footprints
import GpuKvSeal.Foundations.StreamQueue
import GpuKvSeal.Host.Drain
import GpuKvSeal.Host.Runs

/-!
# What a program of calls puts on the streams

The host makes its calls one after another and does not wait for the launches,
except that a release waits until the device is idle.  A workspace that grows
releases the buffers it had, so no launch that uses them is left behind.
-/

namespace GpuKvSeal.Host

open Device (Ptr Cell Launch Memory Schedule span)
open BigEndian (Byte)
open StreamQueue (Request jobs runJobs jobs_append jobs_waits jobs_enqueues)
open TracedState.Traced (Ensures)

/-! ## Programs -/

/-- A launch, and the number of the call that enqueued it. -/
structure Work where
  call : Nat
  launch : Launch

/-- The effect of a launch on device memory. -/
def Work.run (schedule : Schedule) (work : Work) (memory : Memory) : Memory :=
  work.launch.run schedule memory

/-- What an event of an operation asks of the streams.  An allocation asks for
nothing, and copies occur only in key creation. -/
def Event.request (call : Nat) : Event → Option (Request Ptr Work)
  | .launch stream l => some (.enqueue stream ⟨call, l⟩)
  | .free _ | .synchronize => some .wait
  | .malloc _ | .memcpy .. | .memcpyToSymbol .. => none

/-- The requests of calls made one after another, the first with the given
number. -/
def requests (driver : Driver) :
    HostState → Nat → List ApiCall → List (Request Ptr Work)
  | _, _, [] => []
  | s, call, c :: rest =>
      (c.perform driver s).events.filterMap (Event.request call) ++
        requests driver (c.perform driver s).state (call + 1) rest

/-- The values that calls made one after another return. -/
def returns (driver : Driver) : HostState → List ApiCall → List ReturnCode
  | _, [] => []
  | s, c :: rest =>
      (c.perform driver s).value :: returns driver (c.perform driver s).state rest

namespace ApiCall

/-- The stream a call is given. -/
def stream : ApiCall → Option Ptr
  | .sealAsync _ _ _ _ _ _ stream => some stream
  | .openAsync _ _ _ _ _ _ stream => some stream
  | .keyCreate .. | .keyDestroy _ | .reserve .. => none

/-- The same call on another handle. -/
def on : ApiCall → Ptr → ApiCall
  | .keyCreate key keyLen device out, _ => .keyCreate key keyLen device out
  | .keyDestroy _, p => .keyDestroy p
  | .reserve _ maxPlaintextLen, p => .reserve p maxPlaintextLen
  | .sealAsync _ src plaintextLen dst dstCapacity iv stream, p =>
      .sealAsync p src plaintextLen dst dstCapacity iv stream
  | .openAsync _ src frameLen dst plaintextLen authOk stream, p =>
      .openAsync p src frameLen dst plaintextLen authOk stream

/-- The launches of a call that gets past its checks. -/
def launches (device : Int) (h : KeyHandle) : ApiCall → List Launch
  | .sealAsync _ src plaintextLen dst _ iv _ =>
      sealLaunches device h src plaintextLen dst (iv.getD (Vector.replicate 12 0#8))
  | .openAsync _ src _ dst plaintextLen authOk _ =>
      openLaunches device h src dst plaintextLen authOk
  | .keyCreate .. | .keyDestroy _ | .reserve .. => []

/-- The cells of the caller that an operation reads. -/
def inputs : ApiCall → Set Cell
  | .sealAsync _ src plaintextLen _ _ _ _ => span src plaintextLen
  | .openAsync _ src _ _ plaintextLen _ _ => span src (plaintextLen + 29)
  | .keyCreate .. | .keyDestroy _ | .reserve .. => ∅

/-- The cells of the caller in which an operation leaves its results. -/
def outputs : ApiCall → Set Cell
  | .sealAsync _ _ plaintextLen dst _ _ _ => span dst (plaintextLen + 29)
  | .openAsync _ _ _ dst plaintextLen authOk _ =>
      span dst plaintextLen ∪ {.flag authOk}
  | .keyCreate .. | .keyDestroy _ | .reserve .. => ∅

/-- The operations on a handle, with texts of a length the library admits.  The
buffers of a call are apart from each other; its other arguments may be such
that the library refuses it. -/
inductive Operation : ApiCall → Prop
  | reserve (key : Ptr) (maxPlaintextLen : Nat) :
      Operation (.reserve key maxPlaintextLen)
  | sealAsync (key : Ptr) {src dst : Ptr} {plaintextLen : Nat}
      (admissible : plaintextLen ≤ 2 ^ 36 - 32)
      (apart : Disjoint (span dst (plaintextLen + 29)) (span src plaintextLen))
      (dstCapacity : Nat) (iv : Option (Vector Byte 12)) (stream : Ptr) :
      Operation (.sealAsync key src plaintextLen dst dstCapacity iv stream)
  | openAsync (key : Ptr) {src dst : Ptr} {plaintextLen : Nat}
      (admissible : plaintextLen ≤ 2 ^ 36 - 32)
      (apart : Disjoint (span dst plaintextLen) (span src (plaintextLen + 29)))
      (frameLen : Nat) (authOk stream : Ptr) :
      Operation (.openAsync key src frameLen dst plaintextLen authOk stream)

end ApiCall

/-! ## Events and requests -/

theorem filterMap_launchEvents (call : Nat) (stream : Ptr)
    (launches : List Launch) :
    (launchEvents stream launches).filterMap (Event.request call) =
      (launches.map (Work.mk call)).map (Request.enqueue stream) := by
  induction launches with
  | nil => rfl
  | cons l rest ih => exact congrArg (_ :: ·) ih

/-- Allocations and releases ask for nothing but waiting. -/
theorem Bookkeeping.requests {events : List Event}
    (bookkeeping : Bookkeeping events) (call : Nat) :
    events.filterMap (Event.request call) =
      List.replicate (events.filterMap (Event.request call)).length .wait := by
  refine List.eq_replicate_iff.mpr ⟨rfl, fun request member => ?_⟩
  obtain ⟨event, listed, asked⟩ := List.mem_filterMap.mp member
  rcases bookkeeping event listed with ⟨p, rfl⟩ | ⟨p, rfl⟩
  · cases asked
  · exact (Option.some.inj asked).symm

/-- The requests of a call that waits some times and then enqueues launches on
one stream. -/
theorem requests_cons {driver : Driver} {s : HostState} {c : ApiCall}
    {before : List Event} {stream : Ptr} {launched : List Launch}
    (bookkeeping : Bookkeeping before)
    (trace : (c.perform driver s).events = before ++ launchEvents stream launched)
    (call : Nat) (rest : List ApiCall) :
    requests driver s call (c :: rest) =
      List.replicate (before.filterMap (Event.request call)).length .wait ++
        ((launched.map (Work.mk call)).map (Request.enqueue stream) ++
          requests driver (c.perform driver s).state (call + 1) rest) := by
  rw [requests, trace, List.filterMap_append, filterMap_launchEvents,
    List.append_assoc]
  exact congrArg (· ++ _) (bookkeeping.requests call)

/-- The launches of the first call come before those of all others. -/
theorem jobs_requests_cons {driver : Driver} {s : HostState} {c : ApiCall}
    {before : List Event} {stream : Ptr} {launched : List Launch}
    (bookkeeping : Bookkeeping before)
    (trace : (c.perform driver s).events = before ++ launchEvents stream launched)
    (call : Nat) (rest : List ApiCall) :
    jobs (requests driver s call (c :: rest)) = launched.map (Work.mk call) ++
      jobs (requests driver (c.perform driver s).state (call + 1) rest) := by
  rw [requests_cons bookkeeping trace, jobs_append, jobs_append, jobs_waits,
    jobs_enqueues, List.nil_append]

/-- A release makes the call wait. -/
theorem request_of_free {before : List Event} {p : Ptr}
    (released : Event.free p ∈ before) (call : Nat) :
    (before.filterMap (Event.request call)).length ≠ 0 := fun none => by
  have wait := List.mem_filterMap.mpr
    ⟨_, released, (rfl : Event.request call (.free p) = some .wait)⟩
  rw [List.eq_nil_of_length_eq_zero none] at wait
  cases wait

/-! ## A workspace that grows waits -/

/-- Releasing an allocated buffer waits. -/
theorem freeUnlessNull_waits {driver : Driver} (reliable : driver.Succeeds {.free})
    {s : HostState} {p : Ptr} (nonnull : p ≠ 0) (live : p ∈ s.livePtrs) :
    (freeUnlessNull p).Ensures driver s fun _ _ events => .free p ∈ events := by
  rw [freeUnlessNull, if_pos nonnull]
  refine (cudaFree_spec driver s live).bind ?_
  rintro rc s' events (⟨-, -, rfl, -⟩ | ⟨failure, refused, -⟩)
  · exact Ensures.pure (List.mem_singleton_self _)
  · exact absurd (refused.symm.trans (reliable .free rfl _)) failure

theorem freeNodes_waits {driver : Driver} (reliable : driver.Succeeds {.free})
    {s : HostState} {h : KeyHandle} (nonnull : h.dNodesA ≠ 0)
    (live : h.dNodesA ∈ s.livePtrs) :
    (freeNodes h).Ensures driver s fun _ _ events => .free h.dNodesA ∈ events :=
  (freeUnlessNull_waits reliable nonnull live).bind fun _ _ _ released =>
    List.mem_append_left _ released

/-- A handle that has a workspace waits when the workspace grows. -/
theorem ensureWorkspace_waits {driver : Driver}
    (reliable : driver.Succeeds {.free}) {s : HostState} {key : Ptr}
    {h : KeyHandle} {leaked : List Block} (accounted : Accounted s leaked)
    (live : s.handles.lookup key = some h) (equipped : 0 < h.nodeCapacity)
    {plaintextLen : Nat} (small : h.nodeCapacity < requiredNodes plaintextLen) :
    (ensureWorkspace key plaintextLen).Ensures driver s fun rc _ events =>
      rc = .ok → ∃ p, Event.free p ∈ events := by
  have buffer : (h.dNodesA, h.nodeCapacity * sizeofGHashNode) ∈
      h.buffers ++ (s.ownedExcept key ++ leaked) := by
    rw [KeyHandle.buffers, nodeBuffers_of_pos equipped]
    simp
  have nonnull : h.dNodesA ≠ 0 := (accounted.split live).nonnull _ buffer
  have placed : h.dNodesA ∈ s.livePtrs :=
    (accounted.split live).live.mpr (List.mem_map_of_mem buffer)
  refine Ensures.bind_eq (readHandle_live driver live)
    (Ensures.ite (fun fits => absurd fits (by omega)) fun _ => ?_)
  refine (cudaMalloc_spec driver s _).bind ?_
  rintro result s₁ events₁ (⟨a, rfl, -, -, -, rfl, rfl⟩ | ⟨rc, rfl, -⟩)
  swap
  · exact Ensures.pure fun ok => by cases ok
  refine (cudaMalloc_spec driver _ _).bind ?_
  rintro result s₂ events₂ (⟨b, rfl, -, -, -, rfl, rfl⟩ | ⟨rc, rfl, -⟩)
  swap
  · exact Ensures.bind_eq rfl (Ensures.pure fun ok => by cases ok)
  refine (freeNodes_waits reliable nonnull ?_).bind
    fun _ s₃ events₃ released => ?_
  · exact List.mem_cons_of_mem b (List.mem_cons_of_mem a placed)
  · exact Ensures.bind_eq rfl (Ensures.pure fun _ =>
      ⟨h.dNodesA, by simp [released]⟩)

/-- So does every operation on it that needs a larger workspace. -/
theorem guarded_waits {driver : Driver} (reliable : driver.Succeeds {.free})
    {s : HostState} {key : Ptr} {h : KeyHandle} {leaked : List Block}
    (accounted : Accounted s leaked) (live : s.handles.lookup key = some h)
    (equipped : 0 < h.nodeCapacity) {plaintextLen : Nat}
    (small : h.nodeCapacity < requiredNodes plaintextLen) (body : Cuda ReturnCode) :
    (guarded key plaintextLen body).Ensures driver s fun rc _ events =>
      rc = .ok → ∃ p, Event.free p ∈ events := by
  refine Ensures.bind_eq (readHandle_live driver live) ?_
  refine (withDevice_spec driver s h.device _ fun s₀ heap₀ _ _ _ _ => ?_).mono
    fun _ _ _ ⟨_, waits, _⟩ => waits
  have live₀ : s₀.handles.lookup key = some h := by
    rw [heap₀.handles]
    exact live
  refine (ensureWorkspace_waits reliable (accounted.sameHeap heap₀) live₀ equipped
    small).bind fun erc s₁ events₁ waits => ?_
  refine Ensures.ite (fun bad => Ensures.pure fun ok => absurd ok bad) fun ok => ?_
  obtain ⟨p, released⟩ := waits (Decidable.not_not.mp ok)
  exact fun _ => ⟨p, List.mem_append_right _ (List.mem_append_left _ released)⟩

end GpuKvSeal.Host
