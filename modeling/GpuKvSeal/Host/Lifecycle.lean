import GpuKvSeal.Host.Runs

/-!
# Programs that create and destroy keys

A program makes its calls one after another and uses a handle only while it is
live.  What a creation asks of the device comes in a fixed order: it writes a
symbol and fresh buffers, it may launch the kernel that fills the powers, and it
waits for that launch before it returns, whatever fails meanwhile.
-/

namespace GpuKvSeal.Host

open Device (Ptr Launch HOST_SBOX expandAes128Key)
open BigEndian (Byte)
open TracedState.Traced (Ensures)

/-- The events of calls made one after another. -/
def programEvents (driver : Driver) : HostState → List ApiCall → List Event
  | _, [] => []
  | s, c :: rest =>
      (c.perform driver s).events ++ programEvents driver (c.perform driver s).state rest

/-- Every call is given a handle that is null or live when the call is made. -/
def Valid (driver : Driver) : HostState → List ApiCall → Prop
  | _, [] => True
  | s, c :: rest => c.Allowed s ∧ Valid driver (c.perform driver s).state rest

instance (c : ApiCall) (s : HostState) : Decidable (c.Allowed s) :=
  inferInstanceAs (Decidable (c.handle = 0 ∨ c.handle ∈ s.handles))

instance decidableValid (driver : Driver) (s : HostState) :
    (calls : List ApiCall) → Decidable (Valid driver s calls)
  | [] => inferInstanceAs (Decidable True)
  | c :: rest =>
      have := decidableValid driver (c.perform driver s).state rest
      inferInstanceAs (Decidable (c.Allowed s ∧
        Valid driver (c.perform driver s).state rest))

/-! ## Creations -/

/-- A successful creation adds one handle, and a failed one none. -/
theorem Created.inserted {driver : Driver} {s s' : HostState} {key : Vector Byte 16}
    {device : Int} {out : Ptr} {leaked : List Block} {rc : ReturnCode}
    {events : List Event}
    (created : Created driver s s' key device out leaked rc events) (ok : rc = .ok) :
    ∃ q h, s'.handles = s.handles.insert q h ∧ s'.outs out = q := by
  cases created.result with
  | created q roundKeys hPow2 current launched _ _ handles outs =>
      exact ⟨q, _, handles, by rw [outs, Function.update_self]⟩
  | failed bad => exact absurd ok bad

theorem Created.unchanged {driver : Driver} {s s' : HostState}
    {key : Vector Byte 16} {device : Int} {out : Ptr} {leaked : List Block}
    {rc : ReturnCode} {events : List Event}
    (created : Created driver s s' key device out leaked rc events) (bad : rc ≠ .ok) :
    s'.handles = s.handles := by
  cases created.result with
  | created => exact absurd rfl bad
  | failed _ handles => exact handles

/-! ## The trace of a creation -/

/-- What a creation asks for before its launch. -/
inductive Preparation (s : HostState) : Event → Prop
  | memcpyToSymbol (device : Int) : Preparation s (.memcpyToSymbol device HOST_SBOX)
  | memcpy {p : Ptr} (bytes : Vector Byte 176) (fresh : p ∉ s.livePtrs) :
      Preparation s (.memcpy p bytes)
  | malloc (p : Ptr) : Preparation s (.malloc p)
  | free (p : Ptr) : Preparation s (.free p)

/-- What a creation asks for after its launch. -/
inductive Settlement : Event → Prop
  | synchronize : Settlement .synchronize
  | free (p : Ptr) : Settlement (.free p)

/-- The launch of a creation, on tables that were not in use before. -/
structure FreshLaunch (s : HostState) (l : Launch) : Prop where
  tables : ∃ device roundKeys hPow2, l = ⟨device, .initHashKey roundKeys hPow2, 1, 1⟩ ∧
    roundKeys ∉ s.livePtrs ∧ hPow2 ∉ s.livePtrs

/-- The events of a creation in their order. -/
structure CreationTrace (s : HostState) (events : List Event) : Prop where
  parts : ∃ writes launched rest, events = writes ++ launchEvents 0 launched ++ rest ∧
    (∀ event ∈ writes, Preparation s event) ∧ (∀ event ∈ rest, Settlement event) ∧
    (launched = [] ∨ ∃ l, launched = [l] ∧ FreshLaunch s l ∧ rest ≠ [])

/-- A creation that never comes to its launch. -/
theorem CreationTrace.of_writes {s : HostState} {events : List Event}
    (writes : ∀ event ∈ events, Preparation s event) : CreationTrace s events :=
  ⟨events, [], [], by simp [launchEvents], writes, by simp, Or.inl rfl⟩

/-- A release passes on nothing but itself. -/
theorem cudaFree_events (driver : Driver) (s : HostState) (p : Ptr) :
    (cudaFree p).Ensures driver s fun _ _ events => ∀ event ∈ events, event = .free p := by
  refine (call_spec driver s .free).bind ?_
  rintro rc s' events ⟨rfl, -⟩
  refine Ensures.ite (fun _ => ?_) fun _ => Ensures.pure (by simp)
  show ∀ event ∈ [] ++ (release p driver s').events, event = .free p
  unfold release
  split
  · simp
  · simp

/-- Releasing an address that is allocated waits. -/
theorem cudaFree_waits {driver : Driver} (reliable : driver.Succeeds {.free})
    {s : HostState} {p : Ptr} (live : p ∈ s.livePtrs) :
    (cudaFree p).Ensures driver s fun _ _ events => events = [.free p] := by
  refine (cudaFree_spec driver s live).mono ?_
  rintro rc s' events (⟨-, -, rfl, -⟩ | ⟨failure, refused, -⟩)
  · rfl
  · exact absurd (refused.symm.trans (reliable .free rfl _)) failure

/-- Undoing both tables and the object. -/
theorem undo_events {driver : Driver} (reliable : driver.Succeeds {.free})
    {s : HostState} {p roundKeys hPow2 : Ptr} (live : hPow2 ∈ s.livePtrs) :
    (do
      let _ ← cudaFree hPow2
      let _ ← cudaFree roundKeys
      deleteHandle p
      pure .errCuda : Cuda ReturnCode).Ensures driver s fun _ _ events =>
        events ≠ [] ∧ ∀ event ∈ events, ∃ q, event = .free q := by
  refine (cudaFree_waits reliable live).bind ?_
  rintro - s₁ events₁ rfl
  refine (cudaFree_events driver s₁ roundKeys).bind ?_
  intro _ s₂ events₂ released
  refine Ensures.bind_eq rfl (Ensures.pure ⟨by simp, fun event member => ?_⟩)
  rcases List.mem_cons.mp member with rfl | later
  · exact ⟨hPow2, rfl⟩
  · refine ⟨roundKeys, released event ?_⟩
    simpa using later

/-- The steps of a creation after the object exists. -/
theorem createTables_trace {driver : Driver} (reliable : driver.Succeeds {.free})
    (s : HostState) (p : Ptr) (key : Vector Byte 16) (device : Int) (out : Ptr) :
    (createTables p key device out).Ensures driver s fun _ _ events =>
      CreationTrace s events := by
  refine Ensures.bind_eq rfl ?_
  refine (cudaMemcpyToSymbol_spec driver _ _).bind ?_
  rintro rc s₁ events₁ (⟨rfl, -, rfl, rfl⟩ | ⟨failure, -, rfl, rfl⟩)
  swap
  · rw [if_pos failure]
    exact Ensures.bind_eq rfl (Ensures.pure (.of_writes (by simp)))
  rw [if_neg (by simp)]
  have copied : Preparation s (.memcpyToSymbol s.device HOST_SBOX) :=
    .memcpyToSymbol s.device
  -- The round keys.
  refine (cudaMalloc_spec driver _ _).bind ?_
  rintro result s₂ events₂
    (⟨roundKeys, rfl, -, -, fresh₂, rfl, rfl⟩ | ⟨rc, rfl, failure, -, rfl, rfl⟩)
  swap
  · refine Ensures.bind_eq rfl (Ensures.pure (.of_writes ?_))
    simpa using copied
  refine Ensures.bind_eq rfl ?_
  -- The powers of the hash key.
  refine (cudaMalloc_spec driver _ _).bind ?_
  rintro result s₃ events₃
    (⟨hPow2, rfl, -, -, fresh₃, rfl, rfl⟩ | ⟨rc, rfl, failure, -, rfl, rfl⟩)
  swap
  · refine (cudaFree_events driver _ roundKeys).bind fun _ s₄ events₄ released => ?_
    refine Ensures.bind_eq rfl (Ensures.pure (.of_writes fun event member => ?_))
    simp only [List.append_nil, List.nil_append, List.singleton_append,
      List.mem_cons] at member
    rcases member with rfl | rfl | later
    · exact copied
    · exact .malloc roundKeys
    · rw [released event later]
      exact .free roundKeys
  refine Ensures.bind_eq rfl ?_
  have freshKeys : roundKeys ∉ s.livePtrs := fresh₂
  have freshPowers : hPow2 ∉ s.livePtrs :=
    fun member => fresh₃ (List.mem_cons_of_mem _ member)
  have allocated : ∀ event ∈ [.memcpyToSymbol s.device HOST_SBOX, .malloc roundKeys,
      .malloc hPow2], Preparation s event := by
    refine List.forall_mem_cons.mpr ⟨copied, List.forall_mem_cons.mpr ⟨.malloc _,
      List.forall_mem_singleton.mpr (.malloc _)⟩⟩
  -- The copy of the round keys.
  refine (cudaMemcpy_spec driver _ _ _).bind ?_
  rintro rc s₄ events₄ (⟨rfl, -, rfl, rfl⟩ | ⟨failure, -, rfl, rfl⟩)
  swap
  · rw [if_pos failure]
    refine (undo_events reliable (List.mem_cons_self ..)).mono ?_
    rintro _ _ events ⟨-, released⟩
    refine .of_writes fun event member => ?_
    rcases List.mem_append.mp (show event ∈ [.memcpyToSymbol s.device HOST_SBOX,
      .malloc roundKeys, .malloc hPow2] ++ events by simpa using member)
      with early | late
    · exact allocated event early
    · obtain ⟨q, rfl⟩ := released event late
      exact .free q
  rw [if_neg (by simp)]
  let writes : List Event := [.memcpyToSymbol s.device HOST_SBOX, .malloc roundKeys,
    .malloc hPow2, .memcpy roundKeys (expandAes128Key key)]
  have prepared : ∀ event ∈ writes, Preparation s event := by
    obtain ⟨symbol, room⟩ := List.forall_mem_cons.mp allocated
    obtain ⟨room, room'⟩ := List.forall_mem_cons.mp room
    exact List.forall_mem_cons.mpr ⟨symbol, List.forall_mem_cons.mpr ⟨room,
      List.forall_mem_cons.mpr ⟨List.forall_mem_singleton.mp room',
        List.forall_mem_singleton.mpr (.memcpy _ freshKeys)⟩⟩⟩
  -- The launch that fills the powers.
  refine (launchKernel_spec driver _ _ _ _ 0).bind ?_
  rintro - s₅ launched ⟨quiet, init⟩
  have live : hPow2 ∈ s₅.livePtrs := by
    rw [HostState.livePtrs, quiet.allocations]
    exact List.mem_cons_self ..
  obtain ⟨l, init⟩ : ∃ l, launched = launchEvents 0 l ∧
      (l = [] ∨ ∃ l₀, l = [l₀] ∧ FreshLaunch s l₀) := by
    rcases init with ⟨-, -, rfl, -⟩ | ⟨-, rfl, -⟩
    · exact ⟨[_], rfl, Or.inr ⟨_, rfl, _, roundKeys, hPow2, rfl, freshKeys,
        freshPowers⟩⟩
    · exact ⟨[], rfl, Or.inl rfl⟩
  obtain ⟨rfl, shape⟩ := init
  have parts : ∀ rest : List Event, rest ≠ [] → (∀ event ∈ rest, Settlement event) →
      CreationTrace s (writes ++ launchEvents 0 l ++ rest) := by
    intro rest waits settled
    refine ⟨writes, l, rest, rfl, prepared, settled, shape.imp_right ?_⟩
    rintro ⟨l₀, single, fresh⟩
    exact ⟨l₀, single, fresh, waits⟩
  refine (cudaDeviceSynchronize_spec driver _).bind ?_
  rintro rc s₆ events₆ (⟨rfl, -, rfl, rfl⟩ | ⟨failure, -, rfl, rfl⟩)
  · rw [if_neg (by simp)]
    refine Ensures.bind_eq rfl (Ensures.pure ?_)
    simpa [writes] using parts [.synchronize] (by simp)
      (List.forall_mem_singleton.mpr .synchronize)
  · rw [if_pos failure]
    have live' : hPow2 ∈ (s₅.failed .synchronize rc).livePtrs := live
    refine (undo_events reliable live').mono ?_
    rintro _ _ events ⟨waits, released⟩
    have settled : ∀ event ∈ events, Settlement event := fun event member => by
      obtain ⟨q, rfl⟩ := released event member
      exact .free q
    simpa [writes] using parts events waits settled

/-- The trace of a creation does not depend on the state of the guard. -/
theorem CreationTrace.congr {s s' : HostState} {events : List Event}
    (trace : CreationTrace s events) (same : s.livePtrs = s'.livePtrs) :
    CreationTrace s' events := by
  obtain ⟨writes, launched, rest, split, prepared, settled, shape⟩ := trace
  refine ⟨writes, launched, rest, split, fun event member => ?_, settled, ?_⟩
  · cases prepared event member with
    | memcpyToSymbol device => exact .memcpyToSymbol device
    | memcpy bytes fresh => exact .memcpy bytes (same ▸ fresh)
    | malloc p => exact .malloc p
    | free p => exact .free p
  · refine shape.imp_right ?_
    rintro ⟨l, single, fresh, waits⟩
    obtain ⟨device, roundKeys, hPow2, rfl, keys, powers⟩ := fresh.tables
    exact ⟨_, single, ⟨device, roundKeys, hPow2, rfl, same ▸ keys, same ▸ powers⟩,
      waits⟩

/-- The guard of a call adds no events to those of its body. -/
theorem withDevice_events {driver : Driver} {s : HostState} {α : Type} (device : Int)
    (body : Cuda α) {traced : List Event → Prop}
    (inside : ∀ s', SameHeap s s' →
      body.Ensures driver s' fun _ _ events => traced events) :
    (withDevice device body).Ensures driver s fun _ _ events => traced events := by
  have guarded := withDevice_spec driver s device body
    fun s' heap _ _ _ _ => inside s' heap
  refine guarded.mono ?_
  rintro _ _ events ⟨_, kept, -⟩
  exact kept

/-- What a creation asks of the device, if no release fails. -/
theorem lmcacheGpuAes128gcmKeyCreate_trace {driver : Driver}
    (reliable : driver.Succeeds {.free}) (s : HostState)
    (key : Option (Vector Byte 16)) (keyLen : Nat) (device : Int) (out : Ptr) :
    (lmcacheGpuAes128gcmKeyCreate key keyLen device out).Ensures driver s
      fun _ _ events => CreationTrace s events := by
  have nothing : CreationTrace s [] := .of_writes (by simp)
  cases key with
  | none => exact Ensures.pure nothing
  | some key =>
      refine Ensures.ite (fun _ => Ensures.pure nothing) fun _ => ?_
      refine withDevice_events device _ fun s₀ heap₀ => ?_
      refine (newKeyHandle_spec driver s₀).bind ?_
      rintro result s₁ events ⟨rfl, ⟨p, rfl, -, -, -, rfl⟩ | ⟨rfl, -, rfl⟩⟩
      · refine (createTables_trace reliable _ p key device out).mono
          fun _ _ events trace => trace.congr ?_
        exact congrArg (List.map Allocation.ptr) heap₀.allocations
      · exact Ensures.pure nothing

end GpuKvSeal.Host
