import GpuKvSeal.Host.Binding
import GpuKvSeal.Host.Heap

/-!
# Key objects of the binding

A Python object owns the native handle that its constructor received.  It gives the
handle back when it is closed or dropped, and closing it again does nothing.  A
session of statements over such objects is a program of the C interface that uses
handles only while they are live, whatever fails, and whichever statements the
program makes on objects it has closed already.
-/

namespace GpuKvSeal.Host

open Device (Ptr IV_LEN)
open BigEndian (Byte)
open TracedState.Traced (Ensures)

abbrev KEY_LEN : Nat := 16

/-- A Python integer passed as a `c_int`. -/
def cInt (value : Int) : Int := Int.bmod value (2 ^ 32)

/-! ## Methods -/

namespace GpuAes128GcmKey

/-- The constructor.  `field` is where the interpreter puts the `c_void_p` that
receives the handle; the second component is the attribute `_handle`, if it is set. -/
def init (key : List Byte) (device : Int) (field : Ptr) :
    Cuda (Except BindingError Unit × Option Ptr) :=
  if key.length ≠ KEY_LEN then
    pure (.error (.valueError "AES-128 key must be exactly 16 bytes"), none)
  else do
    modifyState fun s => { s with outs := Function.update s.outs field 0 }
    let keyBuf := Vector.ofFn fun i : Fin 16 => key.getD i.val 0#8
    let rc ← lmcacheGpuAes128gcmKeyCreate (some keyBuf) KEY_LEN (cInt device) field
    let s ← getState
    let handle := s.outs field
    pure (do
      check rc "key_create"
      if handle = 0 then
        .error (.gpuAesGcmError "key_create succeeded but returned NULL handle")
      else .ok (), some handle)

/-- The property `handle`. -/
def handle (handle : Ptr) : Except BindingError Ptr :=
  if handle = 0 then .error (.gpuAesGcmError "GPU AES-GCM key has been closed")
  else .ok handle

/-- `close`, which is `__exit__` too. -/
def close (handle : Ptr) : Cuda (Except BindingError Unit × Ptr) :=
  if handle = 0 then pure (.ok (), 0)
  else do
    let rc ← lmcacheGpuAes128gcmKeyDestroy handle
    pure (check rc "key_destroy", 0)

/-- `__del__`, which looks whether the attribute is set. -/
def del (handle : Option Ptr) : Cuda Unit :=
  match handle with
  | none => pure ()
  | some handle =>
      if handle = 0 then pure ()
      else do
        let _ ← lmcacheGpuAes128gcmKeyDestroy handle
        pure ()

end GpuAes128GcmKey

/-! ## Sessions -/

/-- The objects that the variables of a program refer to, by the values of their
attribute `_handle`. -/
abbrev KeyObjects := AList fun _ : String => Ptr

/-- The exceptions of a statement. -/
inductive PythonError where
  | nameError (name : String)
  | binding (error : BindingError)
  deriving DecidableEq, Repr

/-- Statements over key objects.  Assigning a variable or deleting it drops the object
it referred to. -/
inductive KeyStatement where
  | construct (name : String) (key : List Byte) (device : Int) (field : Ptr)
  | reserve (name : String) (maxPlaintextLen : Int)
  | sealAsync (name : String) (srcPtr plaintextLen dstPtr dstCapacity : Int)
      (iv : List Byte) (streamPtr : Int)
  | openAsync (name : String) (srcPtr frameLen dstPtr plaintextLen authOkPtr
      streamPtr : Int)
  | close (name : String)
  | drop (name : String)
  deriving DecidableEq

namespace KeyStatement

/-- Run a method of the object that a variable refers to. -/
def withObject (objects : KeyObjects) (name : String)
    (method : Ptr → Cuda (Except BindingError Unit × KeyObjects)) :
    Cuda (Except PythonError Unit × KeyObjects) :=
  match objects.lookup name with
  | none => pure (.error (.nameError name), objects)
  | some handle => do
      let (result, objects) ← method handle
      pure (result.mapError .binding, objects)

/-- The result of a statement and the objects after it. -/
def perform (objects : KeyObjects) :
    KeyStatement → Cuda (Except PythonError Unit × KeyObjects)
  | .construct name key device field => do
      let (result, handle) ← GpuAes128GcmKey.init key device field
      match result with
      | .error e => do
          -- Nothing refers to the new object.
          GpuAes128GcmKey.del handle
          pure (.error (.binding e), objects)
      | .ok () => do
          GpuAes128GcmKey.del (objects.lookup name)
          pure (.ok (), objects.insert name (handle.getD 0))
  | .reserve name maxPlaintextLen =>
      withObject objects name fun handle => do
        let result ← GpuAes128GcmKey.reserve handle maxPlaintextLen
        pure (result, objects)
  | .sealAsync name srcPtr plaintextLen dstPtr dstCapacity iv streamPtr =>
      withObject objects name fun handle => do
        let result ← GpuAes128GcmKey.sealAsync handle srcPtr plaintextLen dstPtr
          dstCapacity iv streamPtr
        pure (result, objects)
  | .openAsync name srcPtr frameLen dstPtr plaintextLen authOkPtr streamPtr =>
      withObject objects name fun handle => do
        let result ← GpuAes128GcmKey.openAsync handle srcPtr frameLen dstPtr
          plaintextLen authOkPtr streamPtr
        pure (result, objects)
  | .close name =>
      withObject objects name fun handle => do
        let (result, handle) ← GpuAes128GcmKey.close handle
        pure (result, objects.insert name handle)
  | .drop name =>
      withObject objects name fun handle => do
        GpuAes128GcmKey.del (some handle)
        pure (.ok (), objects.erase name)

end KeyStatement

/-- Statements one after another, each exception caught. -/
def runSession : KeyObjects → List KeyStatement → Cuda KeyObjects
  | objects, [] => pure objects
  | objects, statement :: rest => do
      let (_, objects) ← statement.perform objects
      runSession objects rest

/-! ## The caller's variables do not matter -/

/-- A computation writes the variables of callers and never reads them. -/
def IgnoresOuts {α : Type} (program : Cuda α) : Prop :=
  ∀ driver s outs, ∃ outs', program driver { s with outs := outs } =
    ⟨(program driver s).value, { (program driver s).state with outs := outs' },
      (program driver s).events⟩

theorem IgnoresOuts.bind {α β : Type} {first : Cuda α} {second : α → Cuda β}
    (before : IgnoresOuts first) (after : ∀ value, IgnoresOuts (second value)) :
    IgnoresOuts (first >>= second) := by
  intro driver s outs
  obtain ⟨outs₁, same₁⟩ := before driver s outs
  obtain ⟨outs₂, same₂⟩ := after (first driver s).value driver (first driver s).state outs₁
  exact ⟨outs₂, by simp only [TracedState.Traced.bind_apply, same₁, same₂]⟩

theorem call_ignoresOuts (kind : RuntimeCall) : IgnoresOuts (call kind) := by
  intro driver s outs
  refine ⟨outs, ?_⟩
  by_cases success : driver.outcome kind s.calls = cudaSuccess
  · simp [call, success]
  · simp [call, success]

theorem release_ignoresOuts (p : Ptr) : IgnoresOuts (release p) := by
  intro driver s outs
  refine ⟨outs, ?_⟩
  by_cases live : p ∈ s.livePtrs
  · have live' : p ∈ ({ s with outs := outs } : HostState).livePtrs := live
    simp [release, live, live']
  · have dead : p ∉ ({ s with outs := outs } : HostState).livePtrs := live
    simp [release, live, dead]

/-- A change of the state that does not touch the variables. -/
theorem modifyState_ignoresOuts {f : HostState → HostState}
    (other : ∀ s outs, ∃ outs', f { s with outs := outs } = { f s with outs := outs' }) :
    IgnoresOuts (modifyState f) := by
  intro driver s outs
  obtain ⟨outs', same⟩ := other s outs
  exact ⟨outs', by simp only [modifyState, same]⟩

theorem ignoresOuts_of_composed {α : Type} {program : Cuda α}
    (composed : Composed program) : IgnoresOuts program := by
  have done : ∀ {α : Type} (value : α), IgnoresOuts (Pure.pure value) :=
    fun value driver s outs => ⟨outs, rfl⟩
  have unchanged : ∀ {f : HostState → HostState},
      (∀ s outs, f { s with outs := outs } = { f s with outs := outs }) →
      IgnoresOuts (modifyState f) :=
    fun same => modifyState_ignoresOuts fun s outs => ⟨outs, same s outs⟩
  have emit : ∀ condition event, IgnoresOuts (emitWhen condition event) :=
    fun condition event driver s outs => ⟨outs, rfl⟩
  induction composed with
  | pure value => exact done value
  | bind before after first second => exact first.bind second
  | readHandle key => exact fun driver s outs => ⟨outs, rfl⟩
  | modifyHandle key f => exact unchanged fun s outs => rfl
  | newKeyHandle =>
      intro driver s outs
      refine ⟨outs, ?_⟩
      by_cases success : driver.outcome .new s.calls = cudaSuccess
      · simp [newKeyHandle, success]
      · simp [newKeyHandle, success]
  | deleteHandle key => exact unchanged fun s outs => rfl
  | storeKey out key =>
      exact modifyState_ignoresOuts fun s outs => ⟨Function.update outs out key, rfl⟩
  | cudaPeekAtLastError => exact fun driver s outs => ⟨outs, rfl⟩
  | cudaGetDevice =>
      apply (call_ignoresOuts .getDevice).bind
      exact fun rc driver s outs => ⟨outs, rfl⟩
  | cudaSetDevice target =>
      apply (call_ignoresOuts .setDevice).bind
      intro rc
      refine IgnoresOuts.bind (unchanged fun s outs => ?_) fun _ => done rc
      split
      · rfl
      · rfl
  | cudaMalloc bytes =>
      apply (call_ignoresOuts .malloc).bind
      intro rc
      split
      · refine IgnoresOuts.bind ?_ fun p => done (Except.ok p)
        exact fun driver s outs => ⟨outs, rfl⟩
      · exact done _
  | cudaFree p =>
      apply (call_ignoresOuts .free).bind
      intro rc
      split
      · exact release_ignoresOuts p
      · exact done rc
  | cudaMemcpyToSymbol table =>
      apply (call_ignoresOuts .memcpyToSymbol).bind
      exact fun rc driver s outs => ⟨outs, rfl⟩
  | cudaMemcpy dst bytes =>
      exact (call_ignoresOuts .memcpy).bind fun rc => (emit _ _).bind fun _ => done rc
  | cudaDeviceSynchronize =>
      exact (call_ignoresOuts .synchronize).bind fun rc => (emit _ _).bind fun _ =>
        done rc
  | launchKernel kernel grid threads stream =>
      unfold launchKernel
      split
      · exact unchanged fun s outs => rfl
      · apply (call_ignoresOuts .launch).bind
        exact fun rc driver s outs => ⟨outs, rfl⟩

/-! ## Sessions as programs -/

/-- Calls that lead from one state to another, up to the variables of callers, and use
handles only while they are live. -/
structure Mirrors (driver : Driver) (s : HostState) (calls : List ApiCall)
    (s' : HostState) (events : List Event) : Prop where
  valid : Valid driver s calls
  events : programEvents driver s calls = events
  state : ∃ outs, s' = { stateAfter driver s calls with outs := outs }

/-- The same calls from a state with other variables. -/
theorem Mirrors.outs {driver : Driver} {s s' : HostState} {calls : List ApiCall}
    {events : List Event} (mirrors : Mirrors driver s calls s' events)
    (outs : Ptr → Ptr) : Mirrors driver { s with outs := outs } calls s' events := by
  obtain ⟨valid, rfl, final, rfl⟩ := mirrors
  induction calls generalizing s outs with
  | nil => exact ⟨trivial, rfl, final, rfl⟩
  | cons c rest ih =>
      obtain ⟨outs', same⟩ := ignoresOuts_of_composed c.perform_composed driver s outs
      obtain ⟨valid', events', final', state'⟩ := ih outs' valid.2
      refine ⟨⟨valid.1, ?_⟩, ?_, final', ?_⟩
      · rw [same]
        exact valid'
      · rw [programEvents, programEvents, same, events']
      · rw [stateAfter, stateAfter, same]
        exact state'

theorem Mirrors.append {driver : Driver} {s s' s'' : HostState}
    {first second : List ApiCall} {events events' : List Event}
    (before : Mirrors driver s first s' events)
    (after : Mirrors driver s' second s'' events') :
    Mirrors driver s (first ++ second) s'' (events ++ events') := by
  obtain ⟨valid, rfl, outs, rfl⟩ := before
  replace after := after.outs (stateAfter driver s first).outs
  change Mirrors driver (stateAfter driver s first) second s'' events' at after
  induction first generalizing s with
  | nil => exact after
  | cons c rest ih =>
      obtain ⟨valid', events', final, rfl⟩ := ih valid.2 after
      exact ⟨⟨valid.1, valid'⟩, by rw [List.cons_append, programEvents, events',
        programEvents, List.append_assoc], final, rfl⟩

/-- Changing a variable takes no call. -/
theorem Mirrors.none (driver : Driver) (s : HostState) (outs : Ptr → Ptr) :
    Mirrors driver s [] { s with outs := outs } [] := ⟨trivial, rfl, outs, rfl⟩

/-- One call. -/
theorem Mirrors.call (driver : Driver) {s : HostState} {c : ApiCall}
    (allowed : c.Allowed s) :
    c.perform.Ensures driver s fun _ s' events => Mirrors driver s [c] s' events :=
  ⟨⟨allowed, trivial⟩, List.append_nil _, _, rfl⟩

/-- No object has a handle that is not live, and every live handle belongs to exactly
one object. -/
structure Owns (objects : KeyObjects) (s : HostState) : Prop where
  live : ∀ name p, objects.lookup name = some p → p = 0 ∨ p ∈ s.handles
  once : ∀ p ∈ s.handles, ∃! name, objects.lookup name = some p

/-- The same handles are live. -/
theorem Owns.congr {objects : KeyObjects} {s s' : HostState} (owns : Owns objects s)
    (same : ∀ p, p ∈ s'.handles ↔ p ∈ s.handles) : Owns objects s' where
  live := fun name p found => (owns.live name p found).imp_right (same p).mpr
  once := fun p member => owns.once p ((same p).mp member)

/-- The same variables refer to the same objects. -/
theorem Owns.reassigned {objects objects' : KeyObjects} {s : HostState}
    (owns : Owns objects s)
    (same : ∀ name, objects'.lookup name = objects.lookup name) : Owns objects' s where
  live := fun name p found => owns.live name p ((same name).symm.trans found)
  once := fun p member => by
    simp only [same]
    exact owns.once p member

/-- An object gives its handle back: it is closed, or it is gone. -/
theorem Owns.released {objects objects' : KeyObjects} {s s' : HostState}
    (owns : Owns objects s) {name : String} {handle : Ptr}
    (found : objects.lookup name = some handle)
    (here : ∀ p, objects'.lookup name = some p → p = 0)
    (others : ∀ name', name' ≠ name → objects'.lookup name' = objects.lookup name')
    (erased : ∀ p, p ∈ s'.handles ↔ p ≠ handle ∧ p ∈ s.handles)
    (nonnull : ∀ p ∈ s.handles, p ≠ 0) : Owns objects' s' where
  live := by
    intro name' p held
    by_cases same : name' = name
    · subst same
      exact Or.inl (here p held)
    · rw [others name' same] at held
      refine (owns.live name' p held).imp_right fun member => (erased p).mpr ⟨?_, member⟩
      rintro rfl
      exact same ((owns.once p member).unique held found)
  once := by
    intro p member
    obtain ⟨different, live⟩ := (erased p).mp member
    obtain ⟨owner, held, unique⟩ := owns.once p live
    have other : owner ≠ name := by
      rintro rfl
      exact different (Option.some.inj (held.symm.trans found))
    refine ⟨owner, (others owner other).trans held, fun name' held' => ?_⟩
    by_cases same : name' = name
    · subst same
      exact absurd (here p held') (nonnull p live)
    · exact unique name' ((others name' same).symm.trans held')

/-- A new object gets a new handle. -/
theorem Owns.acquired {objects : KeyObjects} {s s' : HostState} (owns : Owns objects s)
    {name : String} {handle : Ptr} (fresh : handle ∉ s.handles) (nonnull : handle ≠ 0)
    (unused : ∀ p, objects.lookup name = some p → p = 0)
    (inserted : ∀ p, p ∈ s'.handles ↔ p = handle ∨ p ∈ s.handles)
    (positive : ∀ p ∈ s.handles, p ≠ 0) : Owns (objects.insert name handle) s' where
  live := by
    intro name' p held
    by_cases same : name' = name
    · subst same
      rw [AList.lookup_insert] at held
      exact Or.inr ((inserted p).mpr (Or.inl (Option.some.inj held).symm))
    · rw [AList.lookup_insert_ne same] at held
      exact (owns.live name' p held).imp_right fun member =>
        (inserted p).mpr (Or.inr member)
  once := by
    intro p member
    rcases (inserted p).mp member with rfl | live
    · refine ⟨name, AList.lookup_insert objects, fun name' held => ?_⟩
      by_contra different
      change (objects.insert name p).lookup name' = some p at held
      rw [AList.lookup_insert_ne different] at held
      rcases owns.live name' p held with null | old
      · exact nonnull null
      · exact fresh old
    · obtain ⟨owner, held, unique⟩ := owns.once p live
      have other : owner ≠ name := by
        rintro rfl
        exact positive p live (unused p held)
      refine ⟨owner, (AList.lookup_insert_ne other).trans held, fun name' held' => ?_⟩
      by_cases same : name' = name
      · subst same
        change (objects.insert name' handle).lookup name' = some p at held'
        rw [AList.lookup_insert] at held'
        cases held'
        exact absurd live fresh
      · change (objects.insert name handle).lookup name' = some p at held'
        rw [AList.lookup_insert_ne same] at held'
        exact unique name' held'

/-! ## Each statement -/

/-- What calls made by a statement do to the host. -/
structure Advance (driver : Driver) (s s' : HostState) (events : List Event) : Prop where
  mirrors : ∃ calls, Mirrors driver s calls s' events
  accounted : ∃ leaked, Accounted s' leaked

theorem Advance.append {driver : Driver} {s s' s'' : HostState}
    {events events' : List Event} (before : Advance driver s s' events)
    (after : Advance driver s' s'' events') : Advance driver s s'' (events ++ events') := by
  obtain ⟨⟨first, mirrors⟩, -⟩ := before
  obtain ⟨⟨second, mirrors'⟩, accounted⟩ := after
  exact ⟨⟨_, mirrors.append mirrors'⟩, accounted⟩

section Statements

variable {driver : Driver} {s : HostState} (accounted : ∃ leaked, Accounted s leaked)

include accounted

theorem Advance.none : Advance driver s s [] := ⟨⟨[], .none driver s s.outs⟩, accounted⟩

theorem handles_nonnull : ∀ p ∈ s.handles, p ≠ 0 := by
  obtain ⟨leaked, accounted⟩ := accounted
  exact accounted.keys

theorem call_advance {c : ApiCall} (allowed : c.Allowed s) :
    c.perform.Ensures driver s fun _ s' events => Advance driver s s' events := by
  obtain ⟨leaked, accounted⟩ := accounted
  refine ((Mirrors.call driver allowed).and
    (c.perform_spec driver accounted allowed)).mono ?_
  rintro _ s' events ⟨mirrors, effect⟩
  obtain ⟨lost, accounted', -⟩ := effect.accounted
  exact ⟨⟨_, mirrors⟩, _, accounted'⟩

/-- An operation leaves the same handles live. -/
theorem operation_handles {c : ApiCall} (allowed : c.Allowed s)
    (operation : (∀ key keyLen device out, c ≠ .keyCreate key keyLen device out) ∧
      ∀ p, c ≠ .keyDestroy p) :
    c.perform.Ensures driver s fun _ s' _ => ∀ p, p ∈ s'.handles ↔ p ∈ s.handles := by
  obtain ⟨leaked, accounted⟩ := accounted
  exact (c.perform_spec driver accounted allowed).mono fun _ _ _ effect =>
    effect.members accounted allowed operation.1 fun p _ => operation.2 p

/-- A handle is given back. -/
theorem keyDestroy_handles {handle : Ptr} (allowed : handle = 0 ∨ handle ∈ s.handles) :
    (lmcacheGpuAes128gcmKeyDestroy handle).Ensures driver s fun rc s' _ =>
      rc = .ok ∧ ∀ p, p ∈ s'.handles ↔ p ≠ handle ∧ p ∈ s.handles := by
  have nonnull := handles_nonnull accounted
  obtain ⟨leaked, accounted⟩ := accounted
  by_cases null : handle = 0
  · rw [lmcacheGpuAes128gcmKeyDestroy, if_pos null]
    exact Ensures.pure ⟨rfl, fun p => ⟨fun member => ⟨null ▸ nonnull p member, member⟩,
      And.right⟩⟩
  · obtain ⟨h, live⟩ := Option.isSome_iff_exists.mp
      (AList.lookup_isSome.mpr (allowed.resolve_left null))
    refine (lmcacheGpuAes128gcmKeyDestroy_spec driver accounted live).mono ?_
    rintro rc s' events destroyed
    refine ⟨destroyed.code, fun p => ?_⟩
    rw [destroyed.handles]
    exact AList.mem_erase

/-- What becomes of a handle that an object gives back. -/
theorem del_spec {handle : Ptr} (allowed : handle = 0 ∨ handle ∈ s.handles) :
    (GpuAes128GcmKey.del (some handle)).Ensures driver s fun _ s' events =>
      Advance driver s s' events ∧
        ∀ p, p ∈ s'.handles ↔ p ≠ handle ∧ p ∈ s.handles := by
  have nonnull := handles_nonnull accounted
  refine Ensures.ite (fun null => ?_) fun _ => ?_
  · exact Ensures.pure ⟨.none accounted, fun p =>
      ⟨fun member => ⟨null ▸ nonnull p member, member⟩, And.right⟩⟩
  · refine ((call_advance accounted (c := .keyDestroy handle) allowed).and
      (keyDestroy_handles accounted allowed)).bind ?_
    rintro rc s' events ⟨advance, -, erased⟩
    exact Ensures.pure ⟨(List.append_nil events).symm ▸ advance, erased⟩

theorem close_spec {handle : Ptr} (allowed : handle = 0 ∨ handle ∈ s.handles) :
    (GpuAes128GcmKey.close handle).Ensures driver s fun result s' events =>
      result = (.ok (), 0) ∧ Advance driver s s' events ∧
        ∀ p, p ∈ s'.handles ↔ p ≠ handle ∧ p ∈ s.handles := by
  have nonnull := handles_nonnull accounted
  refine Ensures.ite (fun null => ?_) fun _ => ?_
  · exact Ensures.pure ⟨rfl, .none accounted, fun p =>
      ⟨fun member => ⟨null ▸ nonnull p member, member⟩, And.right⟩⟩
  · refine ((call_advance accounted (c := .keyDestroy handle) allowed).and
      (keyDestroy_handles accounted allowed)).bind ?_
    rintro rc s' events ⟨advance, rfl, erased⟩
    exact Ensures.pure ⟨rfl, (List.append_nil events).symm ▸ advance, erased⟩

/-- A constructor that succeeds has a new handle, and one that fails has none. -/
theorem init_spec (key : List Byte) (device : Int) (field : Ptr) :
    (GpuAes128GcmKey.init key device field).Ensures driver s fun result s' events =>
      Advance driver s s' events ∧
        ((result.1 = .ok () ∧ ∃ p, result.2 = some p ∧ p ≠ 0 ∧ p ∉ s.handles ∧
            ∀ q, q ∈ s'.handles ↔ q = p ∨ q ∈ s.handles) ∨
          (∃ e, result.1 = .error e ∧ (result.2 = none ∨ result.2 = some 0) ∧
            ∀ q, q ∈ s'.handles ↔ q ∈ s.handles)) := by
  refine Ensures.ite (fun _ => ?_) fun _ => ?_
  · exact Ensures.pure ⟨.none accounted, Or.inr ⟨_, rfl, Or.inl rfl, fun _ => Iff.rfl⟩⟩
  obtain ⟨leaked, accounted⟩ := accounted
  let s₀ : HostState := { s with outs := Function.update s.outs field 0 }
  have accounted₀ : Accounted s₀ leaked :=
    ⟨accounted.holds.congr rfl rfl, accounted.empty, accounted.keys⟩
  have start : Advance driver s s₀ [] := ⟨⟨[], .none driver s _⟩, leaked, accounted₀⟩
  have zeroed : modifyState (fun s => { s with outs := Function.update s.outs field 0 })
      driver s = ⟨(), s₀, []⟩ := rfl
  refine Ensures.bind_eq zeroed ?_
  have refused : ∀ rc : ReturnCode, rc ≠ .ok →
      ∃ e, check rc "key_create" = .error e := by
    intro rc bad
    cases rc with
    | ok => exact absurd rfl bad
    | errArgument | errAlloc | errCuda | errInternal => exact ⟨_, rfl⟩
  let keyBuf : Vector Byte 16 := Vector.ofFn fun i : Fin 16 => key.getD i.val 0#8
  have call : (lmcacheGpuAes128gcmKeyCreate (some keyBuf) 16 (cInt device) field).Ensures
      driver s₀ fun _ s' events => Advance driver s₀ s' events :=
    call_advance ⟨leaked, accounted₀⟩
      (c := .keyCreate (some keyBuf) 16 (cInt device) field) (Or.inl rfl)
  by_cases null : field = 0
  · have outcome : lmcacheGpuAes128gcmKeyCreate (some keyBuf) 16 (cInt device) field =
        pure .errArgument :=
      lmcacheGpuAes128gcmKeyCreate_refused (cInt device) (Or.inr (Or.inl null))
    refine Ensures.bind_eq (congrFun (congrFun outcome driver) s₀)
      (Ensures.bind_eq rfl (Ensures.pure ⟨start, Or.inr ?_⟩))
    refine ⟨_, rfl, Or.inr ?_, fun _ => Iff.rfl⟩
    exact congrArg some (Function.update_self ..)
  · refine (call.and (lmcacheGpuAes128gcmKeyCreate_spec driver keyBuf (cInt device)
      null accounted₀)).bind ?_
    rintro rc s₁ events ⟨advance, created⟩
    refine Ensures.bind_eq rfl (Ensures.pure ?_)
    simp only [List.nil_append, List.append_nil]
    refine ⟨start.append advance, ?_⟩
    cases created.result with
    | created p roundKeys hPow2 current launched nonnull fresh handles outs =>
        have held : s₁.outs field = p := by rw [outs, Function.update_self]
        refine Or.inl ⟨?_, p, congrArg some held, nonnull, fresh, fun q => ?_⟩
        · rw [held]
          exact if_neg nonnull
        · rw [handles]
          exact AList.mem_insert _
    | failed bad handles outs =>
        obtain ⟨e, raised⟩ := refused rc bad
        refine Or.inr ⟨e, ?_, Or.inr ?_, fun q => by rw [handles]⟩
        · rw [raised]
          rfl
        · rw [outs]
          exact congrArg some (Function.update_self ..)

/-- A statement on the object that a variable refers to, if it refers to one. -/
theorem withObject_spec {objects : KeyObjects} (owns : Owns objects s) {name : String}
    {method : Ptr → Cuda (Except BindingError Unit × KeyObjects)}
    (found : ∀ handle, objects.lookup name = some handle →
      (method handle).Ensures driver s fun result s' events =>
        Advance driver s s' events ∧ Owns result.2 s') :
    (KeyStatement.withObject objects name method).Ensures driver s
      fun result s' events => Advance driver s s' events ∧ Owns result.2 s' := by
  unfold KeyStatement.withObject
  cases bound : objects.lookup name with
  | none => exact Ensures.pure ⟨.none accounted, owns⟩
  | some handle =>
      refine (found handle bound).bind fun result s' events kept => Ensures.pure ?_
      rwa [List.append_nil]

omit accounted in
/-- A method that leaves the objects as they are. -/
theorem unassigned_spec {objects : KeyObjects} {method : Cuda (Except BindingError Unit)}
    (kept : method.Ensures driver s fun _ s' events =>
      Advance driver s s' events ∧ Owns objects s') :
    (method >>= fun result => pure (result, objects)).Ensures driver s
      fun result s' events => Advance driver s s' events ∧ Owns result.2 s' := by
  refine kept.bind fun result s' events held => Ensures.pure ?_
  rwa [List.append_nil]

/-- A method that makes one call on the handle. -/
theorem native_spec {objects : KeyObjects} (owns : Owns objects s) {name : String}
    {c : ApiCall} (found : objects.lookup name = some c.handle)
    (kind : (∀ key keyLen device out, c ≠ .keyCreate key keyLen device out) ∧
      ∀ p, c ≠ .keyDestroy p) (operation : String) :
    (do
      let rc ← c.perform
      pure (check rc operation) : Cuda (Except BindingError Unit)).Ensures driver s
        fun _ s' events => Advance driver s s' events ∧ Owns objects s' := by
  have allowed : c.Allowed s := owns.live name c.handle found
  refine ((call_advance accounted allowed).and
    (operation_handles accounted allowed kind)).bind ?_
  rintro rc s' events ⟨advance, unchanged⟩
  exact Ensures.pure ⟨(List.append_nil events).symm ▸ advance, owns.congr unchanged⟩

/-- A new object takes the place of the one that a variable referred to. -/
theorem replaced_spec {objects : KeyObjects} {before : HostState}
    (owns : Owns objects before) {handle : Ptr} (nonnull : handle ≠ 0)
    (fresh : handle ∉ before.handles)
    (inserted : ∀ q, q ∈ s.handles ↔ q = handle ∨ q ∈ before.handles)
    (positive : ∀ p ∈ before.handles, p ≠ 0) (name : String) :
    (GpuAes128GcmKey.del (objects.lookup name)).Ensures driver s fun _ s' events =>
      Advance driver s s' events ∧ Owns (objects.insert name handle) s' := by
  cases bound : objects.lookup name with
  | none =>
      refine Ensures.pure ⟨.none accounted, owns.acquired fresh nonnull (fun p held => ?_)
        inserted positive⟩
      rw [bound] at held
      cases held
  | some old =>
      have allowed : old = 0 ∨ old ∈ s.handles := (owns.live name old bound).imp_right
        fun member => (inserted old).mpr (Or.inr member)
      refine (del_spec accounted allowed).mono ?_
      rintro _ s' events ⟨advance, erased⟩
      refine ⟨advance, ?_⟩
      -- The old object gives its handle back first, which makes no difference.
      have other : handle ≠ old := by
        rintro rfl
        rcases owns.live name handle bound with null | member
        · exact nonnull null
        · exact fresh member
      let without : HostState := { before with handles := before.handles.erase old }
      have gone : Owns (objects.erase name) without := by
        refine owns.released bound (fun p held => ?_)
          (fun name' different => AList.lookup_erase_ne different)
          (fun p => AList.mem_erase) positive
        rw [AList.lookup_erase] at held
        cases held
      have added : Owns ((objects.erase name).insert name handle) s' := by
        refine gone.acquired (fun member => fresh (AList.mem_erase.mp member).2) nonnull
          (fun p held => ?_) (fun q => ?_)
          fun p member => positive p (AList.mem_erase.mp member).2
        · rw [AList.lookup_erase] at held
          cases held
        · change q ∈ s'.handles ↔ q = handle ∨ q ∈ before.handles.erase old
          rw [erased, inserted, AList.mem_erase]
          constructor
          · rintro ⟨different, rfl | member⟩
            · exact Or.inl rfl
            · exact Or.inr ⟨different, member⟩
          · rintro (rfl | ⟨different, member⟩)
            · exact ⟨other, Or.inl rfl⟩
            · exact ⟨different, Or.inr member⟩
      refine added.reassigned fun name' => ?_
      by_cases same : name' = name
      · rw [same, AList.lookup_insert, AList.lookup_insert]
      · rw [AList.lookup_insert_ne same, AList.lookup_insert_ne same,
          AList.lookup_erase_ne same]

/-- What every statement keeps. -/
theorem perform_owns {objects : KeyObjects} (owns : Owns objects s)
    (statement : KeyStatement) :
    (statement.perform objects).Ensures driver s fun result s' events =>
      Advance driver s s' events ∧ Owns result.2 s' := by
  have positive := handles_nonnull accounted
  cases statement with
  | construct name key device field =>
      refine (init_spec accounted key device field).bind ?_
      rintro ⟨result, handle⟩ s₁ events ⟨advance, built⟩
      rcases built with ⟨rfl, p, rfl, nonnull, fresh, inserted⟩ | ⟨e, rfl, none, same⟩
      · refine (replaced_spec advance.accounted owns nonnull fresh inserted positive
          name).bind fun _ s₂ events' kept => Ensures.pure ?_
        rw [List.append_nil]
        exact ⟨advance.append kept.1, kept.2⟩
      · have dropped : (GpuAes128GcmKey.del handle).Ensures driver s₁
            fun _ s₂ events' => s₂ = s₁ ∧ events' = [] := by
          rcases none with rfl | rfl
          · exact Ensures.pure ⟨rfl, rfl⟩
          · have closed : GpuAes128GcmKey.del (some 0) driver s₁ = ⟨(), s₁, []⟩ := rfl
            exact Ensures.of_eq closed ⟨rfl, rfl⟩
        refine dropped.bind ?_
        rintro _ _ _ ⟨rfl, rfl⟩
        refine Ensures.pure ?_
        rw [List.append_nil, List.append_nil]
        exact ⟨advance, owns.congr same⟩
  | reserve name maxPlaintextLen =>
      refine withObject_spec accounted owns fun handle found => ?_
      exact unassigned_spec (native_spec accounted owns (c := .reserve handle _) found
        (by simp) "reserve")
  | sealAsync name srcPtr plaintextLen dstPtr dstCapacity iv streamPtr =>
      refine withObject_spec accounted owns fun handle found => unassigned_spec ?_
      refine Ensures.ite (fun _ => Ensures.pure ⟨.none accounted, owns⟩) fun _ => ?_
      exact native_spec accounted owns (c := .sealAsync handle _ _ _ _ _ _) found
        (by simp) "seal_async"
  | openAsync name srcPtr frameLen dstPtr plaintextLen authOkPtr streamPtr =>
      refine withObject_spec accounted owns fun handle found => ?_
      exact unassigned_spec (native_spec accounted owns
        (c := .openAsync handle _ _ _ _ _ _) found (by simp) "open_async")
  | close name =>
      refine withObject_spec accounted owns fun handle found => ?_
      refine (close_spec accounted (owns.live name handle found)).bind ?_
      rintro _ s' events ⟨rfl, advance, erased⟩
      refine Ensures.pure ⟨(List.append_nil events).symm ▸ advance, ?_⟩
      refine owns.released found (fun p held => ?_) (fun name' other => ?_) erased positive
      · exact (Option.some.inj ((AList.lookup_insert objects).symm.trans held)).symm
      · exact AList.lookup_insert_ne other
  | drop name =>
      refine withObject_spec accounted owns fun handle found => ?_
      refine (del_spec accounted (owns.live name handle found)).bind ?_
      rintro _ s' events ⟨advance, erased⟩
      refine Ensures.pure ⟨(List.append_nil events).symm ▸ advance, ?_⟩
      refine owns.released found (fun p held => ?_) (fun name' other => ?_) erased positive
      · rw [AList.lookup_erase] at held
        cases held
      · exact AList.lookup_erase_ne other

end Statements

/-! ## Whole sessions -/

/-- What every session keeps. -/
theorem runSession_owns {driver : Driver} {s : HostState}
    (accounted : ∃ leaked, Accounted s leaked) {objects : KeyObjects}
    (owns : Owns objects s) (statements : List KeyStatement) :
    (runSession objects statements).Ensures driver s fun objects' s' events =>
      Advance driver s s' events ∧ Owns objects' s' := by
  induction statements generalizing objects s with
  | nil => exact Ensures.pure ⟨.none accounted, owns⟩
  | cons statement rest ih =>
      refine (perform_owns accounted owns statement).bind ?_
      rintro ⟨result, objects'⟩ s' events ⟨advance, owns'⟩
      exact (ih advance.accounted owns').mono fun _ _ _ onward =>
        ⟨advance.append onward.1, onward.2⟩

theorem Owns.fresh {s : HostState} (fresh : Fresh s) : Owns ∅ s where
  live := fun name p held => by
    rw [AList.lookup_empty] at held
    cases held
  once := fun p member => by
    rw [fresh.handles] at member
    exact absurd member (AList.notMem_empty p)

/-- Whatever statements a session makes, also on closed objects, and whatever fails:
it is a program of the C interface whose calls are given handles that are null or live,
no object ever has a handle that is not live, and every live handle belongs to exactly
one object. -/
theorem session_is_program (driver : Driver) {s : HostState} (fresh : Fresh s)
    (statements : List KeyStatement) :
    let o := runSession ∅ statements driver s
    (∃ calls, Mirrors driver s calls o.state o.events) ∧ Owns o.value o.state := by
  intro o
  have kept : (runSession ∅ statements).Ensures driver s fun objects' s' events =>
      Advance driver s s' events ∧ Owns objects' s' :=
    runSession_owns ⟨[], fresh.accounted⟩ (.fresh fresh) statements
  exact ⟨kept.1.mirrors, kept.2⟩

/-- Calls that use handles only while they are live make up a run. -/
theorem Valid.run {driver : Driver} {s : HostState} {calls : List ApiCall}
    (valid : Valid driver s calls) :
    Run (· = driver) s calls (stateAfter driver s calls) := by
  have onward : ∀ {start s : HostState} {made : List ApiCall},
      Run (· = driver) start made s → Valid driver s calls →
      Run (· = driver) start (made ++ calls) (stateAfter driver s calls) := by
    clear valid
    induction calls with
    | nil =>
        intro start s made run _
        rwa [List.append_nil]
    | cons c rest ih =>
        intro start s made run valid
        have further := ih (.call run rfl c valid.1) valid.2
        rwa [List.append_assoc] at further
  exact onward .nil valid

/-- While no release fails, a session holds exactly the buffers of its open objects, it
has released every address as often as it was allocated but for those that are
allocated, and when all objects are closed or dropped nothing is left. -/
theorem session_releases {driver : Driver} (reliable : driver.Succeeds {.free})
    {s : HostState} (fresh : Fresh s) (statements : List KeyStatement) :
    let o := runSession ∅ statements driver s
    o.state.blocks.Perm o.state.owned ∧ o.state.invalidFrees = 0 ∧
    (∀ p, o.events.count (.malloc p) =
      o.events.count (.free p) + if p ∈ o.state.livePtrs then 1 else 0) ∧
    ((∀ name p, o.value.lookup name = some p → p = 0) →
      o.state.allocations = [] ∧
      ∀ p, o.events.count (.malloc p) = o.events.count (.free p)) := by
  intro o
  have kept : (runSession ∅ statements).Ensures driver s fun objects' s' events =>
      Advance driver s s' events ∧ Owns objects' s' :=
    runSession_owns ⟨[], fresh.accounted⟩ (.fresh fresh) statements
  obtain ⟨⟨⟨calls, valid, trace, outs, final⟩, -⟩, owns⟩ := kept
  have accounted : Accounted o.state [] := by
    have held := valid.run.accounted_nil (fun _ same => same ▸ reliable) fresh.accounted
    rw [show o.state = _ from final]
    exact ⟨held.holds.congr rfl rfl, held.empty, held.keys⟩
  have exactly : o.state.blocks.Perm o.state.owned := by
    simpa using accounted.holds.exactly
  have heap := programEvents_heap driver s calls
  have live : heapAfter s.livePtrs o.events = o.state.livePtrs := by
    rw [show o.events = _ from trace.symm, show o.state = _ from final]
    exact heap.heap
  have nothing : s.livePtrs = [] := by
    rw [HostState.livePtrs, fresh.allocations]
    rfl
  have counted : ∀ p, o.events.count (.malloc p) =
      o.events.count (.free p) + if p ∈ o.state.livePtrs then 1 else 0 := by
    intro p
    have lawful : Lawful s.livePtrs o.events := trace ▸ heap.lawful
    have balance := lawful.count p
    simp only [live] at balance
    rw [nothing] at balance
    exact balance
  refine ⟨exactly, accounted.holds.frees, counted, fun closed => ?_⟩
  have noHandles : o.state.handles.entries = [] := by
    rw [List.eq_nil_iff_forall_not_mem]
    rintro ⟨p, h⟩ member
    have handle : p ∈ o.state.handles := AList.lookup_isSome.mp
      (by rw [AList.mem_lookup_iff.mpr member]; rfl)
    obtain ⟨name, held, -⟩ := owns.once p handle
    exact accounted.keys p handle (closed name p held)
  have noBlocks : o.state.allocations = [] := by
    have none : o.state.owned = [] := by
      rw [HostState.owned, noHandles]
      rfl
    rw [none] at exactly
    exact List.map_eq_nil_iff.mp exactly.eq_nil
  refine ⟨noBlocks, fun p => ?_⟩
  have gone : p ∉ o.state.livePtrs := by
    rw [HostState.livePtrs, noBlocks]
    exact List.not_mem_nil
  rw [counted p, if_neg gone, Nat.add_zero]

/-- An object is constructed, used, closed twice, used again and dropped. -/
def closedEarly : List KeyStatement :=
  [.construct "key" (List.replicate 16 0#8) 0 8, .reserve "key" 100, .close "key",
    .close "key", .reserve "key" 100, .drop "key"]

theorem closedEarly_objects : (runSession ∅ closedEarly .steady .blank).value = ∅ := by
  rfl

theorem session_is_program_example :
    ∃ calls, Mirrors .steady .blank calls (runSession ∅ closedEarly .steady .blank).state
      (runSession ∅ closedEarly .steady .blank).events :=
  (session_is_program .steady HostState.blank_fresh closedEarly).1

theorem session_releases_example :
    (runSession ∅ closedEarly .steady .blank).state.allocations = [] := by
  have closed : ∀ name p,
      (runSession ∅ closedEarly .steady .blank).value.lookup name = some p → p = 0 := by
    intro name p held
    rw [closedEarly_objects, AList.lookup_empty] at held
    cases held
  obtain ⟨-, -, -, gone⟩ := session_releases (Driver.steady_succeeds _)
    HostState.blank_fresh closedEarly
  exact (gone closed).1

end GpuKvSeal.Host
