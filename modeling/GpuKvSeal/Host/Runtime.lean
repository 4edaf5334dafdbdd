import Mathlib
import GpuKvSeal.Device.Kernels
import GpuKvSeal.Foundations.TracedState

/-!
# The CUDA runtime as the host thread sees it

A runtime call changes the host thread's view of the runtime and may pass an
event on to the device.  Which calls fail, and where an allocation lands, is
decided by a driver that the development leaves arbitrary.
-/

namespace GpuKvSeal.Host

open Device (Ptr Launch)
open BigEndian (Byte)

/-- Error codes of the runtime; zero is success. -/
abbrev CudaError := Nat

abbrev cudaSuccess : CudaError := 0
abbrev cudaErrorInvalidValue : CudaError := 1
abbrev cudaErrorInvalidConfiguration : CudaError := 9

/-- The calls a driver may fail. -/
inductive RuntimeCall where
  | getDevice
  | setDevice
  | malloc
  | free
  | memcpy
  | memcpyToSymbol
  | launch
  | synchronize
  | new
  deriving DecidableEq

/-- What the device sees of the host: events in the order they were issued. -/
inductive Event where
  | memcpyToSymbol (device : Int) (table : Vector Byte 256)
  | memcpy (dst : Ptr) (bytes : Vector Byte 176)
  | launch (stream : Ptr) (l : Launch)
  | synchronize
  | malloc (p : Ptr)
  | free (p : Ptr)
  deriving DecidableEq

/-- A live device allocation. -/
structure Allocation where
  ptr : Ptr
  bytes : Nat
  device : Int
  deriving DecidableEq

/-- The host object behind a key; null pointers are zero. -/
structure KeyHandle where
  device : Int := 0
  dRoundKeys : Ptr := 0
  dHPow2 : Ptr := 0
  dNodesA : Ptr := 0
  dNodesB : Ptr := 0
  nodeCapacity : Nat := 0
  deriving DecidableEq

/-- The state of the runtime and of the host heap, as one thread sees it. -/
structure HostState where
  device : Int
  lastError : CudaError
  /-- The number of calls made so far. -/
  calls : Nat
  /-- The calls that failed with an error code, the latest first. -/
  failures : List RuntimeCall
  allocations : List Allocation
  /-- The live key objects, by address. -/
  handles : AList fun _ : Ptr => KeyHandle
  /-- The caller's variables that receive a key. -/
  outs : Ptr → Ptr
  /-- Frees of an address that is not allocated. -/
  invalidFrees : Nat

/-- The addresses of the live allocations. -/
def HostState.livePtrs (s : HostState) : List Ptr := s.allocations.map (·.ptr)

/-- A driver chooses the outcome of every call, and for a successful
allocation an address that is neither null nor in use. -/
structure Driver where
  outcome : RuntimeCall → Nat → CudaError
  address : List Ptr → Nat → Ptr
  object : List Ptr → Nat → Ptr
  address_ne_null : ∀ live i, address live i ≠ 0
  address_fresh : ∀ live i, address live i ∉ live
  object_ne_null : ∀ live i, object live i ≠ 0
  object_fresh : ∀ live i, object live i ∉ live

/-- A host computation against a driver. -/
abbrev Cuda (α : Type) := TracedState.Traced Driver HostState Event α

/-- Make a call; a failure is recorded as the last error and stays there. -/
def call (kind : RuntimeCall) : Cuda CudaError := fun driver s =>
  let rc := driver.outcome kind s.calls
  ⟨rc,
    if rc = cudaSuccess then { s with calls := s.calls + 1 }
    else { s with
      calls := s.calls + 1
      lastError := rc
      failures := kind :: s.failures }, []⟩

/-- Pass an event on to the device if a condition holds. -/
def emitWhen (condition : Bool) (event : Event) : Cuda Unit := fun _ s =>
  ⟨(), s, if condition then [event] else []⟩

def getState : Cuda HostState := fun _ s => ⟨s, s, []⟩

def modifyState (f : HostState → HostState) : Cuda Unit :=
  fun _ s => ⟨(), f s, []⟩

/-- The last error is reported and kept. -/
def cudaPeekAtLastError : Cuda CudaError := fun _ s => ⟨s.lastError, s, []⟩

/-- On failure the caller's variable keeps its initial zero. -/
def cudaGetDevice : Cuda Int := do
  let rc ← call .getDevice
  let s ← getState
  pure (if rc = cudaSuccess then s.device else 0)

/-- A failure leaves the current device as it was. -/
def cudaSetDevice (target : Int) : Cuda CudaError := do
  let rc ← call .setDevice
  modifyState fun s =>
    if rc = cudaSuccess then { s with device := target } else s
  pure rc

/-- Record an allocation on the current device. -/
def allocate (bytes : Nat) : Cuda Ptr := fun driver s =>
  let p := driver.address s.livePtrs s.calls
  ⟨p, { s with allocations := ⟨p, bytes, s.device⟩ :: s.allocations },
    [.malloc p]⟩

/-- Remove an allocation; an address that is not allocated is an error. -/
def release (p : Ptr) : Cuda CudaError := fun _ s =>
  if p ∈ s.livePtrs then
    ⟨cudaSuccess, { s with allocations := s.allocations.filter (·.ptr ≠ p) },
      [.free p]⟩
  else
    ⟨cudaErrorInvalidValue, { s with
      lastError := cudaErrorInvalidValue
      failures := .free :: s.failures
      invalidFrees := s.invalidFrees + 1 }, []⟩

/-- Allocate device memory; its contents are whatever was there. -/
def cudaMalloc (bytes : Nat) : Cuda (Except CudaError Ptr) := do
  let rc ← call .malloc
  if rc = cudaSuccess then do
    let p ← allocate bytes
    pure (.ok p)
  else pure (.error rc)

def cudaFree (p : Ptr) : Cuda CudaError := do
  let rc ← call .free
  if rc = cudaSuccess then release p else pure rc

def cudaMemcpyToSymbol (table : Vector Byte 256) : Cuda CudaError := do
  let rc ← call .memcpyToSymbol
  let s ← getState
  emitWhen (rc = cudaSuccess) (.memcpyToSymbol s.device table)
  pure rc

def cudaMemcpy (dst : Ptr) (bytes : Vector Byte 176) : Cuda CudaError := do
  let rc ← call .memcpy
  emitWhen (rc = cudaSuccess) (.memcpy dst bytes)
  pure rc

def cudaDeviceSynchronize : Cuda CudaError := do
  let rc ← call .synchronize
  emitWhen (rc = cudaSuccess) .synchronize
  pure rc

/-- A launch on the current device.  A grid below one is not a valid
configuration; a rejected launch enqueues nothing. -/
def launchKernel (kernel : Device.Kernel) (grid : Int) (threads : Nat)
    (stream : Ptr) : Cuda Unit := do
  if grid < 1 then
    modifyState fun s => { s with
      lastError := cudaErrorInvalidConfiguration
      failures := .launch :: s.failures }
  else
    let rc ← call .launch
    let s ← getState
    emitWhen (rc = cudaSuccess) (.launch stream ⟨s.device, kernel, grid, threads⟩)

/-- `new (std::nothrow) KeyHandle()`: no runtime call, so no last error. -/
def newKeyHandle : Cuda (Option Ptr) := fun driver s =>
  let next := { s with calls := s.calls + 1 }
  if driver.outcome .new s.calls = cudaSuccess then
    let p := driver.object s.handles.keys s.calls
    ⟨some p, { next with handles := s.handles.insert p {} }, []⟩
  else ⟨none, next, []⟩

/-- Read the object behind a key. -/
def readHandle (key : Ptr) : Cuda KeyHandle := do
  let s ← getState
  pure ((s.handles.lookup key).getD {})

/-- Assign to the object behind a key. -/
def modifyHandle (key : Ptr) (f : KeyHandle → KeyHandle) : Cuda Unit :=
  modifyState fun s =>
    { s with handles := s.handles.insert key (f ((s.handles.lookup key).getD {})) }

/-- `delete` of a key object. -/
def deleteHandle (key : Ptr) : Cuda Unit :=
  modifyState fun s => { s with handles := s.handles.erase key }

/-- Release a buffer unless the pointer is null; the result is dropped. -/
def freeUnlessNull (p : Ptr) : Cuda Unit :=
  if p ≠ 0 then do
    let _ ← cudaFree p
    pure ()
  else pure ()

/-- Switch devices when the guard has to; the result is dropped. -/
def switchWhen (changed : Bool) (target : Int) : Cuda Unit :=
  if changed then do
    let _ ← cudaSetDevice target
    pure ()
  else pure ()

/-- Run with `target` as the current device and switch back afterwards. -/
def withDevice {α : Type} (target : Int) (body : Cuda α) : Cuda α := do
  let old ← cudaGetDevice
  switchWhen (old ≠ target) target
  let result ← body
  switchWhen (old ≠ target) old
  pure result

/-- Narrow to a 32-bit signed integer. -/
def castInt (n : Nat) : Int := Int.bmod n (2 ^ 32)

end GpuKvSeal.Host
