import GpuKvSeal.Host.Lifecycle

/-!
# What every call is made of

All entry points are made of the same few steps.  A property of a step that
survives composition therefore holds of every call, and it takes one induction to
see it.
-/

namespace GpuKvSeal.Host

open Device (Ptr Kernel)
open BigEndian (Byte)

/-- Computations made of the steps of the runtime. -/
inductive Composed : {α : Type} → Cuda α → Prop
  | pure {α : Type} (value : α) : Composed (pure value)
  | bind {α β : Type} {first : Cuda α} {second : α → Cuda β}
      (before : Composed first) (after : ∀ value, Composed (second value)) :
      Composed (first >>= second)
  | readHandle (key : Ptr) : Composed (readHandle key)
  | modifyHandle (key : Ptr) (f : KeyHandle → KeyHandle) : Composed (modifyHandle key f)
  | newKeyHandle : Composed newKeyHandle
  | deleteHandle (key : Ptr) : Composed (deleteHandle key)
  | storeKey (out key : Ptr) :
      Composed (modifyState fun s => { s with outs := Function.update s.outs out key })
  | cudaPeekAtLastError : Composed cudaPeekAtLastError
  | cudaGetDevice : Composed cudaGetDevice
  | cudaSetDevice (target : Int) : Composed (cudaSetDevice target)
  | cudaMalloc (bytes : Nat) : Composed (cudaMalloc bytes)
  | cudaFree (p : Ptr) : Composed (cudaFree p)
  | cudaMemcpyToSymbol (table : Vector Byte 256) : Composed (cudaMemcpyToSymbol table)
  | cudaMemcpy (dst : Ptr) (bytes : Vector Byte 176) : Composed (cudaMemcpy dst bytes)
  | cudaDeviceSynchronize : Composed cudaDeviceSynchronize
  | launchKernel (kernel : Kernel) (grid : Int) (threads : Nat) (stream : Ptr) :
      Composed (launchKernel kernel grid threads stream)

namespace Composed

theorem ite {α : Type} {test : Prop} [Decidable test] {yes no : Cuda α}
    (whenTrue : Composed yes) (whenFalse : Composed no) :
    Composed (if test then yes else no) := by
  split
  · exact whenTrue
  · exact whenFalse

theorem freeUnlessNull (p : Ptr) : Composed (freeUnlessNull p) :=
  .ite ((cudaFree p).bind fun _ => .pure _) (.pure _)

theorem freeNodes (h : KeyHandle) : Composed (freeNodes h) :=
  (freeUnlessNull _).bind fun _ => freeUnlessNull _

theorem switchWhen (changed : Bool) (target : Int) :
    Composed (switchWhen changed target) :=
  .ite ((cudaSetDevice target).bind fun _ => .pure _) (.pure _)

theorem withDevice {α : Type} (target : Int) {body : Cuda α} (inside : Composed body) :
    Composed (withDevice target body) :=
  cudaGetDevice.bind fun _ => (switchWhen _ _).bind fun _ => inside.bind fun _ =>
    (switchWhen _ _).bind fun _ => .pure _

theorem ensureWorkspace (key : Ptr) (plaintextLen : Nat) :
    Composed (ensureWorkspace key plaintextLen) := by
  apply (readHandle key).bind
  intro h
  apply Composed.ite (.pure _)
  apply (cudaMalloc _).bind
  intro first
  cases first with
  | error rc => exact .pure _
  | ok a =>
      apply (cudaMalloc _).bind
      intro second
      cases second with
      | error rc => exact (cudaFree a).bind fun _ => .pure _
      | ok b =>
          exact (freeNodes h).bind fun _ => (modifyHandle _ _).bind fun _ => .pure _

theorem reduceLoop (hPow2 stream : Ptr) (count : Nat) :
    ∀ input output, Composed (reduceLoop hPow2 stream input output count) := by
  induction count using Nat.strongRecOn with
  | ind count ih =>
      intro input output
      rw [Host.reduceLoop]
      by_cases more : count > 1
      · rw [if_pos more]
        exact (launchKernel _ _ _ _).bind fun _ => cudaPeekAtLastError.bind fun _ =>
          .ite (.pure _) (ih _ (by omega) output input)
      · rw [if_neg more]
        exact .pure _

theorem enqueueGhash (key ciphertext : Ptr) (ciphertextLen : Nat) (stream : Ptr) :
    Composed (enqueueGhash key ciphertext ciphertextLen stream) :=
  (ensureWorkspace _ _).bind fun _ => .ite (.pure _)
    ((readHandle _).bind fun _ => (launchKernel _ _ _ _).bind fun _ =>
      cudaPeekAtLastError.bind fun _ => .ite (.pure _) (reduceLoop _ _ _ _ _))

theorem launchCtr (src dst : Ptr) (len : Nat) (iv roundKeys : Ptr)
    (authOk : Option Ptr) (stream : Ptr) :
    Composed (launchCtr src dst len iv roundKeys authOk stream) :=
  .ite (launchKernel _ _ _ _) (.pure _)

theorem enqueueSeal (key input : Ptr) (plaintextLen : Nat) (out : Ptr)
    (iv : Vector Byte 12) (stream : Ptr) :
    Composed (enqueueSeal key input plaintextLen out iv stream) :=
  (readHandle _).bind fun _ => (launchKernel _ _ _ _).bind fun _ =>
    (launchCtr _ _ _ _ _ _ _).bind fun _ => (enqueueGhash _ _ _ _).bind fun _ =>
      .ite (.pure _) ((launchKernel _ _ _ _).bind fun _ =>
        cudaPeekAtLastError.bind fun _ => .pure _)

theorem enqueueOpen (key frame plain : Ptr) (plaintextLen : Nat)
    (authOk stream : Ptr) :
    Composed (enqueueOpen key frame plain plaintextLen authOk stream) :=
  (readHandle _).bind fun _ => (enqueueGhash _ _ _ _).bind fun _ =>
    .ite (.pure _) ((launchKernel _ _ _ _).bind fun _ =>
      (launchCtr _ _ _ _ _ _ _).bind fun _ => cudaPeekAtLastError.bind fun _ =>
        .pure _)

theorem createTables (h : Ptr) (key : Vector Byte 16) (device : Int) (out : Ptr) :
    Composed (createTables h key device out) := by
  have undo : Composed (do Host.deleteHandle h; Pure.pure .errCuda : Cuda ReturnCode) :=
    (deleteHandle h).bind fun _ => .pure _
  apply (modifyHandle _ _).bind
  intro _
  apply (cudaMemcpyToSymbol _).bind
  intro _
  apply Composed.ite undo
  apply (cudaMalloc _).bind
  intro first
  cases first with
  | error rc => exact (deleteHandle h).bind fun _ => .pure _
  | ok roundKeys =>
      apply (modifyHandle _ _).bind
      intro _
      apply (cudaMalloc _).bind
      intro second
      cases second with
      | error rc =>
          exact (cudaFree _).bind fun _ => (deleteHandle h).bind fun _ => .pure _
      | ok hPow2 =>
          have undoTables : Composed (do
              let _ ← Host.cudaFree hPow2
              let _ ← Host.cudaFree roundKeys
              Host.deleteHandle h
              Pure.pure .errCuda : Cuda ReturnCode) :=
            (cudaFree _).bind fun _ => (cudaFree _).bind fun _ => undo
          exact (modifyHandle _ _).bind fun _ => (cudaMemcpy _ _).bind fun _ =>
            .ite undoTables ((launchKernel _ _ _ _).bind fun _ =>
              cudaDeviceSynchronize.bind fun _ => .ite undoTables
                ((storeKey _ _).bind fun _ => .pure _))

end Composed

/-- Every entry point is made of the steps of the runtime. -/
theorem ApiCall.perform_composed (c : ApiCall) : Composed c.perform := by
  cases c with
  | keyCreate key keyLen device out =>
      cases key with
      | none => exact .pure _
      | some key =>
          apply Composed.ite (.pure _)
          apply Composed.withDevice
          apply Composed.newKeyHandle.bind
          intro created
          cases created with
          | none => exact .pure _
          | some h => exact .createTables h key device out
  | keyDestroy key =>
      exact .ite (.pure _) ((Composed.readHandle key).bind fun h =>
        .withDevice _ ((Composed.freeNodes h).bind fun _ =>
          (Composed.freeUnlessNull _).bind fun _ => (Composed.freeUnlessNull _).bind
            fun _ => (Composed.deleteHandle key).bind fun _ => .pure _))
  | reserve key maxPlaintextLen =>
      exact .ite (.pure _) ((Composed.readHandle key).bind fun h =>
        .withDevice _ (.ensureWorkspace _ _))
  | sealAsync key src plaintextLen dst dstCapacity iv stream =>
      cases iv with
      | none => exact .pure _
      | some iv =>
          exact .ite (.pure _) (.ite (.pure _) (.ite (.pure _)
            ((Composed.readHandle key).bind fun h => .withDevice _
              ((Composed.ensureWorkspace _ _).bind fun _ => .ite (.pure _)
                (.enqueueSeal _ _ _ _ _ _)))))
  | openAsync key src frameLen dst plaintextLen authOk stream =>
      exact .ite (.pure _) (.ite (.pure _) ((Composed.readHandle key).bind fun h =>
        .withDevice _ ((Composed.ensureWorkspace _ _).bind fun _ => .ite (.pure _)
          (.enqueueOpen _ _ _ _ _ _))))

end GpuKvSeal.Host
