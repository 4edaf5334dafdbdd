import GpuKvSeal.Cpu.Api

/-!
# The native serde

The serializer and the deserializer hand the buffers of two memory objects to
the CPU backend.  Both work with the length of the text, from which they compute
the length of the frame; the rest of a longer frame buffer is padding.
-/

namespace GpuKvSeal.Serde

open BigEndian (Byte)
open Cpu
open Device (Ptr u64 FRAME_OVERHEAD)

/-! ## Layouts -/

/-- The exceptions of the serde and of what it calls. -/
inductive PyError where
  | valueError (message : String)
  | typeError (message : String)
  | runtimeError (message : String)
  | invalidTag (message : String)
  deriving DecidableEq, Repr

/-- The shapes of some tensors and the types of their elements. -/
structure MemoryLayoutDesc (Dtype : Type) where
  shapes : List (List Int)
  dtypes : List Dtype

section Layout

variable {Dtype : Type} (elementSize : Dtype → Nat)

/-- The loop over shapes and types together, which have to be equally many. -/
def plaintextBytesFrom (total : Int) :
    List (List Int) → List Dtype → Except PyError Int
  | shape :: shapes, dtype :: dtypes =>
      plaintextBytesFrom (total + shape.foldl (· * ·) 1 * elementSize dtype) shapes
        dtypes
  | [], [] => .ok total
  | _ :: _, [] => .error (.valueError "zip() argument 2 is shorter than argument 1")
  | [], _ :: _ => .error (.valueError "zip() argument 2 is longer than argument 1")

def plaintextBytes (layoutDesc : MemoryLayoutDesc Dtype) : Except PyError Int :=
  plaintextBytesFrom elementSize 0 layoutDesc.shapes layoutDesc.dtypes

def estimateSerializedSize (layoutDesc : MemoryLayoutDesc Dtype) :
    Except PyError Int :=
  (plaintextBytes elementSize layoutDesc).map (· + FRAME_OVERHEAD)

/-- The sizes of the tensors together. -/
def totalBytes (layoutDesc : MemoryLayoutDesc Dtype) : Int :=
  (List.zipWith (fun shape dtype => shape.prod * (elementSize dtype : Int))
    layoutDesc.shapes layoutDesc.dtypes).sum

theorem plaintextBytesFrom_eq (total : Int) {shapes : List (List Int)}
    {dtypes : List Dtype} (equal : shapes.length = dtypes.length) :
    plaintextBytesFrom elementSize total shapes dtypes = .ok (total +
      (List.zipWith (fun shape dtype => shape.prod * (elementSize dtype : Int))
        shapes dtypes).sum) := by
  induction shapes generalizing total dtypes with
  | nil =>
      cases dtypes with
      | nil => simp [plaintextBytesFrom]
      | cons dtype dtypes => cases equal
  | cons shape shapes ih =>
      cases dtypes with
      | nil => cases equal
      | cons dtype dtypes =>
          rw [plaintextBytesFrom, ih _ (Nat.succ.inj equal), List.zipWith_cons_cons,
            List.sum_cons, ← add_assoc, List.prod_eq_foldl]

theorem plaintextBytes_eq {layoutDesc : MemoryLayoutDesc Dtype}
    (equal : layoutDesc.shapes.length = layoutDesc.dtypes.length) :
    plaintextBytes elementSize layoutDesc = .ok (totalBytes elementSize layoutDesc) := by
  rw [plaintextBytes, plaintextBytesFrom_eq elementSize 0 equal, zero_add, totalBytes]

end Layout

/-! ## Buffers and keys -/

/-- A `memoryview` of bytes. -/
structure View where
  address : Ptr
  length : Nat
  readonly : Bool
  length_lt : length < 2 ^ 63
  nonnull : length ≠ 0 → address ≠ 0

def addressOf (view : View) : Except PyError Ptr :=
  if view.length = 0 then .error (.valueError "zero-length buffer unsupported")
  else if view.readonly then .error (.typeError "underlying buffer is not writable")
  else .ok view.address

structure ObjectKey (Salt : Type) where
  cacheSalt : Salt

/-- `get_key`: a key, or what the provider raises. -/
abbrev KeyProvider (Salt : Type) := Salt → Except PyError (List Byte)

/-- The key is copied to a new array; `holder` is where the allocator puts it. -/
def keyPtr (holder : Ptr) (rawKey : List Byte) : Process Ptr := fun _ s =>
  ⟨holder, { s with memory := fill s.memory holder rawKey.length fun i => rawKey[i]? },
    []⟩

/-- The pointers of a native call. -/
structure NativeArguments where
  keyPtr : Ptr
  src : Ptr
  dst : Ptr

section Serde

variable {Salt : Type} (keys : KeyProvider Salt) (holder : Ptr) (src dst : View)
  (key : ObjectKey Salt)

/-- What both methods do between their length check and the native call. -/
def nativeArguments : Process (Except PyError NativeArguments) :=
  match keys key.cacheSalt with
  | .error e => pure (.error e)
  | .ok dek =>
      if dek.length ≠ 16 then
        pure (.error (.valueError "native aesgcm currently supports AES-128 only"))
      else do
        let keyPtr ← keyPtr holder dek
        pure do
          let src ← addressOf src
          let dst ← addressOf dst
          .ok ⟨keyPtr, src, dst⟩

namespace NativeAesGcmSerializer

/-- What precedes the native call. -/
def prepare : Process (Except PyError NativeArguments) :=
  if dst.length < src.length + FRAME_OVERHEAD then
    pure (.error (.valueError "native aesgcm: destination too small"))
  else nativeArguments keys holder src dst key

def serialize : Process (Except PyError Nat) := do
  let plaintextLen := src.length
  let frameLen := plaintextLen + FRAME_OVERHEAD
  match ← prepare keys holder src dst key with
  | .error e => pure (.error e)
  | .ok a => do
      let rc ← lmcacheAes128gcmSeal a.keyPtr a.src (u64 plaintextLen) a.dst
        (u64 dst.length)
      if rc ≠ 0 then
        pure (.error (.runtimeError s!"native aesgcm seal failed: rc={rc}"))
      else pure (.ok frameLen)

end NativeAesGcmSerializer

namespace NativeAesGcmDeserializer

/-- What precedes the native call. -/
def prepare : Process (Except PyError NativeArguments) :=
  if src.length < dst.length + FRAME_OVERHEAD then
    pure (.error (.valueError "native aesgcm: malformed frame"))
  else nativeArguments keys holder src dst key

def deserialize : Process (Except PyError Unit) := do
  let plaintextLen := dst.length
  let frameLen := plaintextLen + FRAME_OVERHEAD
  match ← prepare keys holder src dst key with
  | .error e => pure (.error e)
  | .ok a => do
      let rc ← lmcacheAes128gcmOpen a.keyPtr a.src (u64 frameLen) a.dst
        (u64 plaintextLen)
      if rc = -11 then
        pure (.error (.invalidTag "native aesgcm authentication failed"))
      else if rc ≠ 0 then
        pure (.error (.valueError s!"native aesgcm open failed: rc={rc}"))
      else pure (.ok ())

end NativeAesGcmDeserializer

end Serde

end GpuKvSeal.Serde
