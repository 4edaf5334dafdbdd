import GpuKvSeal.Host.Api

/-!
# The Python binding

The binding checks the length of the IV and nothing else.  Lengths and
addresses are Python integers of any size; `ctypes` reduces them to 64 bits.
-/

namespace GpuKvSeal.Host

open Device (Ptr IV_LEN)
open BigEndian (Byte)

/-- The text of an error code. -/
def lmcacheGpuAesgcmStrerror : ReturnCode → String
  | .ok => "success"
  | .errArgument => "invalid argument"
  | .errAlloc => "GPU allocation failure"
  | .errCuda => "CUDA failure"
  | .errInternal => "internal error"

/-- The exceptions of the binding. -/
inductive BindingError where
  | valueError (message : String)
  | gpuAesGcmError (message : String)
  deriving DecidableEq, Repr

/-- Any code but success is raised. -/
def check (rc : ReturnCode) (operation : String) : Except BindingError Unit :=
  if rc.toInt = 0 then .ok ()
  else .error (.gpuAesGcmError
    s!"{operation} failed: rc={rc.toInt} ({lmcacheGpuAesgcmStrerror rc})")

/-- A Python integer passed as a `c_size_t`. -/
def cSizeT (value : Int) : Nat := (value % 2 ^ 64).toNat

/-- A Python integer passed as a `c_void_p`. -/
def cVoidP (value : Int) : Ptr := (value % 2 ^ 64).toNat

namespace GpuAes128GcmKey

/-- The handle is null once the key has been closed. -/
def reserve (handle : Ptr) (maxPlaintextLen : Int) :
    Cuda (Except BindingError Unit) := do
  let rc ← lmcacheGpuAes128gcmReserve handle (cSizeT maxPlaintextLen)
  pure (check rc "reserve")

def sealAsync (handle : Ptr) (srcPtr plaintextLen dstPtr dstCapacity : Int)
    (iv : List Byte) (streamPtr : Int) : Cuda (Except BindingError Unit) :=
  if iv.length ≠ IV_LEN then
    pure (.error (.valueError "AES-GCM IV must be exactly 12 bytes"))
  else do
    let ivBuf := Vector.ofFn fun i : Fin 12 => iv.getD i.val 0#8
    let rc ← lmcacheGpuAes128gcmSealAsync handle (cVoidP srcPtr)
      (cSizeT plaintextLen) (cVoidP dstPtr) (cSizeT dstCapacity) (some ivBuf)
      (cVoidP streamPtr)
    pure (check rc "seal_async")

def openAsync (handle : Ptr) (srcPtr frameLen dstPtr plaintextLen authOkPtr
    streamPtr : Int) : Cuda (Except BindingError Unit) := do
  let rc ← lmcacheGpuAes128gcmOpenAsync handle (cVoidP srcPtr) (cSizeT frameLen)
    (cVoidP dstPtr) (cSizeT plaintextLen) (cVoidP authOkPtr) (cVoidP streamPtr)
  pure (check rc "open_async")

end GpuAes128GcmKey

end GpuKvSeal.Host
