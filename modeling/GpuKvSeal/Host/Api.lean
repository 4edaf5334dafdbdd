import GpuKvSeal.Host.Runtime

/-!
# The C interface of the GPU backend
-/

namespace GpuKvSeal.Host

open Device (Ptr u64 advance blockCount HEADER_LEN FRAME_OVERHEAD
  GHASH_SEGMENT_BLOCKS HOST_SBOX expandAes128Key)
open BigEndian (Byte)

inductive ReturnCode where
  | ok
  | errArgument
  | errAlloc
  | errCuda
  | errInternal
  deriving DecidableEq, Repr

/-- The integer a caller receives. -/
def ReturnCode.toInt : ReturnCode → Int
  | .ok => 0
  | .errArgument => -1
  | .errAlloc => -2
  | .errCuda => -3
  | .errInternal => -4

def cudaRc (rc : CudaError) : ReturnCode :=
  if rc = cudaSuccess then .ok else .errCuda

/-- The size of a node in device memory. -/
abbrev sizeofGHashNode : Nat := 24

/-- The size of a block in device memory. -/
abbrev sizeofBlock128 : Nat := 16

/-! ## Workspace -/

/-- The number of segments of the terms of a text. -/
def requiredNodes (plaintextLen : Nat) : Nat :=
  let terms := blockCount plaintextLen + 1
  (terms + GHASH_SEGMENT_BLOCKS - 1) / GHASH_SEGMENT_BLOCKS

/-- Release the node buffers a handle has. -/
def freeNodes (h : KeyHandle) : Cuda Unit := do
  freeUnlessNull h.dNodesA
  freeUnlessNull h.dNodesB

def ensureWorkspace (key : Ptr) (plaintextLen : Nat) : Cuda ReturnCode := do
  let required := requiredNodes plaintextLen
  let h ← readHandle key
  if required ≤ h.nodeCapacity then pure .ok
  else
    match ← cudaMalloc (required * sizeofGHashNode) with
    | .error _ => pure .errAlloc
    | .ok a =>
      match ← cudaMalloc (required * sizeofGHashNode) with
      | .error _ => do
          let _ ← cudaFree a
          pure .errAlloc
      | .ok b => do
          freeNodes h
          modifyHandle key fun h =>
            { h with dNodesA := a, dNodesB := b, nodeCapacity := required }
          pure .ok

/-- The reduction loop: combine pairs until one node is left, and report the
buffer that holds it. -/
def reduceLoop (hPow2 : Ptr) (stream : Ptr) (input output : Ptr)
    (count : Nat) : Cuda (ReturnCode × Ptr) :=
  if count > 1 then do
    let next := (count + 1) / 2
    let reduceBlocks := castInt ((next + 128 - 1) / 128)
    launchKernel (.ghashCombine input output count hPow2) reduceBlocks 128 stream
    let rc ← cudaPeekAtLastError
    if rc ≠ cudaSuccess then pure (.errCuda, 0)
    else reduceLoop hPow2 stream output input next
  else pure (.ok, input)
termination_by count

/-- Enqueue the hash of a ciphertext; the second component is `*root_out`. -/
def enqueueGhash (key : Ptr) (ciphertext : Ptr) (ciphertextLen : Nat)
    (stream : Ptr) : Cuda (ReturnCode × Ptr) := do
  let erc ← ensureWorkspace key ciphertextLen
  if erc ≠ .ok then pure (erc, 0)
  else
    let h ← readHandle key
    let count := requiredNodes ciphertextLen
    let blocks := castInt ((count + 128 - 1) / 128)
    launchKernel (.ghashSegment ciphertext ciphertextLen h.dHPow2 h.dNodesA)
      blocks 128 stream
    let rc ← cudaPeekAtLastError
    if rc ≠ cudaSuccess then pure (.errCuda, 0)
    else reduceLoop h.dHPow2 stream h.dNodesA h.dNodesB count

/-! ## Entry points -/

def lmcacheGpuAesgcmFrameSize (plaintextLen : Nat) : Nat :=
  u64 (plaintextLen + FRAME_OVERHEAD)

/-- The steps of key creation after the object exists, on the device of the
guard.  Each failure undoes what was acquired before it. -/
def createTables (h : Ptr) (key : Vector Byte 16) (device : Int) (out : Ptr) :
    Cuda ReturnCode := do
  modifyHandle h fun fields => { fields with device := device }
  let roundKeys := expandAes128Key key
  let rc ← cudaMemcpyToSymbol HOST_SBOX
  if rc ≠ cudaSuccess then do
    deleteHandle h
    pure .errCuda
  else
    match ← cudaMalloc 176 with
    | .error _ => do
        deleteHandle h
        pure .errAlloc
    | .ok dRoundKeys => do
      modifyHandle h fun fields => { fields with dRoundKeys := dRoundKeys }
      match ← cudaMalloc (sizeofBlock128 * 64) with
      | .error _ => do
          let _ ← cudaFree dRoundKeys
          deleteHandle h
          pure .errAlloc
      | .ok dHPow2 => do
        modifyHandle h fun fields => { fields with dHPow2 := dHPow2 }
        let rc ← cudaMemcpy dRoundKeys roundKeys
        if rc ≠ cudaSuccess then do
          let _ ← cudaFree dHPow2
          let _ ← cudaFree dRoundKeys
          deleteHandle h
          pure .errCuda
        else do
          launchKernel (.initHashKey dRoundKeys dHPow2) 1 1 0
          let rc ← cudaDeviceSynchronize
          if rc ≠ cudaSuccess then do
            let _ ← cudaFree dHPow2
            let _ ← cudaFree dRoundKeys
            deleteHandle h
            pure .errCuda
          else do
            modifyState fun s => { s with outs := Function.update s.outs out h }
            pure .ok

def lmcacheGpuAes128gcmKeyCreate (key : Option (Vector Byte 16))
    (keyLen : Nat) (device : Int) (out : Ptr) : Cuda ReturnCode :=
  match key with
  | none => pure .errArgument
  | some key =>
    if out = 0 ∨ keyLen ≠ 16 then pure .errArgument
    else
      withDevice device do
        match ← newKeyHandle with
        | none => pure .errAlloc
        | some h => createTables h key device out

def lmcacheGpuAes128gcmKeyDestroy (key : Ptr) : Cuda ReturnCode :=
  if key = 0 then pure .ok
  else do
    let h ← readHandle key
    withDevice h.device do
      freeNodes h
      freeUnlessNull h.dHPow2
      freeUnlessNull h.dRoundKeys
      deleteHandle key
      pure .ok

def lmcacheGpuAes128gcmReserve (key : Ptr) (maxPlaintextLen : Nat) :
    Cuda ReturnCode :=
  if key = 0 then pure .errArgument
  else do
    let h ← readHandle key
    withDevice h.device (ensureWorkspace key maxPlaintextLen)

/-- The counter launch, skipped for an empty text. -/
def launchCtr (src dst : Ptr) (len : Nat) (iv roundKeys : Ptr)
    (authOk : Option Ptr) (stream : Ptr) : Cuda Unit :=
  let blocks := blockCount len
  if blocks > 0 then
    let grid := castInt ((blocks + 256 - 1) / 256)
    launchKernel (.ctrCrypt src dst len iv roundKeys authOk) grid 256 stream
  else pure ()

/-- The launches of a seal, once the workspace is large enough. -/
def enqueueSeal (key input : Ptr) (plaintextLen : Nat) (out : Ptr)
    (iv : Vector Byte 12) (stream : Ptr) : Cuda ReturnCode := do
  let h ← readHandle key
  launchKernel (.writeFrameHeader out iv) 1 1 stream
  launchCtr input (advance out HEADER_LEN) plaintextLen (advance out 1)
    h.dRoundKeys none stream
  let (grc, root) ←
    enqueueGhash key (advance out HEADER_LEN) plaintextLen stream
  if grc ≠ .ok then pure grc
  else
    launchKernel (.finalizeTag out plaintextLen h.dRoundKeys root) 1 1 stream
    let rc ← cudaPeekAtLastError
    pure (cudaRc rc)

def lmcacheGpuAes128gcmSealAsync (key src : Ptr) (plaintextLen : Nat)
    (dst : Ptr) (dstCapacity : Nat) (iv : Option (Vector Byte 12))
    (stream : Ptr) : Cuda ReturnCode :=
  match iv with
  | none => pure .errArgument
  | some iv =>
    if key = 0 ∨ src = 0 ∨ dst = 0 then pure .errArgument
    else if dstCapacity < lmcacheGpuAesgcmFrameSize plaintextLen then
      pure .errArgument
    else if blockCount plaintextLen > 0xfffffffe then pure .errArgument
    else do
      let h ← readHandle key
      withDevice h.device do
        let erc ← ensureWorkspace key plaintextLen
        if erc ≠ .ok then pure erc
        else enqueueSeal key src plaintextLen dst iv stream

/-- The launches of an open, once the workspace is large enough. -/
def enqueueOpen (key frame plain : Ptr) (plaintextLen : Nat)
    (authOk stream : Ptr) : Cuda ReturnCode := do
  let h ← readHandle key
  let (grc, root) ←
    enqueueGhash key (advance frame HEADER_LEN) plaintextLen stream
  if grc ≠ .ok then pure grc
  else
    launchKernel (.verifyTag frame plaintextLen h.dRoundKeys root authOk) 1 1
      stream
    -- The launch above is not checked before the next one.
    launchCtr (advance frame HEADER_LEN) plain plaintextLen (advance frame 1)
      h.dRoundKeys (some authOk) stream
    let rc ← cudaPeekAtLastError
    pure (cudaRc rc)

def lmcacheGpuAes128gcmOpenAsync (key src : Ptr) (frameLen : Nat)
    (dst : Ptr) (plaintextLen : Nat) (authOk : Ptr) (stream : Ptr) :
    Cuda ReturnCode :=
  if key = 0 ∨ src = 0 ∨ dst = 0 ∨ authOk = 0 then pure .errArgument
  else if frameLen < lmcacheGpuAesgcmFrameSize plaintextLen then
    pure .errArgument
  else do
    let h ← readHandle key
    withDevice h.device do
      let erc ← ensureWorkspace key plaintextLen
      if erc ≠ .ok then pure erc
      else enqueueOpen key src dst plaintextLen authOk stream

end GpuKvSeal.Host
