import GpuKvSeal.Device.AesBlock
import GpuKvSeal.Device.Field
import GpuKvSeal.Foundations.CellProgram

/-!
# Device memory and the AES-GCM kernels

Device memory is a store of typed cells: the bytes and the status words of the
caller, the tables of a key, the reduction nodes, and the constant
substitution table of each device.  A kernel is a program per thread; a launch
runs its threads one after another in an order the device chooses.
-/

namespace GpuKvSeal.Device

open BigEndian (Byte)
open CellProgram (Store Program)
open CellProgram.Program (load store forEach collect)

/-! ## Memory -/

/-- A device address, or the address of an allocation. -/
abbrev Ptr := Nat

/-- Arithmetic on 64-bit unsigned integers. -/
def u64 (n : Nat) : Nat := n % 2 ^ 64

/-- The address `n` bytes after `p`. -/
def advance (p : Ptr) (n : Nat) : Ptr := u64 (p + n)

structure GHashNode where
  y : Block128
  lenBlocks : BitVec 64
  deriving DecidableEq, Repr

/-- The cells of device memory.  Key tables and nodes are addressed by the
allocation that holds them. -/
inductive Cell where
  | byte (address : Ptr)
  | flag (address : Ptr)
  | sbox (device : Int)
  | roundKeys (buffer : Ptr)
  | hPow2 (buffer : Ptr) (index : Nat)
  | node (buffer : Ptr) (index : Nat)
  deriving DecidableEq

/-- The type of value a cell holds. -/
abbrev Cell.Val : Cell → Type
  | .byte _ => Byte
  | .flag _ => Int
  | .sbox _ => Vector Byte 256
  | .roundKeys _ => Vector Byte 176
  | .hPow2 _ _ => Block128
  | .node _ _ => GHashNode

abbrev Memory := Store Cell.Val

abbrev DeviceProgram := Program Cell.Val

abbrev loadByte (p : Ptr) : DeviceProgram Byte := load (Cell.byte p)
abbrev storeByte (p : Ptr) (value : Byte) : DeviceProgram Unit :=
  store (Cell.byte p) value
abbrev loadFlag (p : Ptr) : DeviceProgram Int := load (Cell.flag p)
abbrev storeFlag (p : Ptr) (value : Int) : DeviceProgram Unit :=
  store (Cell.flag p) value
abbrev loadSbox (device : Int) : DeviceProgram (Vector Byte 256) :=
  load (Cell.sbox device)
abbrev loadRoundKeys (p : Ptr) : DeviceProgram (Vector Byte 176) :=
  load (Cell.roundKeys p)
abbrev loadHPow2 (p : Ptr) (index : Nat) : DeviceProgram Block128 :=
  load (Cell.hPow2 p index)
abbrev storeHPow2 (p : Ptr) (index : Nat) (value : Block128) :
    DeviceProgram Unit := store (Cell.hPow2 p index) value
abbrev loadNode (p : Ptr) (index : Nat) : DeviceProgram GHashNode :=
  load (Cell.node p index)
abbrev storeNode (p : Ptr) (index : Nat) (value : GHashNode) :
    DeviceProgram Unit := store (Cell.node p index) value

/-- Read `n` consecutive bytes. -/
def readBytes (p : Ptr) (n : Nat) : DeviceProgram (Vector Byte n) :=
  collect n fun i => loadByte (advance p i.val)

/-! ## Constants -/

abbrev VERSION_LEN : Nat := 1
abbrev IV_LEN : Nat := 12
abbrev TAG_LEN : Nat := 16
abbrev HEADER_LEN : Nat := VERSION_LEN + IV_LEN
abbrev FRAME_OVERHEAD : Nat := HEADER_LEN + TAG_LEN
abbrev VERSION : Byte := 1#8
abbrev GHASH_SEGMENT_BLOCKS : Nat := 64

/-! ## Kernels -/

/-- The position of a thread in its launch. -/
structure Thread where
  blockIdx : Nat
  threadIdx : Nat
  blockDim : Nat

/-- The global index of a thread. -/
def Thread.index (t : Thread) : Nat := t.blockIdx * t.blockDim + t.threadIdx

/-- The number of 16-byte blocks of `len` bytes, as the host and every kernel
compute it: the sum wraps before the division. -/
def blockCount (len : Nat) : Nat := u64 (len + 15) / 16

/-- Multiply together the table entries of the set bits of the exponent. -/
def gfPowLoop (hPow2 : Ptr) (exponent : BitVec 64) (bit : Nat)
    (result : Block128) : DeviceProgram Block128 :=
  if exponent ≠ 0#64 then
    if exponent &&& 1#64 ≠ 0#64 then do
      let power ← loadHPow2 hPow2 bit
      gfPowLoop hPow2 (exponent >>> 1) (bit + 1) (gfMul result power)
    else
      gfPowLoop hPow2 (exponent >>> 1) (bit + 1) result
  else pure result
termination_by exponent.toNat
decreasing_by
  all_goals
    have positive : 0 < exponent.toNat :=
      Nat.pos_of_ne_zero fun zero => ‹exponent ≠ 0#64› (BitVec.eq_of_toNat_eq zero)
    rw [BitVec.toNat_ushiftRight, Nat.shiftRight_eq_div_pow]
    omega

def gfPowFromTable (hPow2 : Ptr) (exponent : BitVec 64) :
    DeviceProgram Block128 := gfPowLoop hPow2 exponent 0 gfOne

/-- Fill the remaining entries `i + 1 .. i + n` by squaring. -/
def squareTable (hPow2 : Ptr) (i : Nat) : Nat → DeviceProgram Unit
  | 0 => pure ()
  | n + 1 => do
      let power ← loadHPow2 hPow2 i
      storeHPow2 hPow2 (i + 1) (gfMul power power)
      squareTable hPow2 (i + 1) n

def initHashKeyKernel (device : Int) (roundKeys hPow2 : Ptr) (t : Thread) :
    DeviceProgram Unit :=
  if t.blockIdx ≠ 0 ∨ t.threadIdx ≠ 0 then pure ()
  else do
    let rk ← loadRoundKeys roundKeys
    let sbox ← loadSbox device
    let out := aes128EncryptBlock sbox (Vector.replicate 16 0#8) rk
    storeHPow2 hPow2 0 (loadBe128 out)
    squareTable hPow2 0 63

def writeFrameHeaderKernel (frame : Ptr) (iv : Vector Byte 12) (t : Thread) :
    DeviceProgram Unit :=
  if t.blockIdx ≠ 0 ∨ t.threadIdx ≠ 0 then pure ()
  else do
    storeByte (advance frame 0) VERSION
    forEach (List.finRange 12) fun i =>
      storeByte (advance frame (1 + i.val)) (iv.get i)

/-- The IV followed by the counter, most significant byte first. -/
def makeCounterBlock (iv : Vector Byte 12) (counter : BitVec 32) :
    Vector Byte 16 :=
  iv ++ #v[(counter >>> 24).setWidth 8, (counter >>> 16).setWidth 8,
    (counter >>> 8).setWidth 8, counter.setWidth 8]

/-- The test `auth_ok != nullptr && *auth_ok == 0`. -/
def authFailed : Option Ptr → DeviceProgram Bool
  | none => pure false
  | some authOk => do
      let value ← loadFlag authOk
      pure (value == 0)

def ctrCryptKernel (device : Int) (src dst : Ptr) (len : Nat)
    (iv roundKeys : Ptr) (authOk : Option Ptr) (t : Thread) :
    DeviceProgram Unit :=
  let blockIndex := t.index
  if blockIndex ≥ blockCount len then pure ()
  else
    -- A launch has fewer than 2 ^ 39 threads, so this product does not wrap.
    let offset := blockIndex * 16
    do
      let failed ← authFailed authOk
      if failed then
        forEach (List.finRange 16) fun j =>
          let pos := offset + j.val
          if pos < len then storeByte (advance dst pos) 0#8 else pure ()
      else
        let ctr64 := blockIndex + 2
        if ctr64 > 0xffffffff then pure ()
        else do
          let ivBytes ← readBytes iv 12
          let rk ← loadRoundKeys roundKeys
          let sbox ← loadSbox device
          let counterBlock := makeCounterBlock ivBytes (BitVec.ofNat 32 ctr64)
          let streamBlock := aes128EncryptBlock sbox counterBlock rk
          forEach (List.finRange 16) fun j =>
            let pos := offset + j.val
            if pos < len then do
              let byte ← loadByte (advance src pos)
              storeByte (advance dst pos) (byte ^^^ streamBlock.get j)
            else pure ()

/-- Term `termIndex` of the hash: a ciphertext block padded with zeros, or the
length block after the last of them. -/
def loadCiphertextTerm (ciphertext : Ptr) (ciphertextLen termIndex
    cipherBlocks : Nat) : DeviceProgram Block128 :=
  if termIndex = cipherBlocks then
    pure ⟨0#64, BitVec.ofNat 64 ciphertextLen * 8#64⟩
  else do
    let offset := termIndex * 16
    let tmp ← collect 16 fun j =>
      let pos := offset + j.val
      if pos < ciphertextLen then loadByte (advance ciphertext pos)
      else pure 0#8
    pure (loadBe128 tmp)

/-- Absorb `remaining` terms from term `i` on. -/
def ghashLoop (ciphertext : Ptr) (ciphertextLen cipherBlocks : Nat)
    (h : Block128) : (remaining i : Nat) → Block128 → DeviceProgram Block128
  | 0, _, y => pure y
  | remaining + 1, i, y => do
      let x ← loadCiphertextTerm ciphertext ciphertextLen i cipherBlocks
      ghashLoop ciphertext ciphertextLen cipherBlocks h remaining (i + 1)
        (gfMul (bxor y x) h)

def ghashSegmentKernel (ciphertext : Ptr) (ciphertextLen : Nat)
    (hPow2 nodes : Ptr) (t : Thread) : DeviceProgram Unit :=
  let segmentIndex := t.index
  let cipherBlocks := blockCount ciphertextLen
  let totalTerms := cipherBlocks + 1
  let start := segmentIndex * GHASH_SEGMENT_BLOCKS
  if start ≥ totalTerms then pure ()
  else
    let stop := min (start + GHASH_SEGMENT_BLOCKS) totalTerms
    do
      let h ← loadHPow2 hPow2 0
      let y ← ghashLoop ciphertext ciphertextLen cipherBlocks h (stop - start)
        start ⟨0#64, 0#64⟩
      storeNode nodes segmentIndex ⟨y, BitVec.ofNat 64 (stop - start)⟩

def ghashCombineKernel (input output : Ptr) (count : Nat) (hPow2 : Ptr)
    (t : Thread) : DeviceProgram Unit :=
  let outIndex := t.index
  let left := outIndex * 2
  if left ≥ count then pure ()
  else do
    let a ← loadNode input left
    if left + 1 ≥ count then storeNode output outIndex a
    else do
      let b ← loadNode input (left + 1)
      let hToLb ← gfPowFromTable hPow2 b.lenBlocks
      storeNode output outIndex
        ⟨bxor (gfMul a.y hToLb) b.y, a.lenBlocks + b.lenBlocks⟩

/-- The tag the frame should carry: the encrypted pre-counter block masked
with the hash at `root`. -/
def expectedTag (device : Int) (frame roundKeys root : Ptr) :
    DeviceProgram (Vector Byte 16) := do
  let iv ← readBytes (advance frame 1) 12
  let rk ← loadRoundKeys roundKeys
  let sbox ← loadSbox device
  let eJ0 := aes128EncryptBlock sbox (makeCounterBlock iv 1#32) rk
  let node ← loadNode root 0
  let ghash := storeBe128 node.y
  pure (Vector.ofFn fun i => eJ0.get i ^^^ ghash.get i)

/-- The address of the tag of a frame. -/
def tagAddress (frame : Ptr) (plaintextLen : Nat) : Ptr :=
  advance (advance frame HEADER_LEN) plaintextLen

def finalizeTagKernel (device : Int) (frame : Ptr) (plaintextLen : Nat)
    (roundKeys root : Ptr) (t : Thread) : DeviceProgram Unit :=
  if t.blockIdx ≠ 0 ∨ t.threadIdx ≠ 0 then pure ()
  else do
    let expected ← expectedTag device frame roundKeys root
    let tag := tagAddress frame plaintextLen
    forEach (List.finRange 16) fun i =>
      storeByte (advance tag i.val) (expected.get i)

def verifyTagKernel (device : Int) (frame : Ptr) (plaintextLen : Nat)
    (roundKeys root authOk : Ptr) (t : Thread) : DeviceProgram Unit :=
  if t.blockIdx ≠ 0 ∨ t.threadIdx ≠ 0 then pure ()
  else do
    let expected ← expectedTag device frame roundKeys root
    let tag ← readBytes (tagAddress frame plaintextLen) 16
    let diff := (List.finRange 16).foldl
      (fun diff i => diff ||| (expected.get i ^^^ tag.get i).setWidth 32) 0#32
    let version ← loadByte (advance frame 0)
    storeFlag authOk (if version = VERSION ∧ diff = 0#32 then 1 else 0)

/-! ## Launches -/

/-- A kernel with its arguments. -/
inductive Kernel where
  | initHashKey (roundKeys hPow2 : Ptr)
  | writeFrameHeader (frame : Ptr) (iv : Vector Byte 12)
  | ctrCrypt (src dst : Ptr) (len : Nat) (iv roundKeys : Ptr)
      (authOk : Option Ptr)
  | ghashSegment (ciphertext : Ptr) (ciphertextLen : Nat) (hPow2 nodes : Ptr)
  | ghashCombine (input output : Ptr) (count : Nat) (hPow2 : Ptr)
  | finalizeTag (frame : Ptr) (plaintextLen : Nat) (roundKeys root : Ptr)
  | verifyTag (frame : Ptr) (plaintextLen : Nat) (roundKeys root authOk : Ptr)
  deriving DecidableEq

/-- The program of one thread of a kernel on a device. -/
def Kernel.body (device : Int) : Kernel → Thread → DeviceProgram Unit
  | .initHashKey roundKeys hPow2 => initHashKeyKernel device roundKeys hPow2
  | .writeFrameHeader frame iv => writeFrameHeaderKernel frame iv
  | .ctrCrypt src dst len iv roundKeys authOk =>
      ctrCryptKernel device src dst len iv roundKeys authOk
  | .ghashSegment ciphertext ciphertextLen hPow2 nodes =>
      ghashSegmentKernel ciphertext ciphertextLen hPow2 nodes
  | .ghashCombine input output count hPow2 =>
      ghashCombineKernel input output count hPow2
  | .finalizeTag frame plaintextLen roundKeys root =>
      finalizeTagKernel device frame plaintextLen roundKeys root
  | .verifyTag frame plaintextLen roundKeys root authOk =>
      verifyTagKernel device frame plaintextLen roundKeys root authOk

/-- A kernel with its launch configuration.  The grid is the `int` the host
passes. -/
structure Launch where
  device : Int
  kernel : Kernel
  grid : Int
  threads : Nat
  deriving DecidableEq

/-- The number of threads of a launch. -/
def Launch.threadCount (l : Launch) : Nat := l.grid.toNat * l.threads

/-- Thread number `i` of a launch. -/
def Launch.thread (l : Launch) (i : Nat) : Thread :=
  ⟨i / l.threads, i % l.threads, l.threads⟩

/-- The program of thread number `i` of a launch. -/
def Launch.body (l : Launch) (i : Nat) : DeviceProgram Unit :=
  l.kernel.body l.device (l.thread i)

/-- The order in which a device runs the threads of a launch: any order in
which every thread occurs once. -/
structure Schedule where
  order : Launch → Memory → List Nat
  complete : ∀ l memory, (order l memory).Perm (List.range l.threadCount)

/-- All threads of a launch, in the order the device chose. -/
def Launch.program (schedule : Schedule) (l : Launch) (memory : Memory) :
    DeviceProgram Unit :=
  forEach (schedule.order l memory) l.body

/-- The memory a launch leaves. -/
def Launch.run (schedule : Schedule) (l : Launch) (memory : Memory) : Memory :=
  (l.program schedule memory).exec memory

/-- Launches of one stream run one after another. -/
def runAll (schedule : Schedule) (launches : List Launch) (memory : Memory) :
    Memory :=
  launches.foldl (fun current l => l.run schedule current) memory

end GpuKvSeal.Device
