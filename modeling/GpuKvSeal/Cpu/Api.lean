import GpuKvSeal.Cpu.Process

/-!
# The C interface of the CPU backend
-/

namespace GpuKvSeal.Cpu

open BigEndian (Byte)
open Device (Ptr u64 advance VERSION_LEN IV_LEN TAG_LEN HEADER_LEN FRAME_OVERHEAD)

/-- The largest `int`. -/
abbrev INT_MAX : Nat := 2147483647

/-- Pass the data on in chunks that fit into an `int`, from position `done` on.
The two error codes tell a failed update from one of the wrong length. -/
def updateAll (direction : Direction) (errUpdate errProduced : Int) (src : Ptr)
    (len : Nat) (dst : Ptr) (done : Nat) : Process Int :=
  if done < len then do
    let chunk := min (len - done) INT_MAX
    let reply ← ask (.update direction (advance dst done) (advance src done) chunk)
    if reply.rc ≠ 1 then pure errUpdate
    else if reply.produced ≠ chunk then pure errProduced
    else updateAll direction errUpdate errProduced src len dst (done + chunk)
  else pure 0
termination_by len - done
decreasing_by
  have size : INT_MAX = 2147483647 := rfl
  omega

def encryptUpdateAll (src : Ptr) (len : Nat) (dst : Ptr) : Process Int :=
  updateAll .encrypt (-20) (-21) src len dst 0

def decryptUpdateAll (src : Ptr) (len : Nat) (dst : Ptr) : Process Int :=
  updateAll .decrypt (-30) (-31) src len dst 0

/-- The calls that follow the text of a seal. -/
def finishSeal (tag : Ptr) : Process Int := do
  let final ← ask (.final .encrypt tag)
  if final.rc ≠ 1 then pure (-9)
  else if final.produced ≠ 0 then pure (-10)
  else require (.getTag TAG_LEN tag) (-11) (pure 0)

/-- A seal after its checks. -/
def sealFrame (key src : Ptr) (srcLen : Nat) (dst : Ptr) : Process Int := do
  storeByte (advance dst 0) 1#8
  let iv := advance dst VERSION_LEN
  let ciphertext := advance dst HEADER_LEN
  let tag := advance ciphertext srcLen
  require (.randBytes iv IV_LEN) (-5) <|
    require (.initCipher .encrypt) (-6) <|
    require (.setIvLen IV_LEN) (-7) <|
    require (.initKey .encrypt key iv) (-8) do
      let rc ← encryptUpdateAll src srcLen ciphertext
      if rc ≠ 0 then pure rc else finishSeal tag

def lmcacheAes128gcmSeal (key src : Ptr) (srcLen : Nat) (dst : Ptr)
    (dstLen : Nat) : Process Int :=
  if key = 0 ∨ src = 0 ∨ dst = 0 then pure (-1)
  else if dstLen < u64 (srcLen + FRAME_OVERHEAD) then pure (-2)
  else do
    let ctx ← hasContext
    if ctx = false then pure (-3)
    else require .reset (-4) (sealFrame key src srcLen dst)

/-- The calls of an open after the key and the tag are in place.  What an update
may have written is wiped unless the tag is right. -/
def openText (ciphertext : Ptr) (plaintextLen : Nat) (dst : Ptr) :
    Process Int := do
  let rc ← decryptUpdateAll ciphertext plaintextLen dst
  if rc ≠ 0 then do
    cleanse dst plaintextLen
    pure rc
  else do
    let final ← ask (.final .decrypt (advance dst plaintextLen))
    if final.rc ≠ 1 then do
      cleanse dst plaintextLen
      pure (-11)
    else pure 0

/-- An open after its checks. -/
def openFrame (key frame : Ptr) (plaintextLen : Nat) (dst : Ptr) : Process Int :=
  let iv := advance frame VERSION_LEN
  let ciphertext := advance frame HEADER_LEN
  let tag := advance ciphertext plaintextLen
  require .reset (-6) <|
    require (.initCipher .decrypt) (-7) <|
    require (.setIvLen IV_LEN) (-8) <|
    require (.initKey .decrypt key iv) (-9) <|
    require (.setTag TAG_LEN tag) (-10) <|
    openText ciphertext plaintextLen dst

def lmcacheAes128gcmOpen (key frame : Ptr) (frameLen : Nat) (dst : Ptr)
    (dstLen : Nat) : Process Int :=
  if key = 0 ∨ frame = 0 ∨ dst = 0 then pure (-1)
  else if frameLen < FRAME_OVERHEAD then pure (-2)
  else do
    let version ← loadByte (advance frame 0)
    if version ≠ 1#8 then pure (-3)
    else
      let plaintextLen := frameLen - FRAME_OVERHEAD
      if dstLen < plaintextLen then pure (-4)
      else do
        let ctx ← hasContext
        if ctx = false then pure (-5)
        else openFrame key frame plaintextLen dst

end GpuKvSeal.Cpu
