import GpuKvSeal.Foundations.BigEndian
import GpuKvSeal.Standard.Aes

/-!
# Galois/Counter Mode of SP 800-38D

Blocks are 128-bit words whose leftmost bit is the most significant one, and
byte strings are lists.  The mode is stated over an arbitrary block cipher;
`aes` is the instance used by the frames.
-/

namespace GpuKvSeal.Standard.Gcm

open BigEndian (Byte)

/-- A block of 128 bits. -/
abbrev Block := BitVec 128

/-- The string `11100001` followed by 120 zeros. -/
def R : Block := 0xe1000000000000000000000000000000#128

/-- The pair `(Z, V)` after the bits `0 .. n - 1` of `x`. -/
def mulSteps (x y : Block) : Nat → Block × Block
  | 0 => (0#128, y)
  | n + 1 =>
      let (z, v) := mulSteps x y n
      (if x.getMsbD n then z ^^^ v else z,
        if v.getLsbD 0 then (v >>> 1) ^^^ R else v >>> 1)

/-- Multiplication of blocks, Algorithm 1. -/
def mul (x y : Block) : Block := (mulSteps x y 128).1

/-- The hash of a sequence of blocks, Algorithm 2. -/
def ghash (h : Block) (blocks : List Block) : Block :=
  blocks.foldl (fun y x => mul (y ^^^ x) h) 0#128

/-- Increment the rightmost 32 bits modulo `2 ^ 32`. -/
def inc32 (block : Block) : Block :=
  block.extractLsb' 32 96 ++ (block.extractLsb' 0 32 + 1#32)

/-- The bytes of a block. -/
def blockBytes (block : Block) : List Byte := (BigEndian.toBytes 16 block).toList

/-- Encrypt the leading `n` blocks of `x` under successive counters; the last
block may be short. -/
def gctrBlocks (ciph : Block → Block) : Nat → Block → List Byte → List Byte
  | 0, _, _ => []
  | n + 1, counter, x =>
      List.zipWith (· ^^^ ·) (x.take 16) (blockBytes (ciph counter)) ++
        gctrBlocks ciph n (inc32 counter) (x.drop 16)

/-- Counter mode over a string of any length, Algorithm 3. -/
def gctr (ciph : Block → Block) (icb : Block) (x : List Byte) : List Byte :=
  gctrBlocks ciph ((x.length + 15) / 16) icb x

/-- Block `index` of a string padded on the right with zeros. -/
def paddedBlock (x : List Byte) (index : Nat) : Block :=
  BigEndian.ofBytes 128
    (Vector.ofFn fun j : Fin 16 => x.getD (index * 16 + j.val) 0#8).toList

/-- The blocks of a string padded on the right to a multiple of 16 bytes. -/
def paddedBlocks (x : List Byte) : List Block :=
  (List.range ((x.length + 15) / 16)).map (paddedBlock x)

/-- The two 64-bit bit lengths. -/
def lengthBlock (aad c : List Byte) : Block :=
  BitVec.ofNat 64 (8 * aad.length) ++ BitVec.ofNat 64 (8 * c.length)

/-- The pre-counter block of a 96-bit IV. -/
def preCounter (iv : Vector Byte 12) : Block :=
  BigEndian.ofBytes 96 iv.toList ++ 1#32

/-- The 128-bit tag of a ciphertext. -/
def tag (ciph : Block → Block) (iv : Vector Byte 12) (aad c : List Byte) :
    List Byte :=
  let h := ciph 0#128
  let s := ghash h (paddedBlocks aad ++ paddedBlocks c ++ [lengthBlock aad c])
  gctr ciph (preCounter iv) (blockBytes s)

/-- Authenticated encryption, Algorithm 4: the ciphertext and its tag. -/
def authEncrypt (ciph : Block → Block) (iv : Vector Byte 12)
    (p aad : List Byte) : List Byte × List Byte :=
  let c := gctr ciph (inc32 (preCounter iv)) p
  (c, tag ciph iv aad c)

/-- Authenticated decryption, Algorithm 5: the plaintext, or nothing when the
tag differs. -/
def authDecrypt (ciph : Block → Block) (iv : Vector Byte 12)
    (c aad t : List Byte) : Option (List Byte) :=
  if tag ciph iv aad c = t then
    some (gctr ciph (inc32 (preCounter iv)) c)
  else none

/-- AES-128 as a function on blocks. -/
def aes (key : Vector Byte 16) (block : Block) : Block :=
  BigEndian.ofBytes 128 (Aes.cipher key (BigEndian.toBytes 16 block)).toList

end GpuKvSeal.Standard.Gcm
