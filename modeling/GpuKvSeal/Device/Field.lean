import GpuKvSeal.Foundations.BigEndian

/-!
# GHASH field arithmetic on two 64-bit halves
-/

namespace GpuKvSeal.Device

open BigEndian (Byte)

/-- A 128-bit block as two machine words. -/
structure Block128 where
  hi : BitVec 64
  lo : BitVec 64
  deriving DecidableEq, Repr

def bxor (a b : Block128) : Block128 := ⟨a.hi ^^^ b.hi, a.lo ^^^ b.lo⟩

/-- Read 16 bytes, most significant first, eight into each half. -/
def loadBe128 (p : Vector Byte 16) : Block128 where
  hi := (List.finRange 8).foldl
    (fun hi i => (hi <<< 8) ||| (p[i.val]).setWidth 64) 0#64
  lo := (List.finRange 8).foldl
    (fun lo i => (lo <<< 8) ||| (p[8 + i.val]).setWidth 64) 0#64

/-- Byte `index` of a half that is written from its low end upwards. -/
def halfByte (half : BitVec 64) (index : Nat) : Byte :=
  (half >>> (8 * (7 - index))).setWidth 8

/-- Write 16 bytes, most significant first. -/
def storeBe128 (x : Block128) : Vector Byte 16 :=
  Vector.ofFn fun i =>
    if i.val < 8 then halfByte x.hi i.val else halfByte x.lo (i.val - 8)

/-- Bit `i` of the multiplier, counted from the top of the high half. -/
def multiplierBit (x : Block128) (i : Nat) : BitVec 64 :=
  if i < 64 then (x.hi >>> (63 - i)) &&& 1#64
  else (x.lo >>> (127 - i)) &&& 1#64

/-- One iteration: add `v` under the bit's mask, then multiply `v` by `x`. -/
def gfMulStep (x : Block128) (i : Nat) (z v : Block128) :
    Block128 × Block128 :=
  let xmask := 0#64 - multiplierBit x i
  let z : Block128 := ⟨z.hi ^^^ (v.hi &&& xmask), z.lo ^^^ (v.lo &&& xmask)⟩
  let lsb := v.lo &&& 1#64
  let newLo := (v.lo >>> 1) ||| (v.hi <<< 63)
  let rmask := 0#64 - lsb
  let newHi := (v.hi >>> 1) ^^^ (0xe100000000000000#64 &&& rmask)
  (z, ⟨newHi, newLo⟩)

/-- The pair `(z, v)` after `n` iterations. -/
def gfMulLoop (x y : Block128) : Nat → Block128 × Block128
  | 0 => (⟨0#64, 0#64⟩, y)
  | n + 1 =>
      let (z, v) := gfMulLoop x y n
      gfMulStep x n z v

def gfMul (x y : Block128) : Block128 := (gfMulLoop x y 128).1

/-- Multiplicative identity under the GHASH bit representation. -/
def gfOne : Block128 := ⟨0x8000000000000000#64, 0#64⟩

end GpuKvSeal.Device
