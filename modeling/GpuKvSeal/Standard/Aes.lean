import GpuKvSeal.Foundations.BigEndian
import GpuKvSeal.Foundations.BinaryField

/-!
# The AES-128 block cipher of FIPS-197

The state is the four by four array of the standard, indexed by row and
column.  Substitution is inversion in the field of `2 ^ 8` elements followed
by the affine map, column mixing is a matrix product over that field, and the
round constants are powers of `x`.
-/

namespace GpuKvSeal.Standard.Aes

open BigEndian (Byte)

/-- The low part of `x ^ 8 + x ^ 4 + x ^ 3 + x + 1`. -/
def reduction : Byte := 0x1b#8

/-- The field product of two bytes. -/
def product (a b : Byte) : Byte := BinaryField.mul reduction a b

/-- The product with `x`. -/
def timesX (a : Byte) : Byte := BinaryField.mulX reduction a

open Polynomial in
theorem modulus_reduction : BinaryField.modulus reduction =
    (X ^ 8 + X ^ 4 + X ^ 3 + X + 1 : (ZMod 2)[X]) := by
  have low : BinaryField.toPoly reduction =
      (X ^ 4 + X ^ 3 + X + 1 : (ZMod 2)[X]) := by
    simp [BinaryField.toPoly, Finset.sum_range_succ, reduction, BinaryField.bit]
    ring
  rw [BinaryField.modulus, low]
  ring

open Polynomial in
/-- Bytes multiply as polynomials modulo `x ^ 8 + x ^ 4 + x ^ 3 + x + 1`. -/
theorem toPoly_product (a b : Byte) :
    BinaryField.toPoly (product a b) =
      (BinaryField.toPoly a * BinaryField.toPoly b) %ₘ
        (X ^ 8 + X ^ 4 + X ^ 3 + X + 1) := by
  rw [← modulus_reduction]
  apply BinaryField.toPoly_eq_modByMonic
  rw [product, BinaryField.residue_mul (by decide), map_mul]
  rfl

/-- The byte whose product with `a` is one, and zero if there is none. -/
def inverse (a : Byte) : Byte :=
  (((List.range 256).map (BitVec.ofNat 8)).find?
    fun b => product a b = 1#8).getD 0#8

/-- A byte has at most one inverse. -/
theorem inverse_eq {a b : Byte} (one : product a b = 1#8) : inverse a = b := by
  have listed : b ∈ (List.range 256).map (BitVec.ofNat 8) :=
    List.mem_map.mpr ⟨b.toNat, List.mem_range.mpr b.isLt, by simp⟩
  unfold inverse
  cases found : ((List.range 256).map (BitVec.ofNat 8)).find?
      fun b => product a b = 1#8 with
  | none =>
      have missing := List.find?_eq_none.mp found b listed
      exact absurd one (by simpa using missing)
  | some c =>
      have other : product a c = 1#8 := by simpa using List.find?_some found
      exact BinaryField.mul_one_unique (by decide) other one

theorem inverse_zero : inverse 0#8 = 0#8 := by
  have missing : ((List.range 256).map (BitVec.ofNat 8)).find?
      (fun b => product 0#8 b = 1#8) = none := by
    refine List.find?_eq_none.mpr fun b _ => ?_
    have zero : product 0#8 b = 0#8 := BinaryField.zero_mul (by decide) b
    simp [zero]
  rw [inverse, missing]
  rfl

/-- The affine map of the substitution, written with rotations. -/
def affine (b : Byte) : Byte :=
  b ^^^ b.rotateLeft 1 ^^^ b.rotateLeft 2 ^^^ b.rotateLeft 3 ^^^
    b.rotateLeft 4 ^^^ 0x63#8

/-- The substitution box. -/
def sBox (b : Byte) : Byte := affine (inverse b)

/-- The four by four array of bytes, by row and column. -/
abbrev State := Fin 4 → Fin 4 → Byte

/-- A round key word is one column. -/
abbrev Word := Fin 4 → Byte

/-- Fill the state from a block, column by column. -/
def State.ofBlock (block : Vector Byte 16) : State :=
  fun row column => block[row.val + 4 * column.val]

/-- Read the state back into a block, column by column. -/
def State.toBlock (state : State) : Vector Byte 16 :=
  Vector.ofFn fun index =>
    state ⟨index.val % 4, by omega⟩ ⟨index.val / 4, by omega⟩

def subBytes (state : State) : State :=
  fun row column => sBox (state row column)

/-- Row `r` is rotated left by `r` places. -/
def shiftRows (state : State) : State :=
  fun row column => state row (column + row)

/-- The circulant matrix of the column mixing. -/
def mixMatrix : Fin 4 → Fin 4 → Byte :=
  fun row column =>
    (#v[#v[0x02#8, 0x03#8, 0x01#8, 0x01#8], #v[0x01#8, 0x02#8, 0x03#8, 0x01#8],
      #v[0x01#8, 0x01#8, 0x02#8, 0x03#8],
      #v[0x03#8, 0x01#8, 0x01#8, 0x02#8]].get row).get column

/-- Every column is multiplied by the mixing matrix. -/
def mixColumns (state : State) : State :=
  fun row column =>
    product (mixMatrix row 0) (state 0 column) ^^^
    product (mixMatrix row 1) (state 1 column) ^^^
    product (mixMatrix row 2) (state 2 column) ^^^
    product (mixMatrix row 3) (state 3 column)

def addRoundKey (state : State) (words : Fin 4 → Word) : State :=
  fun row column => state row column ^^^ words column row

/-- The round constant `x ^ (round - 1)` in the first byte of a word. -/
def rcon (round : Nat) : Word :=
  fun row => if row = 0 then timesX^[round - 1] 1#8 else 0#8

/-- Word `i` of the expanded key. -/
def keyWord (key : Vector Byte 16) (i : Nat) : Word :=
  if first : i < 4 then
    fun row => key[4 * i + row.val]
  else
    let previous := keyWord key (i - 1)
    let mixed : Word :=
      if i % 4 = 0 then fun row => sBox (previous (row + 1)) ^^^ rcon (i / 4) row
      else previous
    fun row => keyWord key (i - 4) row ^^^ mixed row

/-- The four words of one round key. -/
def roundKey (key : Vector Byte 16) (round : Nat) : Fin 4 → Word :=
  fun column => keyWord key (4 * round + column.val)

/-- The state after the initial key addition and `rounds` full rounds. -/
def rounds (key : Vector Byte 16) (block : Vector Byte 16) : Nat → State
  | 0 => addRoundKey (State.ofBlock block) (roundKey key 0)
  | n + 1 =>
      addRoundKey (mixColumns (shiftRows (subBytes (rounds key block n))))
        (roundKey key (n + 1))

/-- The cipher: nine full rounds and a final one without column mixing. -/
def cipher (key : Vector Byte 16) (block : Vector Byte 16) : Vector Byte 16 :=
  (addRoundKey (shiftRows (subBytes (rounds key block 9)))
    (roundKey key 10)).toBlock

end GpuKvSeal.Standard.Aes
