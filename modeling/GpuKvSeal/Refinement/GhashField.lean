import GpuKvSeal.Device.Field
import GpuKvSeal.Standard.GcmField

/-!
# Two machine words compute in the field of the hash

The high word holds the left half of a block.  The branch-free masks of the
device code are the case distinctions of the standard, so its loop follows the
standard's loop step for step, and the ring laws transfer from the field.
-/

namespace GpuKvSeal.Refinement

open BigEndian (Byte)
open Device (Block128 bxor gfMul gfOne loadBe128 storeBe128)
open Standard (Gcm.Block Gcm.Element Gcm.element)

/-- The block two words stand for. -/
def block (x : Block128) : Gcm.Block := x.hi ++ x.lo

theorem block_injective : Function.Injective block := by
  intro x y same
  obtain ⟨hi, lo⟩ := x
  obtain ⟨hi', lo'⟩ := y
  have high := congrArg (BitVec.extractLsb' 64 64) same
  have low := congrArg (BitVec.extractLsb' 0 64) same
  simp only [block, BitVec.extractLsb'_append_eq_left,
    BitVec.extractLsb'_append_eq_right] at high low
  rw [high, low]

theorem block_bxor (x y : Block128) : block (bxor x y) = block x ^^^ block y :=
  BitVec.xor_append.symm

theorem getLsbD_block (x : Block128) (i : Nat) :
    (block x).getLsbD i =
      if i < 64 then x.lo.getLsbD i else x.hi.getLsbD (i - 64) := by
  rw [block, BitVec.getLsbD_append]

/-! ## The product -/

/-- The mask of a single bit selects all of a word or none of it. -/
theorem and_mask (word : BitVec 64) (bit : Bool) :
    word &&& (0#64 - (if bit then 1#64 else 0#64)) =
      if bit then word else 0#64 := by
  have ones : 0#64 - 1#64 = BitVec.allOnes 64 := by decide
  cases bit with
  | false => simp
  | true => rw [if_pos rfl, if_pos rfl, ones, BitVec.and_allOnes]

theorem and_one (word : BitVec 64) :
    word &&& 1#64 = if word.getLsbD 0 then 1#64 else 0#64 := by
  rw [BitVec.and_one_eq_setWidth_ofBool_getLsbD]
  cases word.getLsbD 0 <;> rfl

theorem multiplierBit_eq (x : Block128) {i : Nat} (inside : i < 128) :
    Device.multiplierBit x i =
      if (block x).getMsbD i then 1#64 else 0#64 := by
  have position : (block x).getMsbD i = (block x).getLsbD (127 - i) := by
    rw [BitVec.getMsbD_eq_getLsbD]
    simp [inside]
  rw [Device.multiplierBit, position, getLsbD_block]
  by_cases high : i < 64
  · have upper : ¬ 127 - i < 64 := by omega
    have same : 127 - i - 64 = 63 - i := by omega
    rw [if_pos high, if_neg upper, and_one, BitVec.getLsbD_ushiftRight, same,
      Nat.add_zero]
  · have lower : 127 - i < 64 := by omega
    rw [if_neg high, if_pos lower, and_one, BitVec.getLsbD_ushiftRight,
      Nat.add_zero]

/-- One iteration of the device code is one iteration of the standard. -/
theorem gfMulStep_eq (x z v : Block128) {n : Nat} (inside : n < 128) :
    block (Device.gfMulStep x n z v).1 =
        (if (block x).getMsbD n then block z ^^^ block v else block z) ∧
      block (Device.gfMulStep x n z v).2 =
        (if (block v).getLsbD 0 then (block v >>> 1) ^^^ Standard.Gcm.R
          else block v >>> 1) := by
  constructor
  · simp only [Device.gfMulStep, multiplierBit_eq x inside, and_mask]
    cases (block x).getMsbD n with
    | false => simp
    | true => exact BitVec.xor_append.symm
  · have odd : (block v).getLsbD 0 = v.lo.getLsbD 0 := by
      rw [getLsbD_block]
      rfl
    have shift : block ⟨v.hi >>> 1, v.lo >>> 1 ||| v.hi <<< 63⟩ =
        block v >>> 1 := by
      refine BitVec.eq_of_getLsbD_eq fun i inside => ?_
      rw [BitVec.getLsbD_ushiftRight, getLsbD_block, getLsbD_block]
      by_cases low : i < 63
      · have below : i < 64 := by omega
        have next : 1 + i < 64 := by omega
        simp [low, below, next]
      · by_cases edge : i = 63
        · subst edge
          simp
        · have above : ¬ i < 64 := by omega
          have next : ¬ 1 + i < 64 := by omega
          have place : 1 + (i - 64) = 1 + i - 64 := by omega
          simp [above, next, place]
    have reduce : Standard.Gcm.R = block ⟨0xe100000000000000#64, 0#64⟩ := by
      decide
    simp only [Device.gfMulStep, and_one, and_mask, odd, ← shift]
    cases v.lo.getLsbD 0 with
    | false => simp
    | true =>
        rw [if_pos rfl, if_pos rfl, reduce, ← block_bxor, bxor, BitVec.xor_zero]

theorem gfMulLoop_eq (x y : Block128) {n : Nat} (few : n ≤ 128) :
    block (Device.gfMulLoop x y n).1 =
        (Standard.Gcm.mulSteps (block x) (block y) n).1 ∧
      block (Device.gfMulLoop x y n).2 =
        (Standard.Gcm.mulSteps (block x) (block y) n).2 := by
  induction n with
  | zero =>
      have zero : block ⟨0#64, 0#64⟩ = 0#128 := by decide
      exact ⟨zero, rfl⟩
  | succ n ih =>
      obtain ⟨sum, power⟩ := ih (by omega)
      have step := gfMulStep_eq x (Device.gfMulLoop x y n).1
        (Device.gfMulLoop x y n).2 (n := n) (by omega)
      rw [sum, power] at step
      exact step

/-- The device product is the product of the standard. -/
theorem block_gfMul (x y : Block128) :
    block (gfMul x y) = Standard.Gcm.mul (block x) (block y) :=
  (gfMulLoop_eq x y (le_refl 128)).1

/-! ## The field element of two words -/

/-- The field element two words stand for. -/
noncomputable def value (x : Block128) : Gcm.Element := Gcm.element (block x)

theorem value_injective : Function.Injective value :=
  Standard.Gcm.element_injective.comp block_injective

@[simp]
theorem value_zero : value ⟨0#64, 0#64⟩ = 0 := by
  have zero : block ⟨0#64, 0#64⟩ = 0#128 := by decide
  rw [value, zero, Standard.Gcm.element_zero]

@[simp]
theorem value_gfOne : value gfOne = 1 := by
  have one : block gfOne = BitVec.twoPow 128 127 := by decide +kernel
  rw [value, one, Standard.Gcm.element_one]

@[simp]
theorem value_bxor (x y : Block128) : value (bxor x y) = value x + value y := by
  rw [value, block_bxor, Standard.Gcm.element_xor]
  rfl

@[simp]
theorem value_gfMul (x y : Block128) :
    value (gfMul x y) = value x * value y := by
  rw [value, block_gfMul, Standard.Gcm.element_mul]
  rfl

/-! ## Polynomials over the two-element field -/

open Polynomial in
/-- The polynomial two words stand for, read from the top of the high word. -/
noncomputable def polynomial (x : Block128) : (ZMod 2)[X] :=
  ∑ i ∈ Finset.range 128,
    C (BinaryField.bit
      (if i < 64 then x.hi.getLsbD (63 - i) else x.lo.getLsbD (127 - i))) * X ^ i

theorem polynomial_eq (x : Block128) :
    polynomial x = BinaryField.toPoly (block x).reverse := by
  refine Finset.sum_congr rfl fun i inside => ?_
  have below : i < 128 := Finset.mem_range.mp inside
  have bit : (block x).reverse.getLsbD i = (block x).getLsbD (127 - i) := by
    rw [BitVec.getLsbD_reverse, BitVec.getMsbD_eq_getLsbD]
    simp [below]
  rw [bit, getLsbD_block]
  by_cases high : i < 64
  · have upper : ¬ 127 - i < 64 := by omega
    have place : 127 - i - 64 = 63 - i := by omega
    rw [if_pos high, if_neg upper, place]
  · have lower : 127 - i < 64 := by omega
    rw [if_neg high, if_pos lower]

theorem value_eq_polynomial (x : Block128) :
    value x = AdjoinRoot.mk (BinaryField.modulus Standard.Gcm.fieldModulus)
      (polynomial x) := by
  rw [polynomial_eq]
  rfl

open Polynomial in
/-- The device product is the product of polynomials with remainder, and the
ring laws hold for it. -/
theorem gfMul_polynomial :
    (∀ x y : Block128, polynomial (gfMul x y) =
      (polynomial x * polynomial y) %ₘ (X ^ 128 + X ^ 7 + X ^ 2 + X + 1)) ∧
    (∀ x y : Block128, gfMul x y = gfMul y x) ∧
    (∀ x y z : Block128, gfMul (gfMul x y) z = gfMul x (gfMul y z)) ∧
    (∀ x y z : Block128,
      gfMul x (bxor y z) = bxor (gfMul x y) (gfMul x z) ∧
        gfMul (bxor x y) z = bxor (gfMul x z) (gfMul y z)) ∧
    ∀ x : Block128, gfMul gfOne x = x ∧ gfMul x gfOne = x := by
  refine ⟨?_, ?_, ?_, ?_, ?_⟩
  · intro x y
    have product : BinaryField.residue Standard.Gcm.fieldModulus
        (block (gfMul x y)).reverse = AdjoinRoot.mk _
          (polynomial x * polynomial y) := by
      rw [map_mul, ← value_eq_polynomial, ← value_eq_polynomial, ← value_gfMul]
      rfl
    rw [polynomial_eq, BinaryField.toPoly_eq_modByMonic product,
      Standard.Gcm.modulus_fieldModulus]
  · intro x y
    apply value_injective
    rw [value_gfMul, value_gfMul, mul_comm]
  · intro x y z
    apply value_injective
    simp only [value_gfMul, mul_assoc]
  · intro x y z
    constructor
    · apply value_injective
      simp only [value_gfMul, value_bxor, mul_add]
    · apply value_injective
      simp only [value_gfMul, value_bxor, add_mul]
  · intro x
    constructor
    · apply value_injective
      simp only [value_gfMul, value_gfOne, one_mul]
    · apply value_injective
      simp only [value_gfMul, value_gfOne, mul_one]

/-! ## Bytes -/

theorem getLsbD_ofHalf (bytes : Vector Byte 16) (start : Nat)
    (room : start + 8 ≤ 16) (i : Nat) (inside : i < 64) :
    (BigEndian.ofBytes 64 (List.ofFn fun j : Fin 8 => bytes[start + j.val])).getLsbD
        i = bytes[start + (7 - i / 8)].getLsbD (i % 8) := by
  have within : i / 8 < 8 := by omega
  rw [BigEndian.getLsbD_ofBytes 64 _ inside, dif_pos (by simpa using within),
    List.getElem_ofFn]
  simp

/-- Reading a block from its bytes. -/
theorem block_loadBe128 (bytes : Vector Byte 16) :
    block (loadBe128 bytes) = BigEndian.ofBytes 128 bytes.toList := by
  have high : (loadBe128 bytes).hi =
      BigEndian.ofBytes 64 (List.ofFn fun j : Fin 8 => bytes[0 + j.val]) := by
    rw [loadBe128, BigEndian.ofBytes, List.ofFn_eq_map, List.foldl_map]
    simp
  have low : (loadBe128 bytes).lo =
      BigEndian.ofBytes 64 (List.ofFn fun j : Fin 8 => bytes[8 + j.val]) := by
    rw [loadBe128, BigEndian.ofBytes, List.ofFn_eq_map, List.foldl_map]
  refine BitVec.eq_of_getLsbD_eq fun i inside => ?_
  have within : i / 8 < bytes.toList.length := by
    rw [Vector.length_toList]
    omega
  rw [getLsbD_block, BigEndian.getLsbD_ofBytes 128 _ inside, dif_pos within,
    Vector.getElem_toList]
  by_cases lower : i < 64
  · rw [if_pos lower, low, getLsbD_ofHalf bytes 8 (by decide) i lower]
    congr 2
    rw [Vector.length_toList]
    omega
  · have div : (i - 64) / 8 = i / 8 - 8 := by omega
    have mod : (i - 64) % 8 = i % 8 := by omega
    rw [if_neg lower, high, getLsbD_ofHalf bytes 0 (by decide) _ (by omega), mod]
    congr 2
    rw [Vector.length_toList]
    omega

/-- Writing a block as bytes. -/
theorem storeBe128_eq (x : Block128) :
    storeBe128 x = BigEndian.toBytes 16 (block x) := by
  ext i bound j inside
  show (storeBe128 x)[i].getLsbD j = (BigEndian.toBytes 16 (block x))[i].getLsbD j
  rw [BigEndian.getElem_toBytes, BigEndian.getLsbD_byteAt _ _ _ inside,
    getLsbD_block]
  by_cases high : i < 8
  · have upper : ¬ 8 * (16 - 1 - i) + j < 64 := by omega
    have place : 8 * (16 - 1 - i) + j - 64 = 8 * (7 - i) + j := by omega
    simp [storeBe128, high, Device.halfByte, inside, upper, place]
  · have lower : 8 * (16 - 1 - i) + j < 64 := by omega
    have place : 8 * (7 - (i - 8)) + j = 8 * (16 - 1 - i) + j := by omega
    simp [storeBe128, high, Device.halfByte, inside, lower, place]

end GpuKvSeal.Refinement
