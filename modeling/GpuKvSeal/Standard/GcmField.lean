import GpuKvSeal.Foundations.HornerHash
import GpuKvSeal.Standard.Gcm

/-!
# The field behind the block product

The leftmost bit of a block is the constant coefficient, so a block read from
the right is a bit vector of `BinaryField`.  Under this reading the product of
the standard is the product of a field of `2 ^ 128` elements, and its hash is
a Horner hash.
-/

namespace GpuKvSeal.Standard.Gcm

open BinaryField (residue residueBit modulus)

/-- The low part of `x ^ 128 + x ^ 7 + x ^ 2 + x + 1`. -/
def fieldModulus : BitVec 128 := 0x87#128

open Polynomial in
theorem modulus_fieldModulus : modulus fieldModulus =
    (X ^ 128 + X ^ 7 + X ^ 2 + X + 1 : (ZMod 2)[X]) := by
  have low : BinaryField.toPoly fieldModulus =
      (X ^ 7 + X ^ 2 + X + 1 : (ZMod 2)[X]) := by
    ext i
    rw [BinaryField.coeff_toPoly]
    by_cases small : i < 8
    · interval_cases i <;>
        simp [fieldModulus, BinaryField.bit, coeff_X, coeff_one]
    · have high : fieldModulus.getLsbD i = false := by
        refine Nat.testBit_lt_two_pow ?_
        exact lt_of_lt_of_le (by decide) (Nat.pow_le_pow_right (by decide)
          (Nat.le_of_not_lt small))
      have seven : i ≠ 7 := by omega
      have two : i ≠ 2 := by omega
      have one : 1 ≠ i := by omega
      have zero : i ≠ 0 := by omega
      simp [high, BinaryField.bit, coeff_X, coeff_X_pow, coeff_one, seven, two,
        one, zero]
  rw [modulus, low]
  ring

/-- The quotient ring of the modulus. -/
abbrev Element : Type := AdjoinRoot (modulus fieldModulus)

/-- The element a block stands for. -/
noncomputable def element (block : Block) : Element :=
  residue fieldModulus block.reverse

theorem element_injective : Function.Injective element := by
  intro a b same
  have reversed := BinaryField.residue_injective same
  rw [← BitVec.reverse_reverse_eq (x := a), reversed, BitVec.reverse_reverse_eq]

@[simp]
theorem element_zero : element 0#128 = 0 := by
  have reversed : (0#128).reverse = 0#128 := by decide +kernel
  rw [element, reversed, BinaryField.residue_zero]

@[simp]
theorem element_xor (a b : Block) :
    element (a ^^^ b) = element a + element b := by
  have reversed : (a ^^^ b).reverse = a.reverse ^^^ b.reverse := by
    refine BitVec.eq_of_getLsbD_eq fun i _ => ?_
    simp [BitVec.getLsbD_reverse]
  rw [element, reversed, BinaryField.residue_xor]
  rfl

theorem element_eq_zero_iff {a : Block} : element a = 0 ↔ a = 0#128 := by
  rw [← element_zero]
  exact element_injective.eq_iff

/-- The block whose leftmost bit alone is set. -/
theorem element_one : element (BitVec.twoPow 128 127) = 1 := by
  have reversed : (BitVec.twoPow 128 127).reverse = 1#128 := by decide +kernel
  rw [element, reversed, BinaryField.residue_one (by decide)]

/-! ## The product -/

/-- Shifting towards the right multiplies by the root of the modulus. -/
theorem element_shift (v : Block) :
    element (if v.getLsbD 0 then (v >>> 1) ^^^ R else v >>> 1) =
      AdjoinRoot.root (modulus fieldModulus) * element v := by
  rw [element, element, ← BinaryField.residue_mulX (by decide)]
  congr 1
  have constant : R.reverse = fieldModulus := by decide +kernel
  have shift : (v >>> 1).reverse = v.reverse <<< 1 := by
    refine BitVec.eq_of_getLsbD_eq fun i inside => ?_
    rw [BitVec.getLsbD_reverse, BitVec.getMsbD_ushiftRight,
      BitVec.getLsbD_shiftLeft, BitVec.getLsbD_reverse]
    by_cases first : i < 1 <;> simp [first, inside]
  have top : v.reverse.getLsbD (128 - 1) = v.getLsbD 0 := by
    rw [BitVec.getLsbD_reverse, BitVec.getMsbD_eq_getLsbD]
    rfl
  have reversed : ((v >>> 1) ^^^ R).reverse = v.reverse <<< 1 ^^^ fieldModulus := by
    rw [← shift, ← constant]
    refine BitVec.eq_of_getLsbD_eq fun i _ => ?_
    simp only [BitVec.getLsbD_reverse, BitVec.getMsbD_xor, BitVec.getLsbD_xor]
  rw [BinaryField.mulX, top]
  by_cases odd : v.getLsbD 0
  · rw [if_pos odd, if_pos odd, reversed]
  · rw [if_neg odd, if_neg odd, shift, BitVec.xor_zero]

theorem element_mulSteps (x y : Block) (n : Nat) :
    element (mulSteps x y n).1 =
        (∑ i ∈ Finset.range n, residueBit fieldModulus (x.getMsbD i) *
          AdjoinRoot.root (modulus fieldModulus) ^ i) * element y ∧
      element (mulSteps x y n).2 =
        AdjoinRoot.root (modulus fieldModulus) ^ n * element y := by
  induction n with
  | zero => simp [mulSteps]
  | succ n ih =>
      obtain ⟨sum, power⟩ := ih
      constructor
      · rw [Finset.sum_range_succ, add_mul, ← sum]
        show element (if x.getMsbD n then (mulSteps x y n).1 ^^^ (mulSteps x y n).2
          else (mulSteps x y n).1) = _
        cases x.getMsbD n with
        | false => simp [residueBit]
        | true => simp [residueBit, power]
      · rw [pow_succ', mul_assoc, ← power]
        exact element_shift _

/-- The class of a bit vector is the sum of its coefficients. -/
theorem element_eq_sum (x : Block) :
    element x = ∑ i ∈ Finset.range 128,
      residueBit fieldModulus (x.getMsbD i) *
        AdjoinRoot.root (modulus fieldModulus) ^ i := by
  rw [element, residue, BinaryField.toPoly, map_sum]
  refine Finset.sum_congr rfl fun i _ => ?_
  rw [map_mul, map_pow, AdjoinRoot.mk_X, BinaryField.mk_C_bit,
    BitVec.getLsbD_reverse]

/-- The product of the standard is the product of the field. -/
@[simp]
theorem element_mul (x y : Block) :
    element (mul x y) = element x * element y := by
  rw [mul, (element_mulSteps x y 128).1, ← element_eq_sum]

/-- Repeated squaring certifies that the modulus is irreducible. -/
theorem fieldModulus_irreducible : Irreducible (modulus fieldModulus) := by
  refine BinaryField.modulus_irreducible (k := 6) fieldModulus
    210407306859290181404817842025723703320#128 rfl ?_ ?_
  · decide +kernel
  · decide +kernel

/-! ## The hash -/

theorem element_absorb (h start : Block) (blocks : List Block) :
    element (blocks.foldl (fun y x => mul (y ^^^ x) h) start) =
      (blocks.map element).foldl (fun y x => (y + x) * element h)
        (element start) := by
  induction blocks generalizing start with
  | nil => rfl
  | cons block rest ih =>
      rw [List.foldl_cons, ih, element_mul, element_xor, List.map_cons,
        List.foldl_cons]

theorem element_ghash (h : Block) (blocks : List Block) :
    element (ghash h blocks) =
      HornerHash.horner (element h) (blocks.map element) := by
  have zero : element 0#128 = 0 := element_zero
  rw [HornerHash.horner, ← zero]
  exact element_absorb h 0#128 blocks

end GpuKvSeal.Standard.Gcm
