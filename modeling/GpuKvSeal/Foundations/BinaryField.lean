import Mathlib

/-!
# Binary polynomials on bit vectors

A vector of width `w` is read as the polynomial over the two-element field
whose coefficient of `X ^ i` is bit `i`.  The low part `r` of a monic modulus
`X ^ w + r` fixes shift-and-reduce multiplication, which is the product in the
quotient ring.  Repeated squaring gives a certificate that the modulus is
irreducible, so that the quotient has no zero divisors.
-/

namespace GpuKvSeal.BinaryField

open Polynomial

variable {w : Nat}

/-- The product with `X`: shift up and fold the overflowing coefficient. -/
def mulX (r a : BitVec w) : BitVec w :=
  (a <<< 1) ^^^ (if a.getLsbD (w - 1) then r else 0#w)

/-- The product of `a` with the polynomial of the `n` highest bits of `b`. -/
def mulLoop (r a b : BitVec w) : Nat → BitVec w
  | 0 => 0#w
  | n + 1 =>
      mulX r (mulLoop r a b n) ^^^
        (if b.getLsbD (w - (n + 1)) then a else 0#w)

/-- The product modulo `X ^ w + r`. -/
def mul (r a b : BitVec w) : BitVec w := mulLoop r a b w

/-- The coefficient a bit stands for. -/
def bit (b : Bool) : ZMod 2 := if b then 1 else 0

theorem bit_xor (a b : Bool) : bit (a ^^ b) = bit a + bit b := by
  cases a <;> cases b <;> decide

theorem bit_injective {a b : Bool} (same : bit a = bit b) : a = b := by
  cases a <;> cases b <;> first | rfl | (revert same; decide)

/-- The polynomial of a bit vector, lowest bit first. -/
noncomputable def toPoly (a : BitVec w) : (ZMod 2)[X] :=
  ∑ i ∈ Finset.range w, C (bit (a.getLsbD i)) * X ^ i

@[simp]
theorem coeff_toPoly (a : BitVec w) (i : Nat) :
    (toPoly a).coeff i = bit (a.getLsbD i) := by
  simp only [toPoly, finsetSum_coeff, coeff_C_mul, coeff_X_pow]
  by_cases inside : i < w
  · simp [inside]
  · simp [inside, BitVec.getLsbD_of_ge a i (Nat.le_of_not_lt inside), bit]

theorem toPoly_injective {a b : BitVec w} (same : toPoly a = toPoly b) :
    a = b := by
  refine BitVec.eq_of_getLsbD_eq fun i _ => bit_injective ?_
  rw [← coeff_toPoly, ← coeff_toPoly, same]

@[simp]
theorem toPoly_zero : toPoly (0#w) = 0 := by
  ext i
  simp [bit]

theorem toPoly_xor (a b : BitVec w) :
    toPoly (a ^^^ b) = toPoly a + toPoly b := by
  ext i
  simp [bit_xor]

theorem degree_toPoly_lt (a : BitVec w) : (toPoly a).degree < w := by
  refine (degree_lt_iff_coeff_zero _ _).mpr fun i outside => ?_
  simp [BitVec.getLsbD_of_ge a i outside, bit]

/-- Dropping `k` low bits, one coefficient at a time. -/
theorem toPoly_ushiftRight (a : BitVec w) (k : Nat) :
    toPoly (a >>> k) = C (bit (a.getLsbD k)) + X * toPoly (a >>> (k + 1)) := by
  ext i
  cases i with
  | zero => simp
  | succ i => simp [coeff_C_succ, Nat.add_assoc, Nat.add_comm 1 i]

/-- Shifting up by one moves the top coefficient to `X ^ w`. -/
theorem X_mul_toPoly (positive : 0 < w) (a : BitVec w) :
    X * toPoly a =
      toPoly (a <<< 1) + C (bit (a.getLsbD (w - 1))) * X ^ w := by
  ext i
  rw [coeff_add, coeff_C_mul, coeff_X_pow]
  cases i with
  | zero =>
      have : 0 ≠ w := positive.ne
      simp [this, bit]
  | succ i =>
      rw [coeff_X_mul, coeff_toPoly, coeff_toPoly, BitVec.getLsbD_shiftLeft]
      by_cases top : i + 1 = w
      · subst top
        simp [bit]
      · by_cases inside : i + 1 < w
        · simp [top, inside]
        · have outside : w ≤ i := by omega
          simp [top, inside, BitVec.getLsbD_of_ge a i outside, bit]

/-! ## The quotient ring -/

/-- The modulus `X ^ w + r`. -/
noncomputable def modulus (r : BitVec w) : (ZMod 2)[X] := X ^ w + toPoly r

theorem modulus_monic (r : BitVec w) : (modulus r).Monic :=
  monic_X_pow_add (degree_toPoly_lt r)

theorem degree_modulus (r : BitVec w) : (modulus r).degree = w := by
  rw [modulus, degree_add_eq_left_of_degree_lt] <;> rw [degree_X_pow]
  exact degree_toPoly_lt r

theorem natDegree_modulus (r : BitVec w) : (modulus r).natDegree = w :=
  natDegree_eq_of_degree_eq_some (degree_modulus r)

/-- The class of a bit vector modulo `X ^ w + r`. -/
noncomputable def residue (r a : BitVec w) : AdjoinRoot (modulus r) :=
  AdjoinRoot.mk (modulus r) (toPoly a)

/-- The class of a single coefficient. -/
noncomputable def residueBit (r : BitVec w) (b : Bool) :
    AdjoinRoot (modulus r) := if b then 1 else 0

theorem mk_C_bit (r : BitVec w) (b : Bool) :
    AdjoinRoot.mk (modulus r) (C (bit b)) = residueBit r b := by
  cases b <;> simp [bit, residueBit]

theorem residue_injective {r a b : BitVec w}
    (same : residue r a = residue r b) : a = b := by
  have small : ∀ c : BitVec w, toPoly c %ₘ modulus r = toPoly c := by
    intro c
    refine (modByMonic_eq_self_iff (modulus_monic r)).mpr ?_
    rw [degree_modulus]
    exact degree_toPoly_lt c
  have remainders := congrArg (AdjoinRoot.modByMonicHom (modulus_monic r)) same
  simp only [residue, AdjoinRoot.modByMonicHom_mk, small] at remainders
  exact toPoly_injective remainders

@[simp]
theorem residue_zero (r : BitVec w) : residue r 0#w = 0 := by
  simp [residue]

@[simp]
theorem residue_xor (r a b : BitVec w) :
    residue r (a ^^^ b) = residue r a + residue r b := by
  simp [residue, toPoly_xor]

theorem residue_ite (r a : BitVec w) (b : Bool) :
    residue r (if b then a else 0#w) = residueBit r b * residue r a := by
  cases b <;> simp [residueBit]

/-- In the quotient `X ^ w` is the low part of the modulus. -/
theorem root_pow_width (r : BitVec w) :
    AdjoinRoot.root (modulus r) ^ w = residue r r := by
  have zero : AdjoinRoot.mk (modulus r) (modulus r) = 0 := AdjoinRoot.mk_self
  rw [modulus, map_add, map_pow] at zero
  have two : residue r r + residue r r = 0 := by
    rw [← residue_xor, BitVec.xor_self, residue_zero]
  have sum : AdjoinRoot.root (modulus r) ^ w + residue r r = 0 := zero
  linear_combination sum - two

theorem residue_mulX (positive : 0 < w) (r a : BitVec w) :
    residue r (mulX r a) = AdjoinRoot.root (modulus r) * residue r a := by
  have shift := congrArg (AdjoinRoot.mk (modulus r)) (X_mul_toPoly positive a)
  rw [map_mul, AdjoinRoot.mk_X, map_add, map_mul, map_pow, AdjoinRoot.mk_X,
    mk_C_bit, root_pow_width] at shift
  rw [mulX, residue_xor, residue_ite]
  exact shift.symm

theorem residue_ushiftRight (r a : BitVec w) (k : Nat) :
    residue r (a >>> k) = residueBit r (a.getLsbD k) +
      AdjoinRoot.root (modulus r) * residue r (a >>> (k + 1)) := by
  rw [residue, toPoly_ushiftRight, map_add, map_mul, mk_C_bit,
    AdjoinRoot.mk_X]
  rfl

theorem residue_mulLoop (positive : 0 < w) (r a b : BitVec w) (n : Nat)
    (bound : n ≤ w) :
    residue r (mulLoop r a b n) =
      residue r a * residue r (b >>> (w - n)) := by
  induction n with
  | zero =>
      have none : b >>> w = 0#w := BitVec.ushiftRight_eq_zero (Nat.le_refl w)
      simp [mulLoop, none]
  | succ n ih =>
      have before : w - n = w - (n + 1) + 1 := by omega
      rw [mulLoop, residue_xor, residue_mulX positive, residue_ite,
        ih (Nat.le_of_succ_le bound), residue_ushiftRight r b (w - (n + 1)),
        before]
      ring

/-- Shift-and-reduce multiplication is the product in the quotient. -/
theorem residue_mul (positive : 0 < w) (r a b : BitVec w) :
    residue r (mul r a b) = residue r a * residue r b := by
  rw [mul, residue_mulLoop positive r a b w (Nat.le_refl w), Nat.sub_self,
    BitVec.ushiftRight_zero]

/-- Two vectors of equal class have equal polynomial remainders. -/
theorem toPoly_eq_modByMonic {r a : BitVec w} {p : (ZMod 2)[X]}
    (same : residue r a = AdjoinRoot.mk (modulus r) p) :
    toPoly a = p %ₘ modulus r := by
  have remainders := congrArg (AdjoinRoot.modByMonicHom (modulus_monic r)) same
  simp only [residue, AdjoinRoot.modByMonicHom_mk] at remainders
  rw [← remainders]
  refine ((modByMonic_eq_self_iff (modulus_monic r)).mpr ?_).symm
  rw [degree_modulus]
  exact degree_toPoly_lt a

/-! ## Irreducibility by repeated squaring -/

/-- Squaring modulo `X ^ w + r`. -/
def square (r a : BitVec w) : BitVec w := mul r a a

theorem residue_square_iterate (positive : 0 < w) (r a : BitVec w)
    (n : Nat) :
    residue r ((square r)^[n] a) = residue r a ^ 2 ^ n := by
  induction n with
  | zero => simp
  | succ n ih =>
      rw [Function.iterate_succ_apply', square, residue_mul positive, ih,
        ← pow_two, ← pow_mul, pow_succ]

/-- The bit vector of the polynomial `X`. -/
theorem residue_two (wide : 1 < w) (r : BitVec w) :
    residue r 2#w = AdjoinRoot.root (modulus r) := by
  have poly : toPoly 2#w = X := by
    ext i
    rw [coeff_toPoly, coeff_X, BitVec.getLsbD_ofNat]
    by_cases one : 1 = i
    · subst one
      simp [wide, bit, show Nat.testBit 2 1 = true from rfl]
    · have clear : Nat.testBit 2 i = false := by
        have power := Nat.testBit_two_pow_of_ne (n := 1) one
        simpa using power
      simp [one, clear, bit]
  rw [residue, poly, AdjoinRoot.mk_X]

theorem residue_one (positive : 0 < w) (r : BitVec w) :
    residue r 1#w = 1 := by
  have poly : toPoly 1#w = 1 := by
    ext i
    rw [coeff_toPoly, coeff_one, BitVec.getLsbD_ofNat]
    by_cases zero : i = 0
    · subst zero
      simp [positive, bit]
    · have clear : Nat.testBit 1 i = false := by
        have power := Nat.testBit_two_pow_of_ne (n := 0) (Ne.symm zero)
        simpa using power
      simp [zero, clear, bit]
  rw [residue, poly, map_one]

theorem zero_mul (positive : 0 < w) {r : BitVec w} (a : BitVec w) :
    mul r 0#w a = 0#w := by
  apply residue_injective (r := r)
  rw [residue_mul positive, residue_zero, MulZeroClass.zero_mul]

/-- Inverses are unique. -/
theorem mul_one_unique (positive : 0 < w) {r a b c : BitVec w}
    (first : mul r a b = 1#w) (second : mul r a c = 1#w) : b = c := by
  apply residue_injective (r := r)
  have one := congrArg (residue r) first
  have one' := congrArg (residue r) second
  rw [residue_mul positive, residue_one positive] at one one'
  calc
    residue r b = residue r b * (residue r a * residue r c) := by
      rw [one', mul_one]
    _ = residue r a * residue r b * residue r c := by ring
    _ = residue r c := by rw [one, one_mul]

theorem iterate_sq {K : Type*} [Monoid K] (value : K) (n : Nat) :
    (fun element : K => element ^ 2)^[n] value = value ^ 2 ^ n := by
  induction n with
  | zero => simp
  | succ n ih => rw [Function.iterate_succ_apply', ih, ← pow_mul, pow_succ]

/-- An element of a field of `2 ^ d` elements that is fixed by `2 ^ (k + 1)`
squarings but not by `2 ^ k` forces `2 ^ (k + 1)` to divide `d`. -/
theorem dvd_of_squarings {K : Type*} [Field K] {d k : Nat} {value : K}
    (period : value ^ 2 ^ d = value)
    (fixed : value ^ 2 ^ 2 ^ (k + 1) = value)
    (moved : value ^ 2 ^ 2 ^ k ≠ value) : 2 ^ (k + 1) ∣ d := by
  have periodic : ∀ n, value ^ 2 ^ n = value →
      Function.IsPeriodicPt (fun element : K => element ^ 2) n value := by
    intro n same
    rw [Function.IsPeriodicPt, Function.IsFixedPt, iterate_sq]
    exact same
  have common := (periodic d period).gcd (periodic _ fixed)
  obtain ⟨j, jle, gcdEq⟩ :=
    (Nat.dvd_prime_pow Nat.prime_two).mp (Nat.gcd_dvd_right d (2 ^ (k + 1)))
  rcases Nat.lt_or_ge j (k + 1) with small | large
  · have divides : Nat.gcd d (2 ^ (k + 1)) ∣ 2 ^ k := by
      rw [gcdEq]
      exact pow_dvd_pow 2 (Nat.le_of_lt_succ small)
    have returned := common.trans_dvd divides
    rw [Function.IsPeriodicPt, Function.IsFixedPt, iterate_sq] at returned
    exact absurd returned moved
  · have full : Nat.gcd d (2 ^ (k + 1)) = 2 ^ (k + 1) := by
      rw [gcdEq, Nat.le_antisymm jle large]
    rw [← full]
    exact Nat.gcd_dvd_left _ _

/-- `X` returns to itself after `w = 2 ^ (k + 1)` squarings, and the element
reached after `2 ^ k` squarings differs from `X` by a unit: then the modulus is
irreducible. -/
theorem modulus_irreducible {k : Nat} (r inverse : BitVec w)
    (width : w = 2 ^ (k + 1)) (fixed : (square r)^[w] 2#w = 2#w)
    (unit : mul r inverse ((square r)^[2 ^ k] 2#w ^^^ 2#w) = 1#w) :
    Irreducible (modulus r) := by
  have wide : 1 < w := by
    rw [width]
    exact Nat.one_lt_two_pow (Nat.succ_ne_zero k)
  have positive : 0 < w := Nat.lt_of_succ_lt wide
  have degreePositive : 0 < (modulus r).degree := by
    rw [degree_modulus]
    exact_mod_cast positive
  obtain ⟨factor, irreducible, divides⟩ :=
    exists_irreducible_of_degree_pos degreePositive
  have : Fact (Irreducible factor) := ⟨irreducible⟩
  have finite : Module.Finite (ZMod 2) (AdjoinRoot factor) :=
    (AdjoinRoot.powerBasis irreducible.ne_zero).finite
  have : Finite (AdjoinRoot factor) := Module.finite_of_finite (ZMod 2)
  have := Fintype.ofFinite (AdjoinRoot factor)
  have count : Fintype.card (AdjoinRoot factor) = 2 ^ factor.natDegree := by
    rw [Module.card_eq_pow_finrank (K := ZMod 2), ZMod.card,
      (AdjoinRoot.powerBasis irreducible.ne_zero).finrank,
      AdjoinRoot.powerBasis_dim]
  let reduce : AdjoinRoot (modulus r) →+* AdjoinRoot factor :=
    (AdjoinRoot.algHomOfDvd (ZMod 2) (modulus r) factor divides).toRingHom
  have reduceRoot :
      reduce (AdjoinRoot.root (modulus r)) = AdjoinRoot.root factor :=
    AdjoinRoot.algHomOfDvd_root (modulus r) factor divides
  have squares : ∀ n, reduce (residue r ((square r)^[n] 2#w)) =
      AdjoinRoot.root factor ^ 2 ^ n := by
    intro n
    rw [residue_square_iterate positive, residue_two wide, map_pow, reduceRoot]
  have fixedRoot : AdjoinRoot.root factor ^ 2 ^ 2 ^ (k + 1) =
      AdjoinRoot.root factor := by
    rw [← width, ← squares w, fixed, residue_two wide, reduceRoot]
  have movedRoot : AdjoinRoot.root factor ^ 2 ^ 2 ^ k ≠
      AdjoinRoot.root factor := by
    intro same
    have twice : AdjoinRoot.root factor + AdjoinRoot.root factor = 0 := by
      rw [← reduceRoot, ← residue_two wide, ← map_add, ← residue_xor,
        BitVec.xor_self, residue_zero, map_zero]
    have product := congrArg (fun a => reduce (residue r a)) unit
    simp only [residue_mul positive, residue_xor, map_mul, map_add, squares,
      residue_two wide, reduceRoot, residue_one positive, map_one, same,
      twice, mul_zero] at product
    exact zero_ne_one product
  have periodRoot : AdjoinRoot.root factor ^ 2 ^ factor.natDegree =
      AdjoinRoot.root factor := by
    rw [← count]
    exact FiniteField.pow_card _
  have degreeDvd := dvd_of_squarings periodRoot fixedRoot movedRoot
  rw [← width] at degreeDvd
  have degreeLe : (modulus r).natDegree ≤ factor.natDegree := by
    rw [natDegree_modulus]
    exact Nat.le_of_dvd irreducible.natDegree_pos degreeDvd
  exact (associated_of_dvd_of_natDegree_le divides (modulus_monic r).ne_zero
    degreeLe).irreducible irreducible

/-- Under an irreducible modulus a product vanishes only with a factor. -/
theorem residue_mul_eq_zero {r : BitVec w}
    (irreducible : Irreducible (modulus r))
    {x y : AdjoinRoot (modulus r)} (zero : x * y = 0) : x = 0 ∨ y = 0 := by
  have : Fact (Irreducible (modulus r)) := ⟨irreducible⟩
  exact mul_eq_zero.mp zero

end GpuKvSeal.BinaryField
