import GpuKvSeal.Refinement.AesFips

/-!
# For a fixed key the cipher is injective

Every step of a round can be undone.  The substitution is inverted through the
field inverse, the row shift is a permutation of positions, and the column
mixing is undone by three more passes of itself.
-/

namespace GpuKvSeal.Refinement

open BigEndian (Byte)
open Device (HOST_SBOX aes128EncryptBlock expandAes128Key lookup)
open Standard (Aes.State Aes.timesX Aes.product)

/-! ## Substitution -/

theorem affineInverse_affine (b : Byte) :
    affineInverse (Standard.Aes.affine b) = b := by
  revert b
  decide +kernel

theorem product_inverse {x : Byte} (nonzero : x ≠ 0#8) :
    Aes.product x (Standard.Aes.inverse x) = 1#8 := by
  have same : affineInverse (lookup HOST_SBOX x) = Standard.Aes.inverse x := by
    rw [lookup_HOST_SBOX, Standard.Aes.sBox, affineInverse_affine]
  rw [← same]
  exact product_table x nonzero

theorem product_comm (a b : Byte) : Aes.product a b = Aes.product b a := by
  have positive : 0 < 8 := by decide
  apply BinaryField.residue_injective (r := Standard.Aes.reduction)
  simp only [Standard.Aes.product, BinaryField.residue_mul positive]
  exact mul_comm _ _

theorem inverse_injective : Function.Injective Standard.Aes.inverse := by
  have zeroLeft : ∀ b : Byte, Aes.product 0#8 b ≠ 1#8 := by
    intro b
    have zero : Aes.product 0#8 b = 0#8 := BinaryField.zero_mul (by decide) b
    rw [zero]
    decide
  have nonzero : ∀ {x : Byte}, x ≠ 0#8 → Standard.Aes.inverse x ≠ 0#8 := by
    intro x hx zero
    have one := product_inverse hx
    rw [zero, product_comm] at one
    exact zeroLeft x one
  intro a b same
  by_cases ha : a = 0#8
  · by_contra different
    have hb : b ≠ 0#8 := fun zero => different (ha.trans zero.symm)
    apply nonzero hb
    rw [← same, ha, Standard.Aes.inverse_zero]
  · have hb : b ≠ 0#8 := by
      intro zero
      apply nonzero ha
      rw [same, zero, Standard.Aes.inverse_zero]
    have left := product_inverse ha
    have right := product_inverse hb
    rw [product_comm] at left right
    rw [← same] at right
    exact BinaryField.mul_one_unique (by decide) left right

theorem sBox_injective : Function.Injective Standard.Aes.sBox := by
  have affine : Function.LeftInverse affineInverse Standard.Aes.affine :=
    affineInverse_affine
  exact affine.injective.comp inverse_injective

theorem subBytes_injective : Function.Injective Standard.Aes.subBytes := by
  intro s t same
  funext row column
  exact sBox_injective (congrFun (congrFun same row) column)

/-! ## Positions and columns -/

theorem shiftRows_injective : Function.Injective Standard.Aes.shiftRows := by
  intro s t same
  funext row column
  have shifted := congrFun (congrFun same row) (column - row)
  simpa [Standard.Aes.shiftRows] using shifted

theorem timesX_xor (a b : Byte) :
    Aes.timesX (a ^^^ b) = Aes.timesX a ^^^ Aes.timesX b := by
  rw [← xtime_eq_timesX, xtime_xor, xtime_eq_timesX, xtime_eq_timesX]

theorem xor_left_comm (a b c : Byte) : a ^^^ (b ^^^ c) = b ^^^ (a ^^^ c) := by
  rw [← BitVec.xor_assoc, BitVec.xor_comm a, BitVec.xor_assoc]

/-- The sum of one column. -/
def columnSum (s : Aes.State) (column : Fin 4) : Byte :=
  s 0 column ^^^ s 1 column ^^^ s 2 column ^^^ s 3 column

/-- The mixing written with doubling only, as the device code does it. -/
theorem mixColumns_eq (s : Aes.State) (row column : Fin 4) :
    Standard.Aes.mixColumns s row column =
      s row column ^^^ columnSum s column ^^^
        Aes.timesX (s row column ^^^ s (row + 1) column) := by
  fin_cases row <;>
    simp [Standard.Aes.mixColumns, Standard.Aes.mixMatrix, columnSum,
      product_one, product_two, product_three, xtime_eq_timesX, timesX_xor] <;>
    (ext i bound; simp only [BitVec.getElem_xor]; grind)

theorem columnSum_mixColumns (s : Aes.State) (column : Fin 4) :
    columnSum (Standard.Aes.mixColumns s) column = columnSum s column := by
  rw [columnSum]
  simp only [mixColumns_eq, timesX_xor]
  simp [columnSum, BitVec.xor_assoc, BitVec.xor_comm, xor_left_comm]

/-- Two passes of the mixing only combine rows that are two apart. -/
theorem mixColumns_twice (s : Aes.State) (row column : Fin 4) :
    Standard.Aes.mixColumns (Standard.Aes.mixColumns s) row column =
      s row column ^^^
        Aes.timesX (Aes.timesX (s row column ^^^ s (row + 2) column)) := by
  have next : row + 1 + 1 = row + 2 := by
    fin_cases row <;> rfl
  rw [mixColumns_eq, columnSum_mixColumns, mixColumns_eq s row,
    mixColumns_eq s (row + 1), next]
  simp [timesX_xor, BitVec.xor_assoc, BitVec.xor_comm, xor_left_comm]

theorem mixColumns_injective : Function.Injective Standard.Aes.mixColumns := by
  have returns : Function.LeftInverse
      (Standard.Aes.mixColumns ∘ Standard.Aes.mixColumns ∘
        Standard.Aes.mixColumns) Standard.Aes.mixColumns := by
    intro s
    funext row column
    have around : row + 2 + 2 = row := by
      fin_cases row <;> rfl
    show Standard.Aes.mixColumns (Standard.Aes.mixColumns
      (Standard.Aes.mixColumns (Standard.Aes.mixColumns s))) row column = _
    rw [mixColumns_twice, mixColumns_twice, mixColumns_twice, around]
    simp only [timesX_xor]
    ext i bound
    simp only [BitVec.getElem_xor]
    grind
  exact returns.injective

theorem addRoundKey_injective (words : Fin 4 → Standard.Aes.Word) :
    Function.Injective fun s => Standard.Aes.addRoundKey s words := by
  intro s t same
  funext row column
  have equal := congrFun (congrFun same row) column
  exact (BitVec.xor_left_inj _).mp equal

/-! ## The cipher -/

theorem ofBlock_injective : Function.Injective Aes.State.ofBlock :=
  Function.LeftInverse.injective toBlock_ofBlock

theorem ofBlock_toBlock (s : Aes.State) : Aes.State.ofBlock s.toBlock = s := by
  funext row column
  have place : (row.val + 4 * column.val) % 4 = row.val := by omega
  have side : (row.val + 4 * column.val) / 4 = column.val := by omega
  simp [Aes.State.toBlock, Aes.State.ofBlock, place, side]

theorem toBlock_injective : Function.Injective Aes.State.toBlock :=
  Function.LeftInverse.injective ofBlock_toBlock

theorem rounds_injective (key : Vector Byte 16) (n : Nat) :
    Function.Injective fun block => Standard.Aes.rounds key block n := by
  induction n with
  | zero =>
      exact (addRoundKey_injective _).comp ofBlock_injective
  | succ n ih =>
      exact (addRoundKey_injective _).comp (mixColumns_injective.comp
        (shiftRows_injective.comp (subBytes_injective.comp ih)))

theorem cipher_injective (key : Vector Byte 16) :
    Function.Injective (Standard.Aes.cipher key) :=
  toBlock_injective.comp ((addRoundKey_injective _).comp
    (shiftRows_injective.comp (subBytes_injective.comp (rounds_injective key 9))))

/-- The block function with its key expansion is the cipher of the standard,
and no two blocks have the same image under one key. -/
theorem aes128_standard :
    (∀ key block : Vector Byte 16,
      aes128EncryptBlock HOST_SBOX block (expandAes128Key key) =
        Standard.Aes.cipher key block) ∧
    ∀ key : Vector Byte 16, Function.Injective fun block =>
      aes128EncryptBlock HOST_SBOX block (expandAes128Key key) := by
  refine ⟨aes128EncryptBlock_eq_cipher, fun key block block' same => ?_⟩
  simp only [aes128EncryptBlock_eq_cipher] at same
  exact cipher_injective key same

end GpuKvSeal.Refinement
