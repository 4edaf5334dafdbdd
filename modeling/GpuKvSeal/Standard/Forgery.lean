import GpuKvSeal.Foundations.HashPolynomial
import GpuKvSeal.Standard.GcmTamper

/-!
# When a tampered tag is right

An attacker who knows no key adds a mask to the ciphertext and to the tag of a frame.
The tampered tag is right exactly when the hash key is a zero of a polynomial that the
masks alone determine, and a polynomial has few zeros.
-/

namespace GpuKvSeal.Standard

open BigEndian (Byte)

namespace Gcm

open HornerHash (hashPolynomial horner)
open BinaryField (modulus)
open Polynomial

/-- Add a mask, byte by byte. -/
def xorBytes (x mask : List Byte) : List Byte := List.zipWith (· ^^^ ·) x mask

theorem length_xorBytes {x mask : List Byte} (same : mask.length = x.length) :
    (xorBytes x mask).length = x.length := by
  rw [xorBytes, List.length_zipWith, same, Nat.min_self]

theorem getD_xorBytes {x mask : List Byte} (same : mask.length = x.length) (k : Nat) :
    (xorBytes x mask).getD k 0#8 = x.getD k 0#8 ^^^ mask.getD k 0#8 := by
  by_cases inside : k < x.length
  · have inside' : k < mask.length := same ▸ inside
    simp [xorBytes, List.getD_eq_getElem?_getD, inside, inside']
  · have outside : x.length ≤ k := Nat.le_of_not_lt inside
    have outside' : mask.length ≤ k := same ▸ outside
    simp [xorBytes, List.getD_eq_getElem?_getD, outside, outside']

/-! ## Blocks -/

/-- The bytes of a block determine it. -/
theorem block_ext {a b : Block}
    (same : ∀ k < 16, BigEndian.byteAt 16 a k = BigEndian.byteAt 16 b k) : a = b := by
  refine blockBytes_injective (congrArg Vector.toList (Vector.ext fun k below => ?_))
  rw [BigEndian.getElem_toBytes, BigEndian.getElem_toBytes]
  exact same k below

theorem byteAt_zero (k : Nat) : BigEndian.byteAt 16 0#128 k = 0#8 := by
  simp [BigEndian.byteAt]

theorem byteAt_paddedBlock (x : List Byte) (index : Nat) {k : Nat} (below : k < 16) :
    BigEndian.byteAt 16 (paddedBlock x index) k = x.getD (index * 16 + k) 0#8 := by
  rw [← BigEndian.getElem_toBytes 16 _ k below, paddedBlock,
    BigEndian.toBytes_ofBytes rfl, Vector.getElem_ofFn]

theorem byteAt_ofBytes {t : List Byte} (size : t.length = 16) {k : Nat} (below : k < 16) :
    BigEndian.byteAt 16 (BigEndian.ofBytes 128 t) k = t.getD k 0#8 := by
  have read := BigEndian.toBytes_ofBytes (n := 16) (w := 128) rfl
    ⟨t.toArray, by simpa using size⟩
  have entry := congrArg (fun v : Vector Byte 16 => v[k]) read
  simp only [BigEndian.getElem_toBytes] at entry
  rw [List.getD_eq_getElem?_getD, List.getElem?_eq_getElem (size ▸ below)]
  simpa using entry

theorem paddedBlock_xorBytes {x mask : List Byte} (same : mask.length = x.length)
    (index : Nat) :
    paddedBlock (xorBytes x mask) index =
      paddedBlock x index ^^^ paddedBlock mask index := by
  refine block_ext fun k below => ?_
  rw [BigEndian.byteAt_xor, byteAt_paddedBlock _ _ below, byteAt_paddedBlock _ _ below,
    byteAt_paddedBlock _ _ below, getD_xorBytes same]

theorem paddedBlocks_xorBytes {x mask : List Byte} (same : mask.length = x.length) :
    paddedBlocks (xorBytes x mask) =
      List.zipWith (· ^^^ ·) (paddedBlocks x) (paddedBlocks mask) := by
  rw [paddedBlocks, paddedBlocks, paddedBlocks, length_xorBytes same, same,
    List.zipWith_map, List.zipWith_self]
  exact List.map_congr_left fun i _ => paddedBlock_xorBytes same i

/-- A masked block, written out. -/
theorem xorBytes_blockBytes (block : Block) {mask : List Byte} (size : mask.length = 16) :
    xorBytes (blockBytes block) mask =
      blockBytes (block ^^^ BigEndian.ofBytes 128 mask) := by
  have same : mask.length = (blockBytes block).length := by
    rw [size, length_blockBytes]
  refine List.ext_getElem (by rw [length_xorBytes same, length_blockBytes,
    length_blockBytes]) fun k inside inside' => ?_
  have below : k < 16 := by rwa [length_blockBytes] at inside'
  have entry := getD_xorBytes same k
  have plain : (blockBytes block).getD k 0#8 = BigEndian.byteAt 16 block k := by
    rw [List.getD_eq_getElem?_getD, blockBytes,
      List.getElem?_eq_getElem (by simpa using below)]
    simp
  rw [List.getD_eq_getElem?_getD, List.getElem?_eq_getElem inside, Option.getD_some,
    plain, ← byteAt_ofBytes size below, ← BigEndian.byteAt_xor] at entry
  rw [entry]
  simp [blockBytes]

/-! ## The polynomial -/

/-- The polynomial that decides about masks of the ciphertext and of the tag.  The
length of the text does not change, so its block has no difference. -/
noncomputable def forgeryPolynomial (cipherMask tagMask : List Byte) : Element[X] :=
  hashPolynomial ((paddedBlocks cipherMask ++ [0#128]).map element) +
    C (element (BigEndian.ofBytes 128 tagMask))

/-- The hash of a masked ciphertext. -/
theorem element_cipherHash_xorBytes (h : Block) {c mask : List Byte}
    (same : mask.length = c.length) :
    element (cipherHash h (xorBytes c mask)) = element (cipherHash h c) +
      (hashPolynomial ((paddedBlocks mask ++ [0#128]).map element)).eval (element h) := by
  have blocks : (paddedBlocks c).length = (paddedBlocks mask).length := by
    rw [paddedBlocks, paddedBlocks, List.length_map, List.length_map, same]
  have length : lengthBlock [] (xorBytes c mask) = lengthBlock [] c := by
    rw [lengthBlock, lengthBlock, length_xorBytes same]
  have sums : (paddedBlocks (xorBytes c mask) ++ [lengthBlock [] c]).map element =
      List.zipWith (· + ·) ((paddedBlocks c ++ [lengthBlock [] c]).map element)
        ((paddedBlocks mask ++ [0#128]).map element) := by
    rw [paddedBlocks_xorBytes same, List.map_append, List.map_append, List.map_append,
      List.zipWith_append (by simpa using blocks), List.map_zipWith, List.zipWith_map]
    simp
  have none : paddedBlocks [] = [] := rfl
  rw [HornerHash.eval_hashPolynomial, cipherHash, cipherHash, element_ghash,
    element_ghash, none, List.nil_append, List.nil_append, length, sums]
  exact HornerHash.horner_zipWith_add _ (by simpa using blocks)

/-- Elements are their own negatives. -/
theorem element_add_self (a : Block) : element a + element a = 0 := by
  rw [← element_xor, BitVec.xor_self, element_zero]

/-- The masked tag of a masked ciphertext is right exactly at the zeros of the
polynomial. -/
theorem tag_xorBytes_iff (ciph : Block → Block) (iv : Vector Byte 12)
    {c cipherMask tagMask : List Byte} (cipher : cipherMask.length = c.length)
    (size : tagMask.length = 16) :
    tag ciph iv [] (xorBytes c cipherMask) = xorBytes (tag ciph iv [] c) tagMask ↔
      (forgeryPolynomial cipherMask tagMask).eval (element (ciph 0#128)) = 0 := by
  let change := BigEndian.ofBytes 128 tagMask
  have blocks : tag ciph iv [] (xorBytes c cipherMask) =
        xorBytes (tag ciph iv [] c) tagMask ↔
      cipherHash (ciph 0#128) (xorBytes c cipherMask) =
        cipherHash (ciph 0#128) c ^^^ change := by
    rw [tag_eq_blockBytes, tag_eq_blockBytes, xorBytes_blockBytes _ size,
      blockBytes_injective.eq_iff, BitVec.xor_assoc _ _ change,
      BitVec.xor_comm _ change, ← BitVec.xor_assoc, BitVec.xor_left_inj]
  rw [blocks, ← element_injective.eq_iff, element_cipherHash_xorBytes _ cipher,
    element_xor, add_right_inj, forgeryPolynomial, eval_add, eval_C,
    ← eq_neg_iff_add_eq_zero, neg_eq_of_add_eq_zero_left (element_add_self change)]

/-- Masks with a nonzero byte give a polynomial that is not zero. -/
theorem forgeryPolynomial_ne_zero {cipherMask tagMask : List Byte}
    (size : tagMask.length = 16) (changed : ∃ b ∈ cipherMask ++ tagMask, b ≠ 0#8) :
    forgeryPolynomial cipherMask tagMask ≠ 0 := by
  intro zero
  obtain ⟨terms, last⟩ := HornerHash.hashPolynomial_add_C_eq_zero.mp zero
  obtain ⟨b, member, nonzero⟩ := changed
  rcases List.mem_append.mp member with inCipher | inTag
  · obtain ⟨k, inside, rfl⟩ := List.getElem_of_mem inCipher
    have listed : k / 16 < (cipherMask.length + 15) / 16 := by omega
    have block : paddedBlock cipherMask (k / 16) = 0#128 := by
      refine element_eq_zero_iff.mp (terms _ (List.mem_map_of_mem ?_))
      exact List.mem_append_left _ (List.mem_map_of_mem (List.mem_range.mpr listed))
    have entry := byteAt_paddedBlock cipherMask (k / 16) (Nat.mod_lt k (by decide))
    have place : k / 16 * 16 + k % 16 = k := by omega
    rw [block, byteAt_zero, place, List.getD_eq_getElem?_getD,
      List.getElem?_eq_getElem inside] at entry
    exact nonzero entry.symm
  · obtain ⟨k, inside, rfl⟩ := List.getElem_of_mem inTag
    have entry := byteAt_ofBytes size (size ▸ inside)
    rw [element_eq_zero_iff.mp last, byteAt_zero, List.getD_eq_getElem?_getD,
      List.getElem?_eq_getElem inside] at entry
    exact nonzero entry.symm

theorem natDegree_forgeryPolynomial (cipherMask tagMask : List Byte) :
    (forgeryPolynomial cipherMask tagMask).natDegree ≤
      (cipherMask.length + 15) / 16 + 1 := by
  refine (HornerHash.natDegree_hashPolynomial_add_C _ _).trans_eq ?_
  simp [paddedBlocks]

/-- The elements form an integral domain. -/
instance : IsDomain Element :=
  AdjoinRoot.isDomain_of_prime fieldModulus_irreducible.prime

/-- Few hash keys are zeros. -/
theorem ncard_forgeryPolynomial {cipherMask tagMask : List Byte}
    (size : tagMask.length = 16) (changed : ∃ b ∈ cipherMask ++ tagMask, b ≠ 0#8) :
    Set.ncard {h : Block | (forgeryPolynomial cipherMask tagMask).eval (element h) = 0} ≤
      (cipherMask.length + 15) / 16 + 1 :=
  (HornerHash.ncard_zeros_le (forgeryPolynomial_ne_zero size changed)
    element_injective).trans (natDegree_forgeryPolynomial cipherMask tagMask)

end Gcm

end GpuKvSeal.Standard
