import GpuKvSeal.Standard.Frame
import GpuKvSeal.Standard.GcmField

/-!
# Changes that the tag always detects

With an injective block function a changed IV changes the mask of the tag.
With a nonzero hash key a change inside one block of the ciphertext changes the
hash, because the difference is a product of nonzero elements of a field.
-/

namespace GpuKvSeal.Standard

open BigEndian (Byte)

namespace Gcm

open HornerHash (horner)

/-- The hash of a ciphertext without further data. -/
def cipherHash (h : Block) (c : List Byte) : Block :=
  ghash h (paddedBlocks [] ++ paddedBlocks c ++ [lengthBlock [] c])

theorem blockBytes_injective : Function.Injective blockBytes := by
  intro a b same
  rw [← BigEndian.ofBytes_toBytes (n := 16) rfl a,
    ← BigEndian.ofBytes_toBytes (n := 16) rfl b]
  exact congrArg (BigEndian.ofBytes 128) same

/-- The tag is the hash masked with the encrypted pre-counter block. -/
theorem tag_eq_blockBytes (ciph : Block → Block) (iv : Vector Byte 12)
    (c : List Byte) :
    tag ciph iv [] c =
      blockBytes (cipherHash (ciph 0#128) c ^^^ ciph (preCounter iv)) := by
  refine List.ext_getElem (by rw [length_tag, length_blockBytes])
    fun i inside _ => ?_
  have below : i < 16 := (length_tag ..) ▸ inside
  have first : 1 + i / 16 = 1 := by omega
  have place : Fin.ofNat 16 i = ⟨i, below⟩ := Fin.ext (Nat.mod_eq_of_lt below)
  rw [getElem_tag _ _ _ _ _ below]
  simp only [keystream, blockBytes, first, place, Vector.get_eq_getElem,
    Vector.getElem_toList, BigEndian.getElem_toBytes, BigEndian.byteAt_xor]
  rfl

/-- Under one IV, equal tags mean equal hashes. -/
theorem tag_inj {ciph : Block → Block} {iv : Vector Byte 12} {c c' : List Byte} :
    tag ciph iv [] c = tag ciph iv [] c' ↔
      cipherHash (ciph 0#128) c = cipherHash (ciph 0#128) c' := by
  rw [tag_eq_blockBytes, tag_eq_blockBytes, blockBytes_injective.eq_iff]
  exact BitVec.xor_left_inj _

theorem counterBlock_iv_injective (counter : BitVec 32) :
    Function.Injective fun iv => counterBlock iv counter := by
  intro iv iv' same
  have high := congrArg (BitVec.extractLsb' 32 96) same
  simp only [counterBlock, BitVec.extractLsb'_append_eq_left] at high
  rw [← BigEndian.toBytes_ofBytes (n := 12) rfl iv,
    ← BigEndian.toBytes_ofBytes (n := 12) rfl iv', high]

/-- A changed IV changes the tag. -/
theorem tag_ne_of_iv {ciph : Block → Block} (injective : Function.Injective ciph)
    {iv iv' : Vector Byte 12} (changed : iv ≠ iv') (c : List Byte) :
    tag ciph iv [] c ≠ tag ciph iv' [] c := by
  intro same
  rw [tag_eq_blockBytes, tag_eq_blockBytes, blockBytes_injective.eq_iff,
    BitVec.xor_right_inj] at same
  exact changed (counterBlock_iv_injective 1#32 (injective same))

/-! ## Changes of one block -/

/-- Two texts of one length that differ, and only inside block `j`. -/
structure DifferInBlock (j : Nat) (text other : List Byte) : Prop where
  length : other.length = text.length
  differ : text ≠ other
  outside : ∀ i, i / 16 ≠ j → text[i]? = other[i]?

theorem paddedBlock_eq_iff {c c' : List Byte} {index : Nat} :
    paddedBlock c index = paddedBlock c' index ↔
      ∀ k < 16, c.getD (index * 16 + k) 0#8 = c'.getD (index * 16 + k) 0#8 := by
  constructor
  · intro same k below
    have bytes := congrArg (BigEndian.toBytes 16) same
    rw [paddedBlock, paddedBlock, BigEndian.toBytes_ofBytes rfl,
      BigEndian.toBytes_ofBytes rfl] at bytes
    have entry := congrArg (fun v : Vector Byte 16 => v[k]) bytes
    simpa using entry
  · intro same
    refine congrArg (fun v : Vector Byte 16 => BigEndian.ofBytes 128 v.toList)
      (Vector.ext fun k below => ?_)
    rw [Vector.getElem_ofFn, Vector.getElem_ofFn]
    exact same k below

section Differ

variable {j : Nat} {c c' : List Byte} (differ : DifferInBlock j c c')

include differ

theorem DifferInBlock.same_block {i : Nat} (other : i ≠ j) :
    paddedBlock c i = paddedBlock c' i := by
  rw [paddedBlock_eq_iff]
  intro k below
  have place : (i * 16 + k) / 16 ≠ j := by omega
  rw [List.getD_eq_getElem?_getD, List.getD_eq_getElem?_getD,
    differ.outside _ place]

theorem DifferInBlock.block_ne : paddedBlock c j ≠ paddedBlock c' j := by
  rw [Ne, paddedBlock_eq_iff]
  intro same
  refine differ.differ (List.ext_getElem differ.length.symm fun i inside inside' => ?_)
  by_cases place : i / 16 = j
  · have entry := same (i % 16) (Nat.mod_lt _ (by decide))
    have split : j * 16 + i % 16 = i := by omega
    rw [split, List.getD_eq_getElem?_getD, List.getD_eq_getElem?_getD,
      List.getElem?_eq_getElem inside, List.getElem?_eq_getElem inside'] at entry
    exact entry
  · have entry := differ.outside i place
    rw [List.getElem?_eq_getElem inside, List.getElem?_eq_getElem inside'] at entry
    exact Option.some.inj entry

/-- The block lies inside the text. -/
theorem DifferInBlock.inside : j < (c.length + 15) / 16 := by
  by_contra beyond
  refine differ.block_ne (paddedBlock_eq_iff.mpr fun k below => ?_)
  have past : c.length ≤ j * 16 + k := by omega
  have past' : c'.length ≤ j * 16 + k := by
    rw [differ.length]
    exact past
  rw [List.getD_eq_getElem?_getD, List.getD_eq_getElem?_getD,
    List.getElem?_eq_none past, List.getElem?_eq_none past']

/-- The blocks before and after the changed one are the same. -/
theorem DifferInBlock.split : ∃ before after,
    paddedBlocks c = before ++ paddedBlock c j :: after ∧
      paddedBlocks c' = before ++ paddedBlock c' j :: after := by
  have inside := differ.inside
  have range : List.range ((c.length + 15) / 16) =
      List.range j ++ j :: List.range' (j + 1) ((c.length + 15) / 16 - j - 1) := by
    have count : (c.length + 15) / 16 =
        j + ((c.length + 15) / 16 - j - 1 + 1) := by omega
    conv_lhs => rw [count]
    rw [List.range_eq_range', List.range_eq_range', ← List.range'_append_1,
      Nat.zero_add, List.range'_succ]
  refine ⟨(List.range j).map (paddedBlock c),
    (List.range' (j + 1) ((c.length + 15) / 16 - j - 1)).map (paddedBlock c),
    ?_, ?_⟩
  · rw [paddedBlocks, range, List.map_append, List.map_cons]
  · rw [paddedBlocks, differ.length, range, List.map_append, List.map_cons]
    refine congrArg₂ (· ++ ·) (List.map_congr_left fun i member => ?_)
      (congrArg₂ _ rfl (List.map_congr_left fun i member => ?_))
    · have below := List.mem_range.mp member
      exact (differ.same_block (by omega)).symm
    · have above := (List.mem_range'_1.mp member).1
      exact (differ.same_block (by omega)).symm

end Differ

/-- A product of a nonzero element with powers of a nonzero element is not
zero. -/
theorem mul_pow_ne_zero {d h : Block} (hd : d ≠ 0#128) (hh : h ≠ 0#128) (k : Nat) :
    element d * element h ^ k ≠ 0 := by
  induction k with
  | zero =>
      rw [pow_zero, mul_one]
      exact fun zero => hd (element_eq_zero_iff.mp zero)
  | succ k ih =>
      rw [pow_succ, ← mul_assoc]
      intro zero
      rcases BinaryField.residue_mul_eq_zero fieldModulus_irreducible zero with
        left | right
      · exact ih left
      · exact hh (element_eq_zero_iff.mp right)

/-- With a nonzero hash key, a change inside one block changes the hash. -/
theorem cipherHash_ne {h : Block} (nonzero : h ≠ 0#128) {j : Nat}
    {c c' : List Byte} (differ : DifferInBlock j c c') :
    cipherHash h c ≠ cipherHash h c' := by
  intro same
  obtain ⟨before, after, first, second⟩ := differ.split
  let d := paddedBlock c j ^^^ paddedBlock c' j
  have changed : d ≠ 0#128 := fun zero =>
    differ.block_ne (BitVec.xor_eq_zero_iff.mp zero)
  have shifted : element (paddedBlock c' j) =
      element (paddedBlock c j) + element d := by
    rw [← element_xor, ← BitVec.xor_assoc, BitVec.xor_self, BitVec.zero_xor]
  have length : lengthBlock [] c' = lengthBlock [] c := by
    rw [lengthBlock, lengthBlock, differ.length]
  have hashes := congrArg element same
  have none : paddedBlocks [] = [] := rfl
  rw [cipherHash, cipherHash, element_ghash, element_ghash, none, List.nil_append,
    List.nil_append, first, second, length] at hashes
  simp only [List.append_assoc, List.cons_append, List.map_append,
    List.map_cons] at hashes
  rw [shifted, HornerHash.horner_change] at hashes
  exact mul_pow_ne_zero changed nonzero _ (left_eq_add.mp hashes)

/-- With a nonzero hash key, a change inside one block changes the tag. -/
theorem tag_ne_of_block {ciph : Block → Block} (nonzero : ciph 0#128 ≠ 0#128)
    (iv : Vector Byte 12) {j : Nat} {c c' : List Byte}
    (differ : DifferInBlock j c c') : tag ciph iv [] c ≠ tag ciph iv [] c' :=
  tag_inj.not.mpr (cipherHash_ne nonzero differ)

end Gcm

/-! ## Changes of a frame -/

open Gcm (Block authEncrypt)

/-- The regions of a frame with a text of `n` bytes: the version, the IV, one
aligned block of the ciphertext, and the tag. -/
inductive Region (n : Nat) : Nat → Nat → Prop
  | version : Region n 0 1
  | iv : Region n 1 13
  | block (j : Nat) : Region n (13 + 16 * j) (13 + min (16 * j + 16) n)
  | tag : Region n (13 + n) (n + 29)

/-- Two strings of one length that differ, and only from `start` up to
`stop`. -/
structure DifferWithin (start stop : Nat) (F F' : List Byte) : Prop where
  length : F'.length = F.length
  differ : F ≠ F'
  outside : ∀ i, i < start ∨ stop ≤ i → F[i]? = F'[i]?

theorem slice_eq {α : Type} {l l' : List α} (start count : Nat)
    (same : ∀ i, start ≤ i → i < start + count → l[i]? = l'[i]?) :
    (l.drop start).take count = (l'.drop start).take count := by
  refine List.ext_getElem? fun i => ?_
  rw [List.getElem?_take, List.getElem?_take, List.getElem?_drop,
    List.getElem?_drop]
  split
  · exact same _ (by omega) (by omega)
  · rfl

namespace FrameParts

variable (f : FrameParts)

theorem version_slice : (f.bytes.drop 0).take 1 = [f.version] := rfl

theorem iv_slice : (f.bytes.drop 1).take 12 = f.iv.toList := by
  simp [bytes]

theorem drop_header : f.bytes.drop 13 = f.cipher ++ f.tag := by
  have length : f.iv.toList.length = 12 := Vector.length_toList
  show (f.iv.toList ++ (f.cipher ++ f.tag)).drop 12 = _
  exact List.drop_left' length

theorem cipher_slice : (f.bytes.drop 13).take f.cipher.length = f.cipher := by
  rw [f.drop_header, List.take_left]

theorem tag_slice : (f.bytes.drop (13 + f.cipher.length)).take f.tag.length =
    f.tag := by
  rw [← List.drop_drop, f.drop_header, List.drop_left, List.take_length]

end FrameParts

/-- What a frame that was changed in one region still shares with another
one. -/
structure Shares (f g : FrameParts) (start stop : Nat) : Prop where
  version : 1 ≤ start → f.version = g.version
  iv : stop ≤ 1 ∨ 13 ≤ start → f.iv = g.iv
  cipher : stop ≤ 13 ∨ 13 + f.cipher.length ≤ start → f.cipher = g.cipher
  tag : stop ≤ 13 + f.cipher.length → f.tag = g.tag

theorem DifferWithin.shares {f g : FrameParts} {start stop : Nat}
    (differ : DifferWithin start stop f.bytes g.bytes)
    (cipher : f.cipher.length = g.cipher.length)
    (tag : f.tag.length = g.tag.length) : Shares f g start stop where
  version := by
    intro before
    have same := slice_eq 0 1 fun i _ below => differ.outside i (by omega)
    rw [f.version_slice, g.version_slice] at same
    exact List.singleton_inj.mp same
  iv := by
    intro apart
    have same := slice_eq 1 12 fun i _ below => differ.outside i (by omega)
    rw [f.iv_slice, g.iv_slice] at same
    exact Vector.toList_inj.mp same
  cipher := by
    intro apart
    have same := slice_eq 13 f.cipher.length
      fun i _ below => differ.outside i (by omega)
    rwa [f.cipher_slice, cipher, g.cipher_slice] at same
  tag := by
    intro before
    have same := slice_eq (13 + f.cipher.length) f.tag.length
      fun i _ below => differ.outside i (by omega)
    rwa [f.tag_slice, cipher, tag, g.tag_slice] at same

/-- A change inside one block of the frame is a change inside one block of the
ciphertext. -/
theorem DifferWithin.block {f g : FrameParts} {j : Nat}
    (differ : DifferWithin (13 + 16 * j)
      (13 + min (16 * j + 16) f.cipher.length) f.bytes g.bytes)
    (cipher : f.cipher.length = g.cipher.length)
    (changed : f.cipher ≠ g.cipher) : Gcm.DifferInBlock j f.cipher g.cipher where
  length := cipher.symm
  differ := changed
  outside := by
    intro i other
    have place : ∀ h : FrameParts, h.cipher.length = f.cipher.length →
        i < f.cipher.length → h.bytes[13 + i]? = h.cipher[i]? := by
      intro h length below
      rw [← List.getElem?_drop, h.drop_header,
        List.getElem?_append_left (length ▸ below)]
    by_cases below : i < f.cipher.length
    · rw [← place f rfl below, ← place g cipher.symm below]
      exact differ.outside (13 + i) (by omega)
    · rw [List.getElem?_eq_none (by omega), List.getElem?_eq_none (by omega)]

/-- One byte of a string is changed. -/
theorem DifferWithin.modify {F : List Byte} {i start stop : Nat} (inside : i < F.length)
    (lower : start ≤ i) (upper : i < stop) {change : Byte → Byte}
    (changes : change F[i] ≠ F[i]) : DifferWithin start stop F (F.modify i change) where
  length := List.length_modify ..
  differ := by
    intro same
    have entry := congrArg (fun l => l[i]?) same
    simp only [List.getElem?_modify_eq, List.getElem?_eq_getElem inside,
      Option.map_eq_map, Option.map_some, Option.some_inj] at entry
    exact changes entry.symm
  outside := by
    intro k beyond
    have other : i ≠ k := by omega
    exact (List.getElem?_modify_ne _ _ other).symm

/-- The parts of the frame of a text. -/
def sealedFrame (ciph : Block → Block) (iv : Vector Byte 12) (p : List Byte) :
    FrameParts :=
  ⟨0x01#8, iv, (authEncrypt ciph iv p []).1, (authEncrypt ciph iv p []).2⟩

theorem sealedFrame_bytes (ciph : Block → Block) (iv : Vector Byte 12)
    (p : List Byte) : (sealedFrame ciph iv p).bytes = sealFrame ciph iv p := rfl

/-- A frame that shares the right version opens only with its own tag. -/
theorem openFrame_eq_none_of_tag {ciph : Block → Block} {f : FrameParts}
    (wrong : Gcm.tag ciph f.iv [] f.cipher ≠ f.tag) : openFrame ciph f = none := by
  unfold openFrame Gcm.authDecrypt
  rw [if_neg wrong, ite_self]

/-- A change of the frame of a text inside its version, its IV, one block of
its ciphertext or its tag is always detected. -/
theorem openFrame_tampered {ciph : Block → Block}
    (injective : Function.Injective ciph) (nonzero : ciph 0#128 ≠ 0#128)
    {iv : Vector Byte 12} {p : List Byte} {g : FrameParts}
    (cipher : g.cipher.length = p.length) (tag : g.tag.length = 16)
    {start stop : Nat} (region : Region p.length start stop)
    (differ : DifferWithin start stop (sealFrame ciph iv p) g.bytes) :
    openFrame ciph g = none := by
  let f := sealedFrame ciph iv p
  have sealedCipher : f.cipher.length = p.length := Gcm.length_gctr ..
  have sealedTag : f.tag.length = 16 := Gcm.length_tag ..
  have right : Gcm.tag ciph f.iv [] f.cipher = f.tag := rfl
  have change : DifferWithin start stop f.bytes g.bytes := differ
  have shares := change.shares (sealedCipher.trans cipher.symm)
    (sealedTag.trans tag.symm)
  have parts : f ≠ g := fun same => differ.differ (congrArg FrameParts.bytes same)
  rw [← sealedCipher] at region
  cases region with
  | version =>
      have iv := shares.iv (Or.inl (le_refl 1))
      have cipher := shares.cipher (Or.inl (by omega))
      have tag := shares.tag (by omega)
      have other : g.version ≠ 0x01#8 := fun same =>
        parts (FrameParts.ext same.symm iv cipher tag)
      rw [openFrame, if_neg other]
  | iv =>
      have version := shares.version (le_refl 1)
      have cipher := shares.cipher (Or.inl (le_refl 13))
      have tag := shares.tag (by omega)
      have other : g.iv ≠ f.iv := fun same =>
        parts (FrameParts.ext version same.symm cipher tag)
      refine openFrame_eq_none_of_tag ?_
      rw [← cipher, ← tag, ← right]
      exact Gcm.tag_ne_of_iv injective other f.cipher
  | block j =>
      have version := shares.version (by omega)
      have iv := shares.iv (Or.inr (by omega))
      have tag := shares.tag (by omega)
      have other : f.cipher ≠ g.cipher := fun same =>
        parts (FrameParts.ext version iv same tag)
      have inBlock := change.block (sealedCipher.trans cipher.symm) other
      refine openFrame_eq_none_of_tag ?_
      rw [← iv, ← tag, ← right]
      exact (Gcm.tag_ne_of_block nonzero f.iv inBlock).symm
  | tag =>
      have version := shares.version (by omega)
      have iv := shares.iv (Or.inr (by omega))
      have cipher := shares.cipher (Or.inr (le_refl _))
      have other : f.tag ≠ g.tag := fun same =>
        parts (FrameParts.ext version iv cipher same)
      refine openFrame_eq_none_of_tag ?_
      rw [← iv, ← cipher, right]
      exact other

end GpuKvSeal.Standard
