import GpuKvSeal.Standard.Gcm

/-!
# Counter mode byte by byte

The counter blocks of a message are the successors of the initial one, so the
byte at each position is masked by one byte of one encrypted counter.
-/

namespace GpuKvSeal.Standard.Gcm

open BigEndian (Byte)

/-- Counter blocks of a 96-bit IV: only the last 32 bits ever change. -/
def counterBlock (iv : Vector Byte 12) (counter : BitVec 32) : Block :=
  BigEndian.ofBytes 96 iv.toList ++ counter

theorem preCounter_eq (iv : Vector Byte 12) :
    preCounter iv = counterBlock iv 1#32 := rfl

theorem inc32_counterBlock (iv : Vector Byte 12) (counter : BitVec 32) :
    inc32 (counterBlock iv counter) = counterBlock iv (counter + 1#32) := by
  have high : (counterBlock iv counter).extractLsb' 32 96 =
      BigEndian.ofBytes 96 iv.toList := BitVec.extractLsb'_append_eq_left
  have low : (counterBlock iv counter).extractLsb' 0 32 = counter :=
    BitVec.extractLsb'_append_eq_right
  rw [inc32, high, low]
  rfl

theorem length_blockBytes (b : Block) : (blockBytes b).length = 16 := by
  simp [blockBytes]

/-- The keystream byte at a position, counting from an initial counter. -/
def keystream (ciph : Block → Block) (iv : Vector Byte 12) (first : Nat)
    (position : Nat) : Byte :=
  (BigEndian.toBytes 16 (ciph (counterBlock iv
    (BitVec.ofNat 32 (first + position / 16))))).get (Fin.ofNat 16 position)

theorem length_gctrBlocks (ciph : Block → Block) (n : Nat) (counter : Block)
    (x : List Byte) :
    (gctrBlocks ciph n counter x).length = min (16 * n) x.length := by
  induction n generalizing counter x with
  | zero => simp [gctrBlocks]
  | succ n ih =>
      simp only [gctrBlocks, List.length_append, List.length_zipWith,
        List.length_take, length_blockBytes, ih, List.length_drop]
      omega

/-- Counter mode keeps the length of the message. -/
@[simp]
theorem length_gctr (ciph : Block → Block) (icb : Block) (x : List Byte) :
    (gctr ciph icb x).length = x.length := by
  rw [gctr, length_gctrBlocks]
  omega

theorem getElem_gctrBlocks (ciph : Block → Block) (iv : Vector Byte 12)
    (n first : Nat) (x : List Byte) {position : Nat}
    (inside : position < (gctrBlocks ciph n
      (counterBlock iv (BitVec.ofNat 32 first)) x).length)
    (below : position < x.length) :
    (gctrBlocks ciph n (counterBlock iv (BitVec.ofNat 32 first)) x)[position] =
      x[position] ^^^ keystream ciph iv first position := by
  induction n generalizing first x position with
  | zero => simp [gctrBlocks] at inside
  | succ n ih =>
      have bound := inside
      rw [length_gctrBlocks] at bound
      have next : inc32 (counterBlock iv (BitVec.ofNat 32 first)) =
          counterBlock iv (BitVec.ofNat 32 (first + 1)) := by
        rw [inc32_counterBlock, BitVec.ofNat_add]
      simp only [gctrBlocks, next] at inside ⊢
      by_cases head : position < 16
      · have div : position / 16 = 0 := Nat.div_eq_of_lt head
        have mod : position % 16 = position := Nat.mod_eq_of_lt head
        rw [List.getElem_append_left (by simp [length_blockBytes]; omega)]
        simp [keystream, blockBytes, div, mod, Vector.get_eq_getElem]
      · have block : (List.zipWith (· ^^^ ·) (x.take 16)
            (blockBytes (ciph (counterBlock iv (BitVec.ofNat 32 first))))).length =
              16 := by
          simp [length_blockBytes]
          omega
        have later : position - 16 < (gctrBlocks ciph n
            (counterBlock iv (BitVec.ofNat 32 (first + 1))) (x.drop 16)).length := by
          rw [length_gctrBlocks, List.length_drop]
          omega
        have rest : position - 16 < (x.drop 16).length := by
          rw [List.length_drop]
          omega
        have div : first + 1 + (position - 16) / 16 = first + position / 16 := by
          omega
        have mod : Fin.ofNat 16 (position - 16) = Fin.ofNat 16 position :=
          Fin.ext (by simp only [Fin.val_ofNat]; omega)
        have place : 16 + (position - 16) = position := by omega
        rw [List.getElem_append_right (by omega)]
        simp only [block, ih (first + 1) (x.drop 16) later rest, List.getElem_drop,
          keystream, div, mod, place]

/-- Every byte is masked with the keystream byte of its position. -/
theorem getElem_gctr (ciph : Block → Block) (iv : Vector Byte 12) (first : Nat)
    (x : List Byte) {position : Nat}
    (inside : position <
      (gctr ciph (counterBlock iv (BitVec.ofNat 32 first)) x).length)
    (below : position < x.length) :
    (gctr ciph (counterBlock iv (BitVec.ofNat 32 first)) x)[position] =
      x[position] ^^^ keystream ciph iv first position :=
  getElem_gctrBlocks ciph iv _ first x inside below

/-- Counter mode undoes itself. -/
theorem gctr_gctr (ciph : Block → Block) (iv : Vector Byte 12) (first : Nat)
    (x : List Byte) :
    gctr ciph (counterBlock iv (BitVec.ofNat 32 first))
      (gctr ciph (counterBlock iv (BitVec.ofNat 32 first)) x) = x := by
  refine List.ext_getElem (by simp) fun position twice inside => ?_
  have once : position <
      (gctr ciph (counterBlock iv (BitVec.ofNat 32 first)) x).length := by
    rw [length_gctr]
    exact inside
  rw [getElem_gctr ciph iv first _ twice once,
    getElem_gctr ciph iv first x once inside,
    BitVec.xor_assoc, BitVec.xor_self, BitVec.xor_zero]

/-- Counter mode over a longer text extends the one over its beginning. -/
theorem take_gctr_append (ciph : Block → Block) (iv : Vector Byte 12) (first : Nat)
    (x y : List Byte) :
    (gctr ciph (counterBlock iv (BitVec.ofNat 32 first)) (x ++ y)).take x.length =
      gctr ciph (counterBlock iv (BitVec.ofNat 32 first)) x := by
  have length : ((gctr ciph (counterBlock iv (BitVec.ofNat 32 first))
      (x ++ y)).take x.length).length = x.length := by
    rw [List.length_take, length_gctr, List.length_append]
    omega
  refine List.ext_getElem (by rw [length, length_gctr]) fun position early inside => ?_
  have below : position < x.length := by omega
  rw [List.getElem_take, getElem_gctr ciph iv first _ _ (by simp; omega),
    getElem_gctr ciph iv first x inside below, List.getElem_append_left below]

/-- Data start at counter two, the successor of the tag's counter. -/
theorem inc32_preCounter (iv : Vector Byte 12) :
    inc32 (preCounter iv) = counterBlock iv (BitVec.ofNat 32 2) := by
  rw [preCounter_eq, inc32_counterBlock]
  rfl

/-- The bytes of a tag: the hash masked with the first counter. -/
theorem getElem_tag (ciph : Block → Block) (iv : Vector Byte 12)
    (aad c : List Byte) {i : Nat} (inside : i < (tag ciph iv aad c).length)
    (below : i < 16) :
    (tag ciph iv aad c)[i] =
      (BigEndian.toBytes 16 (ghash (ciph 0#128) (paddedBlocks aad ++
        paddedBlocks c ++ [lengthBlock aad c])))[i] ^^^
      keystream ciph iv 1 i := by
  rw [← Vector.getElem_toList (by rwa [Vector.length_toList])]
  exact getElem_gctr ciph iv 1 (blockBytes _) inside _

@[simp]
theorem length_tag (ciph : Block → Block) (iv : Vector Byte 12)
    (aad c : List Byte) : (tag ciph iv aad c).length = 16 := by
  rw [tag, length_gctr, length_blockBytes]

/-- Decryption accepts exactly the tag that encryption makes. -/
theorem authDecrypt_authEncrypt (ciph : Block → Block) (iv : Vector Byte 12)
    (p aad : List Byte) :
    authDecrypt ciph iv (authEncrypt ciph iv p aad).1 aad
      (authEncrypt ciph iv p aad).2 = some p := by
  simp only [authEncrypt, authDecrypt, if_true, inc32_preCounter, gctr_gctr]

end GpuKvSeal.Standard.Gcm
