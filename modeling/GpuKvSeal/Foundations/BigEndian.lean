import Mathlib

/-!
# Big-endian byte strings and words

Reading a byte string into a word and writing a word as bytes, most
significant byte first, together with the bit each byte position holds.
-/

namespace GpuKvSeal.BigEndian

/-- A byte is eight bits. -/
abbrev Byte := BitVec 8

/-- Columns of four bytes have a first byte, and so do blocks of sixteen. -/
instance neZeroFour : NeZero 4 := ⟨by decide⟩

instance neZeroSixteen : NeZero 16 := ⟨by decide⟩

/-- Shift each byte in from the right. -/
def ofBytes (w : Nat) (bytes : List Byte) : BitVec w :=
  bytes.foldl (fun word byte => (word <<< 8) ||| byte.setWidth w) 0#w

/-- Byte `index` of a word of `n` bytes. -/
def byteAt (n : Nat) {w : Nat} (word : BitVec w) (index : Nat) : Byte :=
  word.extractLsb' (8 * (n - 1 - index)) 8

/-- The `n` bytes of a word. -/
def toBytes (n : Nat) {w : Nat} (word : BitVec w) : Vector Byte n :=
  Vector.ofFn fun index => byteAt n word index

theorem ofBytes_concat (w : Nat) (bytes : List Byte) (last : Byte) :
    ofBytes w (bytes ++ [last]) =
      (ofBytes w bytes <<< 8) ||| last.setWidth w := by
  simp [ofBytes]

/-- Bit `i` of the word is bit `i % 8` of the byte `i / 8` places from the
right end. -/
theorem getLsbD_ofBytes (w : Nat) (bytes : List Byte) {i : Nat}
    (inside : i < w) :
    (ofBytes w bytes).getLsbD i =
      if h : i / 8 < bytes.length then
        (bytes[bytes.length - 1 - i / 8]).getLsbD (i % 8)
      else false := by
  induction bytes using List.reverseRecOn generalizing i with
  | nil => simp [ofBytes]
  | append_singleton bytes last ih =>
      rw [ofBytes_concat, BitVec.getLsbD_or, BitVec.getLsbD_shiftLeft,
        BitVec.getLsbD_setWidth]
      by_cases low : i < 8
      · have zero : i / 8 = 0 := Nat.div_eq_of_lt low
        simp [inside, low, zero, Nat.mod_eq_of_lt low]
      · have lower : i - 8 < w := by omega
        have div : (i - 8) / 8 = i / 8 - 1 := by omega
        have mod : (i - 8) % 8 = i % 8 := by omega
        have beyond : last.getLsbD i = false :=
          BitVec.getLsbD_of_ge last i (by omega)
        rw [ih lower]
        simp only [inside, low, div, mod, beyond, List.length_append,
          List.length_singleton, decide_true, decide_false, Bool.not_false,
          Bool.true_and, Bool.and_false, Bool.or_false]
        by_cases have' : i / 8 - 1 < bytes.length
        · have within : i / 8 < bytes.length + 1 := by omega
          rw [dif_pos have', dif_pos within, List.getElem_append_left (by omega)]
          congr 2
          omega
        · have outside : ¬ i / 8 < bytes.length + 1 := by omega
          rw [dif_neg have', dif_neg outside]

theorem getLsbD_byteAt (n : Nat) {w : Nat} (word : BitVec w) (index : Nat)
    {i : Nat} (inside : i < 8) :
    (byteAt n word index).getLsbD i =
      word.getLsbD (8 * (n - 1 - index) + i) := by
  simp [byteAt, inside]

@[simp]
theorem getElem_toBytes (n : Nat) {w : Nat} (word : BitVec w) (index : Nat)
    (inside : index < n) :
    (toBytes n word)[index] = byteAt n word index := by
  simp [toBytes]

/-- Writing a word that was read from its bytes gives the bytes back. -/
theorem toBytes_ofBytes {n w : Nat} (width : w = 8 * n)
    (bytes : Vector Byte n) : toBytes n (ofBytes w bytes.toList) = bytes := by
  ext index inside i bound
  rw [getElem_toBytes]
  show (byteAt n _ index).getLsbD i = bytes[index].getLsbD i
  have position : 8 * (n - 1 - index) + i < w := by omega
  have place : (8 * (n - 1 - index) + i) / 8 = n - 1 - index := by omega
  have low : (8 * (n - 1 - index) + i) % 8 = i := by omega
  rw [getLsbD_byteAt n _ _ bound, getLsbD_ofBytes w _ position]
  have within : (8 * (n - 1 - index) + i) / 8 < bytes.toList.length := by
    rw [place, Vector.length_toList]
    omega
  rw [dif_pos within, low, Vector.getElem_toList]
  congr 2
  rw [place, Vector.length_toList]
  omega

/-- Reading the bytes of a word gives the word back. -/
theorem ofBytes_toBytes {n w : Nat} (width : w = 8 * n) (word : BitVec w) :
    ofBytes w (toBytes n word).toList = word := by
  refine BitVec.eq_of_getLsbD_eq fun i inside => ?_
  have within : i / 8 < (toBytes n word).toList.length := by
    rw [Vector.length_toList]
    omega
  rw [getLsbD_ofBytes w _ inside, dif_pos within, Vector.getElem_toList,
    getElem_toBytes, getLsbD_byteAt n _ _ (Nat.mod_lt _ (by decide))]
  congr 1
  rw [Vector.length_toList] at *
  omega

theorem byteAt_xor (n : Nat) {w : Nat} (first second : BitVec w)
    (index : Nat) :
    byteAt n (first ^^^ second) index =
      byteAt n first index ^^^ byteAt n second index := by
  ext i inside
  simp [byteAt]

end GpuKvSeal.BigEndian
