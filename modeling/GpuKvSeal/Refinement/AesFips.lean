import GpuKvSeal.Device.AesBlock
import GpuKvSeal.Standard.Aes

/-!
# The table-based AES computes the standard cipher

Each step of the device code is matched with the step of the standard on the
four by four state.  Doubling is linear, which turns the column mixing of the
code into the matrix product; the key loop is an induction on the generated
words.
-/

namespace GpuKvSeal.Refinement

open BigEndian (Byte)
open Device (HOST_SBOX lookup expandAes128Key aes128EncryptBlock)
open Standard (Aes.State Aes.timesX Aes.product)

/-! ## Single bytes -/

theorem hostXtime_eq_timesX (x : Byte) : Device.hostXtime x = Aes.timesX x := by
  revert x
  decide

theorem xtime_eq_timesX (x : Byte) : Device.xtime x = Aes.timesX x :=
  hostXtime_eq_timesX x

theorem xtime_xor (a b : Byte) :
    Device.xtime (a ^^^ b) = Device.xtime a ^^^ Device.xtime b := by
  have positive : 0 < 8 := by decide
  simp only [xtime_eq_timesX, Aes.timesX]
  apply BinaryField.residue_injective
  rw [BinaryField.residue_xor, BinaryField.residue_mulX positive,
    BinaryField.residue_mulX positive, BinaryField.residue_mulX positive,
    BinaryField.residue_xor, mul_add]

theorem product_one (a : Byte) : Aes.product 0x01#8 a = a := by
  revert a
  decide +kernel

theorem product_two (a : Byte) : Aes.product 0x02#8 a = Device.xtime a := by
  revert a
  decide +kernel

theorem product_three (a : Byte) :
    Aes.product 0x03#8 a = Device.xtime a ^^^ a := by
  revert a
  decide +kernel

/-- The inverse of the affine map of the substitution. -/
def affineInverse (s : Byte) : Byte :=
  s.rotateLeft 1 ^^^ s.rotateLeft 3 ^^^ s.rotateLeft 6 ^^^ 0x05#8

theorem affine_affineInverse (s : Byte) :
    Standard.Aes.affine (affineInverse s) = s := by
  revert s
  decide +kernel

/-- Undoing the affine map in the stored table leaves the field inverse. -/
theorem product_table (x : Byte) :
    x ≠ 0#8 → Aes.product x (affineInverse (lookup HOST_SBOX x)) = 1#8 := by
  revert x
  decide +kernel

/-- The stored table is the substitution of the standard. -/
theorem lookup_HOST_SBOX (x : Byte) :
    lookup HOST_SBOX x = Standard.Aes.sBox x := by
  have inverse : Standard.Aes.inverse x = affineInverse (lookup HOST_SBOX x) := by
    by_cases zero : x = 0#8
    · subst zero
      rw [Standard.Aes.inverse_zero]
      decide
    · exact Standard.Aes.inverse_eq (product_table x zero)
  rw [Standard.Aes.sBox, inverse, affine_affineInverse]

/-! ## Steps on the state -/

theorem ofBlock_addRoundKey (s : Vector Byte 16) (rk : Vector Byte 176)
    (round : Fin 11) (row column : Fin 4) :
    Aes.State.ofBlock (Device.addRoundKey s rk round) row column =
      Aes.State.ofBlock s row column ^^^
        rk[round.val * 16 + (row.val + 4 * column.val)] := by
  simp [Aes.State.ofBlock, Device.addRoundKey]

theorem ofBlock_subBytes (s : Vector Byte 16) :
    Aes.State.ofBlock (Device.subBytes HOST_SBOX s) =
      Standard.Aes.subBytes (Aes.State.ofBlock s) := by
  funext row column
  simp [Aes.State.ofBlock, Device.subBytes, Standard.Aes.subBytes,
    lookup_HOST_SBOX]

theorem ofBlock_shiftRows (s : Vector Byte 16) :
    Aes.State.ofBlock (Device.shiftRows s) =
      Standard.Aes.shiftRows (Aes.State.ofBlock s) := by
  funext row column
  fin_cases row <;> fin_cases column <;>
    simp [Aes.State.ofBlock, Device.shiftRows, Standard.Aes.shiftRows]

theorem getElem_mixColumn_other (s : Vector Byte 16) (c : Fin 4) (i : Nat)
    (inside : i < 16) (other : i / 4 ≠ c.val) :
    (Device.mixColumn s c)[i] = s[i] := by
  have h0 : c.val * 4 ≠ i := by omega
  have h1 : c.val * 4 + 1 ≠ i := by omega
  have h2 : c.val * 4 + 2 ≠ i := by omega
  have h3 : c.val * 4 + 3 ≠ i := by omega
  simp [Device.mixColumn, h0, h1, h2, h3]

/-- The effect of one pass on the state of the standard. -/
theorem ofBlock_mixColumn (s : Vector Byte 16) (c : Fin 4) :
    Aes.State.ofBlock (Device.mixColumn s c) = fun row column =>
      if column = c then
        Standard.Aes.mixColumns (Aes.State.ofBlock s) row column
      else Aes.State.ofBlock s row column := by
  funext row column
  by_cases same : column = c
  · subst same
    rw [if_pos rfl]
    fin_cases row <;>
      simp [Standard.Aes.mixColumns, Standard.Aes.mixMatrix, Aes.State.ofBlock,
        Device.mixColumn, product_one, product_two, product_three, xtime_xor,
        Nat.mul_comm 4, Nat.add_comm _ (column.val * 4)] <;>
      (ext i bound; simp only [BitVec.getElem_xor]; grind)
  · have other : (row.val + 4 * column.val) / 4 ≠ c.val := by
      have distinct : column.val ≠ c.val := fun h => same (Fin.ext h)
      omega
    rw [if_neg same]
    exact getElem_mixColumn_other s c _ _ other

theorem ofBlock_mixColumns (s : Vector Byte 16) :
    Aes.State.ofBlock (Device.mixColumns s) =
      Standard.Aes.mixColumns (Aes.State.ofBlock s) := by
  funext row column
  unfold Device.mixColumns
  simp only [ofBlock_mixColumn]
  fin_cases column <;> simp [Standard.Aes.mixColumns]

/-! ## Key expansion -/

/-- The first `4 * n` bytes are the first `n` words of the standard, and the
rolling constant is the one the next multiple of four will use. -/
structure Expanded (key : Vector Byte 16) (s : Device.KeySchedule) (n : Nat) :
    Prop where
  generated : s.generated = 4 * n
  lower : 4 ≤ n
  upper : n ≤ 44
  rcon : s.rcon = Aes.timesX^[(n + 3) / 4 - 1] 1#8
  words : ∀ (i : Nat) (row : Fin 4), i < n →
    s.entry (4 * i + row.val) = Standard.Aes.keyWord key i row

/-- The recurrence of the standard past the first four words. -/
theorem keyWord_step (key : Vector Byte 16) {n : Nat} (lower : 4 ≤ n)
    (row : Fin 4) :
    Standard.Aes.keyWord key n row =
      Standard.Aes.keyWord key (n - 4) row ^^^
        (if n % 4 = 0 then
          Standard.Aes.sBox (Standard.Aes.keyWord key (n - 1) (row + 1)) ^^^
            Standard.Aes.rcon (n / 4) row
        else Standard.Aes.keyWord key (n - 1) row) := by
  conv_lhs => rw [Standard.Aes.keyWord]
  have notFirst : ¬ n < 4 := by omega
  rw [dif_neg notFirst]
  split <;> rfl

theorem entry_write (keys : Vector Byte 176) (i : Nat) (value : Byte) (j : Nat)
    (bound : i < 176) :
    (keys.setIfInBounds i value)[j]?.getD 0#8 =
      if i = j then value else keys[j]?.getD 0#8 := by
  rw [Vector.getElem?_setIfInBounds]
  split <;> simp_all

theorem getElem_expandTemp (s : Device.KeySchedule) (k : Fin 4) :
    (Device.expandTemp s).get k =
      if s.generated % 16 = 0 then
        lookup HOST_SBOX (s.entry (s.generated - 4 + (k + 1).val)) ^^^
          (if k = 0 then s.rcon else 0#8)
      else s.entry (s.generated - 4 + k.val) := by
  unfold Device.expandTemp
  by_cases turn : s.generated % 16 = 0
  · fin_cases k <;> simp [turn, Vector.get_eq_getElem]
  · simp [turn, Vector.get_eq_getElem]

/-- A pass leaves the earlier entries as they are. -/
theorem entry_expandWord_old (s : Device.KeySchedule) {j : Nat}
    (old : j < s.generated) :
    (Device.expandWord s).entry j = s.entry j := by
  have unroll : List.finRange 4 = [0, 1, 2, 3] := by decide
  have h0 : ¬ s.generated = j := by omega
  have h1 : ¬ s.generated + 1 = j := by omega
  have h2 : ¬ s.generated + 2 = j := by omega
  have h3 : ¬ s.generated + 3 = j := by omega
  simp [Device.expandWord, Device.KeySchedule.entry, unroll,
    h0, h1, h2, h3]

/-- A pass appends four entries. -/
theorem entry_expandWord_new (s : Device.KeySchedule) (k : Fin 4)
    (room : s.generated + 4 ≤ 176) :
    (Device.expandWord s).entry (s.generated + k.val) =
      s.entry (s.generated + k.val - 16) ^^^ (Device.expandTemp s).get k := by
  have unroll : List.finRange 4 = [0, 1, 2, 3] := by decide
  generalize temp : Device.expandTemp s = t
  show ((Device.expandWord s).roundKeys[_]?).getD 0#8 = _
  simp only [Device.expandWord, unroll, List.foldl_cons, List.foldl_nil, temp]
  rw [entry_write _ _ _ _ (by simp; omega), entry_write _ _ _ _ (by simp; omega),
    entry_write _ _ _ _ (by simp; omega), entry_write _ _ _ _ (by simp; omega)]
  fin_cases k <;> simp [Vector.get_eq_getElem]

/-- The word that a pass appends is the next one of the standard. -/
theorem Expanded.new_word {key : Vector Byte 16} {s : Device.KeySchedule}
    {n : Nat} (expanded : Expanded key s n) (room : n < 44) (row : Fin 4) :
    (Device.expandWord s).entry (4 * n + row.val) =
      Standard.Aes.keyWord key n row := by
  have length := expanded.generated
  have lower := expanded.lower
  have back : s.entry (s.generated + row.val - 16) =
      Standard.Aes.keyWord key (n - 4) row := by
    rw [← expanded.words (n - 4) row (by omega)]
    congr 1
    omega
  have last : ∀ row : Fin 4, s.entry (s.generated - 4 + row.val) =
      Standard.Aes.keyWord key (n - 1) row := by
    intro row
    rw [← expanded.words (n - 1) row (by omega)]
    congr 1
    omega
  rw [← length, entry_expandWord_new s row (by omega), back,
    getElem_expandTemp, last, last, lookup_HOST_SBOX, keyWord_step key lower]
  by_cases turn : n % 4 = 0
  · have turned : s.generated % 16 = 0 := by omega
    have round : (n + 3) / 4 - 1 = n / 4 - 1 := by omega
    rw [if_pos turned, if_pos turn, expanded.rcon, round]
    rfl
  · have straight : ¬ s.generated % 16 = 0 := by omega
    rw [if_neg straight, if_neg turn]

theorem Expanded.expandWord {key : Vector Byte 16} {s : Device.KeySchedule}
    {n : Nat} (expanded : Expanded key s n) (room : n < 44) :
    Expanded key (Device.expandWord s) (n + 1) where
  generated := by
    show s.generated + 4 = _
    have length := expanded.generated
    omega
  lower := by
    have lower := expanded.lower
    omega
  upper := room
  rcon := by
    have length := expanded.generated
    have lower := expanded.lower
    show (if s.generated % 16 = 0 then Device.hostXtime s.rcon else s.rcon) = _
    by_cases turn : s.generated % 16 = 0
    · have next : (n + 1 + 3) / 4 - 1 = (n + 3) / 4 - 1 + 1 := by omega
      rw [if_pos turn, next, Function.iterate_succ_apply', expanded.rcon,
        hostXtime_eq_timesX]
    · have same : (n + 1 + 3) / 4 - 1 = (n + 3) / 4 - 1 := by omega
      rw [if_neg turn, same, expanded.rcon]
  words := by
    intro i row inside
    have length := expanded.generated
    by_cases new : i = n
    · subst new
      exact expanded.new_word room row
    · have old : i < n := by omega
      rw [entry_expandWord_old s (by omega)]
      exact expanded.words i row old

/-- From any expanded prefix the loop ends with all 44 words. -/
theorem Expanded.expandLoop {key : Vector Byte 16} {s : Device.KeySchedule}
    {n : Nat} (expanded : Expanded key s n) (i : Nat) (row : Fin 4)
    (inside : i < 44) :
    (Device.expandLoop s)[4 * i + row.val]?.getD 0#8 =
      Standard.Aes.keyWord key i row := by
  have length := expanded.generated
  have upper := expanded.upper
  rw [Device.expandLoop]
  by_cases more : n < 44
  · have continues : s.generated < 176 := by omega
    rw [if_pos continues]
    exact (expanded.expandWord more).expandLoop i row inside
  · have stops : ¬ s.generated < 176 := by omega
    rw [if_neg stops]
    exact expanded.words i row (by omega)
termination_by 44 - n

theorem expanded_initial (key : Vector Byte 16) :
    Expanded key
      ⟨16, 1#8, Vector.ofFn fun i => if h : i.val < 16 then key[i.val] else 0#8⟩
      4 where
  generated := rfl
  lower := le_refl 4
  upper := by decide
  rcon := rfl
  words := by
    intro i row inside
    have bound : 4 * i + row.val < 16 := by omega
    rw [Standard.Aes.keyWord]
    simp [Device.KeySchedule.entry, inside, bound, show 4 * i + row.val < 176 by omega]

/-- The expanded key holds the round keys of the standard. -/
theorem getElem_expandAes128Key (key : Vector Byte 16) (round : Fin 11)
    (row column : Fin 4) :
    (expandAes128Key key)[round.val * 16 + (row.val + 4 * column.val)] =
      Standard.Aes.roundKey key round column row := by
  have bound : round.val * 16 + (row.val + 4 * column.val) < 176 := by omega
  have word := (expanded_initial key).expandLoop
    (4 * round.val + column.val) row (by omega)
  rw [Standard.Aes.roundKey, ← word, expandAes128Key]
  have position : 4 * (4 * round.val + column.val) + row.val =
      round.val * 16 + (row.val + 4 * column.val) := by ring
  rw [position, Vector.getElem?_eq_getElem bound, Option.getD_some]

/-! ## The whole cipher -/

theorem ofBlock_addRoundKey_expanded (key s : Vector Byte 16)
    (round : Fin 11) :
    Aes.State.ofBlock (Device.addRoundKey s (expandAes128Key key) round) =
      Standard.Aes.addRoundKey (Aes.State.ofBlock s)
        (Standard.Aes.roundKey key round) := by
  funext row column
  rw [ofBlock_addRoundKey, getElem_expandAes128Key, Standard.Aes.addRoundKey]

theorem ofBlock_aesRounds (key block : Vector Byte 16) (n : Nat)
    (few : n ≤ 9) :
    Aes.State.ofBlock
        (Device.aesRounds HOST_SBOX (expandAes128Key key) block n) =
      Standard.Aes.rounds key block n := by
  induction n with
  | zero =>
      rw [Device.aesRounds, ofBlock_addRoundKey_expanded, Standard.Aes.rounds]
      rfl
  | succ n ih =>
      have round : (Fin.ofNat 11 (n + 1)).val = n + 1 :=
        Nat.mod_eq_of_lt (by omega)
      rw [Device.aesRounds, ofBlock_addRoundKey_expanded, round,
        ofBlock_mixColumns, ofBlock_shiftRows, ofBlock_subBytes,
        ih (by omega), Standard.Aes.rounds]

theorem toBlock_ofBlock (block : Vector Byte 16) :
    (Aes.State.ofBlock block).toBlock = block := by
  ext i bound
  have position : i % 4 + 4 * (i / 4) = i := Nat.mod_add_div i 4
  simp [Aes.State.toBlock, Aes.State.ofBlock, position]

theorem aes128EncryptBlock_eq_cipher (key block : Vector Byte 16) :
    aes128EncryptBlock HOST_SBOX block (expandAes128Key key) =
      Standard.Aes.cipher key block := by
  rw [aes128EncryptBlock, Standard.Aes.cipher]
  have state := ofBlock_addRoundKey_expanded key
    (Device.shiftRows (Device.subBytes HOST_SBOX
      (Device.aesRounds HOST_SBOX (expandAes128Key key) block 9))) 10
  rw [ofBlock_shiftRows, ofBlock_subBytes,
    ofBlock_aesRounds key block 9 (le_refl 9)] at state
  rw [← toBlock_ofBlock (Device.addRoundKey _ _ _), state]
  rfl

end GpuKvSeal.Refinement
