import GpuKvSeal.Refinement.CounterKernel
import GpuKvSeal.Refinement.GhashTree

/-!
# The tables of a key and the tag kernels

Once the tables of a key are in memory, the block function of the device is
the cipher under that key.  The tag kernels then compare or store the tag of
the standard, provided that the root node holds the hash.
-/

namespace GpuKvSeal.Refinement

open BigEndian (Byte)
open CellProgram (Program)
open Device
open Standard (Gcm.Block Gcm.element)

/-! ## Tables -/

/-- The tables of a key, on one device. -/
structure Ready (key : Vector Byte 16) (memory : Memory) (device : Int)
    (roundKeys hPow2 : Ptr) : Prop where
  sbox : memory (.sbox device) = HOST_SBOX
  roundKeys : memory (.roundKeys roundKeys) = expandAes128Key key
  powers : PowerTable memory hPow2 (Gcm.element (Standard.Gcm.aes key 0#128))

/-- The cells of the tables. -/
def tableCells (device : Int) (roundKeys hPow2 : Ptr) : Set Cell :=
  {.sbox device, .roundKeys roundKeys} ∪ powerTable hPow2

theorem Ready.congr {key : Vector Byte 16} {first second : Memory}
    {device : Int} {roundKeys hPow2 : Ptr}
    (ready : Ready key first device roundKeys hPow2)
    (same : ∀ cell ∈ tableCells device roundKeys hPow2,
      second cell = first cell) :
    Ready key second device roundKeys hPow2 where
  sbox := (same _ (Or.inl (Or.inl rfl))).trans ready.sbox
  roundKeys := (same _ (Or.inl (Or.inr rfl))).trans ready.roundKeys
  powers := ready.powers.congr fun i inside =>
    same (.hPow2 hPow2 i) (Or.inr ⟨i, inside, rfl⟩)

theorem value_zeroBlock :
    BigEndian.toBytes 16 (0#128) = Vector.replicate 16 0#8 := by
  decide +kernel

/-- The key kernel fills the table by repeated squaring. -/
theorem squareTable_exec (hPow2 : Ptr) (h : Standard.Gcm.Element) (i n : Nat)
    (memory : Memory)
    (filled : ∀ j ≤ i, value (memory (.hPow2 hPow2 j)) = h ^ 2 ^ j) :
    ∀ j ≤ i + n, value ((squareTable hPow2 i n).exec memory
      (.hPow2 hPow2 j)) = h ^ 2 ^ j := by
  induction n generalizing i memory with
  | zero => exact filled
  | succ n ih =>
      have next := ih (i + 1) (memory.update (.hPow2 hPow2 (i + 1))
        (gfMul (memory (.hPow2 hPow2 i)) (memory (.hPow2 hPow2 i)))) ?_
      · intro j bound
        rw [squareTable]
        exact next j (by omega)
      · intro j bound
        by_cases top : j = i + 1
        · subst top
          rw [CellProgram.Store.update_self, value_gfMul, filled i (le_refl i),
            ← pow_add, ← Nat.two_mul, ← pow_succ']
        · have other : Cell.hPow2 hPow2 j ≠ Cell.hPow2 hPow2 (i + 1) :=
            fun same => top (Cell.hPow2.inj same).2
          rw [CellProgram.Store.update_of_ne _ _ other]
          exact filled j (by omega)

/-- The hash key the key kernel computes from the tables in memory. -/
def deviceHashKey (device : Int) (roundKeys : Ptr) (memory : Memory) : Block128 :=
  loadBe128 (aes128EncryptBlock (memory (.sbox device)) (Vector.replicate 16 0#8)
    (memory (.roundKeys roundKeys)))

/-- The key kernel leaves the powers of its hash key, whatever the tables hold. -/
theorem initHashKey_table (schedule : Schedule) (device : Int)
    (roundKeys hPow2 : Ptr) (memory : Memory) :
    PowerTable ((Launch.mk device (.initHashKey roundKeys hPow2) 1 1).run
      schedule memory) hPow2 (value (deviceHashKey device roundKeys memory)) := by
  intro i inside
  rw [(Launch.mk device (.initHashKey roundKeys hPow2) 1 1).run_single schedule
    memory rfl, Kernel.body, initHashKeyKernel, if_neg (by simp)]
  simp only [CellProgram.Program.exec_bind, CellProgram.Program.value_load,
    CellProgram.Program.exec_load, CellProgram.Program.exec_store]
  refine squareTable_exec hPow2 _ 0 63 _ ?_ i (by omega)
  intro j bound
  obtain rfl : j = 0 := Nat.le_zero.mp bound
  rw [CellProgram.Store.update_self, pow_zero, pow_one, deviceHashKey]

/-- With the tables of a key the hash key is that of the standard. -/
theorem initHashKey_run (schedule : Schedule) (device : Int)
    (roundKeys hPow2 : Ptr) (memory : Memory) {key : Vector Byte 16}
    (sbox : memory (.sbox device) = HOST_SBOX)
    (keys : memory (.roundKeys roundKeys) = expandAes128Key key) :
    PowerTable ((Launch.mk device (.initHashKey roundKeys hPow2) 1 1).run
      schedule memory) hPow2 (Gcm.element (Standard.Gcm.aes key 0#128)) := by
  have hashKey : value (deviceHashKey device roundKeys memory) =
      Gcm.element (Standard.Gcm.aes key 0#128) := by
    rw [deviceHashKey, sbox, keys, value, block_loadBe128,
      aes128EncryptBlock_eq_cipher, Standard.Gcm.aes, value_zeroBlock]
  rw [← hashKey]
  exact initHashKey_table schedule device roundKeys hPow2 memory

/-! ## Counter blocks -/

/-- The counter block of the device is the counter block of the standard. -/
theorem makeCounterBlock_eq (iv : Vector Byte 12) (counter : BitVec 32) :
    makeCounterBlock iv counter =
      BigEndian.toBytes 16 (Standard.Gcm.counterBlock iv counter) := by
  ext1 i inside
  refine BitVec.eq_of_getLsbD_eq fun j bound => ?_
  rw [BigEndian.getElem_toBytes, BigEndian.getLsbD_byteAt _ _ _ bound,
    Standard.Gcm.counterBlock, BitVec.getLsbD_append, makeCounterBlock,
    Vector.getElem_append]
  by_cases high : i < 12
  · have upper : ¬ 8 * (16 - 1 - i) + j < 32 := by omega
    have position : 8 * (16 - 1 - i) + j - 32 = 8 * (11 - i) + j := by omega
    have within : (8 * (11 - i) + j) / 8 < iv.toList.length := by
      rw [Vector.length_toList]
      omega
    have mod : (8 * (11 - i) + j) % 8 = j := by omega
    rw [dif_pos high, if_neg upper, position,
      BigEndian.getLsbD_ofBytes 96 _ (by omega), dif_pos within, mod,
      Vector.getElem_toList]
    have index : iv.toList.length - 1 - (8 * (11 - i) + j) / 8 = i := by
      rw [Vector.length_toList]
      omega
    simp only [index]
  · rw [dif_neg high]
    have cases : i = 12 ∨ i = 13 ∨ i = 14 ∨ i = 15 := by omega
    rcases cases with rfl | rfl | rfl | rfl
    · have lower : 8 * (16 - 1 - 12) + j < 32 := by omega
      simp [bound, lower]
    · have lower : 8 * (16 - 1 - 13) + j < 32 := by omega
      simp [bound, lower]
    · have lower : 8 * (16 - 1 - 14) + j < 32 := by omega
      simp [bound, lower]
    · have lower : j < 32 := by omega
      simp [bound, lower]

/-- The bytes of an encrypted counter block. -/
theorem blockBytes_aes (key : Vector Byte 16) (iv : Vector Byte 12)
    (counter : BitVec 32) :
    Standard.Gcm.blockBytes
        (Standard.Gcm.aes key (Standard.Gcm.counterBlock iv counter)) =
      (aes128EncryptBlock HOST_SBOX (makeCounterBlock iv counter)
        (expandAes128Key key)).toList := by
  rw [Standard.Gcm.blockBytes, Standard.Gcm.aes, aes128EncryptBlock_eq_cipher,
    makeCounterBlock_eq, BigEndian.toBytes_ofBytes rfl]

theorem keystream_aes (key : Vector Byte 16) (iv : Vector Byte 12)
    (first position : Nat) :
    Standard.Gcm.keystream (Standard.Gcm.aes key) iv first position =
      (aes128EncryptBlock HOST_SBOX
        (makeCounterBlock iv (BitVec.ofNat 32 (first + position / 16)))
        (expandAes128Key key)).get (Fin.ofNat 16 position) := by
  have bytes := Vector.toList_inj.mp (blockBytes_aes key iv
    (BitVec.ofNat 32 (first + position / 16)))
  rw [Standard.Gcm.keystream, bytes]

/-- With the tables in place the device computes the standard keystream. -/
theorem Ready.streamByte_eq {key : Vector Byte 16} {memory : Memory}
    {device : Int} {roundKeys hPow2 : Ptr}
    (ready : Ready key memory device roundKeys hPow2) (iv : Ptr) (pos : Nat) :
    streamByte memory device iv roundKeys pos =
      Standard.Gcm.keystream (Standard.Gcm.aes key) (bytesAt memory iv 12) 2
        pos := by
  simp only [streamByte, ready.sbox, ready.roundKeys, keystream_aes,
    Nat.add_comm 2]

/-! ## The hash of a ciphertext in memory -/

/-- Below the wrap-around the block count is the rounded-up quotient. -/
theorem blockCount_eq {len : Nat} (small : len + 15 < 2 ^ 64) :
    blockCount len = (len + 15) / 16 := by
  rw [blockCount, u64, Nat.mod_eq_of_lt small]

/-- The blocks the standard hashes for a ciphertext without further data. -/
def hashInput (c : List Byte) : List Gcm.Block :=
  Standard.Gcm.paddedBlocks [] ++ Standard.Gcm.paddedBlocks c ++
    [Standard.Gcm.lengthBlock [] c]

theorem block_termAt_cipher (memory : Memory) (ciphertext : Ptr)
    {len i : Nat} (inside : i < blockCount len) :
    block (termAt memory ciphertext len i) =
      Standard.Gcm.paddedBlock (bytesAt memory ciphertext len).toList i := by
  have notLast : i ≠ blockCount len := by omega
  rw [termAt, loadCiphertextTerm, if_neg notLast]
  simp only [CellProgram.Program.value_bind, CellProgram.Program.value_pure]
  rw [block_loadBe128, Standard.Gcm.paddedBlock,
    CellProgram.Program.value_collect]
  · refine congrArg (fun bytes : Vector Byte 16 =>
      BigEndian.ofBytes 128 bytes.toList) (Vector.ext fun j bound => ?_)
    by_cases within : i * 16 + j < len
    · simp [within]
    · simp [within]
  · intro j
    split <;> rfl

theorem block_termAt_last (memory : Memory) (ciphertext : Ptr) (len : Nat) :
    block (termAt memory ciphertext len (blockCount len)) =
      Standard.Gcm.lengthBlock [] (bytesAt memory ciphertext len).toList := by
  rw [termAt, loadCiphertextTerm, if_pos rfl, Standard.Gcm.lengthBlock]
  simp [block, BitVec.ofNat_mul, BitVec.mul_comm]

/-- The terms of the device are the blocks the standard hashes. -/
theorem hashTerms_eq (memory : Memory) (ciphertext : Ptr) {len : Nat}
    (small : len + 15 < 2 ^ 64) :
    hashTerms memory ciphertext len =
      (hashInput (bytesAt memory ciphertext len).toList).map Gcm.element := by
  have none : Standard.Gcm.paddedBlocks [] = [] := rfl
  rw [hashTerms, List.range_succ, hashInput, none, List.nil_append,
    List.map_append, List.map_append, Standard.Gcm.paddedBlocks, List.map_map,
    Vector.length_toList, ← blockCount_eq small]
  refine congrArg₂ (· ++ ·) ?_ ?_
  · refine List.map_congr_left fun i member => ?_
    rw [value, block_termAt_cipher memory ciphertext (List.mem_range.mp member)]
    rfl
  · rw [List.map_singleton, List.map_singleton, value, block_termAt_last]

/-! ## The tag kernels -/

/-- The tag the device computes. -/
def expectedBytes (memory : Memory) (device : Int) (frame roundKeys root : Ptr) :
    Vector Byte 16 :=
  Vector.ofFn fun i =>
    (aes128EncryptBlock (memory (.sbox device))
      (makeCounterBlock (bytesAt memory (advance frame 1) 12) 1#32)
      (memory (.roundKeys roundKeys))).get i ^^^
    (storeBe128 (memory (.node root 0)).y).get i

theorem value_expectedTag (memory : Memory) (device : Int)
    (frame roundKeys root : Ptr) :
    (expectedTag device frame roundKeys root).value memory =
      expectedBytes memory device frame roundKeys root := by
  simp [expectedTag, expectedBytes]

theorem exec_expectedTag (memory : Memory) (device : Int)
    (frame roundKeys root : Ptr) :
    (expectedTag device frame roundKeys root).exec memory = memory := by
  simp [expectedTag]

/-- With the tables in place and the hash at the root, the device computes the
tag of the standard. -/
theorem Ready.expectedBytes_eq {key : Vector Byte 16} {memory : Memory}
    {device : Int} {roundKeys hPow2 : Ptr}
    (ready : Ready key memory device roundKeys hPow2) (frame root : Ptr)
    {c : List Byte}
    (hash : value (memory (.node root 0)).y =
      HornerHash.horner (Gcm.element (Standard.Gcm.aes key 0#128))
        ((hashInput c).map Gcm.element)) :
    (expectedBytes memory device frame roundKeys root).toList =
      Standard.Gcm.tag (Standard.Gcm.aes key)
        (bytesAt memory (advance frame 1) 12) [] c := by
  have root' : block (memory (.node root 0)).y =
      Standard.Gcm.ghash (Standard.Gcm.aes key 0#128) (hashInput c) := by
    apply Standard.Gcm.element_injective
    rw [Standard.Gcm.element_ghash]
    exact hash
  refine List.ext_getElem (by simp) fun i below inside => ?_
  have bound : i < 16 := by simpa using below
  have zero : 1 + i / 16 = 1 := by omega
  have place : Fin.ofNat 16 i = ⟨i, bound⟩ := Fin.ext (Nat.mod_eq_of_lt bound)
  rw [Standard.Gcm.getElem_tag _ _ _ _ _ bound, keystream_aes,
    Vector.getElem_toList]
  simp only [expectedBytes, Vector.getElem_ofFn, ready.sbox, ready.roundKeys,
    storeBe128_eq, root', hashInput, zero, place, Vector.get_eq_getElem]
  exact BitVec.xor_comm _ _

/-- The last kernel of a seal stores the tag. -/
theorem finalizeTag_run (schedule : Schedule) (device : Int) (frame : Ptr)
    (plaintextLen : Nat) (roundKeys root : Ptr) (memory : Memory) (i : Fin 16) :
    (Launch.mk device (.finalizeTag frame plaintextLen roundKeys root) 1 1).run
        schedule memory
        (.byte (advance (tagAddress frame plaintextLen) i.val)) =
      (expectedBytes memory device frame roundKeys root).get i := by
  rw [(Launch.mk device (.finalizeTag frame plaintextLen roundKeys root) 1
    1).run_single schedule memory rfl, Kernel.body, finalizeTagKernel,
    if_neg (by simp), CellProgram.Program.exec_bind, exec_expectedTag,
    value_expectedTag]
  exact exec_storeRow _ (fun i : Fin 16 => i.val) (by omega)
    (fun i j same => Fin.ext same) (fun i => _) memory i

/-- The running difference is zero exactly when all bytes agree. -/
theorem foldl_difference (n : Nat) (expected tag : Fin n → Byte)
    (start : BitVec 32) :
    (List.finRange n).foldl (fun diff i =>
        diff ||| (expected i ^^^ tag i).setWidth 32) start = 0#32 ↔
      start = 0#32 ∧ ∀ i, expected i = tag i := by
  have general : ∀ (indices : List (Fin n)) (start : BitVec 32),
      indices.foldl (fun diff i =>
        diff ||| (expected i ^^^ tag i).setWidth 32) start = 0#32 ↔
      start = 0#32 ∧ ∀ i ∈ indices, expected i = tag i := by
    intro indices
    induction indices with
    | nil => simp
    | cons i rest ih =>
        intro start
        have zero : (expected i ^^^ tag i).setWidth 32 = 0#32 ↔
            expected i = tag i := by
          rw [← BitVec.xor_eq_zero_iff]
          constructor
          · intro wide
            have narrow := congrArg (BitVec.setWidth 8) wide
            simpa using narrow
          · intro narrow
            rw [narrow, BitVec.xor_self]
            rfl
        rw [List.foldl_cons, ih, BitVec.or_eq_zero_iff, zero]
        simp [and_assoc]
  simpa using general (List.finRange n) start

/-- The tag check stores one for a frame of this version with the expected
tag, and zero for any other. -/
theorem verifyTag_run (schedule : Schedule) (device : Int) (frame : Ptr)
    (plaintextLen : Nat) (roundKeys root authOk : Ptr) (memory : Memory) :
    (Launch.mk device (.verifyTag frame plaintextLen roundKeys root authOk) 1
        1).run schedule memory (.flag authOk) =
      if memory (.byte (advance frame 0)) = VERSION ∧
          expectedBytes memory device frame roundKeys root =
            bytesAt memory (tagAddress frame plaintextLen) 16
        then 1 else 0 := by
  rw [(Launch.mk device (.verifyTag frame plaintextLen roundKeys root authOk) 1
    1).run_single schedule memory rfl, Kernel.body]
  have equal : (List.finRange 16).foldl (fun diff i => diff |||
      ((expectedBytes memory device frame roundKeys root).get i ^^^
        (bytesAt memory (tagAddress frame plaintextLen) 16).get i).setWidth 32)
          0#32 = 0#32 ↔
      expectedBytes memory device frame roundKeys root =
        bytesAt memory (tagAddress frame plaintextLen) 16 := by
    rw [foldl_difference 16
      (fun i => (expectedBytes memory device frame roundKeys root).get i)
      (fun i => (bytesAt memory (tagAddress frame plaintextLen) 16).get i)]
    constructor
    · rintro ⟨-, same⟩
      ext1 i inside
      exact same ⟨i, inside⟩
    · intro same
      exact ⟨rfl, fun i => by rw [same]⟩
  rw [verifyTagKernel, if_neg (by simp)]
  simp only [CellProgram.Program.exec_bind, exec_expectedTag, value_expectedTag,
    value_readBytes, exec_readBytes, CellProgram.Program.value_load,
    CellProgram.Program.exec_load, CellProgram.Program.exec_store,
    CellProgram.Store.update_self]
  exact if_congr (and_congr_right fun _ => equal) rfl rfl

end GpuKvSeal.Refinement
