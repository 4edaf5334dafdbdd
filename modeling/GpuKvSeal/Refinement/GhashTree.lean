import GpuKvSeal.Device.Races
import GpuKvSeal.Refinement.GhashField

/-!
# The reduction tree computes the sequential hash

A level of the tree holds, at each index, the hash of one run of terms and the
length of that run.  The segment kernel makes the first level; a combine launch
turns a level into the next one, whose runs are twice as long.
-/

namespace GpuKvSeal.Refinement

open BigEndian (Byte)
open HornerHash (horner chunk)
open Device
open Standard (Gcm.Element)

/-! ## Powers from the table -/

/-- The first 64 entries are the powers `h ^ (2 ^ i)`. -/
def PowerTable (memory : Memory) (hPow2 : Ptr) (h : Gcm.Element) : Prop :=
  ∀ i < 64, value (memory (.hPow2 hPow2 i)) = h ^ 2 ^ i

theorem PowerTable.congr {first second : Memory} {hPow2 : Ptr}
    {h : Gcm.Element} (table : PowerTable first hPow2 h)
    (same : ∀ i < 64, second (.hPow2 hPow2 i) = first (.hPow2 hPow2 i)) :
    PowerTable second hPow2 h := by
  intro i inside
  rw [same i inside]
  exact table i inside

theorem PowerTable.first {memory : Memory} {hPow2 : Ptr} {h : Gcm.Element}
    (table : PowerTable memory hPow2 h) :
    value (memory (.hPow2 hPow2 0)) = h := by
  rw [table 0 (by decide), pow_zero, pow_one]

theorem exec_gfPowLoop (hPow2 : Ptr) (exponent : BitVec 64) (bit : Nat)
    (result : Block128) (memory : Memory) :
    (gfPowLoop hPow2 exponent bit result).exec memory = memory := by
  induction exponent, bit, result using gfPowLoop.induct with
  | case1 exponent bit result nonzero odd ih =>
      rw [gfPowLoop, if_pos nonzero, if_pos odd]
      simpa using ih _
  | case2 exponent bit result nonzero even ih =>
      rw [gfPowLoop, if_pos nonzero, if_neg even]
      exact ih
  | case3 exponent bit result zero =>
      rw [gfPowLoop, if_neg zero]
      rfl

/-- The loop multiplies the result by the power of the exponent that is left,
scaled to the position it has reached. -/
theorem value_gfPowLoop {memory : Memory} {hPow2 : Ptr} {h : Gcm.Element}
    (table : PowerTable memory hPow2 h) (exponent : BitVec 64) (bit : Nat)
    (result : Block128) (room : exponent.toNat < 2 ^ (64 - bit)) :
    value ((gfPowLoop hPow2 exponent bit result).value memory) =
      value result * h ^ (2 ^ bit * exponent.toNat) := by
  have halve : ∀ e : BitVec 64, (e >>> 1).toNat = e.toNat / 2 := by
    intro e
    rw [BitVec.toNat_ushiftRight, Nat.shiftRight_eq_div_pow, Nat.pow_one]
  have parity : ∀ e : BitVec 64, (e &&& 1#64).toNat = e.toNat % 2 := by
    intro e
    rw [BitVec.toNat_and]
    exact Nat.and_one_is_mod _
  induction exponent, bit, result using gfPowLoop.induct with
  | case1 exponent bit result nonzero odd ih =>
      obtain ⟨inside, half⟩ := exponent_room nonzero room
      have one : exponent.toNat % 2 = 1 := by
        have some : (exponent &&& 1#64).toNat ≠ 0 := fun zero =>
          odd (BitVec.eq_of_toNat_eq zero)
        rw [parity] at some
        omega
      have split : exponent.toNat = 2 * (exponent.toNat / 2) + 1 := by omega
      rw [gfPowLoop, if_pos nonzero, if_pos odd, CellProgram.Program.value_bind,
        CellProgram.Program.exec_load, CellProgram.Program.value_load,
        ih _ half, halve, value_gfMul, table bit inside, mul_assoc, ← pow_add]
      congr 2
      conv_rhs => rw [split]
      ring
  | case2 exponent bit result nonzero even ih =>
      have zero : exponent.toNat % 2 = 0 := by
        rw [← parity, Decidable.not_not.mp even]
        rfl
      have split : exponent.toNat = 2 * (exponent.toNat / 2) := by omega
      rw [gfPowLoop, if_pos nonzero, if_neg even,
        ih (exponent_room nonzero room).2, halve]
      congr 2
      conv_rhs => rw [split]
      ring
  | case3 exponent bit result zero =>
      rw [gfPowLoop, if_neg zero, Decidable.not_not.mp zero]
      simp

theorem value_gfPowFromTable {memory : Memory} {hPow2 : Ptr} {h : Gcm.Element}
    (table : PowerTable memory hPow2 h) (exponent : BitVec 64) :
    value ((gfPowFromTable hPow2 exponent).value memory) =
      h ^ exponent.toNat := by
  rw [gfPowFromTable, value_gfPowLoop table exponent 0 gfOne exponent.isLt]
  simp

/-! ## Terms -/

/-- Term `i` of the hash of a ciphertext in memory. -/
def termAt (memory : Memory) (ciphertext : Ptr) (ciphertextLen i : Nat) :
    Block128 :=
  (loadCiphertextTerm ciphertext ciphertextLen i
    (blockCount ciphertextLen)).value memory

/-- All terms: the ciphertext blocks and the length block. -/
noncomputable def hashTerms (memory : Memory) (ciphertext : Ptr)
    (ciphertextLen : Nat) : List Gcm.Element :=
  (List.range (blockCount ciphertextLen + 1)).map fun i =>
    value (termAt memory ciphertext ciphertextLen i)

@[simp]
theorem length_hashTerms (memory : Memory) (ciphertext : Ptr)
    (ciphertextLen : Nat) :
    (hashTerms memory ciphertext ciphertextLen).length =
      blockCount ciphertextLen + 1 := by
  simp [hashTerms]

theorem exec_loadCiphertextTerm (ciphertext : Ptr) (ciphertextLen i
    cipherBlocks : Nat) (memory : Memory) :
    (loadCiphertextTerm ciphertext ciphertextLen i cipherBlocks).exec memory =
      memory := by
  unfold loadCiphertextTerm
  split
  · rfl
  · simp only [CellProgram.Program.exec_bind, CellProgram.Program.exec_pure]
    refine CellProgram.Program.exec_collect memory fun j => ?_
    split <;> rfl

theorem exec_ghashLoop (ciphertext : Ptr) (ciphertextLen cipherBlocks : Nat)
    (h : Block128) (remaining i : Nat) (y : Block128) (memory : Memory) :
    (ghashLoop ciphertext ciphertextLen cipherBlocks h remaining i y).exec
      memory = memory := by
  induction remaining generalizing i y with
  | zero => rfl
  | succ remaining ih =>
      rw [ghashLoop, CellProgram.Program.exec_bind, exec_loadCiphertextTerm, ih]

/-- The loop absorbs consecutive terms. -/
theorem value_ghashLoop (ciphertext : Ptr) (ciphertextLen : Nat) (h : Block128)
    (remaining i : Nat) (y : Block128) (memory : Memory) :
    value ((ghashLoop ciphertext ciphertextLen (blockCount ciphertextLen) h
        remaining i y).value memory) =
      ((List.range' i remaining).map fun i =>
        value (termAt memory ciphertext ciphertextLen i)).foldl
          (fun y x => (y + x) * value h) (value y) := by
  induction remaining generalizing i y with
  | zero => simp [ghashLoop]
  | succ remaining ih =>
      rw [ghashLoop, CellProgram.Program.value_bind, exec_loadCiphertextTerm, ih,
        value_gfMul, value_bxor, List.range'_succ, List.map_cons,
        List.foldl_cons, termAt]

theorem chunk_hashTerms (memory : Memory) (ciphertext : Ptr)
    (ciphertextLen size i : Nat) :
    chunk size i (hashTerms memory ciphertext ciphertextLen) =
      (List.range' (i * size)
        (min size (blockCount ciphertextLen + 1 - i * size))).map fun i =>
          value (termAt memory ciphertext ciphertextLen i) := by
  rw [chunk, hashTerms, ← List.map_drop, ← List.map_take, List.range_eq_range',
    List.drop_range', Nat.mul_one, Nat.zero_add]
  rcases Nat.le_total size (blockCount ciphertextLen + 1 - i * size) with
    whole | last
  · rw [List.take_range'_of_length_ge whole, Nat.min_eq_left whole]
  · rw [List.take_range'_of_length_le last, Nat.min_eq_right last]

/-! ## Levels -/

/-- The nodes of a level over runs of `size` terms. -/
structure Level (memory : Memory) (nodes : Ptr) (h : Gcm.Element)
    (terms : List Gcm.Element) (size : Nat) : Prop where
  hash : ∀ i, i * size < terms.length →
    value (memory (.node nodes i)).y = horner h (chunk size i terms)
  length : ∀ i, i * size < terms.length →
    (memory (.node nodes i)).lenBlocks =
      BitVec.ofNat 64 (chunk size i terms).length

/-- Once one run covers all terms, the first node is the hash. -/
theorem Level.root {memory : Memory} {nodes : Ptr} {h : Gcm.Element}
    {terms : List Gcm.Element} {size : Nat}
    (level : Level memory nodes h terms size) (some : 0 < terms.length)
    (covers : terms.length ≤ size) :
    value (memory (.node nodes 0)).y = horner h terms := by
  rw [level.hash 0 (by omega), HornerHash.chunk_whole covers]

/-- The segment kernel makes the first level. -/
theorem ghashSegment_level (schedule : Schedule) (device : Int)
    (ciphertext : Ptr) (ciphertextLen : Nat) (hPow2 nodes : Ptr) (grid : Int)
    (memory : Memory) {h : Gcm.Element} (table : PowerTable memory hPow2 h)
    (covers : (blockCount ciphertextLen + 1 + 63) / 64 ≤ grid.toNat * 128) :
    Level ((Launch.mk device
        (.ghashSegment ciphertext ciphertextLen hPow2 nodes) grid 128).run
          schedule memory)
      nodes h (hashTerms memory ciphertext ciphertextLen) 64 := by
  let l := Launch.mk device
    (.ghashSegment ciphertext ciphertextLen hPow2 nodes) grid 128
  have independent : l.ThreadsApart :=
    ghashSegment_apart device ciphertext ciphertextLen hPow2 nodes grid 128
  have node : ∀ i, i * 64 < blockCount ciphertextLen + 1 →
      l.run schedule memory (.node nodes i) =
        ⟨(ghashLoop ciphertext ciphertextLen (blockCount ciphertextLen)
            (memory (.hPow2 hPow2 0))
            (min (i * 64 + 64) (blockCount ciphertextLen + 1) - i * 64) (i * 64)
            ⟨0#64, 0#64⟩).value memory,
          BitVec.ofNat 64
            (min (i * 64 + 64) (blockCount ciphertextLen + 1) - i * 64)⟩ := by
    intro i inside
    have thread : i < l.threadCount := by
      show i < grid.toNat * 128
      omega
    have owned : Cell.node nodes i ∈ l.kernel.threadWrites (l.thread i) := by
      refine ⟨?_, ?_⟩ <;> rw [l.thread_index]
      exact inside
    rw [l.run_owned schedule memory independent thread owned]
    show (ghashSegmentKernel ciphertext ciphertextLen hPow2 nodes
      (l.thread i)).exec memory (.node nodes i) = _
    have notBeyond : ¬ i * 64 ≥ blockCount ciphertextLen + 1 := by omega
    rw [ghashSegmentKernel, l.thread_index, if_neg notBeyond]
    simp [exec_ghashLoop]
  constructor
  · intro i inside
    rw [length_hashTerms] at inside
    have count : min (i * 64 + 64) (blockCount ciphertextLen + 1) - i * 64 =
        min 64 (blockCount ciphertextLen + 1 - i * 64) := by omega
    rw [node i inside, count, value_ghashLoop, table.first, chunk_hashTerms,
      value_zero]
    rfl
  · intro i inside
    rw [length_hashTerms] at inside
    have count : min (i * 64 + 64) (blockCount ciphertextLen + 1) - i * 64 =
        min 64 (blockCount ciphertextLen + 1 - i * 64) := by omega
    rw [node i inside, count, chunk_hashTerms, List.length_map,
      List.length_range']

/-- A combine launch doubles the runs of a level. -/
theorem ghashCombine_level (schedule : Schedule) (device : Int)
    {input output : Ptr} (count : Nat) (hPow2 : Ptr) (grid : Int)
    (memory : Memory) {h : Gcm.Element} {terms : List Gcm.Element} {size : Nat}
    (table : PowerTable memory hPow2 h)
    (level : Level memory input h terms size) (distinct : input ≠ output)
    (counts : ∀ i, i < count ↔ i * size < terms.length)
    (short : terms.length < 2 ^ 64)
    (covers : (count + 1) / 2 ≤ grid.toNat * 128) :
    Level ((Launch.mk device (.ghashCombine input output count hPow2) grid
        128).run schedule memory)
      output h terms (2 * size) := by
  let l := Launch.mk device (.ghashCombine input output count hPow2) grid 128
  have independent : l.ThreadsApart :=
    ghashCombine_apart device count hPow2 grid 128 distinct
  have node : ∀ i, i * 2 < count →
      l.run schedule memory (.node output i) =
        if i * 2 + 1 ≥ count then memory (.node input (i * 2))
        else
          ⟨bxor (gfMul (memory (.node input (i * 2))).y
              ((gfPowFromTable hPow2
                (memory (.node input (i * 2 + 1))).lenBlocks).value memory))
              (memory (.node input (i * 2 + 1))).y,
            (memory (.node input (i * 2))).lenBlocks +
              (memory (.node input (i * 2 + 1))).lenBlocks⟩ := by
    intro i inside
    have thread : i < l.threadCount := by
      show i < grid.toNat * 128
      omega
    have owned : Cell.node output i ∈ l.kernel.threadWrites (l.thread i) := by
      refine ⟨?_, ?_⟩ <;> rw [l.thread_index]
      exact inside
    rw [l.run_owned schedule memory independent thread owned]
    show (ghashCombineKernel input output count hPow2
      (l.thread i)).exec memory (.node output i) = _
    have notBeyond : ¬ i * 2 ≥ count := by omega
    rw [ghashCombineKernel, l.thread_index, if_neg notBeyond]
    split
    · simp
    · simp [gfPowFromTable, exec_gfPowLoop]
  have inner : ∀ i, i * (2 * size) < terms.length ↔ i * 2 < count := by
    intro i
    rw [counts, ← Nat.mul_assoc]
  have pair : ∀ i, chunk (2 * size) i terms =
      chunk size (i * 2) terms ++ chunk size (i * 2 + 1) terms := by
    intro i
    rw [HornerHash.chunk_double, Nat.mul_comm 2 i]
  have single : ∀ i, i * 2 + 1 ≥ count →
      chunk size (i * 2 + 1) terms = [] := by
    intro i last
    refine HornerHash.chunk_beyond (Nat.le_of_not_lt fun more => ?_)
    have := (counts (i * 2 + 1)).mpr more
    omega
  constructor
  · intro i inside
    have left := (inner i).mp inside
    rw [node i left, pair]
    by_cases last : i * 2 + 1 ≥ count
    · rw [if_pos last, single i last, List.append_nil,
        level.hash _ ((counts _).mp left)]
    · have right : i * 2 + 1 < count := by omega
      have bound : (chunk size (i * 2 + 1) terms).length < 2 ^ 64 := by
        rw [HornerHash.length_chunk]
        omega
      rw [if_neg last, HornerHash.horner_append]
      simp only [value_bxor, value_gfMul]
      rw [value_gfPowFromTable table, level.hash _ ((counts _).mp left),
        level.hash _ ((counts _).mp right), level.length _ ((counts _).mp right),
        BitVec.toNat_ofNat, Nat.mod_eq_of_lt bound]
  · intro i inside
    have left := (inner i).mp inside
    rw [node i left, pair]
    by_cases last : i * 2 + 1 ≥ count
    · rw [if_pos last, single i last, List.append_nil,
        level.length _ ((counts _).mp left)]
    · have right : i * 2 + 1 < count := by omega
      rw [if_neg last, List.length_append, BitVec.ofNat_add,
        level.length _ ((counts _).mp left), level.length _ ((counts _).mp right)]

end GpuKvSeal.Refinement
