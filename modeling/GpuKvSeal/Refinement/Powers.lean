import GpuKvSeal.Refinement.TagKernels

/-!
# Powers of the hash key

The table of a key holds the powers with exponents a power of two.  The loop
multiplies together the entries for the set bits of an exponent; the ring laws
turn this into the repeated product, and into the law of exponents.
-/

namespace GpuKvSeal.Refinement

open BigEndian (Byte)
open CellProgram (Program)
open Device
open Standard (Gcm.Element)

/-- The repeated product of a block. -/
def gfPower (h : Block128) : Nat → Block128
  | 0 => gfOne
  | n + 1 => gfMul (gfPower h n) h

theorem value_gfPower (h : Block128) (n : Nat) : value (gfPower h n) = value h ^ n := by
  induction n with
  | zero => rw [gfPower, value_gfOne, pow_zero]
  | succ n ih => rw [gfPower, value_gfMul, ih, pow_succ]

/-- The law of exponents. -/
theorem gfPower_add (h : Block128) (m n : Nat) :
    gfPower h (m + n) = gfMul (gfPower h m) (gfPower h n) := by
  apply value_injective
  rw [value_gfMul, value_gfPower, value_gfPower, value_gfPower, pow_add]

/-! ## The loop with a limit -/

/-- The loop after at most so many rounds: its result, or nothing while bits of
the exponent are left. -/
def gfPowRounds (hPow2 : Ptr) :
    Nat → BitVec 64 → Nat → Block128 → DeviceProgram (Option Block128)
  | 0, exponent, _, result =>
      if exponent ≠ 0#64 then pure none else pure (some result)
  | rounds + 1, exponent, bit, result =>
      if exponent ≠ 0#64 then
        if exponent &&& 1#64 ≠ 0#64 then do
          let power ← loadHPow2 hPow2 bit
          gfPowRounds hPow2 rounds (exponent >>> 1) (bit + 1) (gfMul result power)
        else gfPowRounds hPow2 rounds (exponent >>> 1) (bit + 1) result
      else pure (some result)

/-- As many rounds as the exponent has bits are enough. -/
theorem gfPowRounds_eq (hPow2 : Ptr) (rounds : Nat) (exponent : BitVec 64) (bit : Nat)
    (result : Block128) (enough : exponent.toNat < 2 ^ rounds) :
    gfPowRounds hPow2 rounds exponent bit result =
      some <$> gfPowLoop hPow2 exponent bit result := by
  induction rounds generalizing exponent bit result with
  | zero =>
      have none : exponent = 0#64 := by
        refine BitVec.eq_of_toNat_eq ?_
        rw [pow_zero] at enough
        exact Nat.lt_one_iff.mp enough
      have stopped : ¬ exponent ≠ 0#64 := not_not.mpr none
      rw [gfPowRounds, gfPowLoop, if_neg stopped, if_neg stopped, map_pure]
  | succ rounds ih =>
      have half : (exponent >>> 1).toNat < 2 ^ rounds := by
        rw [BitVec.toNat_ushiftRight, Nat.shiftRight_eq_div_pow]
        rw [Nat.pow_succ] at enough
        omega
      rw [gfPowRounds, gfPowLoop]
      by_cases more : exponent ≠ 0#64
      · rw [if_pos more, if_pos more]
        by_cases odd : exponent &&& 1#64 ≠ 0#64
        · rw [if_pos odd, if_pos odd, map_bind]
          refine congrArg _ (funext fun power => ?_)
          exact ih _ _ _ half
        · rw [if_neg odd, if_neg odd]
          exact ih _ _ _ half
      · rw [if_neg more, if_neg more, map_pure]

/-! ## Exponentiation -/

theorem gfPowFromTable_eq {memory : Memory} {hPow2 : Ptr} {h : Block128}
    (table : PowerTable memory hPow2 (value h)) (exponent : BitVec 64) :
    (gfPowFromTable hPow2 exponent).value memory = gfPower h exponent.toNat := by
  apply value_injective
  rw [value_gfPowFromTable table, value_gfPower]

/-- The loop reads table entries and nothing else. -/
theorem gfPowFromTable_reads (hPow2 : Ptr) (exponent : BitVec 64) (memory : Memory) :
    ∀ cell ∈ (gfPowFromTable hPow2 exponent).reads memory,
      ∃ i < 64, cell = .hPow2 hPow2 i := by
  intro cell member
  have within : (gfPowFromTable hPow2 exponent).Within (powerTable hPow2) ∅ :=
    gfPowFromTable_within (Set.Subset.refl _) exponent
  exact within.reads_mem memory member

/-- From the table the key kernel builds, the loop computes the repeated product
of the hash key for every exponent, in at most 64 rounds and without leaving the
table; so exponents add up. -/
theorem gfPowFromTable_power (schedule : Schedule) (device : Int)
    (roundKeys hPow2 : Ptr) (memory : Memory) :
    let built := (Launch.mk device (.initHashKey roundKeys hPow2) 1 1).run schedule
      memory
    let power := fun exponent : BitVec 64 =>
      (gfPowFromTable hPow2 exponent).value built
    (∀ exponent, power exponent =
      gfPower (deviceHashKey device roundKeys memory) exponent.toNat) ∧
    (∀ exponent memory', ∀ cell ∈ (gfPowFromTable hPow2 exponent).reads memory',
      ∃ i < 64, cell = .hPow2 hPow2 i) ∧
    (∀ exponent, gfPowRounds hPow2 64 exponent 0 gfOne =
      some <$> gfPowFromTable hPow2 exponent) ∧
    ∀ a b : BitVec 64, a.toNat + b.toNat < 2 ^ 64 →
      power (a + b) = gfMul (power a) (power b) := by
  intro built power
  have table := initHashKey_table schedule device roundKeys hPow2 memory
  have powers : ∀ exponent, power exponent =
      gfPower (deviceHashKey device roundKeys memory) exponent.toNat :=
    gfPowFromTable_eq table
  refine ⟨powers, gfPowFromTable_reads hPow2, fun exponent => ?_, fun a b room => ?_⟩
  · exact gfPowRounds_eq hPow2 64 exponent 0 gfOne exponent.isLt
  · have sum : (a + b).toNat = a.toNat + b.toNat := by
      rw [BitVec.toNat_add, Nat.mod_eq_of_lt room]
    rw [powers, powers, powers, sum, gfPower_add]

end GpuKvSeal.Refinement
