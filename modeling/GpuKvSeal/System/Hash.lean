import GpuKvSeal.System.Footprints

/-!
# The launches of a hash leave the hash at the root

The reduction is followed launch by launch.  Before each combine launch the
input buffer holds a level whose runs cover the terms with `count` nodes; the
loop ends with one node, which covers all terms.
-/

namespace GpuKvSeal.System

open BigEndian (Byte)
open HornerHash (horner)
open Device
open Host
open Refinement
open Standard (Gcm.Element)

/-! ## Launches in order -/

@[simp]
theorem runAll_nil (schedule : Schedule) (memory : Memory) :
    runAll schedule [] memory = memory := rfl

@[simp]
theorem runAll_cons (schedule : Schedule) (l : Launch) (rest : List Launch)
    (memory : Memory) :
    runAll schedule (l :: rest) memory =
      runAll schedule rest (l.run schedule memory) := rfl

theorem runAll_append (schedule : Schedule) (first second : List Launch)
    (memory : Memory) :
    runAll schedule (first ++ second) memory =
      runAll schedule second (runAll schedule first memory) :=
  List.foldl_append ..

/-- Launches leave every cell outside their footprints as it was. -/
theorem runAll_frame (schedule : Schedule) {launches : List Launch} {cell : Cell}
    (outside : ∀ l ∈ launches, cell ∉ l.writes) (memory : Memory) :
    runAll schedule launches memory cell = memory cell := by
  induction launches generalizing memory with
  | nil => rfl
  | cons l rest ih =>
      rw [runAll_cons, ih fun l' member => outside l' (List.mem_cons_of_mem _ member)]
      exact l.run_frame schedule memory (outside l (List.mem_cons_self ..))

/-- The events of one stream take effect launch by launch. -/
theorem drain_launchEvents (schedule : Schedule) (stream : Ptr)
    (launches : List Launch) (memory : Memory) :
    drain schedule (launchEvents stream launches) memory =
      runAll schedule launches memory := by
  induction launches generalizing memory with
  | nil => rfl
  | cons l rest ih => exact ih (l.run schedule memory)

/-- Allocations and releases move no data. -/
theorem drain_bookkeeping (schedule : Schedule) {events : List Event}
    (bookkeeping : Bookkeeping events) (memory : Memory) :
    drain schedule events memory = memory := by
  induction events generalizing memory with
  | nil => rfl
  | cons event rest ih =>
      have rest' : Bookkeeping rest := fun other member =>
        bookkeeping other (List.mem_cons_of_mem _ member)
      rw [drain_cons]
      rcases bookkeeping event (List.mem_cons_self ..) with ⟨p, rfl⟩ | ⟨p, rfl⟩
      · exact ih rest' memory
      · exact ih rest' memory

/-! ## Grids -/

theorem castInt_small {n : Nat} (small : n < 2 ^ 31) : castInt n = n := by
  have upper : (n : Int) < ((2 ^ 32 : Nat) + 1) / 2 := by
    norm_num
    omega
  exact Int.bmod_eq_of_le (by omega) upper

/-- A grid that was not truncated covers the threads it is meant for. -/
theorem castInt_covers {count threads : Nat} (positive : 0 < threads)
    (small : (count + threads - 1) / threads < 2 ^ 31) :
    count ≤ (castInt ((count + threads - 1) / threads)).toNat * threads := by
  rw [castInt_small small, Int.toNat_natCast, Nat.mul_comm]
  have split := Nat.div_add_mod (count + threads - 1) threads
  have rest := Nat.mod_lt (count + threads - 1) positive
  omega

theorem castInt_valid {count threads : Nat} (some : 0 < count)
    (positive : 0 < threads)
    (small : (count + threads - 1) / threads < 2 ^ 31) :
    1 ≤ castInt ((count + threads - 1) / threads) := by
  rw [castInt_small small]
  have one : 1 ≤ (count + threads - 1) / threads :=
    (Nat.le_div_iff_mul_le positive).mpr (by omega)
  omega

/-! ## The reduction -/

/-- The combine launches take a level of `count` nodes to a level with one
node, in the buffer of the root. -/
theorem reduceLaunches_level (schedule : Schedule) (device : Int) (hPow2 : Ptr)
    {h : Gcm.Element} {terms : List Gcm.Element}
    (short : terms.length < 2 ^ 64) (count : Nat) :
    ∀ (a b : Ptr) (size : Nat) (memory : Memory), a ≠ b → count ≤ 2 ^ 38 →
      PowerTable memory hPow2 h → Level memory a h terms size →
      (∀ i, i < count ↔ i * size < terms.length) →
      ∃ size', terms.length ≤ size' ∧
        Level (runAll schedule (reduceLaunches device hPow2 a b count) memory)
          (reduceRoot a b count) h terms size' := by
  induction count using Nat.strongRecOn with
  | ind count ih =>
      intro a b size memory distinct small table level counts
      rw [reduceLaunches, reduceRoot]
      by_cases more : count > 1
      · rw [if_pos more, if_pos more, runAll_cons]
        let l := Launch.mk device (.ghashCombine a b count hPow2)
          (castInt (((count + 1) / 2 + 128 - 1) / 128)) 128
        have next : Level (l.run schedule memory) b h terms (2 * size) :=
          ghashCombine_level schedule device count hPow2 _ memory table level
            distinct counts short (castInt_covers (by decide) (by omega))
        have table' : PowerTable (l.run schedule memory) hPow2 h := by
          refine table.congr fun i _ => l.run_frame schedule memory fun write => ?_
          obtain ⟨j, -, same⟩ := combine_writes _ _ _ _ _ _ _ write
          cases same
        refine ih ((count + 1) / 2) (by omega) b a (2 * size) _ distinct.symm
          (by omega) table' next fun i => ?_
        rw [← Nat.mul_assoc, ← counts]
        omega
      · rw [if_neg more, if_neg more, runAll_nil]
        refine ⟨size, Nat.le_of_not_lt fun longer => more ?_, level⟩
        exact (counts 1).mpr (by omega)

/-- The hash pipeline leaves one node that covers all terms, at its root. -/
theorem ghashLaunches_level (schedule : Schedule) (device : Int)
    (handle : KeyHandle) (ciphertext : Ptr) {len : Nat}
    (short : len ≤ 2 ^ 43) (memory : Memory) {h : Gcm.Element}
    (table : PowerTable memory handle.dHPow2 h)
    (distinct : handle.dNodesA ≠ handle.dNodesB) :
    ∃ size, (hashTerms memory ciphertext len).length ≤ size ∧
      Level (runAll schedule (ghashLaunches device handle ciphertext len) memory)
        (ghashRoot handle len) h (hashTerms memory ciphertext len) size := by
  have blocks : blockCount len = (len + 15) / 16 := blockCount_eq (by omega)
  have nodes : requiredNodes len = (blockCount len + 1 + 64 - 1) / 64 := rfl
  rw [ghashLaunches, runAll_cons, ghashRoot]
  let l := Launch.mk device
    (.ghashSegment ciphertext len handle.dHPow2 handle.dNodesA)
    (castInt ((requiredNodes len + 128 - 1) / 128)) 128
  have level : Level (l.run schedule memory) handle.dNodesA h
      (hashTerms memory ciphertext len) 64 :=
    ghashSegment_level schedule device ciphertext len handle.dHPow2 _ _ memory
      table (castInt_covers (by decide) (by omega))
  have table' : PowerTable (l.run schedule memory) handle.dHPow2 h := by
    refine table.congr fun i _ => l.run_frame schedule memory ?_
    rintro ⟨j, -, -, same⟩
    cases same
  refine reduceLaunches_level schedule device handle.dHPow2 ?_ _ _ _ 64 _
    distinct (by omega) table' level fun i => ?_
  · rw [length_hashTerms]
    omega
  · rw [length_hashTerms, nodes]
    omega

/-- What the hash pipeline leaves at its root. -/
theorem ghashLaunches_root (schedule : Schedule) (device : Int) (handle : KeyHandle)
    (ciphertext : Ptr) {len : Nat} (short : len ≤ 2 ^ 43)
    (memory : Memory) {h : Gcm.Element}
    (table : PowerTable memory handle.dHPow2 h)
    (distinct : handle.dNodesA ≠ handle.dNodesB) :
    value ((runAll schedule (ghashLaunches device handle ciphertext len) memory)
        (.node (ghashRoot handle len) 0)).y =
      horner h (hashTerms memory ciphertext len) := by
  obtain ⟨size, covers, level⟩ := ghashLaunches_level schedule device handle
    ciphertext short memory table distinct
  refine level.root ?_ covers
  rw [length_hashTerms]
  omega

end GpuKvSeal.System
