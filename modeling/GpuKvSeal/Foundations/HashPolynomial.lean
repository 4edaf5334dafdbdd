import GpuKvSeal.Foundations.HornerHash

/-!
# A Horner hash as a polynomial in its key

The terms are the coefficients.  Hashes of lists of one length differ by the hash of
the differences, which is zero at few keys: a polynomial over an integral domain has
no more roots than its degree.
-/

namespace GpuKvSeal.HornerHash

open Polynomial

section Hash

variable {R : Type*} [CommRing R]

/-- The hash of the sums is the sum of the hashes. -/
theorem horner_zipWith_add (h : R) {first second : List R}
    (same : first.length = second.length) :
    horner h (List.zipWith (· + ·) first second) = horner h first + horner h second := by
  induction first generalizing second with
  | nil =>
      rw [List.length_eq_zero_iff.mp same.symm]
      simp [horner]
  | cons x xs ih =>
      cases second with
      | nil => cases same
      | cons y ys =>
          have lengths : xs.length = ys.length := Nat.succ.inj same
          have split : ∀ (a : R) (rest : List R),
              horner h (a :: rest) = a * h * h ^ rest.length + horner h rest := by
            intro a rest
            have single : horner h [a] = a * h := by simp [horner]
            rw [← List.singleton_append, horner_append, single]
          rw [List.zipWith_cons_cons, split, split, split, ih lengths,
            List.length_zipWith, lengths, Nat.min_self]
          ring

/-- The polynomial whose value at a key is the hash. -/
noncomputable def hashPolynomial (terms : List R) : R[X] := horner X (terms.map C)

@[simp]
theorem hashPolynomial_nil : hashPolynomial ([] : List R) = 0 := rfl

@[simp]
theorem hashPolynomial_concat (terms : List R) (x : R) :
    hashPolynomial (terms ++ [x]) = (hashPolynomial terms + C x) * X := by
  rw [hashPolynomial, List.map_append, horner, List.foldl_append]
  rfl

theorem eval_hashPolynomial (h : R) (terms : List R) :
    (hashPolynomial terms).eval h = horner h terms := by
  induction terms using List.reverseRecOn with
  | nil => simp [horner]
  | append_singleton terms x ih =>
      rw [hashPolynomial_concat, eval_mul, eval_add, eval_C, eval_X, ih, horner_append]
      simp [horner, add_mul]

theorem natDegree_hashPolynomial (terms : List R) :
    (hashPolynomial terms).natDegree ≤ terms.length := by
  induction terms using List.reverseRecOn with
  | nil => simp
  | append_singleton terms x ih =>
      rw [hashPolynomial_concat, List.length_append, List.length_singleton]
      refine natDegree_mul_le.trans (Nat.add_le_add ?_ natDegree_X_le)
      exact (natDegree_add_le _ _).trans (max_le ih (by simp))

@[simp]
theorem coeff_zero_hashPolynomial (terms : List R) :
    (hashPolynomial terms).coeff 0 = 0 := by
  cases terms using List.reverseRecOn with
  | nil => simp
  | append_singleton terms x => simp

theorem hashPolynomial_eq_zero {terms : List R} :
    hashPolynomial terms = 0 ↔ ∀ x ∈ terms, x = 0 := by
  induction terms using List.reverseRecOn with
  | nil => simp
  | append_singleton terms x ih =>
      rw [hashPolynomial_concat, List.forall_mem_append, List.forall_mem_singleton, ← ih]
      constructor
      · intro zero
        have sum : hashPolynomial terms + C x = 0 := by
          ext k
          have next := congrArg (fun p : R[X] => p.coeff (k + 1)) zero
          simpa [coeff_mul_X] using next
        have last : x = 0 := by
          have constant := congrArg (fun p : R[X] => p.coeff 0) sum
          simpa using constant
        rw [last, C_0, add_zero] at sum
        exact ⟨sum, last⟩
      · rintro ⟨zero, rfl⟩
        rw [zero, C_0, add_zero, zero_mul]

/-- A hash shifted by a constant vanishes identically only if all of it does. -/
theorem hashPolynomial_add_C_eq_zero {terms : List R} {e : R} :
    hashPolynomial terms + C e = 0 ↔ (∀ x ∈ terms, x = 0) ∧ e = 0 := by
  constructor
  · intro zero
    have constant : e = 0 := by
      have first := congrArg (fun p : R[X] => p.coeff 0) zero
      simpa using first
    rw [constant, C_0, add_zero] at zero
    exact ⟨hashPolynomial_eq_zero.mp zero, constant⟩
  · rintro ⟨zero, rfl⟩
    rw [hashPolynomial_eq_zero.mpr zero, C_0, add_zero]

theorem natDegree_hashPolynomial_add_C (terms : List R) (e : R) :
    (hashPolynomial terms + C e).natDegree ≤ terms.length :=
  (natDegree_add_le _ _).trans
    (max_le (natDegree_hashPolynomial terms) (by simp))

end Hash

/-- A nonzero polynomial vanishes at few elements of any type that embeds into an
integral domain. -/
theorem ncard_zeros_le {R ι : Type*} [CommRing R] [IsDomain R] {p : R[X]} (nonzero : p ≠ 0)
    {f : ι → R} (injective : Function.Injective f) :
    Set.ncard {i | p.eval (f i) = 0} ≤ p.natDegree := by
  classical
  have inside : f '' {i | p.eval (f i) = 0} ⊆ (p.roots.toFinset : Set R) := by
    rintro _ ⟨i, zero, rfl⟩
    exact Multiset.mem_toFinset.mpr ((mem_roots nonzero).mpr zero)
  calc
    Set.ncard {i | p.eval (f i) = 0} = Set.ncard (f '' {i | p.eval (f i) = 0}) :=
      (Set.ncard_image_of_injective _ injective).symm
    _ ≤ (p.roots.toFinset : Set R).ncard :=
      Set.ncard_le_ncard inside (Finset.finite_toSet _)
    _ = p.roots.toFinset.card := Set.ncard_coe_finset _
    _ ≤ p.roots.card := Multiset.toFinset_card_le _
    _ ≤ p.natDegree := card_roots' p

end GpuKvSeal.HornerHash
