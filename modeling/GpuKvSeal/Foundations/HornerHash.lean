import Mathlib

/-!
# Horner hashes and their pairwise reduction

A Horner hash absorbs terms from left to right.  The hash of a concatenation
is determined by the hashes and lengths of the two parts, so the hash of a
long list may be computed over chunks of one size and then over chunks of
twice the size, until a single chunk covers the list.
-/

namespace GpuKvSeal.HornerHash

section Hash

variable {R : Type*} [CommSemiring R]

/-- Absorb every term: add it and multiply by the key. -/
def horner (h : R) (terms : List R) : R :=
  terms.foldl (fun y x => (y + x) * h) 0

theorem foldl_from (h start : R) (terms : List R) :
    terms.foldl (fun y x => (y + x) * h) start =
      start * h ^ terms.length + horner h terms := by
  induction terms generalizing start with
  | nil => simp [horner]
  | cons x rest ih =>
      unfold horner
      rw [List.foldl_cons, List.foldl_cons, ih, ih ((0 + x) * h),
        List.length_cons, pow_succ]
      ring

/-- The hash of a concatenation. -/
theorem horner_append (h : R) (first second : List R) :
    horner h (first ++ second) =
      horner h first * h ^ second.length + horner h second := by
  rw [horner, List.foldl_append, foldl_from]
  rfl

/-- Adding `d` to one term adds `d` times a positive power of the key. -/
theorem horner_change (h : R) (before after : List R) (x d : R) :
    horner h (before ++ (x + d) :: after) =
      horner h (before ++ x :: after) + d * h ^ (after.length + 1) := by
  have single : ∀ y : R, horner h (y :: after) =
      y * h * h ^ after.length + horner h after := by
    intro y
    unfold horner
    rw [List.foldl_cons, foldl_from]
    simp [horner]
  rw [horner_append, horner_append, single, single]
  simp only [List.length_cons]
  ring

end Hash

section Chunks

variable {α : Type*}

/-- The `index`-th run of `size` consecutive terms. -/
def chunk (size index : Nat) (terms : List α) : List α :=
  (terms.drop (index * size)).take size

theorem length_chunk (size index : Nat) (terms : List α) :
    (chunk size index terms).length =
      min size (terms.length - index * size) := by
  simp [chunk]

/-- Two neighbouring chunks make one chunk of twice the size. -/
theorem chunk_double (size index : Nat) (terms : List α) :
    chunk (2 * size) index terms =
      chunk size (2 * index) terms ++ chunk size (2 * index + 1) terms := by
  have start : (2 * index + 1) * size = 2 * index * size + size := by ring
  have left : index * (2 * size) = 2 * index * size := by ring
  unfold chunk
  rw [start, left, Nat.two_mul size, List.take_add, List.drop_drop]

theorem chunk_beyond {size index : Nat} {terms : List α}
    (beyond : terms.length ≤ index * size) : chunk size index terms = [] := by
  simp [chunk, List.drop_eq_nil_of_le beyond]

theorem chunk_whole {size : Nat} {terms : List α}
    (covers : terms.length ≤ size) : chunk size 0 terms = terms := by
  simp [chunk, List.take_of_length_le covers]

end Chunks

end GpuKvSeal.HornerHash
