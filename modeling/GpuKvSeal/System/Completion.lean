import GpuKvSeal.System.Hash

/-!
# When an operation completes

An operation that returns success has enqueued all its launches on the device
of the handle.  One that meets no failure, and starts without a pending error,
returns success for every admissible length.
-/

namespace GpuKvSeal.System

open BigEndian (Byte)
open Device
open Host

/-- The calls an operation on a handle may make. -/
abbrev operationCalls : Set RuntimeCall :=
  {.getDevice, .setDevice, .malloc, .free, .launch}

section Guarded

variable {driver : Driver} {s s' : HostState} {key : Ptr} {h : KeyHandle}
  {leaked : List Block} {required : Nat}
  {body : HostState → KeyHandle → ReturnCode → HostState → List Event → Prop}
  {rc : ReturnCode} {events : List Event}
  (stream : Ptr) (launches : Int → KeyHandle → List Launch)
  (effect : GuardedEffect driver s s' key h leaked required body rc events)
  (pipes : ∀ s₁ h' rc s₂ events, body s₁ h' rc s₂ events →
    Pipe driver s₁ s₂ stream (launches s₁.device h') events ∧
    rc = cudaRc s₂.lastError)

include effect pipes

/-- An operation that returns success enqueued everything. -/
theorem completed (ok : rc = .ok) :
    ∃ h' before, Extends h h' ∧ required ≤ h'.nodeCapacity ∧
      s'.handles.lookup key = some h' ∧ Bookkeeping before ∧
      events = before ++ launchEvents stream (launches h.device h') := by
  cases effect.result with
  | refused => cases ok
  | ran s₁ s₂ h' before after extends_ fits unchanged updated live bookkeeping
      done sticky₁ sticky₂ placed =>
      obtain ⟨pipe, code⟩ := pipes _ _ _ _ _ done
      obtain ⟨whole, clear⟩ := pipe.complete (cudaRc_ok (code.symm.trans ok))
      rw [placed clear] at whole
      exact ⟨h', before, extends_, fits, updated.live, bookkeeping, by rw [whole]⟩

/-- An operation that returns success has found no pending error. -/
theorem clear_of_ok (ok : rc = .ok) : s.lastError = cudaSuccess := by
  cases effect.result with
  | refused => cases ok
  | ran s₁ s₂ h' before after extends_ fits unchanged updated live bookkeeping
      done sticky₁ =>
      obtain ⟨pipe, code⟩ := pipes _ _ _ _ _ done
      exact sticky₁ (pipe.complete (cudaRc_ok (code.symm.trans ok))).2

/-- An operation that meets no failure and no pending error returns success. -/
theorem succeeds (reliable : driver.Succeeds operationCalls)
    (clear : s.lastError = cudaSuccess)
    (valid : ∀ device h', GridsValid (launches device h')) : rc = .ok := by
  have subset : ∀ kinds ⊆ operationCalls, driver.Succeeds kinds :=
    fun kinds inside kind member => reliable kind (inside member)
  cases effect.result with
  | refused small handles error cause =>
      exact absurd (subset {.malloc} (by simp)) cause
  | ran s₁ s₂ h' before after extends_ fits unchanged updated live bookkeeping
      done sticky₁ sticky₂ placed clean =>
      obtain ⟨pipe, code⟩ := pipes _ _ _ _ _ done
      obtain ⟨error₁, -, -⟩ := clean (subset _ (by simp [Set.insert_subset_iff]))
      have clear₁ : s₁.lastError = cudaSuccess := error₁.trans clear
      rcases pipe.outcome with ⟨-, error₂⟩ | ⟨-, refused, -⟩
      · rw [code, error₂, clear₁]
        rfl
      · exact absurd (subset {.launch} (by simp)) (refused clear₁ (valid _ _))

end Guarded

/-! ## No operation of moderate length has an invalid grid -/

theorem reduceLaunches_valid (device : Int) (hPow2 : Ptr) (count : Nat) :
    ∀ a b, count < 2 ^ 31 → GridsValid (reduceLaunches device hPow2 a b count) := by
  intro a b small l member
  obtain ⟨input, output, n, -, several, fewer, rfl⟩ := mem_reduceLaunches member
  dsimp only
  have bound : ((n + 1) / 2 + 128 - 1) / 128 < 2 ^ 31 := by omega
  exact castInt_valid (by omega) (by decide) bound

section Moderate

variable {len : Nat} (moderate : len ≤ 2 ^ 40)

include moderate

theorem ghashLaunches_valid (device : Int) (h : KeyHandle) (ciphertext : Ptr) :
    GridsValid (ghashLaunches device h ciphertext len) := by
  have blocks : blockCount len = (len + 15) / 16 :=
    Refinement.blockCount_eq (by omega)
  have nodes : requiredNodes len = (blockCount len + 1 + 64 - 1) / 64 := rfl
  intro l member
  rcases List.mem_cons.mp member with rfl | later
  · dsimp only
    have bound : (requiredNodes len + 128 - 1) / 128 < 2 ^ 31 := by omega
    exact castInt_valid (requiredNodes_pos len) (by decide) bound
  · exact reduceLaunches_valid device _ _ _ _ (by omega) l later

theorem ctrLaunches_valid (device : Int) (src dst iv roundKeys : Ptr)
    (authOk : Option Ptr) :
    GridsValid (ctrLaunches device src dst len iv roundKeys authOk) := by
  have blocks : blockCount len = (len + 15) / 16 :=
    Refinement.blockCount_eq (by omega)
  intro l member
  unfold ctrLaunches at member
  split at member
  · rw [List.mem_singleton.mp member]
    dsimp only
    have bound : (blockCount len + 256 - 1) / 256 < 2 ^ 31 := by omega
    exact castInt_valid ‹_› (by decide) bound
  · cases member

theorem sealLaunches_valid (device : Int) (h : KeyHandle) (src dst : Ptr)
    (iv : Vector Byte 12) :
    GridsValid (sealLaunches device h src len dst iv) := by
  intro l member
  rw [sealLaunches, List.mem_cons, List.mem_append, List.mem_append,
    List.mem_singleton] at member
  rcases member with rfl | counter | hash | rfl
  · exact le_refl 1
  · exact ctrLaunches_valid moderate _ _ _ _ _ _ l counter
  · exact ghashLaunches_valid moderate _ _ _ l hash
  · exact le_refl 1

theorem openLaunches_valid (device : Int) (h : KeyHandle) (src dst authOk : Ptr) :
    GridsValid (openLaunches device h src dst len authOk) := by
  intro l member
  rw [openLaunches, List.mem_append, List.mem_cons] at member
  rcases member with hash | rfl | counter
  · exact ghashLaunches_valid moderate _ _ _ l hash
  · exact le_refl 1
  · exact ctrLaunches_valid moderate _ _ _ _ _ _ l counter

end Moderate

end GpuKvSeal.System
