import GpuKvSeal.Host.Pipeline
import Mathlib.Tactic.Ring

/-!
# Grids

A launch with a grid below one is never enqueued, and the grids of an operation
depend on nothing but the length.  A length for which the cast makes such a grid
therefore has no successful operation.
-/

namespace GpuKvSeal.Host

open Device (Ptr Launch Kernel advance HEADER_LEN blockCount)
open TracedState.Traced (Emits)

/-! ## Enqueued launches have a valid grid -/

/-- If the event is a launch, its grid is a valid configuration. -/
def Event.Configured : Event → Prop
  | .launch _ l => 1 ≤ l.grid
  | _ => True

/-- A computation that enqueues only launches with a valid grid. -/
abbrev Configured {α : Type} (program : Cuda α) : Prop :=
  program.Emits Event.Configured

theorem call_configured (kind : RuntimeCall) : Configured (call kind) :=
  .of_silent fun _ _ => rfl

theorem getState_configured : Configured getState := .of_silent fun _ _ => rfl

theorem modifyState_configured (f : HostState → HostState) :
    Configured (modifyState f) := .of_silent fun _ _ => rfl

theorem readHandle_configured (key : Ptr) : Configured (readHandle key) :=
  getState_configured.bind fun _ => .pure _

theorem cudaPeekAtLastError_configured : Configured cudaPeekAtLastError :=
  .of_silent fun _ _ => rfl

theorem cudaMalloc_configured (bytes : Nat) : Configured (cudaMalloc bytes) := by
  refine (call_configured _).bind fun rc => .ite (fun _ => .bind ?_ fun _ =>
    .pure _) fun _ => .pure _
  intro driver s event member
  rw [List.mem_singleton.mp member]
  trivial

theorem cudaFree_configured (p : Ptr) : Configured (cudaFree p) := by
  refine (call_configured _).bind fun rc => .ite (fun _ => ?_) fun _ => .pure _
  intro driver s event member
  unfold release at member
  split at member
  · rw [List.mem_singleton.mp member]
    trivial
  · cases member

theorem freeUnlessNull_configured (p : Ptr) : Configured (freeUnlessNull p) :=
  .ite (fun _ => (cudaFree_configured p).bind fun _ => .pure _) fun _ => .pure _

theorem switchWhen_configured (changed : Bool) (target : Int) :
    Configured (switchWhen changed target) :=
  .ite (fun _ => .bind ((call_configured _).bind fun _ =>
    (modifyState_configured _).bind fun _ => .pure _) fun _ => .pure _)
    fun _ => .pure _

theorem withDevice_configured {α : Type} (target : Int) {body : Cuda α}
    (inside : Configured body) : Configured (withDevice target body) :=
  .bind ((call_configured _).bind fun _ => getState_configured.bind fun _ =>
    .pure _) fun _ => (switchWhen_configured _ _).bind fun _ => inside.bind
      fun _ => (switchWhen_configured _ _).bind fun _ => .pure _

theorem launchKernel_configured (kernel : Kernel) (grid : Int) (threads : Nat)
    (stream : Ptr) : Configured (launchKernel kernel grid threads stream) := by
  refine .ite (fun _ => modifyState_configured _) fun valid =>
    (call_configured _).bind fun rc => getState_configured.bind fun current => ?_
  intro driver s event member
  unfold emitWhen at member
  split at member
  · rw [List.mem_singleton.mp member]
    exact Int.not_lt.mp valid
  · cases member

theorem ensureWorkspace_configured (key : Ptr) (plaintextLen : Nat) :
    Configured (ensureWorkspace key plaintextLen) := by
  refine (readHandle_configured key).bind fun h => .ite (fun _ => .pure _)
    fun _ => (cudaMalloc_configured _).bind fun first => ?_
  cases first with
  | error rc => exact .pure _
  | ok a =>
      refine (cudaMalloc_configured _).bind fun second => ?_
      cases second with
      | error rc => exact (cudaFree_configured a).bind fun _ => .pure _
      | ok b =>
          exact .bind ((freeUnlessNull_configured _).bind fun _ =>
            freeUnlessNull_configured _) fun _ =>
              (modifyState_configured _).bind fun _ => .pure _

theorem reduceLoop_configured (hPow2 stream : Ptr) (count : Nat) :
    ∀ input output, Configured (reduceLoop hPow2 stream input output count) := by
  induction count using Nat.strongRecOn with
  | ind count ih =>
      intro input output
      rw [reduceLoop]
      exact .ite (fun more => (launchKernel_configured _ _ _ _).bind fun _ =>
        cudaPeekAtLastError_configured.bind fun _ => .ite (fun _ => .pure _)
          fun _ => ih _ (by omega) output input) fun _ => .pure _

theorem enqueueGhash_configured (key ciphertext : Ptr) (ciphertextLen : Nat)
    (stream : Ptr) :
    Configured (enqueueGhash key ciphertext ciphertextLen stream) :=
  (ensureWorkspace_configured _ _).bind fun _ => .ite (fun _ => .pure _) fun _ =>
    (readHandle_configured _).bind fun _ => (launchKernel_configured _ _ _ _).bind
      fun _ => cudaPeekAtLastError_configured.bind fun _ =>
        .ite (fun _ => .pure _) fun _ => reduceLoop_configured _ _ _ _ _

theorem launchCtr_configured (src dst : Ptr) (len : Nat) (iv roundKeys : Ptr)
    (authOk : Option Ptr) (stream : Ptr) :
    Configured (launchCtr src dst len iv roundKeys authOk stream) :=
  .ite (fun _ => launchKernel_configured _ _ _ _) fun _ => .pure _

theorem enqueueOpen_configured (key frame plain : Ptr) (plaintextLen : Nat)
    (authOk stream : Ptr) :
    Configured (enqueueOpen key frame plain plaintextLen authOk stream) :=
  (readHandle_configured _).bind fun _ => (enqueueGhash_configured _ _ _ _).bind
    fun _ => .ite (fun _ => .pure _) fun _ =>
      (launchKernel_configured _ _ _ _).bind fun _ =>
        (launchCtr_configured _ _ _ _ _ _ _).bind fun _ =>
          cudaPeekAtLastError_configured.bind fun _ => .pure _

theorem lmcacheGpuAes128gcmOpenAsync_configured (key src : Ptr) (frameLen : Nat)
    (dst : Ptr) (plaintextLen : Nat) (authOk stream : Ptr) :
    Configured (lmcacheGpuAes128gcmOpenAsync key src frameLen dst plaintextLen
      authOk stream) :=
  .ite (fun _ => .pure _) fun _ => .ite (fun _ => .pure _) fun _ =>
    (readHandle_configured _).bind fun _ => withDevice_configured _
      ((ensureWorkspace_configured _ _).bind fun _ => .ite (fun _ => .pure _)
        fun _ => enqueueOpen_configured _ _ _ _ _ _)

/-! ## The lengths with valid grids -/

/-- The cast to `int` makes a positive number of this grid. -/
def CastPositive (grid : Nat) : Prop := 0 < grid % 2 ^ 32 ∧ grid % 2 ^ 32 < 2 ^ 31

instance : DecidablePred CastPositive := fun _ => inferInstanceAs (Decidable (_ ∧ _))

theorem castInt_positive_iff (grid : Nat) : 1 ≤ castInt grid ↔ CastPositive grid := by
  unfold castInt CastPositive
  rw [Int.bmod_def]
  split
  · omega
  · omega

/-- The grids of a reduction halve from level to level. -/
theorem reduceLaunches_valid_iff (device : Int) (hPow2 : Ptr) (count : Nat) :
    ∀ a b, GridsValid (reduceLaunches device hPow2 a b count) ↔
      ∀ k, CastPositive ((count - 1) / (256 * 2 ^ k) + 1) := by
  induction count using Nat.strongRecOn with
  | ind count ih =>
      intro a b
      rw [reduceLaunches]
      by_cases more : count > 1
      · have first : ((count + 1) / 2 + 128 - 1) / 128 =
            (count - 1) / (256 * 2 ^ 0) + 1 := by omega
        have later : ∀ k, ((count + 1) / 2 - 1) / (256 * 2 ^ k) =
            (count - 1) / (256 * 2 ^ (k + 1)) := by
          intro k
          have half : (count + 1) / 2 - 1 = (count - 1) / 2 := by omega
          rw [half, Nat.div_div_eq_div_mul, Nat.pow_succ]
          congr 1
          ring
        rw [if_pos more, GridsValid, List.forall_mem_cons, castInt_positive_iff, first,
          ← GridsValid, ih _ (by omega)]
        constructor
        · rintro ⟨here, rest⟩ k
          cases k with
          | zero => exact here
          | succ k =>
              rw [← later]
              exact rest k
        · refine fun all => ⟨all 0, fun k => ?_⟩
          rw [later]
          exact all (k + 1)
      · rw [if_neg more]
        refine iff_of_true (fun l member => absurd member List.not_mem_nil) fun k => ?_
        have none : count - 1 = 0 := by omega
        rw [none, Nat.zero_div]
        decide

/-- All grids of an open of this length are positive after the cast. -/
def GridsFit (plaintextLen : Nat) : Prop :=
  CastPositive ((plaintextLen + 4095) / 4096) ∧
    ∀ k, CastPositive ((plaintextLen + 15) / 2 ^ (17 + k) + 1)

theorem openLaunches_valid_iff (device : Int) (h : KeyHandle) (src dst authOk : Ptr)
    {plaintextLen : Nat} (positive : 0 < plaintextLen)
    (word : plaintextLen + 15 < 2 ^ 64) :
    GridsValid (openLaunches device h src dst plaintextLen authOk) ↔
      GridsFit plaintextLen := by
  have blocks : blockCount plaintextLen = (plaintextLen + 15) / 16 := by
    show (plaintextLen + 15) % 2 ^ 64 / 16 = _
    rw [Nat.mod_eq_of_lt word]
  have nodes : requiredNodes plaintextLen = (blockCount plaintextLen + 1 + 64 - 1) / 64 :=
    rfl
  have segment : (requiredNodes plaintextLen + 128 - 1) / 128 =
      (plaintextLen + 15) / 2 ^ (17 + 0) + 1 := by omega
  have level : ∀ k, (requiredNodes plaintextLen - 1) / (256 * 2 ^ k) =
      (plaintextLen + 15) / 2 ^ (17 + (k + 1)) := by
    intro k
    have number : requiredNodes plaintextLen - 1 = (plaintextLen + 15) / 1024 := by omega
    rw [number, Nat.div_div_eq_div_mul]
    congr 1
    ring
  have counter : (blockCount plaintextLen + 256 - 1) / 256 =
      (plaintextLen + 4095) / 4096 := by omega
  have some : blockCount plaintextLen > 0 := by omega
  rw [GridsFit, openLaunches, ghashLaunches, openCtrLaunches, ctrLaunches, if_pos some,
    GridsValid, List.cons_append, List.forall_mem_cons, List.forall_mem_append,
    List.forall_mem_cons, List.forall_mem_singleton, castInt_positive_iff,
    castInt_positive_iff, ← GridsValid, reduceLaunches_valid_iff, segment, counter]
  constructor
  · rintro ⟨first, rest, -, last⟩
    refine ⟨last, fun k => ?_⟩
    cases k with
    | zero => exact first
    | succ k =>
        rw [← level]
        exact rest k
  · rintro ⟨last, all⟩
    refine ⟨all 0, fun k => ?_, le_refl 1, last⟩
    rw [level]
    exact all (k + 1)

end GpuKvSeal.Host
