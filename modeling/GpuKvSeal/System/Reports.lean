import GpuKvSeal.Host.PendingError
import GpuKvSeal.System.Completion
import GpuKvSeal.System.Sessions

/-!
# What a return code tells

Every failing runtime call is recorded, and the last check of an operation
reads the record.  Success is therefore reported exactly when nothing was
pending and nothing failed, and the codes of refused arguments and of a refused
allocation are reported only before the first launch.
-/

namespace GpuKvSeal.System

open BigEndian (Byte)
open Device
open Host

/-- The node buffer that a launch of the hash fills. -/
def hashOutput : Kernel → Option Ptr
  | .ghashSegment _ _ _ nodes => some nodes
  | .ghashCombine _ output _ _ => some output
  | _ => none

/-- The buffer that the last of some launches fills. -/
def lastOutput (launches : List Launch) : Option Ptr :=
  launches.getLast?.bind fun l => hashOutput l.kernel

theorem lastOutput_reduce (device : Int) (hPow2 : Ptr) (count : Nat) :
    ∀ (first : Launch) (input output : Ptr),
      hashOutput first.kernel = some input →
      lastOutput (first :: reduceLaunches device hPow2 input output count) =
        some (reduceRoot input output count) := by
  induction count using Nat.strongRecOn with
  | ind count ih =>
      intro first input output filled
      rw [reduceLaunches, reduceRoot]
      by_cases more : count > 1
      · simp only [if_pos more]
        rw [lastOutput, List.getLast?_cons_cons]
        exact ih ((count + 1) / 2) (by omega) _ output input rfl
      · simp only [if_neg more]
        exact filled

/-- The last launch of a hash fills the buffer of the root. -/
theorem lastOutput_ghash (device : Int) (h : KeyHandle) (ciphertext : Ptr)
    (len : Nat) :
    lastOutput (ghashLaunches device h ciphertext len) =
      some (ghashRoot h len) :=
  lastOutput_reduce device h.dHPow2 _ _ _ _ rfl

/-- What the code of an operation tells about the operation. -/
structure Reports (s : HostState) (key : Ptr) (h : KeyHandle) (stream : Ptr)
    (launches : KeyHandle → List Launch) (rc : ReturnCode) (s' : HostState)
    (events : List Event) : Prop where
  failed : ∃ recent, s'.failures = recent ++ s.failures ∧
    (∀ kind ∈ recent, kind = .malloc ∨ kind = .launch) ∧
    (rc = .ok ↔
      s.lastError = cudaSuccess ∧ .malloc ∉ recent ∧ .launch ∉ recent)
  complete : rc = .ok → ∃ h' before, s'.handles.lookup key = some h' ∧
    Extends h h' ∧ Bookkeeping before ∧
    events = before ++ launchEvents stream (launches h')

/-- Nothing reached the stream, and no handle has changed. -/
structure Untouched (schedule : Schedule) (memory : Memory) (s s' : HostState)
    (events : List Event) : Prop where
  bookkeeping : Bookkeeping events
  memory : drain schedule events memory = memory
  handles : s'.handles = s.handles

section Guarded

variable {driver : Driver} {s s' : HostState} {key : Ptr} {h : KeyHandle}
  {leaked : List Block} {required : Nat}
  {body : HostState → KeyHandle → ReturnCode → HostState → List Event → Prop}
  {rc : ReturnCode} {events : List Event}

/-- Without invalid releases only the calls that the driver may fail fail. -/
theorem failures_kinds (reliable : driver.Succeeds {.malloc, .launch}ᶜ)
    (steps : RuntimeSteps driver s s')
    (frees : s'.invalidFrees = s.invalidFrees) :
    ∃ recent, s'.failures = recent ++ s.failures ∧
      ∀ kind ∈ recent, kind = .malloc ∨ kind = .launch := by
  obtain ⟨-, recent, failures, causes⟩ := steps.caused
  refine ⟨recent, failures, fun kind member => ?_⟩
  by_contra other
  have succeeds : driver.Succeeds {kind} := by
    rintro _ rfl
    exact reliable _ fun fallible => other (by simpa using fallible)
  rcases causes kind member succeeds with launch | freed
  · exact other (Or.inr launch)
  · omega

/-- An operation reports success exactly if no failure is on record. -/
theorem guarded_reports (stream : Ptr) (launches : Int → KeyHandle → List Launch)
    (accounted : Accounted s leaked)
    (effect : GuardedEffect driver s s' key h leaked required body rc events)
    (pipes : ∀ s₁ h' rc s₂ events, body s₁ h' rc s₂ events →
      Pipe driver s₁ s₂ stream (launches s₁.device h') events ∧
      rc = cudaRc s₂.lastError)
    (reliable : driver.Succeeds {.malloc, .launch}ᶜ)
    (steps : RuntimeSteps driver s s') :
    Reports s key h stream (launches h.device) rc s' events where
  failed := by
    have frees : s'.invalidFrees = s.invalidFrees := by
      obtain ⟨lost, accounted', -⟩ := effect.accounted
      rw [accounted'.holds.frees, accounted.holds.frees]
    obtain ⟨recent, failures, kinds⟩ := failures_kinds reliable steps frees
    have quiet : driver.Succeeds {.getDevice, .setDevice, .free} := by
      rintro kind (rfl | rfl | rfl) <;> exact reliable _ (by simp)
    -- An error is left behind exactly if there is a new failure.
    have pending : recent ≠ [] → s'.lastError ≠ cudaSuccess := by
      obtain ⟨recent', failures', -, some⟩ := steps.recorded
      have same : recent' = recent :=
        List.append_cancel_right (failures'.symm.trans failures)
      rw [same] at some
      exact some
    refine ⟨recent, failures, kinds, fun ok => ?_, fun ⟨clear, malloc, launch⟩ => ?_⟩
    · cases effect.result with
      | refused => cases ok
      | ran s₁ s₂ h' before after extends_ fits unchanged updated live
          bookkeeping done sticky₁ sticky₂ placed clean =>
          obtain ⟨pipe, code⟩ := pipes _ _ _ _ _ done
          have clear₂ := cudaRc_ok (code.symm.trans ok)
          obtain ⟨-, clear₁⟩ := pipe.complete clear₂
          obtain ⟨-, -, error⟩ := clean quiet
          have none : recent = [] := by
            by_contra some
            exact pending some (error.trans clear₂)
          rw [none]
          exact ⟨sticky₁ clear₁, List.not_mem_nil, List.not_mem_nil⟩
    · have none : recent = [] := by
        refine List.eq_nil_iff_forall_not_mem.mpr fun kind member => ?_
        rcases kinds kind member with rfl | rfl
        · exact malloc member
        · exact launch member
      have same : s'.failures = s.failures := by rw [failures, none]; rfl
      have clear' : s'.lastError = cudaSuccess :=
        (steps.recorded.lastError_of_same same).trans clear
      cases effect.result with
      | refused small handles error => exact absurd clear' error
      | ran s₁ s₂ h' before after extends_ fits unchanged updated live
          bookkeeping done sticky₁ sticky₂ placed clean =>
          obtain ⟨-, code⟩ := pipes _ _ _ _ _ done
          rw [code, sticky₂ clear']
          rfl
  complete := by
    intro ok
    obtain ⟨h', before, extends_, -, live, bookkeeping, rfl⟩ :=
      completed stream launches effect pipes ok
    exact ⟨h', before, live, extends_, bookkeeping, rfl⟩

/-- The codes of refused arguments and of a refused allocation are those of an
operation that enqueued nothing. -/
theorem guarded_untouched (stream : Ptr)
    (launches : Int → KeyHandle → List Launch)
    (effect : GuardedEffect driver s s' key h leaked required body rc events)
    (pipes : ∀ s₁ h' rc s₂ events, body s₁ h' rc s₂ events →
      Pipe driver s₁ s₂ stream (launches s₁.device h') events ∧
      rc = cudaRc s₂.lastError)
    (refused : rc = .errArgument ∨ rc = .errAlloc)
    (schedule : Schedule) (memory : Memory) :
    Untouched schedule memory s s' events := by
  cases effect.result with
  | refused small handles error cause bookkeeping =>
      exact ⟨bookkeeping, drain_bookkeeping schedule bookkeeping memory, handles⟩
  | ran s₁ s₂ h' before after extends_ fits unchanged updated live bookkeeping
      done =>
      obtain ⟨-, code⟩ := pipes _ _ _ _ _ done
      rw [code, cudaRc] at refused
      split at refused <;> rcases refused with impossible | impossible <;>
        cases impossible

end Guarded

theorem Untouched.refl (schedule : Schedule) (memory : Memory) (s : HostState) :
    Untouched schedule memory s s [] :=
  ⟨Bookkeeping.nil, rfl, rfl⟩

/-- After every run, with any error pending and any device current, against
every driver that may fail allocations and launches: a seal or open with
admissible arguments reports success exactly if no error was pending, no
allocation failed and no launch was rejected, and then its whole pipeline is on
the stream, with the root in the buffer that the last hash launch fills.  The
codes of refused arguments and of a refused allocation tell that nothing was
enqueued and no handle has changed. -/
theorem return_code_tells {start s₀ : HostState} {calls : List ApiCall}
    (fresh : Fresh start) (run : Run (fun _ => True) start calls s₀)
    {key : Ptr} {h : KeyHandle} (live : s₀.handles.lookup key = some h)
    (pending : CudaError) (device : Int) {driver : Driver}
    (reliable : driver.Succeeds {.malloc, .launch}ᶜ) (schedule : Schedule)
    (memory : Memory) :
    let s : HostState := { s₀ with lastError := pending, device := device }
    (∀ src plaintextLen dst dstCapacity iv stream,
      SealAdmits key src plaintextLen dst dstCapacity →
      let o := lmcacheGpuAes128gcmSealAsync key src plaintextLen dst dstCapacity
        (some iv) stream driver s
      Reports s key h stream
        (fun h' => sealLaunches h.device h' src plaintextLen dst iv) o.value
        o.state o.events) ∧
    (∀ src frameLen dst plaintextLen authOk stream,
      OpenAdmits key src frameLen dst plaintextLen authOk →
      let o := lmcacheGpuAes128gcmOpenAsync key src frameLen dst plaintextLen
        authOk stream driver s
      Reports s key h stream
        (fun h' => openLaunches h.device h' src dst plaintextLen authOk) o.value
        o.state o.events) ∧
    (∀ h' ciphertext len,
      lastOutput (ghashLaunches h.device h' ciphertext len) =
        some (ghashRoot h' len)) ∧
    (∀ src plaintextLen dst dstCapacity iv stream,
      let o := lmcacheGpuAes128gcmSealAsync key src plaintextLen dst dstCapacity
        iv stream driver s
      o.value = .errArgument ∨ o.value = .errAlloc →
      Untouched schedule memory s o.state o.events) ∧
    ∀ src frameLen dst plaintextLen authOk stream,
      let o := lmcacheGpuAes128gcmOpenAsync key src frameLen dst plaintextLen
        authOk stream driver s
      o.value = .errArgument ∨ o.value = .errAlloc →
      Untouched schedule memory s o.state o.events := by
  intro s
  obtain ⟨leaked, accounted₀⟩ := run.accounted ⟨[], fresh.accounted⟩
  have accounted : Accounted s leaked :=
    accounted₀.sameHeap ⟨rfl, rfl, rfl, rfl⟩
  have live' : s.handles.lookup key = some h := live
  refine ⟨?_, ?_, fun h' => lastOutput_ghash h.device h', ?_, ?_⟩
  · intro src plaintextLen dst dstCapacity iv stream admits
    exact guarded_reports stream
      (fun device h' => sealLaunches device h' src plaintextLen dst iv) accounted
      (lmcacheGpuAes128gcmSealAsync_spec driver accounted live' admits iv stream)
      (fun _ _ _ _ _ done => ⟨done.1, done.2.1⟩) reliable
      ((ApiCall.sealAsync key src plaintextLen dst dstCapacity (some iv)
        stream).perform_records driver s)
  · intro src frameLen dst plaintextLen authOk stream admits
    exact guarded_reports stream
      (fun device h' => openLaunches device h' src dst plaintextLen authOk)
      accounted
      (lmcacheGpuAes128gcmOpenAsync_spec driver accounted live' admits stream)
      (fun _ _ _ _ _ done => ⟨done.1, done.2.1⟩) reliable
      ((ApiCall.openAsync key src frameLen dst plaintextLen authOk
        stream).perform_records driver s)
  · intro src plaintextLen dst dstCapacity iv stream o refused
    cases iv with
    | none => exact Untouched.refl schedule memory s
    | some iv =>
        by_cases admits : SealAdmits key src plaintextLen dst dstCapacity
        · exact guarded_untouched stream
            (fun device h' => sealLaunches device h' src plaintextLen dst iv)
            (lmcacheGpuAes128gcmSealAsync_spec driver accounted live' admits iv
              stream)
            (fun _ _ _ _ _ done => ⟨done.1, done.2.1⟩) refused schedule memory
        · have nothing : o = ⟨.errArgument, s, []⟩ := by
            simp only [o, lmcacheGpuAes128gcmSealAsync_refused admits]
            rfl
          rw [nothing]
          exact Untouched.refl schedule memory s
  · intro src frameLen dst plaintextLen authOk stream o refused
    by_cases admits : OpenAdmits key src frameLen dst plaintextLen authOk
    · exact guarded_untouched stream
        (fun device h' => openLaunches device h' src dst plaintextLen authOk)
        (lmcacheGpuAes128gcmOpenAsync_spec driver accounted live' admits stream)
        (fun _ _ _ _ _ done => ⟨done.1, done.2.1⟩) refused schedule memory
    · have nothing : o = ⟨.errArgument, s, []⟩ := by
        simp only [o, lmcacheGpuAes128gcmOpenAsync_refused admits]
        rfl
      rw [nothing]
      exact Untouched.refl schedule memory s

/-- The seal of one byte is not reported as a success if its counter launch is
rejected, although no check follows that launch directly. -/
theorem return_code_tells_example :
    (lmcacheGpuAes128gcmSealAsync 1 16 1 64 30 (some (Vector.replicate 12 0#8))
      0 (.rejecting 12) { HostState.oneKey with
        lastError := cudaSuccess, device := 0 }).value ≠ .ok := by
  intro ok
  have reliable : (Driver.rejecting 12).Succeeds {.malloc, .launch}ᶜ :=
    Driver.rejecting_succeeds 12 (by simp)
  have live : HostState.oneKey.handles.lookup 1 = some ⟨0, 1, 2, 0, 0, 0⟩ := by
    decide
  have tells := return_code_tells HostState.blank_fresh
    (HostState.oneKey_run trivial) live cudaSuccess 0 reliable inOrder blankMemory
  have reports := tells.1 16 1 64 30 (Vector.replicate 12 0#8) 0
    ⟨by decide, by decide, by decide, by decide, by decide⟩
  obtain ⟨recent, failures, -, iff⟩ := reports.failed
  have rejected : recent = [.launch] :=
    List.append_cancel_right (failures.symm.trans (by decide))
  exact (iff.mp ok).2.2 (by simp [rejected])

end GpuKvSeal.System
