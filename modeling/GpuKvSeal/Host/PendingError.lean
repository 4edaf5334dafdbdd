import GpuKvSeal.Host.Runs

/-!
# What a failed allocation does to later calls

A failed allocation leaves the handles as they were, but it leaves an error
behind that every later launch check reads.  After it no seal and no open on
any handle returns success, however small.
-/

namespace GpuKvSeal.Host

open Device (Ptr Launch)
open BigEndian (Byte)
open TracedState.Traced (Ensures)

theorem guarded_records (key : Ptr) (plaintextLen : Nat)
    {body : Cuda ReturnCode} (inside : Records body) :
    Records (guarded key plaintextLen body) :=
  (readHandle_records _).bind fun _ => withDevice_records _
    ((ensureWorkspace_records _ _).bind fun _ => .ite (.pure _) inside)

/-- Every call records its failures. -/
theorem ApiCall.perform_records (c : ApiCall) : Records c.perform := by
  cases c with
  | keyCreate key keyLen device out =>
      cases key with
      | none => exact .pure _
      | some key =>
          refine .ite (.pure _) (withDevice_records _
            (newKeyHandle_records.bind fun result => ?_))
          cases result with
          | none => exact .pure _
          | some h => exact createTables_records h key device out
  | keyDestroy key =>
      exact .ite (.pure _) ((readHandle_records _).bind fun _ =>
        withDevice_records _ ((freeNodes_records _).bind fun _ =>
          (freeUnlessNull_records _).bind fun _ =>
            (freeUnlessNull_records _).bind fun _ =>
              (deleteHandle_records _).bind fun _ => .pure _))
  | reserve key maxPlaintextLen =>
      exact .ite (.pure _) ((readHandle_records _).bind fun _ =>
        withDevice_records _ (ensureWorkspace_records _ _))
  | sealAsync key src plaintextLen dst dstCapacity iv stream =>
      cases iv with
      | none => exact .pure _
      | some iv =>
          exact .ite (.pure _) (.ite (.pure _) (.ite (.pure _)
            (guarded_records key plaintextLen (enqueueSeal_records _ _ _ _ _ _))))
  | openAsync key src frameLen dst plaintextLen authOk stream =>
      exact .ite (.pure _) (.ite (.pure _)
        (guarded_records key plaintextLen (enqueueOpen_records _ _ _ _ _ _)))

/-- In every run an error is pending exactly when a runtime call has failed. -/
theorem Run.faithful {drivers : Driver → Prop} {start s : HostState}
    {calls : List ApiCall} (run : Run drivers start calls s)
    (initial : Faithful start) : Faithful s := by
  induction run with
  | nil => exact initial
  | @call calls s _ driver _ c _ ih =>
      exact ih.recorded (c.perform_records driver s).recorded

/-- An operation whose workspace is in place succeeds, with all its launches
enqueued, exactly when no error is pending before and after it. -/
theorem GuardedEffect.complete_iff {driver : Driver} {s s' : HostState}
    {key : Ptr} {h : KeyHandle} {leaked : List Block} {required : Nat}
    (stream : Ptr) (launches : Int → KeyHandle → List Launch)
    {body : HostState → KeyHandle → ReturnCode → HostState → List Event → Prop}
    {rc : ReturnCode} {events : List Event}
    (effect : GuardedEffect driver s s' key h leaked required body rc events)
    (fits : required ≤ h.nodeCapacity)
    (pipes : ∀ s₁ h' rc s₂ events, body s₁ h' rc s₂ events →
      Pipe driver s₁ s₂ stream (launches s₁.device h') events ∧
      rc = cudaRc s₂.lastError)
    (silent : s'.lastError = s.lastError) :
    (rc = .ok ∧ events = launchEvents stream (launches h.device h)) ↔
      s.lastError = cudaSuccess := by
  cases effect.result with
  | refused small => exact absurd fits (by omega)
  | ran s₁ s₂ h' before after extends_ _ unchanged updated live bookkeeping done
      sticky₁ sticky₂ placed =>
      obtain ⟨rfl, rfl⟩ := unchanged fits
      obtain ⟨pipe, code⟩ := pipes _ _ _ _ _ done
      constructor
      · rintro ⟨ok, -⟩
        exact sticky₁ (pipe.complete (cudaRc_ok (code.symm.trans ok))).2
      · intro clear
        have clear₂ : s₂.lastError = cudaSuccess :=
          sticky₂ (silent.trans clear)
        obtain ⟨whole, clear₁⟩ := pipe.complete clear₂
        rw [placed clear₁] at whole
        refine ⟨?_, by rw [List.nil_append, whole]⟩
        rw [code, clear₂]
        rfl

/-- In every run in which nothing but allocations has failed, a seal or an open
with a workspace in place, none of whose own runtime calls fail, returns
success and enqueues its complete pipeline exactly when no allocation has
failed before it. -/
theorem complete_iff_no_failed_allocation {drivers : Driver → Prop}
    {start s : HostState} {calls : List ApiCall} (fresh : Fresh start)
    (run : Run drivers start calls s)
    (only : ∀ kind ∈ s.failures, kind = .malloc) {key : Ptr} {h : KeyHandle}
    (live : s.handles.lookup key = some h) (driver : Driver) :
    (∀ src plaintextLen dst dstCapacity iv stream,
      SealAdmits key src plaintextLen dst dstCapacity →
      requiredNodes plaintextLen ≤ h.nodeCapacity →
      let o := lmcacheGpuAes128gcmSealAsync key src plaintextLen dst dstCapacity
        (some iv) stream driver s
      o.state.failures = s.failures →
      ((o.value = .ok ∧ o.events = launchEvents stream
        (sealLaunches h.device h src plaintextLen dst iv)) ↔
          .malloc ∉ s.failures)) ∧
    (∀ src frameLen dst plaintextLen authOk stream,
      OpenAdmits key src frameLen dst plaintextLen authOk →
      requiredNodes plaintextLen ≤ h.nodeCapacity →
      let o := lmcacheGpuAes128gcmOpenAsync key src frameLen dst plaintextLen
        authOk stream driver s
      o.state.failures = s.failures →
      ((o.value = .ok ∧ o.events = launchEvents stream
        (openLaunches h.device h src dst plaintextLen authOk)) ↔
          .malloc ∉ s.failures)) := by
  obtain ⟨leaked, accounted⟩ := run.accounted ⟨[], fresh.accounted⟩
  have faithful := run.faithful fresh.faithful
  have pending : s.lastError = cudaSuccess ↔ .malloc ∉ s.failures := by
    unfold Faithful at faithful
    rw [faithful]
    constructor
    · intro none
      simp [none]
    · intro absent
      refine List.eq_nil_iff_forall_not_mem.mpr fun kind member => ?_
      exact absent (only kind member ▸ member)
  constructor
  · intro src plaintextLen dst dstCapacity iv stream admits fits o same
    have recorded := (ApiCall.sealAsync key src plaintextLen dst dstCapacity
      (some iv) stream).perform_records driver s
    rw [← pending]
    exact (lmcacheGpuAes128gcmSealAsync_spec driver accounted live admits iv
      stream).complete_iff stream
        (fun device h => sealLaunches device h src plaintextLen dst iv) fits
        (fun _ _ _ _ _ done => ⟨done.1, done.2.1⟩)
        (recorded.recorded.lastError_of_same same)
  · intro src frameLen dst plaintextLen authOk stream admits fits o same
    have recorded := (ApiCall.openAsync key src frameLen dst plaintextLen authOk
      stream).perform_records driver s
    rw [← pending]
    exact (lmcacheGpuAes128gcmOpenAsync_spec driver accounted live admits
      stream).complete_iff stream
        (fun device h => openLaunches device h src dst plaintextLen authOk) fits
        (fun _ _ _ _ _ done => ⟨done.1, done.2.1⟩)
        (recorded.recorded.lastError_of_same same)

/-- A thread with one key and the smallest workspace, after an attempt to grow
it that ran out of memory. -/
def HostState.refusedGrowth : HostState :=
  ((ApiCall.reserve 1 1048576).perform (.exhausted 0)
    ((ApiCall.reserve 1 0).perform .steady .oneKey).state).state

theorem HostState.refusedGrowth_run : Run (fun _ => True) .blank
    [.createZero, .reserve 1 0, .reserve 1 1048576] .refusedGrowth :=
  .call (.call (HostState.oneKey_run trivial) trivial (.reserve 1 0)
    (Or.inr (by decide))) trivial (.reserve 1 1048576) (Or.inr (by decide))

/-- The handle after the failed growth: its workspace is the old one. -/
theorem HostState.refusedGrowth_live :
    HostState.refusedGrowth.handles.lookup 1 = some ⟨0, 1, 2, 3, 4, 1⟩ := by
  decide

theorem HostState.refusedGrowth_admits : SealAdmits 1 16 0 64 29 :=
  ⟨by decide, by decide, by decide, by decide, by decide⟩

/-- The seal of an empty text, which needs no more than the workspace has,
fails after the failed growth although all its own runtime calls succeed. -/
theorem refusedGrowth_blocks_seal :
    Run (fun _ => True) .blank
      [.createZero, .reserve 1 0, .reserve 1 1048576] .refusedGrowth ∧
    HostState.refusedGrowth.failures = [.malloc] ∧
    HostState.refusedGrowth.handles.lookup 1 = some ⟨0, 1, 2, 3, 4, 1⟩ ∧
    requiredNodes 0 = 1 ∧ SealAdmits 1 16 0 64 29 ∧
    (lmcacheGpuAes128gcmSealAsync 1 16 0 64 29 (some (Vector.replicate 12 0#8))
      0 .steady .refusedGrowth).state.failures = [.malloc] ∧
    (lmcacheGpuAes128gcmSealAsync 1 16 0 64 29 (some (Vector.replicate 12 0#8))
      0 .steady .refusedGrowth).value = .errCuda := by
  exact ⟨HostState.refusedGrowth_run, by decide, HostState.refusedGrowth_live,
    by decide, HostState.refusedGrowth_admits, by decide, by decide⟩

/-- The condition does not hold in that state, and neither does the result. -/
theorem complete_iff_no_failed_allocation_example :
    ¬ ((lmcacheGpuAes128gcmSealAsync 1 16 0 64 29
          (some (Vector.replicate 12 0#8)) 0 .steady .refusedGrowth).value = .ok ∧
        (lmcacheGpuAes128gcmSealAsync 1 16 0 64 29
          (some (Vector.replicate 12 0#8)) 0 .steady .refusedGrowth).events =
            launchEvents 0 (sealLaunches 0 ⟨0, 1, 2, 3, 4, 1⟩ 16 0 64
              (Vector.replicate 12 0#8))) := by
  have only : ∀ kind ∈ HostState.refusedGrowth.failures,
      kind = RuntimeCall.malloc := by decide
  have failed : RuntimeCall.malloc ∈ HostState.refusedGrowth.failures := by
    decide
  have iff := (complete_iff_no_failed_allocation HostState.blank_fresh
    HostState.refusedGrowth_run only HostState.refusedGrowth_live .steady).1 16 0
    64 29 (Vector.replicate 12 0#8) 0 HostState.refusedGrowth_admits (by decide)
    (by decide)
  exact fun complete => iff.mp complete failed

end GpuKvSeal.Host
