import GpuKvSeal.Host.Calls

/-!
# Which launches of an open are accepted

When nothing but launches fails, the number of every launch among the calls is
fixed by the state before the open.  The hash launches are each checked; the
check of the tag is not, and the counter launch follows it in any case.
-/

namespace GpuKvSeal.Host

open Device (Ptr Launch Kernel advance HEADER_LEN)
open TracedState.Traced (Ensures)

/-- The driver accepts a launch that is call number `i`. -/
def Driver.Accepts (driver : Driver) (i : Nat) : Prop :=
  driver.outcome .launch i = cudaSuccess

instance (driver : Driver) : DecidablePred driver.Accepts :=
  fun i => inferInstanceAs (Decidable (driver.outcome .launch i = cudaSuccess))

/-- The accepted ones of launches that are made one after another from call
number `first` on. -/
def accepted (driver : Driver) (first : Nat) : List Launch → List Launch
  | [] => []
  | l :: rest =>
      if driver.Accepts first then l :: accepted driver (first + 1) rest
      else accepted driver (first + 1) rest

/-- One launch before the others. -/
theorem accepted_cons (driver : Driver) (first : Nat) (l : Launch)
    (rest : List Launch) :
    accepted driver first (l :: rest) =
      accepted driver first [l] ++ accepted driver (first + 1) rest := by
  rw [accepted, accepted, accepted]
  split <;> rfl

/-- The number of combine launches for `count` nodes. -/
def reductions (count : Nat) : Nat :=
  if count > 1 then reductions ((count + 1) / 2) + 1 else 0
termination_by count

/-- The number of launches of a hash. -/
def hashLaunchCount (plaintextLen : Nat) : Nat :=
  reductions (requiredNodes plaintextLen) + 1

/-- A launch with a valid grid, by what the driver answers. -/
structure Attempt (driver : Driver) (s s' : HostState) (stream : Ptr)
    (l : Launch) (events : List Event) : Prop where
  quiet : Quiet s s'
  calls : s'.calls = s.calls + 1
  events : events = launchEvents stream (accepted driver s.calls [l])
  accepted : driver.Accepts s.calls → s'.lastError = s.lastError
  rejected : ¬ driver.Accepts s.calls → s'.lastError ≠ cudaSuccess

theorem launchKernel_attempt (driver : Driver) (s : HostState) (kernel : Kernel)
    (grid : Int) (threads : Nat) (stream : Ptr)
    (valid : 1 ≤ (Launch.mk s.device kernel grid threads).grid) :
    (launchKernel kernel grid threads stream).Ensures driver s fun _ s' events =>
      Attempt driver s s' stream ⟨s.device, kernel, grid, threads⟩ events := by
  have some : 1 ≤ grid := valid
  refine Ensures.ite (fun small => absurd small (by omega)) fun _ => ?_
  refine (call_spec driver s .launch).bind ?_
  rintro rc s' events ⟨rfl, ⟨rfl, success, rfl⟩ | ⟨failure, same, rfl⟩⟩
  · have accepts : driver.Accepts s.calls := success
    refine ⟨Quiet.counted s, rfl, ?_, fun _ => rfl,
      fun refused => absurd accepts refused⟩
    simp [getState, emitWhen, accepted, accepts, launchEvents,
      HostState.counted]
  · have refused : ¬ driver.Accepts s.calls := fun accepts =>
      failure (same.symm.trans accepts)
    refine ⟨Quiet.failed s .launch rc, rfl, ?_,
      fun accepts => absurd accepts refused, fun _ => failure⟩
    simp [getState, emitWhen, accepted, refused, launchEvents, failure]

/-- The hash reports success exactly if all its launches are accepted. -/
structure HashAttempt (driver : Driver) (s s' : HostState) (count : Nat)
    (rc : ReturnCode) : Prop where
  code : rc = .ok ↔ ∀ k < count, driver.Accepts (s.calls + k)
  calls : rc = .ok → s'.calls = s.calls + count

/-- One accepted launch before the others. -/
theorem HashAttempt.cons {driver : Driver} {s s₁ s' : HostState} {stream : Ptr}
    {l : Launch} {events : List Event} {count : Nat} {rc : ReturnCode}
    (first : Attempt driver s s₁ stream l events)
    (accepts : driver.Accepts s.calls)
    (rest : HashAttempt driver s₁ s' count rc) :
    HashAttempt driver s s' (count + 1) rc where
  code := by
    rw [rest.code, first.calls]
    constructor
    · intro later k below
      rcases Nat.eq_zero_or_pos k with rfl | positive
      · exact accepts
      · have place : s.calls + 1 + (k - 1) = s.calls + k := by omega
        rw [← place]
        exact later (k - 1) (by omega)
    · intro all k below
      rw [Nat.add_assoc, Nat.add_comm 1 k]
      exact all (k + 1) (by omega)
  calls := by
    intro ok
    rw [rest.calls ok, first.calls]
    omega

/-- A rejected launch ends the hash. -/
theorem HashAttempt.stop {driver : Driver} {s s' : HostState} {count : Nat}
    (refused : ¬ driver.Accepts s.calls) :
    HashAttempt driver s s' (count + 1) .errCuda where
  code := by
    refine ⟨fun ok => ReturnCode.noConfusion ok, fun all => ?_⟩
    exact absurd (all 0 (Nat.succ_pos _)) refused
  calls := fun ok => ReturnCode.noConfusion ok

theorem reduceLoop_attempt (driver : Driver) (hPow2 stream : Ptr) (count : Nat) :
    ∀ (s : HostState) (input output : Ptr), s.lastError = cudaSuccess →
    GridsValid (reduceLaunches s.device hPow2 input output count) →
    (reduceLoop hPow2 stream input output count).Ensures driver s
      fun result s' _ =>
        HashAttempt driver s s' (reductions count) result.1 := by
  induction count using Nat.strongRecOn with
  | ind count ih =>
      intro s input output clear valid
      rw [reduceLoop, reductions]
      rw [reduceLaunches] at valid
      by_cases more : count > 1
      · rw [if_pos more] at valid
        simp only [if_pos more]
        refine (launchKernel_attempt driver s _ _ 128 stream
          (valid _ (List.mem_cons_self ..))).bind ?_
        rintro - s₁ events₁ first
        refine Ensures.bind_eq (cudaPeekAtLastError_apply driver s₁)
          (Ensures.ite (fun error => ?_) fun none => ?_)
        · refine Ensures.pure (HashAttempt.stop fun accepts => error ?_)
          exact (first.accepted accepts).trans clear
        · have clear₁ : s₁.lastError = cudaSuccess := Decidable.not_not.mp none
          have accepts : driver.Accepts s.calls := by
            by_contra refused
            exact first.rejected refused clear₁
          have valid₁ : GridsValid (reduceLaunches s₁.device hPow2 output input
              ((count + 1) / 2)) := by
            rw [first.quiet.device]
            exact fun l member => valid l (List.mem_cons_of_mem _ member)
          exact (ih ((count + 1) / 2) (by omega) s₁ output input clear₁
            valid₁).mono fun result s₂ _ rest => rest.cons first accepts
      · simp only [if_neg more]
        exact Ensures.pure ⟨⟨fun _ k below => absurd below (Nat.not_lt_zero k),
          fun _ => rfl⟩, fun _ => rfl⟩

section Operations

variable (driver : Driver) {s : HostState} {key : Ptr} {h : KeyHandle}
  {plaintextLen : Nat} (stream : Ptr)
  (live : s.handles.lookup key = some h)
  (fits : requiredNodes plaintextLen ≤ h.nodeCapacity)
  (clear : s.lastError = cudaSuccess)

include live fits clear in
theorem enqueueGhash_attempt (ciphertext : Ptr)
    (valid : GridsValid (ghashLaunches s.device h ciphertext plaintextLen)) :
    (enqueueGhash key ciphertext plaintextLen stream).Ensures driver s
      fun result s' _ =>
        HashAttempt driver s s' (hashLaunchCount plaintextLen) result.1 := by
  refine Ensures.bind_eq (ensureWorkspace_enough driver live fits) ?_
  rw [if_neg (by simp)]
  refine Ensures.bind_eq (readHandle_live driver live) ?_
  refine (launchKernel_attempt driver s _ _ 128 stream
    (valid _ (List.mem_cons_self ..))).bind ?_
  rintro - s₁ events₁ first
  refine Ensures.bind_eq (cudaPeekAtLastError_apply driver s₁)
    (Ensures.ite (fun error => ?_) fun none => ?_)
  · refine Ensures.pure (HashAttempt.stop fun accepts => error ?_)
    exact (first.accepted accepts).trans clear
  · have clear₁ : s₁.lastError = cudaSuccess := Decidable.not_not.mp none
    have accepts : driver.Accepts s.calls := by
      by_contra refused
      exact first.rejected refused clear₁
    have valid₁ : GridsValid (reduceLaunches s₁.device h.dHPow2 h.dNodesA
        h.dNodesB (requiredNodes plaintextLen)) := by
      rw [first.quiet.device]
      exact fun l member => valid l (List.mem_cons_of_mem _ member)
    exact (reduceLoop_attempt driver h.dHPow2 stream _ s₁ h.dNodesA h.dNodesB
      clear₁ valid₁).mono fun result s₂ _ rest => rest.cons first accepts

/-- The counter launch, if there is one, is enqueued if it is accepted. -/
theorem launchCtr_attempt (s : HostState) (src dst : Ptr) (len : Nat)
    (iv roundKeys : Ptr) (authOk : Option Ptr) (stream : Ptr)
    (valid : GridsValid (ctrLaunches s.device src dst len iv roundKeys authOk)) :
    (launchCtr src dst len iv roundKeys authOk stream).Ensures driver s
      fun _ _ events => events = launchEvents stream (accepted driver s.calls
        (ctrLaunches s.device src dst len iv roundKeys authOk)) := by
  unfold launchCtr
  unfold ctrLaunches at valid ⊢
  by_cases some : Device.blockCount len > 0
  · rw [if_pos some] at valid
    simp only [if_pos some]
    exact (launchKernel_attempt driver s _ _ 256 stream
      (valid _ (List.mem_singleton_self _))).mono fun _ _ _ attempt =>
        attempt.events
  · simp only [if_neg some]
    exact Ensures.pure rfl

end Operations

/-- What an open enqueues when no error is pending, by the launches the driver
accepts from the first one on. -/
structure OpenAttempt (driver : Driver) (first : Nat) (stream : Ptr)
    (device : Int) (h : KeyHandle) (src dst : Ptr) (plaintextLen : Nat)
    (authOk : Ptr) (events : List Event) : Prop where
  hashed : (∀ k < hashLaunchCount plaintextLen, driver.Accepts (first + k)) →
    events = launchEvents stream
      (ghashLaunches device h (advance src HEADER_LEN) plaintextLen ++
        accepted driver (first + hashLaunchCount plaintextLen)
          (verifyLaunch device h src plaintextLen authOk ::
            openCtrLaunches device h src dst plaintextLen authOk))
  stopped : (¬ ∀ k < hashLaunchCount plaintextLen, driver.Accepts (first + k)) →
    ∃ part, part.Sublist
      (ghashLaunches device h (advance src HEADER_LEN) plaintextLen) ∧
        events = launchEvents stream part

theorem enqueueOpen_attempt (driver : Driver) {s : HostState} {key : Ptr}
    {h : KeyHandle} {plaintextLen : Nat} (stream : Ptr)
    (live : s.handles.lookup key = some h)
    (fits : requiredNodes plaintextLen ≤ h.nodeCapacity)
    (clear : s.lastError = cudaSuccess) (src dst authOk : Ptr)
    (valid : GridsValid (openLaunches s.device h src dst plaintextLen authOk)) :
    (enqueueOpen key src dst plaintextLen authOk stream).Ensures driver s
      fun _ _ events => OpenAttempt driver s.calls stream s.device h src dst
        plaintextLen authOk events := by
  have validHash : GridsValid (ghashLaunches s.device h (advance src HEADER_LEN)
      plaintextLen) := fun l member => valid l (List.mem_append_left _ member)
  refine Ensures.bind_eq (readHandle_live driver live) ?_
  refine ((enqueueGhash_spec driver stream live fits _).and
    (enqueueGhash_attempt driver stream live fits clear _ validHash)).bind ?_
  rintro ⟨grc, root⟩ s₁ events₁ ⟨⟨hash, code, rootEq⟩, attempt⟩
  refine Ensures.ite (fun bad => ?_) fun ok => ?_
  · refine Ensures.pure ⟨fun all => absurd (attempt.code.mpr all) bad,
      fun _ => ?_⟩
    obtain ⟨part, inside, rfl⟩ := hash.part
    exact ⟨part, inside, by simp⟩
  · have ok : grc = .ok := Decidable.not_not.mp ok
    obtain rfl : root = ghashRoot h plaintextLen := rootEq ok
    have clear₁ : s₁.lastError = cudaSuccess := cudaRc_ok (code.symm.trans ok)
    obtain ⟨whole, -⟩ := hash.complete clear₁
    have calls : s₁.calls = s.calls + hashLaunchCount plaintextLen :=
      attempt.calls ok
    refine (launchKernel_attempt driver s₁ _ 1 1 stream (le_refl 1)).bind ?_
    rintro - s₂ events₂ check
    have validCounter : GridsValid (ctrLaunches s₂.device
        (advance src HEADER_LEN) dst plaintextLen (advance src 1) h.dRoundKeys
        (some authOk)) := by
      rw [check.quiet.device, hash.quiet.device]
      exact fun l member => valid l (List.mem_append_right _
        (List.mem_cons_of_mem _ member))
    refine (launchCtr_attempt driver s₂ _ _ _ _ _ _ stream validCounter).bind ?_
    rintro - s₃ events₃ counter
    refine Ensures.bind_eq (cudaPeekAtLastError_apply driver s₃)
      (Ensures.pure ⟨fun _ => ?_, fun refused =>
        absurd (attempt.code.mp ok) refused⟩)
    have checked := check.events
    rw [check.calls, check.quiet.device, hash.quiet.device, calls] at counter
    rw [calls, hash.quiet.device] at checked
    rw [whole, checked, counter,
      accepted_cons driver _ (verifyLaunch s.device h src plaintextLen authOk),
      launchEvents_append, launchEvents_append, List.append_nil, List.append_nil]
    rfl

/-- What an open enqueues, when no call but launches fails. -/
def OpenAttempted (driver : Driver) (stream src dst : Ptr) (plaintextLen : Nat)
    (authOk : Ptr) :
    HostState → KeyHandle → ReturnCode → HostState → List Event → Prop :=
  fun s₁ h' rc s₂ events =>
    OpenBody driver stream src dst plaintextLen authOk s₁ h' rc s₂ events ∧
    (GridsValid (openLaunches s₁.device h' src dst plaintextLen authOk) →
      s₁.lastError = cudaSuccess →
      OpenAttempt driver s₁.calls stream s₁.device h' src dst plaintextLen
        authOk events)

theorem lmcacheGpuAes128gcmOpenAsync_attempted (driver : Driver) {s : HostState}
    {key src dst authOk : Ptr} {plaintextLen frameLen : Nat} {h : KeyHandle}
    {leaked : List Block} (accounted : Accounted s leaked)
    (live : s.handles.lookup key = some h)
    (admits : OpenAdmits key src frameLen dst plaintextLen authOk)
    (stream : Ptr) :
    (lmcacheGpuAes128gcmOpenAsync key src frameLen dst plaintextLen authOk
      stream).Ensures driver s fun rc s' events =>
        GuardedEffect driver s s' key h leaked (requiredNodes plaintextLen)
          (OpenAttempted driver stream src dst plaintextLen authOk) rc
          events := by
  rw [lmcacheGpuAes128gcmOpenAsync_eq admits]
  refine guarded_spec driver accounted live plaintextLen _ fun s₁ h' live₁ fits =>
    ?_
  have spec := enqueueOpen_spec driver stream live₁ fits src dst authOk
  exact ⟨spec.1.quiet, spec, fun valid clear =>
    enqueueOpen_attempt driver stream live₁ fits clear src dst authOk valid⟩

end GpuKvSeal.Host
