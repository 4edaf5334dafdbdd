import GpuKvSeal.Host.Heap

/-!
# Reservations

A call that succeeds with a text of some length has reserved the workspace for all
texts that are not longer.  From then on operations on such texts neither allocate nor
release nor wait, so they cannot fail for want of memory, whatever happens in between
and to other keys.
-/

namespace GpuKvSeal.Host

open Device (Ptr blockCount u64)
open TracedState.Traced (Ensures)

/-- The length of the text that a call reserves, seals or opens. -/
def ApiCall.textLength : ApiCall → Option Nat
  | .keyCreate .. => none
  | .keyDestroy _ => none
  | .reserve _ maxPlaintextLen => some maxPlaintextLen
  | .sealAsync _ _ plaintextLen _ _ _ _ => some plaintextLen
  | .openAsync _ _ _ _ plaintextLen _ _ => some plaintextLen

/-- The body of an operation ends with one of two codes and launches kernels only. -/
def Launching (body : HostState → KeyHandle → ReturnCode → HostState → List Event → Prop) :
    Prop :=
  ∀ s₁ h' rc s₂ events, body s₁ h' rc s₂ events →
    (rc = .ok ∨ rc = .errCuda) ∧
      ∃ stream launches, events = launchEvents stream launches

/-- An operation on a live handle is refused before it does anything, or it has the
frame that all of them share. -/
theorem operation_effect {c : ApiCall} {n : Nat} (length : c.textLength = some n)
    (driver : Driver) {s : HostState} {leaked : List Block}
    (accounted : Accounted s leaked) {h : KeyHandle}
    (live : s.handles.lookup c.handle = some h) :
    c.perform.Ensures driver s fun rc s' events =>
      (rc = .errArgument ∧ s' = s ∧ events = []) ∨
      ∃ body, Launching body ∧
        GuardedEffect driver s s' c.handle h leaked (requiredNodes n) body rc events := by
  have nonnull : c.handle ≠ 0 :=
    accounted.keys _ (AList.lookup_isSome.mp (by rw [live]; rfl))
  cases c with
  | keyCreate => cases length
  | keyDestroy => cases length
  | reserve key maxPlaintextLen =>
      cases length
      refine (lmcacheGpuAes128gcmReserve_spec driver accounted live nonnull n).mono
        fun rc s' events effect => Or.inr ⟨_, fun _ _ _ _ _ done => ?_, effect⟩
      exact ⟨Or.inl done.1, 0, [], done.2⟩
  | sealAsync key src plaintextLen dst dstCapacity iv stream =>
      cases length
      by_cases admits : iv.isSome ∧ SealAdmits key src n dst dstCapacity
      · obtain ⟨given, admits⟩ := admits
        obtain ⟨iv, rfl⟩ := Option.isSome_iff_exists.mp given
        refine (lmcacheGpuAes128gcmSealAsync_spec driver accounted live admits iv
          stream).mono fun rc s' events effect =>
            Or.inr ⟨_, fun _ _ _ _ _ done => ?_, effect⟩
        obtain ⟨part, -, same⟩ := done.1.part
        exact ⟨done.2.1 ▸ cudaRc_cases _, stream, part, same⟩
      · rw [ApiCall.perform, lmcacheGpuAes128gcmSealAsync_unadmitted admits]
        exact Ensures.pure (Or.inl ⟨rfl, rfl, rfl⟩)
  | openAsync key src frameLen dst plaintextLen authOk stream =>
      cases length
      by_cases admits : OpenAdmits key src frameLen dst n authOk
      · refine (lmcacheGpuAes128gcmOpenAsync_spec driver accounted live admits
          stream).mono fun rc s' events effect =>
            Or.inr ⟨_, fun _ _ _ _ _ done => ?_, effect⟩
        obtain ⟨part, -, same⟩ := done.1.part
        exact ⟨done.2.1 ▸ cudaRc_cases _, stream, part, same⟩
      · rw [ApiCall.perform, lmcacheGpuAes128gcmOpenAsync_refused admits]
        exact Ensures.pure (Or.inl ⟨rfl, rfl, rfl⟩)

/-- An operation that is given the null handle is refused. -/
theorem operation_null {c : ApiCall} {n : Nat} (length : c.textLength = some n)
    (null : c.handle = 0) : c.perform = pure .errArgument := by
  cases c with
  | keyCreate => cases length
  | keyDestroy => cases length
  | reserve key maxPlaintextLen => exact if_pos null
  | sealAsync key src plaintextLen dst dstCapacity iv stream =>
      exact lmcacheGpuAes128gcmSealAsync_unadmitted fun admits => admits.2.key null
  | openAsync key src frameLen dst plaintextLen authOk stream =>
      exact lmcacheGpuAes128gcmOpenAsync_refused (fun admits => admits.key null) _

/-- Longer texts need more nodes, as long as the block count does not wrap. -/
theorem requiredNodes_mono {m n : Nat} (fits : m ≤ n) (unwrapped : n + 15 < 2 ^ 64) :
    requiredNodes m ≤ requiredNodes n := by
  have blocks : blockCount m ≤ blockCount n := by
    rw [blockCount, blockCount, u64, u64, Nat.mod_eq_of_lt unwrapped,
      Nat.mod_eq_of_lt (by omega)]
    omega
  show (blockCount m + 1 + 64 - 1) / 64 ≤ (blockCount n + 1 + 64 - 1) / 64
  omega

/-- With enough nodes an operation only launches kernels. -/
theorem GuardedEffect.reserved {driver : Driver} {s s' : HostState} {key : Ptr}
    {h : KeyHandle} {leaked : List Block} {required : Nat}
    {body : HostState → KeyHandle → ReturnCode → HostState → List Event → Prop}
    {rc : ReturnCode} {events : List Event}
    (effect : GuardedEffect driver s s' key h leaked required body rc events)
    (live : s.handles.lookup key = some h) (launching : Launching body)
    (enough : required ≤ h.nodeCapacity) :
    rc ≠ .errAlloc ∧ (∃ stream launches, events = launchEvents stream launches) ∧
      ∀ p, s'.handles.lookup p = s.handles.lookup p := by
  cases effect.result with
  | refused small => exact absurd enough (Nat.not_le_of_lt small)
  | ran s₁ s₂ h' before after extends_ fits unchanged updated live' bookkeeping done =>
      obtain ⟨rfl, rfl⟩ := unchanged enough
      obtain ⟨code, launched⟩ := launching _ _ _ _ _ done
      refine ⟨?_, launched, fun p => ?_⟩
      · rcases code with rfl | rfl
        · simp
        · simp
      · by_cases same : p = key
        · rw [same, updated.live, live]
        · exact updated.others p same

/-- When an operation succeeds, the handle has the nodes that it asked for. -/
theorem GuardedEffect.capacity {driver : Driver} {s s' : HostState} {key : Ptr}
    {h : KeyHandle} {leaked : List Block} {required : Nat}
    {body : HostState → KeyHandle → ReturnCode → HostState → List Event → Prop}
    {rc : ReturnCode} {events : List Event}
    (effect : GuardedEffect driver s s' key h leaked required body rc events)
    (ok : rc = .ok) :
    ∃ h', s'.handles.lookup key = some h' ∧ required ≤ h'.nodeCapacity := by
  cases effect.result with
  | refused => cases ok
  | ran s₁ s₂ h' before after extends_ fits unchanged updated =>
      exact ⟨h', updated.live, fits⟩

/-- Once a call has succeeded with a text on a handle, operations on that handle with
texts that are not longer neither allocate nor release nor wait, and they do not report
a lack of memory: after any further calls that do not destroy the handle, and whatever
fails meanwhile. -/
theorem reservation_stands {drivers : Driver → Prop} {start s s' : HostState}
    {calls later : List ApiCall} (fresh : Fresh start) (run : Run drivers start calls s)
    {driver : Driver} (usable : drivers driver) {reserving : ApiCall}
    (allowed : reserving.Allowed s) {n : Nat} (length : reserving.textLength = some n)
    (unwrapped : n + 15 < 2 ^ 64) (ok : (reserving.perform driver s).value = .ok)
    (onward : Run drivers (reserving.perform driver s).state later s')
    (undestroyed : .keyDestroy reserving.handle ∉ later) {c : ApiCall}
    (same : c.handle = reserving.handle) {m : Nat} (length' : c.textLength = some m)
    (fits : m ≤ n) (driver' : Driver) :
    let o := c.perform driver' s'
    o.value ≠ .errAlloc ∧ (∀ event ∈ o.events, ∃ stream l, event = .launch stream l) ∧
      o.state.livePtrs = s'.livePtrs ∧
      ∀ p, o.state.handles.lookup p = s'.handles.lookup p := by
  intro o
  obtain ⟨leaked, accounted⟩ := run.accounted ⟨[], fresh.accounted⟩
  -- What the first call has reserved.
  have nonnull : reserving.handle ≠ 0 := by
    intro null
    rw [operation_null length null] at ok
    cases ok
  obtain ⟨h, live⟩ := Option.isSome_iff_exists.mp
    (AList.lookup_isSome.mpr (allowed.resolve_left nonnull))
  obtain ⟨h', found, capacity⟩ : ∃ h', (reserving.perform driver s).state.handles.lookup
      reserving.handle = some h' ∧ requiredNodes n ≤ h'.nodeCapacity := by
    rcases operation_effect length driver accounted live with ⟨bad, -⟩ | ⟨body, -, effect⟩
    · rw [bad] at ok
      cases ok
    · exact effect.capacity ok
  -- It stays reserved.
  have run' := run.call usable reserving allowed
  obtain ⟨leaked', accounted'⟩ := run'.accounted ⟨[], fresh.accounted⟩
  obtain ⟨g, kept, extends_⟩ := onward.kept ⟨leaked', accounted'⟩ found undestroyed
  obtain ⟨lost, accounted''⟩ := onward.accounted ⟨leaked', accounted'⟩
  have enough : requiredNodes m ≤ g.nodeCapacity :=
    (requiredNodes_mono fits unwrapped).trans (capacity.trans extends_.capacity)
  rw [← same] at kept
  have heap := (c.perform_composed.heap driver' s').heap
  rcases operation_effect length' driver' accounted'' kept with
    ⟨code, unchanged, none⟩ | ⟨body, launching, effect⟩
  · refine ⟨by rw [code]; simp, by rw [none]; simp, by rw [unchanged], ?_⟩
    rw [unchanged]
    exact fun _ => rfl
  · obtain ⟨code, ⟨stream, launches, trace⟩, handles⟩ :=
      effect.reserved kept launching enough
    rw [trace, heapAfter_launchEvents] at heap
    refine ⟨code, fun event member => ?_, heap.symm, handles⟩
    rw [trace] at member
    obtain ⟨l, -, rfl⟩ := List.mem_map.mp member
    exact ⟨stream, l, rfl⟩

/-- A seal of sixteen bytes, after a hundred were reserved, when no allocation
succeeds any more. -/
theorem reservation_stands_example :
    let s := ((ApiCall.reserve 1 100).perform .steady .oneKey).state
    ((ApiCall.sealAsync 1 16 16 64 45 (some (Vector.replicate 12 0#8)) 5).perform
      (.exhausted 0) s).value ≠ .errAlloc := by
  have reserved : ((ApiCall.reserve 1 100).perform .steady .oneKey).value = .ok := by
    decide
  have run : Run (fun _ => True) .blank _ .oneKey := HostState.oneKey_run trivial
  exact (reservation_stands HostState.blank_fresh run trivial (Or.inr (by decide))
    rfl (by decide) reserved .nil List.not_mem_nil
    (c := .sealAsync 1 16 16 64 45 (some (Vector.replicate 12 0#8)) 5) rfl rfl
    (by decide) (.exhausted 0)).1

end GpuKvSeal.Host
