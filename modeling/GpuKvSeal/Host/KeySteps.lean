import GpuKvSeal.Host.Keys
import GpuKvSeal.Host.Rejections

/-!
# Which steps key creation looks at

Key creation makes its calls in a fixed order, so each has a known number.  It
looks at the results of all of them but two: the switch of the guard to the
device of the key, and the launch that fills the table of powers.
-/

namespace GpuKvSeal.Host

open Device (Ptr Launch HOST_SBOX expandAes128Key)
open BigEndian (Byte)
open TracedState.Traced (Ensures)

/-- The steps that fill the tables and whose results are looked at succeed, the
first of them being call number `first`. -/
structure TableSteps (driver : Driver) (first : Nat) : Prop where
  sbox : driver.outcome .memcpyToSymbol first = cudaSuccess
  roundKeys : driver.outcome .malloc (first + 1) = cudaSuccess
  powers : driver.outcome .malloc (first + 2) = cudaSuccess
  copy : driver.outcome .memcpy (first + 3) = cudaSuccess
  synchronize : driver.outcome .synchronize (first + 5) = cudaSuccess

/-- What the steps leave behind, on the device that is current. -/
structure TablesFilled (driver : Driver) (s s' : HostState) (p : Ptr)
    (key : Vector Byte 16) (device : Int) (out roundKeys hPow2 : Ptr)
    (events : List Event) : Prop where
  allocations : s'.allocations = ⟨hPow2, sizeofBlock128 * 64, s.device⟩ ::
    ⟨roundKeys, 176, s.device⟩ :: s.allocations
  fresh : roundKeys ∉ s.livePtrs
  handle : s'.handles.lookup p =
    some { device := device, dRoundKeys := roundKeys, dHPow2 := hPow2 }
  outs : s'.outs out = p
  events : events = [.memcpyToSymbol s.device HOST_SBOX, .malloc roundKeys,
    .malloc hPow2, .memcpy roundKeys (expandAes128Key key)] ++
      launchEvents 0 (accepted driver (s.calls + 4)
        [⟨s.device, .initHashKey roundKeys hPow2, 1, 1⟩]) ++ [.synchronize]

theorem createTables_steps (driver : Driver) {s : HostState} {p : Ptr}
    {handles : AList fun _ : Ptr => KeyHandle}
    (object : s.handles = handles.insert p {}) (key : Vector Byte 16)
    (device : Int) (out : Ptr) :
    (createTables p key device out).Ensures driver s fun rc s' events =>
      (rc = .ok ↔ TableSteps driver s.calls) ∧
      (rc = .ok → ∃ roundKeys hPow2,
        TablesFilled driver s s' p key device out roundKeys hPow2 events) := by
  have stopped : ∀ rc : ReturnCode, rc ≠ .ok → ¬ TableSteps driver s.calls →
      ∀ post : Prop,
      (rc = .ok ↔ TableSteps driver s.calls) ∧ (rc = .ok → post) :=
    fun rc bad failed post => ⟨⟨fun ok => absurd ok bad,
      fun steps => absurd steps failed⟩, fun ok => absurd ok bad⟩
  refine Ensures.bind_eq (modifyHandle_inserted driver _ object) ?_
  refine (cudaMemcpyToSymbol_spec driver _ _).bind ?_
  rintro rc s₁ events₁ (⟨rfl, sbox, rfl, rfl⟩ | ⟨failure, same, rfl, rfl⟩)
  swap
  · rw [if_pos failure]
    exact stopped _ (by simp) (fun steps => failure (same.symm.trans steps.sbox)) _
  rw [if_neg (by simp)]
  refine (cudaMalloc_spec driver _ _).bind ?_
  rintro result s₂ events₂
    (⟨roundKeys, rfl, first, -, fresh, rfl, rfl⟩ | ⟨rc, rfl, failure, same, rfl, rfl⟩)
  swap
  · exact stopped _ (by simp)
      (fun steps => failure (same.symm.trans steps.roundKeys)) _
  refine Ensures.bind_eq (modifyHandle_inserted driver _ rfl) ?_
  refine (cudaMalloc_spec driver _ _).bind ?_
  rintro result s₃ events₃
    (⟨hPow2, rfl, second, -, -, rfl, rfl⟩ | ⟨rc, rfl, failure, same, rfl, rfl⟩)
  swap
  · exact stopped .errAlloc (by simp)
      (fun steps => failure (same.symm.trans steps.powers)) _
  refine Ensures.bind_eq (modifyHandle_inserted driver _ rfl) ?_
  refine (cudaMemcpy_spec driver _ _ _).bind ?_
  rintro rc s₄ events₄ (⟨rfl, copy, rfl, rfl⟩ | ⟨failure, same, rfl, rfl⟩)
  swap
  · rw [if_pos failure]
    exact stopped .errCuda (by simp)
      (fun steps => failure (same.symm.trans steps.copy)) _
  rw [if_neg (by simp)]
  refine (launchKernel_attempt driver _ _ 1 1 0 (le_refl 1)).bind ?_
  rintro - s₅ launched attempt
  have counted : s₅.calls = s.calls + 5 := attempt.calls
  refine (cudaDeviceSynchronize_spec driver _).bind ?_
  rintro rc s₆ events₆ (⟨rfl, waited, rfl, rfl⟩ | ⟨failure, same, rfl, rfl⟩)
  swap
  · rw [if_pos failure]
    rw [counted] at same
    exact stopped .errCuda (by simp)
      (fun steps => failure (same.symm.trans steps.synchronize)) _
  rw [if_neg (by simp)]
  rw [counted] at waited
  have finished : ∀ f : HostState → HostState, modifyState f driver s₅.counted =
      ⟨(), f s₅.counted, []⟩ := fun f => rfl
  refine Ensures.bind_eq (finished _) (Ensures.pure ⟨⟨fun _ =>
    ⟨sbox, first, second, copy, waited⟩, fun _ => rfl⟩, fun _ =>
      ⟨roundKeys, hPow2, attempt.quiet.allocations, fresh, ?_, ?_, ?_⟩⟩)
  · show s₅.handles.lookup p = _
    rw [attempt.quiet.handles]
    exact AList.lookup_insert _
  · exact Function.update_self ..
  · rw [attempt.events]
    rfl

/-! ## The whole call -/

/-- The guard has to switch to the device, and the switch is refused. -/
def SwitchRefused (driver : Driver) (s : HostState) (device : Int) : Prop :=
  s.device ≠ device ∧ driver.outcome .setDevice (s.calls + 1) ≠ cudaSuccess

instance (driver : Driver) (s : HostState) (device : Int) :
    Decidable (SwitchRefused driver s device) :=
  inferInstanceAs (Decidable (_ ∧ _))

/-- The body of a guard runs on its device, unless the switch is refused. -/
theorem withDevice_current {α : Type} (driver : Driver) {s : HostState}
    (reliable : driver.Succeeds {.getDevice}) (target : Int) (body : Cuda α)
    {post : α → HostState → List Event → Prop}
    (inside : ∀ s', SameHeap s s' →
      s'.calls = s.calls + guardCalls s.device target →
      s'.device = (if SwitchRefused driver s target then s.device else target) →
      body.Ensures driver s' post) :
    (withDevice target body).Ensures driver s fun value s'' events =>
      ∃ s', post value s' events ∧ SameHeap s' s'' := by
  refine (cudaGetDevice_spec driver s).bind ?_
  rintro old s₁ events ⟨rfl, ⟨-, rfl, rfl⟩ | ⟨rc, failure, same, -⟩⟩
  swap
  · exact absurd (same.symm.trans (reliable .getDevice rfl _)) failure
  have back : ∀ changed (s₃ : HostState), (switchWhen changed s.device).Ensures
      driver s₃ fun _ s₄ events => events = [] ∧ SameHeap s₃ s₄ :=
    fun changed s₃ =>
      let spec := switchWhen_spec driver s₃ changed s.device
      ⟨spec.1, spec.2.1⟩
  have rest : ∀ (changed : Bool) (s₂ : HostState),
      body.Ensures driver s₂ post →
      (do
        let result ← body
        switchWhen changed s.device
        pure result : Cuda α).Ensures driver s₂ fun value s'' events =>
          ∃ s', post value s' events ∧ SameHeap s' s'' := by
    intro changed s₂ ensures
    refine ensures.bind fun value s₃ events holds => ?_
    refine (back changed s₃).bind ?_
    rintro - s₄ events' ⟨rfl, heap⟩
    refine Ensures.pure ⟨s₃, ?_, heap⟩
    simpa using holds
  by_cases moved : s.device = target
  · have still : decide (s.device ≠ target) = false := by simp [moved]
    rw [still]
    refine Ensures.bind_eq (rfl : _ = (⟨(), s.counted, []⟩ :
      TracedState.Outcome HostState Event Unit)) ?_
    refine rest false _ (inside _ (Quiet.counted s).sameHeap ?_ ?_)
    · simp [guardCalls, moved]
    · rw [if_neg fun refused => refused.1 moved]
      exact moved
  · have change : decide (s.device ≠ target) = true := by simp [moved]
    rw [change]
    have switched : (switchWhen true target).Ensures driver s.counted
        fun _ s₂ events => events = [] ∧ SameHeap s s₂ ∧
          s₂.calls = s.calls + guardCalls s.device target ∧
          s₂.device =
            if SwitchRefused driver s target then s.device else target := by
      refine (cudaSetDevice_spec driver s.counted target).bind ?_
      rintro rc s₂ events ⟨rfl, ⟨rfl, success, rfl⟩ | ⟨failure, same, rfl⟩⟩
      · have accepted : ¬ SwitchRefused driver s target :=
          fun refused => refused.2 success
        refine Ensures.pure ⟨rfl, ⟨rfl, rfl, rfl, rfl⟩, ?_, ?_⟩
        · simp [guardCalls, moved]
        · rw [if_neg accepted]
      · have refused : SwitchRefused driver s target :=
          ⟨moved, fun success => failure (same.symm.trans success)⟩
        refine Ensures.pure ⟨rfl, ⟨rfl, rfl, rfl, rfl⟩, ?_, ?_⟩
        · simp [guardCalls, moved, HostState.failed]
        · rw [if_pos refused]
          rfl
    refine switched.bind ?_
    rintro - s₂ events ⟨rfl, heap, calls, current⟩
    exact rest true s₂ (inside s₂ heap calls current)

/-- Every step whose result key creation looks at succeeds. -/
structure CreationSteps (driver : Driver) (first : Nat) : Prop where
  object : driver.outcome .new first = cudaSuccess
  tables : TableSteps driver (first + 1)

/-- Key creation reports success exactly if the steps it looks at succeed.  The
tables are then filled on the device that the guard has made current. -/
structure KeyFilled (driver : Driver) (s s' : HostState) (key : Vector Byte 16)
    (device : Int) (out : Ptr) (rc : ReturnCode) (events : List Event) :
    Prop where
  code : rc = .ok ↔
    CreationSteps driver (s.calls + guardCalls s.device device)
  filled : rc = .ok → ∃ s₁ p roundKeys hPow2,
    s₁.device = (if SwitchRefused driver s device then s.device else device) ∧
    s₁.calls = s.calls + guardCalls s.device device + 1 ∧
    TablesFilled driver s₁ s' p key device out roundKeys hPow2 events

theorem KeyFilled.switchBack {driver : Driver} {s s' s'' : HostState}
    {key : Vector Byte 16} {device : Int} {out : Ptr} {rc : ReturnCode}
    {events : List Event}
    (filled : KeyFilled driver s s' key device out rc events)
    (heap : SameHeap s' s'') :
    KeyFilled driver s s'' key device out rc events where
  code := filled.code
  filled := by
    intro ok
    obtain ⟨s₁, p, roundKeys, hPow2, current, counted, tables⟩ :=
      filled.filled ok
    refine ⟨s₁, p, roundKeys, hPow2, current, counted,
      heap.allocations.trans tables.allocations, tables.fresh, ?_, ?_,
      tables.events⟩
    · rw [heap.handles]
      exact tables.handle
    · rw [heap.outs]
      exact tables.outs

theorem lmcacheGpuAes128gcmKeyCreate_filled (driver : Driver)
    (reliable : driver.Succeeds {.getDevice}) (s : HostState)
    (key : Vector Byte 16) (device : Int) {out : Ptr} (nonnull : out ≠ 0) :
    (lmcacheGpuAes128gcmKeyCreate (some key) 16 device out).Ensures driver s
      fun rc s' events => KeyFilled driver s s' key device out rc events := by
  have admitted : ¬ (out = 0 ∨ 16 ≠ 16) := by
    rintro (null | length)
    · exact nonnull null
    · exact length rfl
  simp only [lmcacheGpuAes128gcmKeyCreate, if_neg admitted]
  refine (withDevice_current driver reliable device _
    fun s₀ _ calls₀ current => ?_).mono fun rc s'' events ended => by
      obtain ⟨s', filled, heap⟩ := ended
      exact KeyFilled.switchBack filled heap
  refine (newKeyHandle_spec driver s₀).bind ?_
  rintro result s₁ events ⟨rfl, ⟨p, rfl, object, -, -, rfl⟩ |
    ⟨rfl, failure, rfl⟩⟩
  · let s₁ : HostState :=
      { s₀.counted with handles := s₀.handles.insert p {} }
    have counted : s₁.calls = s.calls + guardCalls s.device device + 1 :=
      congrArg (· + 1) calls₀
    rw [calls₀] at object
    refine (createTables_steps driver (s := s₁) rfl key device out).mono ?_
    rintro rc s' events ⟨code, filled⟩
    rw [counted] at code
    refine ⟨⟨fun ok => ⟨object, code.mp ok⟩, fun steps => code.mpr steps.tables⟩,
      fun ok => ?_⟩
    obtain ⟨roundKeys, hPow2, tables⟩ := filled ok
    exact ⟨s₁, p, roundKeys, hPow2, current, counted, tables⟩
  · rw [calls₀] at failure
    exact Ensures.pure ⟨⟨fun ok => (by cases ok), fun steps =>
      absurd steps.object failure⟩, fun ok => by cases ok⟩

end GpuKvSeal.Host
