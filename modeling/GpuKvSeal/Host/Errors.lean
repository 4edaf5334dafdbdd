import GpuKvSeal.Host.Contracts

/-!
# The pending error

The last error of the thread is set by every failing call and is never
cleared.  Every computation of the interface therefore extends the list of
failures, and an error is pending exactly when that list is not empty.
-/

namespace GpuKvSeal.Host

open Device (Ptr Kernel)
open BigEndian (Byte)

/-- The later state remembers the failures of the earlier one, and an error is
pending if there were new ones. -/
def Recorded (s s' : HostState) : Prop :=
  ∃ recent, s'.failures = recent ++ s.failures ∧
    (recent = [] → s'.lastError = s.lastError) ∧
    (recent ≠ [] → s'.lastError ≠ cudaSuccess)

theorem Recorded.of_same {s s' : HostState} (failures : s'.failures = s.failures)
    (lastError : s'.lastError = s.lastError) : Recorded s s' :=
  ⟨[], failures, fun _ => lastError, fun some => absurd rfl some⟩

theorem Recorded.of_new {s s' : HostState} {kind : RuntimeCall}
    (failures : s'.failures = kind :: s.failures)
    (lastError : s'.lastError ≠ cudaSuccess) : Recorded s s' :=
  ⟨[kind], failures, fun none => absurd none (List.cons_ne_nil _ _),
    fun _ => lastError⟩

theorem Recorded.trans {s s' s'' : HostState} (first : Recorded s s')
    (second : Recorded s' s'') : Recorded s s'' := by
  obtain ⟨recent, failures, none, some⟩ := first
  obtain ⟨recent', failures', none', some'⟩ := second
  refine ⟨recent' ++ recent, ?_, fun empty => ?_, fun nonempty => ?_⟩
  · rw [failures', failures, List.append_assoc]
  · obtain ⟨empty', empty⟩ := List.append_eq_nil_iff.mp empty
    exact (none' empty').trans (none empty)
  · by_cases empty' : recent' = []
    · rw [none' empty']
      exact some fun empty => nonempty (by rw [empty', empty]; rfl)
    · exact some' empty'

/-- A failure that was recorded stays recorded. -/
theorem Recorded.subset {s s' : HostState} (recorded : Recorded s s') :
    s.failures ⊆ s'.failures := by
  obtain ⟨recent, failures, -, -⟩ := recorded
  rw [failures]
  exact List.subset_append_right recent s.failures

/-- Without new failures the pending error is the old one. -/
theorem Recorded.lastError_of_same {s s' : HostState}
    (recorded : Recorded s s') (same : s'.failures = s.failures) :
    s'.lastError = s.lastError := by
  obtain ⟨recent, failures, none, -⟩ := recorded
  rw [failures] at same
  exact none (List.append_left_eq_self.mp same)

/-- An error is pending exactly when a call has failed. -/
def Faithful (s : HostState) : Prop :=
  s.lastError = cudaSuccess ↔ s.failures = []

theorem Faithful.recorded {s s' : HostState} (faithful : Faithful s)
    (recorded : Recorded s s') : Faithful s' := by
  obtain ⟨recent, failures, none, some⟩ := recorded
  unfold Faithful
  by_cases empty : recent = []
  · rw [failures, none empty, empty]
    exact faithful
  · have nonempty : recent ++ s.failures ≠ [] := by simp [empty]
    rw [failures]
    exact ⟨fun clear => absurd clear (some empty),
      fun nothing => absurd nothing nonempty⟩

/-! ## What one call does to the record -/

/-- The ways in which a runtime call changes the record of failures. -/
inductive RuntimeStep (driver : Driver) (s s' : HostState) : Prop
  /-- Nothing failed. -/
  | silent (failures : s'.failures = s.failures)
      (lastError : s'.lastError = s.lastError)
      (invalidFrees : s'.invalidFrees = s.invalidFrees)
  /-- The driver failed a call. -/
  | refused (kind : RuntimeCall) (i : Nat)
      (cause : driver.outcome kind i ≠ cudaSuccess)
      (failures : s'.failures = kind :: s.failures)
      (lastError : s'.lastError ≠ cudaSuccess)
      (invalidFrees : s'.invalidFrees = s.invalidFrees)
  /-- The grid of a launch was no valid configuration. -/
  | invalidLaunch (failures : s'.failures = .launch :: s.failures)
      (lastError : s'.lastError ≠ cudaSuccess)
      (invalidFrees : s'.invalidFrees = s.invalidFrees)
  /-- An address was released that is not allocated. -/
  | invalidFree (failures : s'.failures = .free :: s.failures)
      (lastError : s'.lastError ≠ cudaSuccess)
      (invalidFrees : s'.invalidFrees = s.invalidFrees + 1)

/-- What a computation does to the record: one such step after another. -/
abbrev RuntimeSteps (driver : Driver) : HostState → HostState → Prop :=
  Relation.ReflTransGen (RuntimeStep driver)

theorem RuntimeStep.recorded {driver : Driver} {s s' : HostState}
    (step : RuntimeStep driver s s') : Recorded s s' := by
  cases step with
  | silent failures lastError => exact .of_same failures lastError
  | refused kind i cause failures lastError => exact .of_new failures lastError
  | invalidLaunch failures lastError => exact .of_new failures lastError
  | invalidFree failures lastError => exact .of_new failures lastError

theorem RuntimeSteps.recorded {driver : Driver} {s s' : HostState}
    (steps : RuntimeSteps driver s s') : Recorded s s' := by
  induction steps with
  | refl => exact .of_same rfl rfl
  | tail _ step ih => exact ih.trans step.recorded

/-- Every new failure has a cause: a call the driver fails, a launch, or a
release of an address that is not allocated. -/
theorem RuntimeSteps.caused {driver : Driver} {s s' : HostState}
    (steps : RuntimeSteps driver s s') :
    s.invalidFrees ≤ s'.invalidFrees ∧
      ∃ recent, s'.failures = recent ++ s.failures ∧ ∀ kind ∈ recent,
        driver.Succeeds {kind} →
          kind = .launch ∨ s.invalidFrees < s'.invalidFrees := by
  induction steps with
  | refl => exact ⟨le_refl _, [], rfl, fun kind member => by cases member⟩
  | @tail s₁ s₂ _ step ih =>
      obtain ⟨grows, recent, failures, causes⟩ := ih
      cases step with
      | silent failures' _ invalidFrees =>
          rw [invalidFrees, failures']
          exact ⟨grows, recent, failures, causes⟩
      | refused kind i cause failures' _ invalidFrees =>
          rw [invalidFrees, failures', failures]
          refine ⟨grows, kind :: recent, rfl, fun other member reliable => ?_⟩
          cases member with
          | head => exact absurd (reliable kind rfl i) cause
          | tail _ member => exact causes other member reliable
      | invalidLaunch failures' _ invalidFrees =>
          rw [invalidFrees, failures', failures]
          refine ⟨grows, .launch :: recent, rfl, fun other member reliable => ?_⟩
          cases member with
          | head => exact Or.inl rfl
          | tail _ member => exact causes other member reliable
      | invalidFree failures' _ invalidFrees =>
          rw [invalidFrees, failures', failures]
          exact ⟨by omega, .free :: recent, rfl,
            fun other member reliable => Or.inr (by omega)⟩

/-! ## Every computation records its failures -/

/-- Whatever the driver does, failures are recorded. -/
def Records {α : Type} (program : Cuda α) : Prop :=
  ∀ driver s, RuntimeSteps driver s (program driver s).state

section Rules

variable {α β : Type}

theorem Records.pure (value : α) : Records (pure value : Cuda α) :=
  fun _ _ => .refl

theorem Records.bind {first : Cuda α} {second : α → Cuda β}
    (before : Records first) (after : ∀ value, Records (second value)) :
    Records (first >>= second) :=
  fun driver s => (before driver s).trans (after _ driver _)

theorem Records.ite {test : Prop} [Decidable test] {yes no : Cuda α}
    (whenTrue : Records yes) (whenFalse : Records no) :
    Records (if test then yes else no) := by
  split
  · exact whenTrue
  · exact whenFalse

/-- A computation that touches nothing of the record. -/
theorem Records.of_silent {program : Cuda α}
    (failures : ∀ driver s, (program driver s).state.failures = s.failures)
    (lastError : ∀ driver s, (program driver s).state.lastError = s.lastError)
    (invalidFrees : ∀ driver s,
      (program driver s).state.invalidFrees = s.invalidFrees) :
    Records program :=
  fun driver s => .single (.silent (failures driver s) (lastError driver s)
    (invalidFrees driver s))

end Rules

theorem call_records (kind : RuntimeCall) : Records (call kind) := by
  intro driver s
  by_cases success : driver.outcome kind s.calls = cudaSuccess
  · refine .single (.silent ?_ ?_ ?_) <;> simp [call, success]
  · refine .single (.refused kind s.calls success ?_ ?_ ?_) <;>
      simp [call, success]

theorem readHandle_records (key : Ptr) : Records (readHandle key) :=
  .of_silent (fun _ _ => rfl) (fun _ _ => rfl) fun _ _ => rfl

theorem modifyHandle_records (key : Ptr) (f : KeyHandle → KeyHandle) :
    Records (modifyHandle key f) :=
  .of_silent (fun _ _ => rfl) (fun _ _ => rfl) fun _ _ => rfl

theorem deleteHandle_records (key : Ptr) : Records (deleteHandle key) :=
  .of_silent (fun _ _ => rfl) (fun _ _ => rfl) fun _ _ => rfl

theorem cudaPeekAtLastError_records : Records cudaPeekAtLastError :=
  .of_silent (fun _ _ => rfl) (fun _ _ => rfl) fun _ _ => rfl

theorem emitWhen_records (condition : Bool) (event : Event) :
    Records (emitWhen condition event) :=
  .of_silent (fun _ _ => rfl) (fun _ _ => rfl) fun _ _ => rfl

theorem getState_records : Records getState :=
  .of_silent (fun _ _ => rfl) (fun _ _ => rfl) fun _ _ => rfl

theorem newKeyHandle_records : Records newKeyHandle := by
  intro driver s
  unfold newKeyHandle
  dsimp only
  split
  · exact .single (.silent rfl rfl rfl)
  · exact .single (.silent rfl rfl rfl)

theorem cudaMalloc_records (bytes : Nat) : Records (cudaMalloc bytes) := by
  refine (call_records .malloc).bind fun rc => .ite (.bind ?_ fun _ => .pure _)
    (.pure _)
  exact .of_silent (fun _ _ => rfl) (fun _ _ => rfl) fun _ _ => rfl

theorem invalidValue_ne : cudaErrorInvalidValue ≠ cudaSuccess := by decide

theorem invalidConfiguration_ne :
    cudaErrorInvalidConfiguration ≠ cudaSuccess := by decide

theorem cudaFree_records (p : Ptr) : Records (cudaFree p) := by
  refine (call_records .free).bind fun rc => .ite ?_ (.pure _)
  intro driver s
  unfold release
  split
  · exact .single (.silent rfl rfl rfl)
  · exact .single (.invalidFree rfl invalidValue_ne rfl)

theorem cudaMemcpyToSymbol_records (table : Vector Byte 256) :
    Records (cudaMemcpyToSymbol table) :=
  (call_records _).bind fun _ => getState_records.bind fun _ =>
    (emitWhen_records _ _).bind fun _ => .pure _

theorem cudaMemcpy_records (dst : Ptr) (bytes : Vector Byte 176) :
    Records (cudaMemcpy dst bytes) :=
  (call_records _).bind fun _ => (emitWhen_records _ _).bind fun _ => .pure _

theorem cudaDeviceSynchronize_records : Records cudaDeviceSynchronize :=
  (call_records _).bind fun _ => (emitWhen_records _ _).bind fun _ => .pure _

theorem launchKernel_records (kernel : Kernel) (grid : Int) (threads : Nat)
    (stream : Ptr) : Records (launchKernel kernel grid threads stream) := by
  refine .ite (fun _ _ => .single
    (.invalidLaunch rfl invalidConfiguration_ne rfl)) ?_
  exact (call_records _).bind fun _ => getState_records.bind fun _ =>
    emitWhen_records _ _

theorem freeUnlessNull_records (p : Ptr) : Records (freeUnlessNull p) :=
  .ite ((cudaFree_records p).bind fun _ => .pure _) (.pure _)

theorem switchWhen_records (changed : Bool) (target : Int) :
    Records (switchWhen changed target) := by
  refine .ite (.bind ?_ fun _ => .pure _) (.pure _)
  refine (call_records _).bind fun rc => .bind ?_ fun _ => .pure _
  refine .of_silent (fun _ s => ?_) (fun _ s => ?_) fun _ s => ?_
  all_goals
    unfold modifyState
    dsimp only
    split <;> rfl

theorem withDevice_records {α : Type} (target : Int) {body : Cuda α}
    (inside : Records body) : Records (withDevice target body) := by
  refine .bind ((call_records _).bind fun _ => getState_records.bind fun _ =>
    .pure _) fun old => ?_
  exact (switchWhen_records _ _).bind fun _ => inside.bind fun _ =>
    (switchWhen_records _ _).bind fun _ => .pure _

theorem freeNodes_records (h : KeyHandle) : Records (freeNodes h) :=
  (freeUnlessNull_records _).bind fun _ => freeUnlessNull_records _

theorem ensureWorkspace_records (key : Ptr) (plaintextLen : Nat) :
    Records (ensureWorkspace key plaintextLen) := by
  refine (readHandle_records key).bind fun h => .ite (.pure _) ?_
  refine (cudaMalloc_records _).bind fun first => ?_
  cases first with
  | error rc => exact .pure _
  | ok a =>
      refine (cudaMalloc_records _).bind fun second => ?_
      cases second with
      | error rc => exact (cudaFree_records a).bind fun _ => .pure _
      | ok b =>
          exact (freeNodes_records h).bind fun _ =>
            (modifyHandle_records _ _).bind fun _ => .pure _

theorem reduceLoop_records (hPow2 stream : Ptr) (count : Nat) :
    ∀ input output, Records (reduceLoop hPow2 stream input output count) := by
  induction count using Nat.strongRecOn with
  | ind count ih =>
      intro input output
      rw [reduceLoop]
      by_cases more : count > 1
      · rw [if_pos more]
        exact (launchKernel_records _ _ _ _).bind fun _ =>
          cudaPeekAtLastError_records.bind fun _ =>
            .ite (.pure _) (ih _ (by omega) output input)
      · rw [if_neg more]
        exact .pure _

theorem enqueueGhash_records (key ciphertext : Ptr) (ciphertextLen : Nat)
    (stream : Ptr) :
    Records (enqueueGhash key ciphertext ciphertextLen stream) :=
  (ensureWorkspace_records _ _).bind fun _ => .ite (.pure _)
    ((readHandle_records _).bind fun _ => (launchKernel_records _ _ _ _).bind
      fun _ => cudaPeekAtLastError_records.bind fun _ => .ite (.pure _)
        (reduceLoop_records _ _ _ _ _))

theorem launchCtr_records (src dst : Ptr) (len : Nat) (iv roundKeys : Ptr)
    (authOk : Option Ptr) (stream : Ptr) :
    Records (launchCtr src dst len iv roundKeys authOk stream) :=
  .ite (launchKernel_records _ _ _ _) (.pure _)

theorem enqueueSeal_records (key input : Ptr) (plaintextLen : Nat) (out : Ptr)
    (iv : Vector Byte 12) (stream : Ptr) :
    Records (enqueueSeal key input plaintextLen out iv stream) :=
  (readHandle_records _).bind fun _ => (launchKernel_records _ _ _ _).bind
    fun _ => (launchCtr_records _ _ _ _ _ _ _).bind fun _ =>
      (enqueueGhash_records _ _ _ _).bind fun _ => .ite (.pure _)
        ((launchKernel_records _ _ _ _).bind fun _ =>
          cudaPeekAtLastError_records.bind fun _ => .pure _)

theorem enqueueOpen_records (key frame plain : Ptr) (plaintextLen : Nat)
    (authOk stream : Ptr) :
    Records (enqueueOpen key frame plain plaintextLen authOk stream) :=
  (readHandle_records _).bind fun _ => (enqueueGhash_records _ _ _ _).bind
    fun _ => .ite (.pure _) ((launchKernel_records _ _ _ _).bind fun _ =>
      (launchCtr_records _ _ _ _ _ _ _).bind fun _ =>
        cudaPeekAtLastError_records.bind fun _ => .pure _)

theorem createTables_records (h : Ptr) (key : Vector Byte 16) (device : Int)
    (out : Ptr) : Records (createTables h key device out) := by
  have undo : Records (do deleteHandle h; pure .errCuda : Cuda ReturnCode) :=
    (deleteHandle_records h).bind fun _ => .pure _
  refine (modifyHandle_records _ _).bind fun _ =>
    (cudaMemcpyToSymbol_records _).bind fun _ => .ite undo
      ((cudaMalloc_records _).bind fun first => ?_)
  cases first with
  | error rc => exact (deleteHandle_records h).bind fun _ => .pure _
  | ok roundKeys =>
      refine (modifyHandle_records _ _).bind fun _ =>
        (cudaMalloc_records _).bind fun second => ?_
      cases second with
      | error rc =>
          exact (cudaFree_records _).bind fun _ =>
            (deleteHandle_records h).bind fun _ => .pure _
      | ok hPow2 =>
          have undoTables : Records (do
              let _ ← cudaFree hPow2
              let _ ← cudaFree roundKeys
              deleteHandle h
              pure .errCuda : Cuda ReturnCode) :=
            (cudaFree_records _).bind fun _ => (cudaFree_records _).bind
              fun _ => undo
          refine (modifyHandle_records _ _).bind fun _ =>
            (cudaMemcpy_records _ _).bind fun _ => .ite undoTables ?_
          refine (launchKernel_records _ _ _ _).bind fun _ =>
            cudaDeviceSynchronize_records.bind fun _ => .ite undoTables ?_
          refine .bind ?_ fun _ => .pure _
          exact .of_silent (fun _ _ => rfl) (fun _ _ => rfl) fun _ _ => rfl

end GpuKvSeal.Host
