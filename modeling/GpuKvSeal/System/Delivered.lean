import GpuKvSeal.System.Interleaving

/-!
# What a program delivers

A call that reports success has done its work for good: once everything has run,
in whatever interleaving, each frame that was sealed is the standard frame of its
text under the key its handle was created with, and each frame that was opened
has its verdict and its text.  Keys may be created and destroyed on the way, and
allocations and copies may fail.
-/

namespace GpuKvSeal.System

open BigEndian (Byte)
open CellProgram.Program (Agree)
open Device
open Host
open Refinement
open Standard (sealFrame)
open Standard.Gcm (aes)
open ThreadPool (Steps)
open TracedState.Traced (Ensures)

/-- The secret behind each handle after a call. -/
def secretsAfter (driver : Driver) (secrets : Ptr → Vector Byte 16) (s : HostState) :
    ApiCall → Ptr → Vector Byte 16
  | .keyCreate (some key) keyLen device out =>
      let o := lmcacheGpuAes128gcmKeyCreate (some key) keyLen device out driver s
      if o.value = .ok then Function.update secrets (o.state.outs out) key else secrets
  | .keyCreate none .. | .keyDestroy .. | .reserve .. | .sealAsync .. | .openAsync .. =>
      secrets

/-- What a successful call leaves in memory. -/
def Result (secret : Vector Byte 16) (memory : Memory) : ApiCall → Prop
  | .sealAsync _ src plaintextLen dst _ iv _ => ∀ nonce, iv = some nonce →
      (bytesAt memory dst (plaintextLen + 29)).toList =
        sealFrame (aes secret) nonce (bytesAt memory src plaintextLen).toList
  | .openAsync _ src _ dst plaintextLen authOk _ =>
      let f := framePartsAt memory src plaintextLen
      memory (.flag authOk) = openedFlag secret f ∧
        (bytesAt memory dst plaintextLen).toList = openedText secret f
  | .keyCreate .. | .keyDestroy .. | .reserve .. => True

/-- In the memory, every call that has succeeded has left its result. -/
def Delivers (driver : Driver) (memory : Memory) :
    (Ptr → Vector Byte 16) → HostState → List ApiCall → Prop
  | _, _, [] => True
  | secrets, s, c :: rest =>
      ((c.perform driver s).value = .ok → Result (secrets c.handle) memory c) ∧
        Delivers driver memory (secretsAfter driver secrets s c)
          (c.perform driver s).state rest

/-! ## One call -/

/-- The cells of a caller. -/
def isCaller : Cell → Prop
  | .byte _ | .flag _ => True
  | .sbox _ | .roundKeys _ | .hPow2 _ _ | .node _ _ => False

theorem caller_isCaller {c : ApiCall} {cell : Cell}
    (caller : cell ∈ c.inputs ∪ c.outputs) : isCaller cell := by
  have apart := Set.disjoint_left.mp (caller_apart c {}) caller
  cases cell with
  | byte | flag => trivial
  | sbox | roundKeys | hPow2 => exact absurd (Or.inr trivial) apart
  | node buffer i => exact absurd trivial (caller_notNode caller)

/-- A creation writes nothing of a caller. -/
theorem creation_frame (schedule : Schedule) {s : HostState} {events : List Event}
    (creation : Creation s events) (memory : Memory) {cell : Cell}
    (caller : isCaller cell) : drain schedule events memory cell = memory cell := by
  induction events generalizing memory with
  | nil => rfl
  | cons event rest ih =>
      obtain ⟨here, later⟩ := List.forall_mem_cons.mp creation
      refine (ih later _).trans ?_
      cases here with
      | memcpyToSymbol device =>
          refine CellProgram.Store.update_of_ne _ _ ?_
          rintro rfl
          exact caller
      | memcpy bytes fresh =>
          refine CellProgram.Store.update_of_ne _ _ ?_
          rintro rfl
          exact caller
      | initHashKey device roundKeys fresh =>
          refine Launch.run_frame schedule _ memory ?_
          rintro ⟨_, -, i, -, rfl⟩
          exact caller
      | synchronize => rfl
      | malloc p => rfl
      | free p => rfl

/-- A call of a program leaves everything of a caller alone but its results. -/
theorem call_frame {driver : Driver} (reliable : driver.Succeeds cleanupCalls)
    {streams : Ptr → Ptr} {c : ApiCall} {rest : List ApiCall}
    (arranged : Arranged streams (c :: rest)) {s : HostState} {leaked : List Block}
    (accounted : Accounted s leaked) (allowed : c.Allowed s) (schedule : Schedule)
    (memory : Memory) {cell : Cell} (caller : isCaller cell)
    (outside : cell ∉ c.outputs) :
    drain schedule (c.perform driver s).events memory cell = memory cell := by
  rcases arranged.known c (List.mem_cons_self ..) with
    operation | ⟨p, rfl⟩ | ⟨key, keyLen, device, out, rfl⟩
  · have asks := operation_asks reliable operation accounted allowed
    unfold Ensures at asks
    rcases asks with ⟨none, -⟩ | ⟨h, h', before, full, launched, -, -, issued, part, split⟩
    · rw [none]
      rfl
    · rw [split, drain_append, drain_bookkeeping schedule issued.bookkeeping,
        drain_launchEvents]
      refine runAll_frame schedule (fun l member write => ?_) memory
      rcases issued.launched with rfl | ⟨rfl, -⟩
      · cases part.subset member
      · have writes := (launches_inside operation h.device h' l
          (part.subset member)).2
        rcases writes write with result | ⟨i, rfl | rfl⟩
        · exact outside result
        · exact caller
        · exact caller
  · by_cases null : p = 0
    · rw [ApiCall.perform, lmcacheGpuAes128gcmKeyDestroy, if_pos null]
      rfl
    · obtain ⟨h, live⟩ : ∃ h, s.handles.lookup p = some h :=
        Option.isSome_iff_exists.mp (AList.lookup_isSome.mpr (allowed.resolve_left null))
      have destroyed := lmcacheGpuAes128gcmKeyDestroy_spec driver accounted live
      unfold Ensures at destroyed
      exact creation_frame schedule (destroyed.events.creation s) memory caller
  · by_cases refused : key = none ∨ out = 0 ∨ keyLen ≠ 16
    · rw [ApiCall.perform, lmcacheGpuAes128gcmKeyCreate_refused device refused]
      rfl
    · obtain ⟨given, nonnull, rfl⟩ : key ≠ none ∧ out ≠ 0 ∧ keyLen = 16 := by
        simpa using refused
      obtain ⟨secret, rfl⟩ := Option.ne_none_iff_exists'.mp given
      have created := lmcacheGpuAes128gcmKeyCreate_spec driver secret device nonnull
        accounted
      unfold Ensures at created
      exact creation_frame schedule created.creation memory caller

/-! ## Keys -/

/-- The calls a program may not see fail. -/
abbrev programCalls : Set RuntimeCall := {.launch, .free, .getDevice, .setDevice}

theorem programCalls_cleanup {driver : Driver}
    (reliable : driver.Succeeds programCalls) : driver.Succeeds cleanupCalls :=
  fun kind member => reliable kind (Or.inr member)

theorem programCalls_create {driver : Driver}
    (reliable : driver.Succeeds programCalls) :
    driver.Succeeds {.getDevice, .setDevice, .launch} := by
  rintro kind (rfl | rfl | rfl)
  · exact reliable .getDevice (by simp)
  · exact reliable .setDevice (by simp)
  · exact reliable .launch (by simp)

/-- The state comes from a run, and every live handle was created with its
secret. -/
structure Known (schedule : Schedule) (secrets : Ptr → Vector Byte 16)
    (s : HostState) (memory : Memory) : Prop where
  run : ∃ start calls, Fresh start ∧ Run (fun _ => True) start calls s
  live : ∀ p ∈ s.handles, Live schedule (secrets p) p s memory

theorem Known.accounted {schedule : Schedule} {secrets : Ptr → Vector Byte 16}
    {s : HostState} {memory : Memory} (known : Known schedule secrets s memory) :
    ∃ leaked, Accounted s leaked := by
  obtain ⟨start, calls, fresh, run⟩ := known.run
  exact run.accounted ⟨[], fresh.accounted⟩

section Known

variable {driver : Driver} (reliable : driver.Succeeds programCalls)
  {schedule : Schedule} {secrets : Ptr → Vector Byte 16} {s : HostState}
  {memory : Memory} (known : Known schedule secrets s memory)

include known

/-- A call that creates nothing and destroys no other handle than its own. -/
theorem Known.old {c : ApiCall} (allowed : c.Allowed s)
    (same : secretsAfter driver secrets s c = secrets)
    (none : ∀ p ∈ (c.perform driver s).state.handles,
      p ∈ s.handles ∧ c ≠ .keyDestroy p) :
    Known schedule (secretsAfter driver secrets s c) (c.perform driver s).state
      (drain schedule (c.perform driver s).events memory) where
  run := by
    obtain ⟨start, calls, fresh, run⟩ := known.run
    exact ⟨start, _, fresh, run.call trivial c allowed⟩
  live := by
    intro p member
    obtain ⟨before, undestroyed⟩ := none p member
    rw [same]
    exact (known.live p before).call driver c allowed undestroyed

include reliable in
theorem Known.operation {c : ApiCall} (operation : c.Operation)
    (allowed : c.Allowed s) :
    Known schedule (secretsAfter driver secrets s c) (c.perform driver s).state
      (drain schedule (c.perform driver s).events memory) := by
  obtain ⟨leaked, accounted⟩ := known.accounted
  have asks := operation_asks (programCalls_cleanup reliable) operation accounted allowed
  unfold Ensures at asks
  refine known.old allowed (by cases operation <;> rfl) fun p member => ?_
  refine ⟨?_, by rintro rfl; cases operation⟩
  rcases asks with ⟨-, same⟩ | ⟨h, h', before, full, launched, live, -, issued, -⟩
  · rwa [same] at member
  · by_cases own : p = c.handle
    · rw [own, ← AList.lookup_isSome, live]
      rfl
    · rwa [← AList.lookup_isSome, issued.updated.others p own,
        AList.lookup_isSome] at member

theorem Known.keyDestroy {key : Ptr} (allowed : (ApiCall.keyDestroy key).Allowed s) :
    Known schedule secrets ((ApiCall.keyDestroy key).perform driver s).state
      (drain schedule ((ApiCall.keyDestroy key).perform driver s).events memory) := by
  obtain ⟨leaked, accounted⟩ := known.accounted
  refine known.old allowed rfl fun p member => ?_
  by_cases null : key = 0
  · rw [ApiCall.perform, lmcacheGpuAes128gcmKeyDestroy, if_pos null] at member
    refine ⟨member, fun same => ?_⟩
    rw [ApiCall.keyDestroy.inj same] at null
    exact accounted.keys p member null
  · obtain ⟨h, live⟩ : ∃ h, s.handles.lookup key = some h :=
      Option.isSome_iff_exists.mp (AList.lookup_isSome.mpr (allowed.resolve_left null))
    have destroyed := lmcacheGpuAes128gcmKeyDestroy_spec driver accounted live
    unfold Ensures at destroyed
    have handles := destroyed.handles
    rw [ApiCall.perform, handles] at member
    obtain ⟨different, before⟩ := AList.mem_erase.mp member
    refine ⟨before, fun same => ?_⟩
    cases same
    exact different rfl

include reliable in
theorem Known.keyCreate (key : Option (Vector Byte 16)) (keyLen : Nat) (device : Int)
    (out : Ptr) :
    let c : ApiCall := .keyCreate key keyLen device out
    Known schedule (secretsAfter driver secrets s c) (c.perform driver s).state
      (drain schedule (c.perform driver s).events memory) := by
  intro c
  have allowed : c.Allowed s := Or.inl rfl
  obtain ⟨leaked, accounted⟩ := known.accounted
  obtain ⟨start, calls, fresh, run⟩ := known.run
  by_cases refused : key = none ∨ out = 0 ∨ keyLen ≠ 16
  · have nothing := congrFun (congrFun
      (lmcacheGpuAes128gcmKeyCreate_refused device refused) driver) s
    refine known.old allowed ?_ fun p member => ⟨?_, by simp [c]⟩
    · cases key with
      | none => rfl
      | some key =>
          simp only [c, secretsAfter, nothing]
          rfl
    · rw [show c.perform driver s = _ from nothing] at member
      exact member
  obtain ⟨given, nonnull, rfl⟩ : key ≠ none ∧ out ≠ 0 ∧ keyLen = 16 := by
    simpa using refused
  obtain ⟨secret, rfl⟩ := Option.ne_none_iff_exists'.mp given
  have created := lmcacheGpuAes128gcmKeyCreate_spec driver secret device nonnull
    accounted
  unfold Ensures at created
  by_cases ok : (lmcacheGpuAes128gcmKeyCreate (some secret) 16 device out driver
      s).value = .ok
  · have secrets' : secretsAfter driver secrets s c = Function.update secrets
        ((c.perform driver s).state.outs out) secret := if_pos ok
    refine ⟨⟨start, _, fresh, run.call trivial c allowed⟩, fun p member => ?_⟩
    rw [secrets']
    by_cases new : p = (c.perform driver s).state.outs out
    · rw [new, Function.update_self]
      exact .created fresh run memory (programCalls_create reliable) device out ok rfl
    · rw [Function.update_of_ne new]
      refine (known.live p ?_).call driver c allowed (by simp [c])
      obtain ⟨q, h, handles, outs⟩ := created.inserted ok
      rw [show (c.perform driver s).state.outs out = q from outs] at new
      rw [show (c.perform driver s).state.handles = _ from handles] at member
      exact ((AList.mem_insert _).mp member).resolve_left new
  · refine known.old allowed (if_neg ok) fun p member => ⟨?_, by simp [c]⟩
    rwa [show (c.perform driver s).state.handles = _ from created.unchanged ok] at member

end Known

/-! ## Results -/

/-- A result depends on the buffers of its call only. -/
theorem Result.congr {c : ApiCall} (operation : c.Operation)
    {secret : Vector Byte 16} {first second : Memory} (result : Result secret first c)
    (agree : Agree (c.inputs ∪ c.outputs) second first) : Result secret second c := by
  cases operation with
  | reserve => trivial
  | @sealAsync key src dst plaintextLen admissible apart dstCapacity iv stream =>
      intro nonce given
      have source : bytesAt second src plaintextLen = bytesAt first src plaintextLen :=
        bytesAt_of_agree fun cell inside => agree cell (Or.inl inside)
      have frame : bytesAt second dst (plaintextLen + 29) =
          bytesAt first dst (plaintextLen + 29) :=
        bytesAt_of_agree fun cell inside => agree cell (Or.inr inside)
      rw [source, frame]
      exact result nonce given
  | @openAsync key src dst plaintextLen admissible apart frameLen authOk stream =>
      have source : framePartsAt second src plaintextLen =
          framePartsAt first src plaintextLen :=
        framePartsAt_of_agree (by omega) fun cell inside => agree cell (Or.inl inside)
      have text : bytesAt second dst plaintextLen = bytesAt first dst plaintextLen :=
        bytesAt_of_agree fun cell inside => agree cell (Or.inr (Or.inl inside))
      have flag : second (.flag authOk) = first (.flag authOk) :=
        agree _ (Or.inr (Or.inr rfl))
      show _ ∧ _
      rw [source, text, flag]
      exact result

/-- A successful operation leaves its result. -/
theorem Known.result {driver : Driver} {schedule : Schedule}
    {secrets : Ptr → Vector Byte 16} {s : HostState} {memory : Memory}
    (known : Known schedule secrets s memory) {c : ApiCall} (operation : c.Operation)
    (allowed : c.Allowed s) (ok : (c.perform driver s).value = .ok)
    (source : Agree c.inputs (drain schedule (c.perform driver s).events memory)
      memory) :
    Result (secrets c.handle) (drain schedule (c.perform driver s).events memory) c := by
  cases operation with
  | reserve => trivial
  | @sealAsync key src dst plaintextLen admissible apart dstCapacity iv stream =>
      rintro nonce rfl
      by_cases admits : SealAdmits key src plaintextLen dst dstCapacity
      · have live := known.live key (allowed.resolve_left admits.key)
        have frame := seal_result live admits.src admits.dst admissible
          (frame_room admissible admits.frame) apart nonce stream driver ok
        rw [bytesAt_of_agree source]
        exact frame.1
      · rw [ApiCall.perform, lmcacheGpuAes128gcmSealAsync_refused admits] at ok
        cases ok
  | @openAsync key src dst plaintextLen admissible apart frameLen authOk stream =>
      by_cases admits : OpenAdmits key src frameLen dst plaintextLen authOk
      · have live := known.live key (allowed.resolve_left admits.key)
        have opened := (open_result live admits.src admits.dst admits.authOk admissible
          (frame_room admissible admits.frame) apart stream driver).2 ok
        show _ ∧ _
        rw [framePartsAt_of_agree (by omega) source]
        exact ⟨opened.1, opened.2.1⟩
      · rw [ApiCall.perform, lmcacheGpuAes128gcmOpenAsync_refused admits] at ok
        cases ok

/-- The events of a program in the order of the host deliver. -/
theorem Known.delivered {driver : Driver} (reliable : driver.Succeeds programCalls)
    {streams : Ptr → Ptr} {calls : List ApiCall} {secrets : Ptr → Vector Byte 16}
    {s : HostState} {memory : Memory} (known : Known inOrder secrets s memory)
    (arranged : Arranged streams calls) (valid : Valid driver s calls) :
    let final := drain inOrder (programEvents driver s calls) memory
    (∀ cell, isCaller cell → (∀ c ∈ calls, cell ∉ c.outputs) →
        final cell = memory cell) ∧
      Delivers driver final secrets s calls := by
  induction calls generalizing secrets s memory with
  | nil => exact ⟨fun _ _ _ => rfl, trivial⟩
  | cons c rest ih =>
      intro final
      obtain ⟨allowed, valid'⟩ := valid
      obtain ⟨leaked, accounted⟩ := known.accounted
      have here := List.mem_cons_self (a := c) (l := rest)
      have buffers := (List.pairwise_cons.mp arranged.apart).1
      let next := drain inOrder (c.perform driver s).events memory
      have frame : ∀ cell, isCaller cell → cell ∉ c.outputs →
          next cell = memory cell := fun cell caller outside =>
        call_frame (programCalls_cleanup reliable) arranged accounted allowed inOrder memory
          caller outside
      have known' : Known inOrder (secretsAfter driver secrets s c)
          (c.perform driver s).state next := by
        rcases arranged.known c here with
          operation | ⟨p, rfl⟩ | ⟨key, keyLen, device, out, rfl⟩
        · exact known.operation reliable operation allowed
        · exact known.keyDestroy allowed
        · exact known.keyCreate reliable key keyLen device out
      obtain ⟨later, others⟩ := ih known' arranged.tail valid'
      have rests : final = drain inOrder
          (programEvents driver (c.perform driver s).state rest) next :=
        drain_append inOrder _ _ memory
      rw [← rests] at later others
      refine ⟨fun cell caller outside => ?_, fun ok => ?_, others⟩
      · obtain ⟨notHere, notLater⟩ := List.forall_mem_cons.mp outside
        exact (later cell caller notLater).trans (frame cell caller notHere)
      -- Nobody touches the source and the result of the call afterwards.
      · have kept : Agree (c.inputs ∪ c.outputs) final next := fun cell inside =>
          later cell (caller_isCaller inside) fun d member theirs =>
            Set.disjoint_left.mp (buffers d member).outputs theirs inside
        rcases arranged.known c here with operation | ⟨p, rfl⟩ | ⟨_, _, _, _, rfl⟩
        · refine Result.congr operation (known.result operation allowed ok ?_) kept
          intro cell inside
          exact frame cell (caller_isCaller (Or.inl inside)) fun result =>
            Set.disjoint_left.mp (outputs_apart operation) result inside
        · trivial
        · trivial

/-- In the memory that the events of a program leave, every call has its result. -/
theorem program_delivered {driver : Driver} (reliable : driver.Succeeds programCalls)
    {streams : Ptr → Ptr} {calls : List ApiCall} (arranged : Arranged streams calls)
    {s : HostState} (fresh : Fresh s) (valid : Valid driver s calls) (memory : Memory)
    (secrets : Ptr → Vector Byte 16) :
    Delivers driver (drain inOrder (programEvents driver s calls) memory) secrets s
      calls := by
  have known : Known inOrder secrets s memory :=
    ⟨⟨s, [], fresh, .nil⟩, fun p member => by
      rw [fresh.handles] at member
      cases member⟩
  exact (known.delivered reliable arranged valid).2

end GpuKvSeal.System
