import GpuKvSeal.Host.Workspace

/-!
# The launches of one operation

The complete list of launches of a seal and of an open, and what a call
enqueues of it.  A call that returns success has enqueued the whole list; any
other call has enqueued part of it, in the same order.
-/

namespace GpuKvSeal.Host

open Device (Ptr Launch Kernel blockCount advance HEADER_LEN)
open BigEndian (Byte)
open TracedState.Traced (Ensures)

/-! ## The lists -/

/-- The combine launches that take `count` nodes to one. -/
def reduceLaunches (device : Int) (hPow2 : Ptr) (input output : Ptr)
    (count : Nat) : List Launch :=
  if count > 1 then
    ⟨device, .ghashCombine input output count hPow2,
      castInt (((count + 1) / 2 + 128 - 1) / 128), 128⟩ ::
        reduceLaunches device hPow2 output input ((count + 1) / 2)
  else []
termination_by count

/-- Every launch of a reduction combines at most `count` nodes from one of the two
buffers into the other. -/
theorem mem_reduceLaunches {device : Int} {hPow2 : Ptr} {count : Nat} :
    ∀ {a b : Ptr} {l : Launch}, l ∈ reduceLaunches device hPow2 a b count →
      ∃ input output n, (input = a ∧ output = b ∨ input = b ∧ output = a) ∧
        1 < n ∧ n ≤ count ∧
        l = ⟨device, .ghashCombine input output n hPow2,
          castInt (((n + 1) / 2 + 128 - 1) / 128), 128⟩ := by
  induction count using Nat.strongRecOn with
  | ind count ih =>
      intro a b l member
      rw [reduceLaunches] at member
      by_cases more : count > 1
      · rw [if_pos more] at member
        rcases List.mem_cons.mp member with same | later
        · exact ⟨a, b, count, Or.inl ⟨rfl, rfl⟩, more, le_refl count, same⟩
        · obtain ⟨input, output, n, buffers, several, fewer, same⟩ :=
            ih ((count + 1) / 2) (by omega) later
          exact ⟨input, output, n, buffers.symm, several, by omega, same⟩
      · rw [if_neg more] at member
        cases member

/-- The buffer in which the combine launches leave the last node. -/
def reduceRoot (input output : Ptr) (count : Nat) : Ptr :=
  if count > 1 then reduceRoot output input ((count + 1) / 2) else input
termination_by count

/-- The launches of the hash of a ciphertext. -/
def ghashLaunches (device : Int) (h : KeyHandle) (ciphertext : Ptr)
    (ciphertextLen : Nat) : List Launch :=
  ⟨device, .ghashSegment ciphertext ciphertextLen h.dHPow2 h.dNodesA,
    castInt ((requiredNodes ciphertextLen + 128 - 1) / 128), 128⟩ ::
      reduceLaunches device h.dHPow2 h.dNodesA h.dNodesB
        (requiredNodes ciphertextLen)

/-- The buffer of the root node of a hash. -/
def ghashRoot (h : KeyHandle) (ciphertextLen : Nat) : Ptr :=
  reduceRoot h.dNodesA h.dNodesB (requiredNodes ciphertextLen)

/-- The counter launch, if there is one. -/
def ctrLaunches (device : Int) (src dst : Ptr) (len : Nat) (iv roundKeys : Ptr)
    (authOk : Option Ptr) : List Launch :=
  if blockCount len > 0 then
    [⟨device, .ctrCrypt src dst len iv roundKeys authOk,
      castInt ((blockCount len + 256 - 1) / 256), 256⟩]
  else []

/-- The launches of a seal before the tag. -/
def sealFront (device : Int) (h : KeyHandle) (src : Ptr) (plaintextLen : Nat)
    (dst : Ptr) (iv : Vector Byte 12) : List Launch :=
  ⟨device, .writeFrameHeader dst iv, 1, 1⟩ ::
    (ctrLaunches device src (advance dst HEADER_LEN) plaintextLen
        (advance dst 1) h.dRoundKeys none ++
      ghashLaunches device h (advance dst HEADER_LEN) plaintextLen)

/-- The launches of a seal. -/
def sealLaunches (device : Int) (h : KeyHandle) (src : Ptr) (plaintextLen : Nat)
    (dst : Ptr) (iv : Vector Byte 12) : List Launch :=
  ⟨device, .writeFrameHeader dst iv, 1, 1⟩ ::
    (ctrLaunches device src (advance dst HEADER_LEN) plaintextLen
        (advance dst 1) h.dRoundKeys none ++
      (ghashLaunches device h (advance dst HEADER_LEN) plaintextLen ++
        [⟨device, .finalizeTag dst plaintextLen h.dRoundKeys
          (ghashRoot h plaintextLen), 1, 1⟩]))

/-- The last launch of a seal computes the tag. -/
theorem sealLaunches_eq (device : Int) (h : KeyHandle) (src : Ptr)
    (plaintextLen : Nat) (dst : Ptr) (iv : Vector Byte 12) :
    sealLaunches device h src plaintextLen dst iv =
      sealFront device h src plaintextLen dst iv ++
        [⟨device, .finalizeTag dst plaintextLen h.dRoundKeys
          (ghashRoot h plaintextLen), 1, 1⟩] := by
  simp [sealLaunches, sealFront]

/-- The launch of the tag check. -/
def verifyLaunch (device : Int) (h : KeyHandle) (src : Ptr) (plaintextLen : Nat)
    (authOk : Ptr) : Launch :=
  ⟨device, .verifyTag src plaintextLen h.dRoundKeys (ghashRoot h plaintextLen)
    authOk, 1, 1⟩

/-- The counter launch of an open. -/
def openCtrLaunches (device : Int) (h : KeyHandle) (src dst : Ptr)
    (plaintextLen : Nat) (authOk : Ptr) : List Launch :=
  ctrLaunches device (advance src HEADER_LEN) dst plaintextLen (advance src 1)
    h.dRoundKeys (some authOk)

/-- The launches of an open. -/
def openLaunches (device : Int) (h : KeyHandle) (src dst : Ptr)
    (plaintextLen : Nat) (authOk : Ptr) : List Launch :=
  ghashLaunches device h (advance src HEADER_LEN) plaintextLen ++
    (verifyLaunch device h src plaintextLen authOk ::
      openCtrLaunches device h src dst plaintextLen authOk)

/-- The events of launches on one stream. -/
def launchEvents (stream : Ptr) (launches : List Launch) : List Event :=
  launches.map (Event.launch stream)

@[simp]
theorem launchEvents_append (stream : Ptr) (first second : List Launch) :
    launchEvents stream (first ++ second) =
      launchEvents stream first ++ launchEvents stream second :=
  List.map_append ..

/-! ## What a call enqueues -/

/-- No launch of the list has a grid the runtime refuses. -/
def GridsValid (launches : List Launch) : Prop := ∀ l ∈ launches, 1 ≤ l.grid

/-- Why a launch of the list may be rejected. -/
def Rejectable (driver : Driver) (launches : List Launch) : Prop :=
  GridsValid launches → ¬ driver.Succeeds {.launch}

theorem Rejectable.mono {driver : Driver} {launches launches' : List Launch}
    (rejectable : Rejectable driver launches)
    (subset : launches ⊆ launches') : Rejectable driver launches' :=
  fun valid => rejectable fun l member => valid l (subset member)

/-- A part of a call either enqueues all its launches, or it leaves an error
and has enqueued some of them in order. -/
structure Pipe (driver : Driver) (s s' : HostState) (stream : Ptr)
    (launches : List Launch) (events : List Event) : Prop where
  quiet : Quiet s s'
  outcome : (events = launchEvents stream launches ∧
      s'.lastError = s.lastError) ∨
    (s'.lastError ≠ cudaSuccess ∧
      (s.lastError = cudaSuccess → Rejectable driver launches) ∧
      ∃ part, part.Sublist launches ∧ events = launchEvents stream part)

theorem Pipe.nil (driver : Driver) (s : HostState) (stream : Ptr) :
    Pipe driver s s stream [] [] := ⟨Quiet.refl s, Or.inl ⟨rfl, rfl⟩⟩

/-- Two parts one after another. -/
theorem Pipe.append {driver : Driver} {s s₁ s₂ : HostState} {stream : Ptr}
    {first second : List Launch} {events events' : List Event}
    (before : Pipe driver s s₁ stream first events)
    (after : Pipe driver s₁ s₂ stream second events') :
    Pipe driver s s₂ stream (first ++ second) (events ++ events') where
  quiet := before.quiet.trans after.quiet
  outcome := by
    rcases before.outcome with
      ⟨rfl, error₁⟩ | ⟨error₁, refused₁, part₁, inside₁, rfl⟩
    · rcases after.outcome with
        ⟨rfl, error₂⟩ | ⟨error₂, refused₂, part₂, inside₂, rfl⟩
      · exact Or.inl ⟨(launchEvents_append ..).symm, error₂.trans error₁⟩
      · exact Or.inr ⟨error₂, fun clear => (refused₂ (error₁.trans clear)).mono
          (List.subset_append_right ..), first ++ part₂, inside₂.append_left _,
          (launchEvents_append ..).symm⟩
    · have refused : s.lastError = cudaSuccess →
          Rejectable driver (first ++ second) := fun clear =>
        (refused₁ clear).mono (List.subset_append_left ..)
      rcases after.outcome with ⟨rfl, error₂⟩ | ⟨error₂, -, part₂, inside₂, rfl⟩
      · refine Or.inr ⟨?_, refused, part₁ ++ second, inside₁.append_right _,
          (launchEvents_append ..).symm⟩
        rw [error₂]
        exact error₁
      · exact Or.inr ⟨error₂, refused, part₁ ++ part₂, inside₁.append inside₂,
          (launchEvents_append ..).symm⟩

/-- A part that left an error ends the call: what would follow is left out. -/
theorem Pipe.stop {driver : Driver} {s s' : HostState} {stream : Ptr}
    {launches : List Launch} {events : List Event}
    (pipe : Pipe driver s s' stream launches events)
    (error : s'.lastError ≠ cudaSuccess) (rest : List Launch) :
    Pipe driver s s' stream (launches ++ rest) events where
  quiet := pipe.quiet
  outcome := by
    refine Or.inr ⟨error, ?_⟩
    rcases pipe.outcome with ⟨rfl, same⟩ | ⟨-, refused, part, inside, rfl⟩
    · refine ⟨fun clear => absurd (same.trans clear) error, launches,
        List.sublist_append_left .., rfl⟩
    · exact ⟨fun clear => (refused clear).mono (List.subset_append_left ..),
        part, inside.trans (List.sublist_append_left ..), rfl⟩

/-- Without an error at the end everything was enqueued. -/
theorem Pipe.complete {driver : Driver} {s s' : HostState} {stream : Ptr}
    {launches : List Launch} {events : List Event}
    (pipe : Pipe driver s s' stream launches events)
    (clear : s'.lastError = cudaSuccess) :
    events = launchEvents stream launches ∧ s.lastError = cudaSuccess := by
  rcases pipe.outcome with ⟨rfl, same⟩ | ⟨error, -⟩
  · exact ⟨rfl, same.symm.trans clear⟩
  · exact absurd clear error

/-- In every case the events are launches of the list. -/
theorem Pipe.part {driver : Driver} {s s' : HostState} {stream : Ptr}
    {launches : List Launch} {events : List Event}
    (pipe : Pipe driver s s' stream launches events) :
    ∃ part, part.Sublist launches ∧ events = launchEvents stream part := by
  rcases pipe.outcome with ⟨rfl, -⟩ | ⟨-, -, part⟩
  · exact ⟨launches, List.Sublist.refl _, rfl⟩
  · exact part

/-- One launch. -/
theorem launchKernel_pipe (driver : Driver) (s : HostState) (kernel : Kernel)
    (grid : Int) (threads : Nat) (stream : Ptr) :
    (launchKernel kernel grid threads stream).Ensures driver s
      fun _ s' events =>
        Pipe driver s s' stream [⟨s.device, kernel, grid, threads⟩] events := by
  refine (launchKernel_spec driver s kernel grid threads stream).mono ?_
  rintro - s' events ⟨quiet, ⟨-, -, rfl, same⟩ | ⟨refused, rfl, error⟩⟩
  · exact ⟨quiet, Or.inl ⟨rfl, same⟩⟩
  · refine ⟨quiet, Or.inr ⟨error, fun _ valid reliable => ?_, [],
      List.nil_sublist _, rfl⟩⟩
    exact refused (valid _ (List.mem_singleton_self _)) (reliable .launch rfl _)

/-- The counter launch, or nothing for an empty text. -/
theorem launchCtr_pipe (driver : Driver) (s : HostState) (src dst : Ptr)
    (len : Nat) (iv roundKeys : Ptr) (authOk : Option Ptr) (stream : Ptr) :
    (launchCtr src dst len iv roundKeys authOk stream).Ensures driver s
      fun _ s' events => Pipe driver s s' stream
        (ctrLaunches s.device src dst len iv roundKeys authOk) events := by
  unfold launchCtr ctrLaunches
  by_cases some : blockCount len > 0
  · simp only [if_pos some]
    exact launchKernel_pipe driver s _ _ _ stream
  · simp only [if_neg some]
    exact Ensures.pure (Pipe.nil driver s stream)

theorem cudaRc_success : cudaRc cudaSuccess = .ok := rfl

theorem cudaRc_of_ne {rc : CudaError} (error : rc ≠ cudaSuccess) :
    cudaRc rc = .errCuda := if_neg error

theorem cudaRc_ok {rc : CudaError} (ok : cudaRc rc = .ok) :
    rc = cudaSuccess := by
  by_contra error
  rw [cudaRc_of_ne error] at ok
  cases ok

/-- The reduction loop, entered without a pending error. -/
theorem reduceLoop_spec (driver : Driver) (hPow2 stream : Ptr) (count : Nat) :
    ∀ (s : HostState) (input output : Ptr), s.lastError = cudaSuccess →
    (reduceLoop hPow2 stream input output count).Ensures driver s
      fun result s' events =>
        Pipe driver s s' stream
          (reduceLaunches s.device hPow2 input output count) events ∧
        result.1 = cudaRc s'.lastError ∧
        (result.1 = .ok → result.2 = reduceRoot input output count) := by
  induction count using Nat.strongRecOn with
  | ind count ih =>
      intro s input output clear
      rw [reduceLoop, reduceLaunches, reduceRoot]
      by_cases more : count > 1
      · simp only [if_pos more]
        refine (launchKernel_pipe driver s _ _ _ stream).bind ?_
        rintro - s₁ events₁ first
        refine Ensures.bind_eq (cudaPeekAtLastError_apply driver s₁)
          (Ensures.ite (fun error => ?_) fun none => ?_)
        · refine Ensures.pure ⟨?_, (cudaRc_of_ne error).symm,
            fun ok => by cases ok⟩
          rw [List.nil_append, List.append_nil]
          exact first.stop error _
        · have clear₁ : s₁.lastError = cudaSuccess := Decidable.not_not.mp none
          refine (ih ((count + 1) / 2) (by omega) s₁ output input clear₁).mono ?_
          rintro result s₂ events₂ ⟨second, code, root⟩
          rw [first.quiet.device] at second
          exact ⟨first.append second, code, root⟩
      · simp only [if_neg more]
        exact Ensures.pure ⟨Pipe.nil driver s stream, by rw [clear]; rfl,
          fun _ => rfl⟩

/-- A workspace that is large enough is left alone. -/
theorem ensureWorkspace_enough (driver : Driver) {s : HostState} {key : Ptr}
    {h : KeyHandle} {plaintextLen : Nat} (live : s.handles.lookup key = some h)
    (fits : requiredNodes plaintextLen ≤ h.nodeCapacity) :
    ensureWorkspace key plaintextLen driver s = ⟨.ok, s, []⟩ := by
  have found : readHandle key driver s = ⟨h, s, []⟩ := by
    rw [readHandle_apply, live]
    rfl
  unfold ensureWorkspace
  rw [TracedState.Traced.bind_apply, found, if_pos fits]
  rfl

section Operations

variable (driver : Driver) {s : HostState} {key : Ptr} {h : KeyHandle}
  {plaintextLen : Nat} (stream : Ptr)
  (live : s.handles.lookup key = some h)
  (fits : requiredNodes plaintextLen ≤ h.nodeCapacity)

include live in
theorem readHandle_live : readHandle key driver s = ⟨h, s, []⟩ := by
  rw [readHandle_apply, live]
  rfl

include live fits in
/-- The hash pipeline with a large enough workspace. -/
theorem enqueueGhash_spec (ciphertext : Ptr) :
    (enqueueGhash key ciphertext plaintextLen stream).Ensures driver s
      fun result s' events =>
        Pipe driver s s' stream
          (ghashLaunches s.device h ciphertext plaintextLen) events ∧
        result.1 = cudaRc s'.lastError ∧
        (result.1 = .ok → result.2 = ghashRoot h plaintextLen) := by
  refine Ensures.bind_eq (ensureWorkspace_enough driver live fits) ?_
  rw [if_neg (by simp)]
  refine Ensures.bind_eq (readHandle_live driver live) ?_
  refine (launchKernel_pipe driver s _ _ _ stream).bind ?_
  rintro - s₁ events₁ first
  refine Ensures.bind_eq (cudaPeekAtLastError_apply driver s₁)
    (Ensures.ite (fun error => ?_) fun none => ?_)
  · refine Ensures.pure ⟨?_, (cudaRc_of_ne error).symm, fun ok => by cases ok⟩
    simp only [List.nil_append, List.append_nil]
    exact first.stop error _
  · have clear₁ : s₁.lastError = cudaSuccess := Decidable.not_not.mp none
    refine (reduceLoop_spec driver h.dHPow2 stream _ s₁ h.dNodesA h.dNodesB
      clear₁).mono ?_
    rintro result s₂ events₂ ⟨second, code, root⟩
    rw [first.quiet.device] at second
    exact ⟨first.append second, code, root⟩

include live fits in
/-- What a seal enqueues once the workspace is large enough: without the tag, if
an error was pending. -/
theorem enqueueSeal_spec (src dst : Ptr) (iv : Vector Byte 12) :
    (enqueueSeal key src plaintextLen dst iv stream).Ensures driver s
      fun rc s' events =>
        Pipe driver s s' stream
          (sealLaunches s.device h src plaintextLen dst iv) events ∧
        rc = cudaRc s'.lastError ∧
        (s.lastError = cudaSuccess ∨
          ∃ part, part.Sublist (sealFront s.device h src plaintextLen dst iv) ∧
            events = launchEvents stream part) := by
  refine Ensures.bind_eq (readHandle_live driver live) ?_
  refine (launchKernel_pipe driver s _ _ _ stream).bind ?_
  rintro - s₁ events₁ header
  refine (launchCtr_pipe driver s₁ _ _ _ _ _ _ stream).bind ?_
  rintro - s₂ events₂ counter
  rw [header.quiet.device] at counter
  have live₂ : s₂.handles.lookup key = some h := by
    rw [counter.quiet.handles, header.quiet.handles]
    exact live
  refine (enqueueGhash_spec driver stream live₂ fits _).bind ?_
  rintro ⟨grc, root⟩ s₃ events₃ ⟨hash, code, rootEq⟩
  rw [counter.quiet.device, header.quiet.device] at hash
  have pipe : Pipe driver s s₃ stream (sealFront s.device h src plaintextLen dst iv)
    (events₁ ++ (events₂ ++ events₃)) := header.append (counter.append hash)
  rw [sealLaunches_eq]
  refine Ensures.ite (fun bad => ?_) fun ok => ?_
  · have error : s₃.lastError ≠ cudaSuccess := fun clear => by
      rw [clear] at code
      exact bad code
    refine Ensures.pure ?_
    simp only [List.nil_append, List.append_nil]
    exact ⟨pipe.stop error _, code, Or.inr pipe.part⟩
  · have ok : grc = .ok := Decidable.not_not.mp ok
    obtain rfl : root = ghashRoot h plaintextLen := rootEq ok
    have clear₃ : s₃.lastError = cudaSuccess := cudaRc_ok (code.symm.trans ok)
    refine (launchKernel_pipe driver s₃ _ _ _ stream).bind ?_
    rintro - s₄ events₄ final
    rw [hash.quiet.device, counter.quiet.device, header.quiet.device] at final
    refine Ensures.bind_eq (cudaPeekAtLastError_apply driver s₄)
      (Ensures.pure ⟨?_, rfl, Or.inl (pipe.complete clear₃).2⟩)
    simpa using pipe.append final

include live fits in
/-- What an open enqueues once the workspace is large enough: a part of the
hash only, or all of it and then each of the last two launches or not. -/
theorem enqueueOpen_spec (src dst authOk : Ptr) :
    (enqueueOpen key src dst plaintextLen authOk stream).Ensures driver s
      fun rc s' events =>
        Pipe driver s s' stream
          (openLaunches s.device h src dst plaintextLen authOk) events ∧
        rc = cudaRc s'.lastError ∧
        ((∃ part, part.Sublist (ghashLaunches s.device h
            (advance src HEADER_LEN) plaintextLen) ∧
            events = launchEvents stream part ∧ s'.lastError ≠ cudaSuccess) ∨
          (s.lastError = cudaSuccess ∧ ∃ check counter,
            check.Sublist [verifyLaunch s.device h src plaintextLen authOk] ∧
            counter.Sublist
              (openCtrLaunches s.device h src dst plaintextLen authOk) ∧
            events = launchEvents stream (ghashLaunches s.device h
              (advance src HEADER_LEN) plaintextLen ++ (check ++ counter)))) := by
  refine Ensures.bind_eq (readHandle_live driver live) ?_
  refine (enqueueGhash_spec driver stream live fits _).bind ?_
  rintro ⟨grc, root⟩ s₁ events₁ ⟨hash, code, rootEq⟩
  refine Ensures.ite (fun bad => ?_) fun ok => ?_
  · have error : s₁.lastError ≠ cudaSuccess := fun clear => by
      rw [clear] at code
      exact bad code
    obtain ⟨part, inside, same⟩ := hash.part
    refine Ensures.pure ⟨?_, code, Or.inl ⟨part, inside, ?_, error⟩⟩
    · rw [List.nil_append, List.append_nil]
      exact hash.stop error _
    · rw [List.nil_append, List.append_nil]
      exact same
  · have ok : grc = .ok := Decidable.not_not.mp ok
    obtain rfl : root = ghashRoot h plaintextLen := rootEq ok
    have clear₁ : s₁.lastError = cudaSuccess := cudaRc_ok (code.symm.trans ok)
    obtain ⟨whole, clear⟩ := hash.complete clear₁
    refine (launchKernel_pipe driver s₁ _ _ _ stream).bind ?_
    rintro - s₂ events₂ check
    refine (launchCtr_pipe driver s₂ _ _ _ _ _ _ stream).bind ?_
    rintro - s₃ events₃ counter
    rw [check.quiet.device, hash.quiet.device] at counter
    rw [hash.quiet.device] at check
    have pipe := hash.append (check.append counter)
    refine Ensures.bind_eq (cudaPeekAtLastError_apply driver s₃)
      (Ensures.pure ⟨?_, rfl, Or.inr ⟨clear, ?_⟩⟩)
    · simpa [openLaunches, openCtrLaunches, verifyLaunch] using pipe
    · obtain ⟨checked, inCheck, rfl⟩ := check.part
      obtain ⟨counted, inCounter, rfl⟩ := counter.part
      exact ⟨checked, counted, inCheck, inCounter, by simp [whole]⟩

end Operations

end GpuKvSeal.Host
