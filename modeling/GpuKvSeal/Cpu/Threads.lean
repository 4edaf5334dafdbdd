import GpuKvSeal.Cpu.Accesses
import GpuKvSeal.Cpu.Works
import GpuKvSeal.Foundations.Workers

/-!
# Threads of the CPU backend

Native calls of several threads interleave access by access.  If none of them writes
what the calls of other threads touch then every thread ends up as if it had run alone.
-/

namespace GpuKvSeal.Cpu

open BigEndian (Byte)
open CellProgram (Store Program)
open Device (Ptr advance FRAME_OVERHEAD)
open Standard.Gcm (aes)

variable {Thread : Type} [DecidableEq Thread]

/-- The calls of a thread, one after another: what they return and what they leave. -/
def runCalls (library : Library) :
    List NativeCall → ProcessState → List Int × ProcessState
  | [], s => ([], s)
  | call :: rest, s =>
      let outcome := call.perform library s
      let later := runCalls library rest outcome.state
      (outcome.value :: later.1, later.2)

/-- Neither call writes what the other one touches. -/
def NativeCall.Apart (first second : NativeCall) : Prop :=
  Disjoint first.writes (second.reads ∪ second.writes) ∧
    Disjoint second.writes (first.reads ∪ first.writes)

/-- What only a thread itself touches. -/
def threadLocal (thread : Thread) : Set (SharedCell Thread) :=
  {.context thread, .returned thread}

/-- The return values a thread has had so far. -/
def returned (thread : Thread) (memory : SharedMemory Thread) : List Int :=
  memory (.returned thread)

/-- Keep the return value of a call. -/
def keepReturned (thread : Thread) (rc : Int) : SharedProgram Thread Unit :=
  .read (.returned thread) fun (before : List Int) =>
    .write (.returned thread) (before ++ [rc] : List Int) (.done ())

/-- A native call as a thread makes it, access by access. -/
structure NativeJob (library : Thread → Library) where
  thread : Thread
  call : NativeCall
  program : SharedProgram Thread Int
  realizes : Realizes (library thread) thread call.reads call.writes call.perform program

section Jobs

variable {library : Thread → Library}

namespace NativeJob

def job (j : NativeJob library) : Workers.Job Thread (@SharedCell.Val Thread) where
  worker := j.thread
  reads := bytes j.call.reads ∪ threadLocal j.thread
  writes := bytes j.call.writes ∪ threadLocal j.thread
  program := j.program >>= keepReturned j.thread
  within := by
    have own : ({.context j.thread} : Set (SharedCell Thread)) ⊆ threadLocal j.thread :=
      Set.singleton_subset_iff.mpr (Or.inl rfl)
    have call := j.realizes.within.mono (Set.union_subset_union_right _ own)
      (Set.union_subset_union_right _ own)
    exact call.bind fun _ => .read (Or.inr (Or.inr rfl)) fun _ =>
      .write (Or.inr (Or.inr rfl)) (.done ())

theorem exec (j : NativeJob library) (memory : SharedMemory Thread) :
    let outcome := j.call.perform (library j.thread) (view j.thread memory)
    view j.thread (j.job.program.exec memory) = outcome.state ∧
      returned j.thread (j.job.program.exec memory) =
        returned j.thread memory ++ [outcome.value] := by
  intro outcome
  have settled : j.job.program.exec memory = (settle j.thread outcome.state memory).update
      (.returned j.thread) (returned j.thread memory ++ [outcome.value] : List Int) := by
    rw [job, Program.exec_bind, j.realizes.exec, j.realizes.value]
    rfl
  rw [settled]
  constructor
  · refine Eq.trans ?_ (view_settle j.thread outcome.state memory)
    rfl
  · exact Store.update_self _ _ _

end NativeJob

/-- The calls of one thread among all. -/
def callsOf (jobs : List (NativeJob library)) (thread : Thread) : List NativeCall :=
  (jobs.filter fun j => j.thread = thread).map NativeJob.call

/-- Jobs of one thread are its calls in order. -/
theorem perform_jobs {jobs : List (NativeJob library)} {thread : Thread}
    (own : ∀ j ∈ jobs, j.thread = thread) (memory : SharedMemory Thread) :
    let final := Workers.perform (jobs.map NativeJob.job) memory
    let outcome := runCalls (library thread) (jobs.map NativeJob.call) (view thread memory)
    view thread final = outcome.2 ∧
      returned thread final = returned thread memory ++ outcome.1 := by
  induction jobs generalizing memory with
  | nil => exact ⟨rfl, (List.append_nil _).symm⟩
  | cons j rest ih =>
      obtain ⟨rfl, later⟩ := List.forall_mem_cons.mp own
      obtain ⟨state, value⟩ := j.exec memory
      obtain ⟨state', values⟩ := ih later (j.job.program.exec memory)
      rw [state] at state' values
      refine ⟨state', values.trans ?_⟩
      rw [value, List.append_assoc]
      rfl

omit [DecidableEq Thread] in
theorem footprints_disjoint {first second : Set Ptr} {thread other : Thread}
    (disjoint : Disjoint first second) (different : thread ≠ other) :
    Disjoint (bytes first ∪ threadLocal thread) (bytes second ∪ threadLocal other) := by
  refine Set.disjoint_left.mpr ?_
  rintro cell (⟨p, inside, rfl⟩ | here) (⟨q, inside', same⟩ | there)
  · cases same
    exact Set.disjoint_left.mp disjoint inside inside'
  · rcases there with same | same
    · cases same
    · cases same
  · subst same
    rcases here with same | same
    · cases same
    · cases same
  · rcases here with rfl | rfl
    · rcases there with same | same
      · exact different (SharedCell.context.inj same)
      · cases same
    · rcases there with same | same
      · cases same
      · exact different (SharedCell.returned.inj same)

theorem separated_jobs {jobs : List (NativeJob library)}
    (apart : jobs.Pairwise fun j k => j.thread ≠ k.thread → j.call.Apart k.call) :
    Workers.Separated (jobs.map NativeJob.job) := by
  have one_way : ∀ {j k : NativeJob library}, j.thread ≠ k.thread →
      Disjoint j.call.writes (k.call.reads ∪ k.call.writes) →
      Disjoint j.job.writes k.job.cells := by
    intro j k different disjoint
    obtain ⟨fromReads, fromWrites⟩ := Set.disjoint_union_right.mp disjoint
    exact Set.disjoint_union_right.mpr ⟨footprints_disjoint fromReads different,
      footprints_disjoint fromWrites different⟩
  refine List.pairwise_map.mpr (apart.imp fun separate different => ?_)
  exact ⟨one_way different (separate different).1,
    one_way different.symm (separate different).2⟩

theorem apart_of_all {jobs : List (NativeJob library)}
    (apart : jobs.Pairwise fun j k => j.call.Apart k.call) :
    jobs.Pairwise fun j k => j.thread ≠ k.thread → j.call.Apart k.call := by
  refine apart.imp ?_
  intro j k separate _
  exact separate

/-- No other thread writes what only a thread itself touches. -/
theorem threadLocal_unshared (jobs : List (NativeJob library)) {thread : Thread}
    {cell : SharedCell Thread} (own : cell ∈ threadLocal thread) :
    cell ∈ Workers.unshared (jobs.map NativeJob.job) thread := by
  intro job member different write
  obtain ⟨j, -, rfl⟩ := List.mem_map.mp member
  have apart := footprints_disjoint (Set.disjoint_empty j.call.writes) different
  exact Set.disjoint_left.mp apart write (Or.inr own)

section Runs

variable {jobs : List (NativeJob library)}
  (apart : jobs.Pairwise fun j k => j.thread ≠ k.thread → j.call.Apart k.call)
  {memory : SharedMemory Thread} {n : Nat}
  {config : ThreadPool.Config Thread (@SharedCell.Val Thread)}
  (steps : ThreadPool.Steps n
    ⟨Workers.requests (jobs.map NativeJob.job), [], memory⟩ config)

include apart steps

/-- Every thread ends up as if it had run alone. -/
theorem calls_alone {m : Nat} {final : SharedMemory Thread}
    (onward : ThreadPool.Steps m config ⟨[], [], final⟩) (thread : Thread) :
    let outcome := runCalls (library thread) (callsOf jobs thread) (view thread memory)
    returned thread final = returned thread memory ++ outcome.1 ∧
      (view thread final).history = outcome.2.history ∧
      ∀ p, (∀ j ∈ jobs, j.thread ≠ thread → p ∉ j.call.writes) →
        final (.byte p) = outcome.2.memory p := by
  have alone := Workers.alone (separated_jobs apart) steps onward thread
  have own : (jobs.map NativeJob.job).filter (fun j => j.worker = thread) =
      (jobs.filter fun j => j.thread = thread).map NativeJob.job := List.filter_map
  rw [own] at alone
  have ours : ∀ j ∈ jobs.filter fun j => j.thread = thread, j.thread = thread :=
    fun j member => of_decide_eq_true (List.mem_filter.mp member).2
  obtain ⟨state, values⟩ := perform_jobs ours memory
  refine ⟨?_, ?_, fun p elsewhere => ?_⟩
  · exact (alone _ (threadLocal_unshared jobs (Or.inr rfl))).trans values
  · refine Eq.trans ?_ (congrArg ProcessState.history state)
    exact congrArg ThreadCtx.history (alone _ (threadLocal_unshared jobs (Or.inl rfl)))
  · refine Eq.trans ?_ (congrFun (congrArg ProcessState.memory state) p)
    refine alone (.byte p) ?_
    intro job member different write
    obtain ⟨j, listed, rfl⟩ := List.mem_map.mp member
    rcases write with ⟨q, inside, same⟩ | same | same
    · exact elsewhere j listed different (SharedCell.byte.inj same ▸ inside)
    · cases same
    · cases same

/-- Native calls of several threads, access by access in any order: no two threads ever
have a race, the calls never get stuck, and every thread ends up with the return values,
the context and the bytes that its own calls alone would have left to it. -/
theorem native_calls_independent :
    (∀ {t u : Thread} {i j : Nat} {first second : SharedProgram Thread Unit},
      (ThreadPool.inFlight config.pending t)[i]? = some first →
      (ThreadPool.inFlight config.pending u)[j]? = some second →
      (t, i) ≠ (u, j) → ¬ ThreadPool.Race first second) ∧
    (∃ m final, ThreadPool.Steps m config ⟨[], [], final⟩) ∧
    ∀ m final, ThreadPool.Steps m config ⟨[], [], final⟩ → ∀ thread,
      let outcome := runCalls (library thread) (callsOf jobs thread) (view thread memory)
      returned thread final = returned thread memory ++ outcome.1 ∧
      (view thread final).history = outcome.2.history ∧
      ∀ p, (∀ j ∈ jobs, j.thread ≠ thread → p ∉ j.call.writes) →
        final (.byte p) = outcome.2.memory p := by
  have separated := separated_jobs apart
  exact ⟨Workers.no_race separated steps, Workers.completes separated steps,
    fun m final onward thread => calls_alone apart steps onward thread⟩

end Runs

end Jobs

/-! ## Results over a working library -/

namespace NativeCall

/-- A call with proper buffers and a text that the library admits. -/
inductive Ready (limit : Nat) : NativeCall → Prop
  | seals {key src dst : Ptr} {srcLen dstLen : Nat}
      (buffers : SealBuffers key src srcLen dst dstLen)
      (small : srcLen + FRAME_OVERHEAD < 2 ^ 64) (admissible : srcLen ≤ limit) :
      Ready limit (.aes128gcmSeal key src srcLen dst dstLen)
  | opens {key frame dst : Ptr} {plaintextLen dstLen : Nat}
      (buffers : OpenBuffers key frame plaintextLen dst dstLen)
      (small : plaintextLen + FRAME_OVERHEAD < 2 ^ 64)
      (admissible : plaintextLen ≤ limit) :
      Ready limit (.aes128gcmOpen key frame (plaintextLen + FRAME_OVERHEAD) dst dstLen)

/-- What a call owes to its caller, from the bytes that were there before: a seal a frame
of its text, and an open the text of its frame if the frame is valid, and otherwise an
error and no text. -/
def Delivered (before after : Memory) (rc : Int) : NativeCall → Prop
  | .aes128gcmSeal key src srcLen dst _ => rc = 0 ∧
      ∃ iv, bytesAt after dst (srcLen + FRAME_OVERHEAD) =
        Standard.sealFrame (aes (vectorAt before key 16)) iv (bytesAt before src srcLen)
  | .aes128gcmOpen key frame frameLen dst _ =>
      let plaintextLen := frameLen - FRAME_OVERHEAD
      match Standard.openFrame (aes (vectorAt before key 16))
        (framePartsAt before frame plaintextLen) with
      | some text => rc = 0 ∧ bytesAt after dst plaintextLen = text
      | none => rc ≠ 0 ∧ ∀ q ∈ region dst plaintextLen, after q = before q ∨ after q = 0#8

theorem framePartsAt_agree {first second : Memory} {frame : Ptr} {n : Nat}
    (same : ∀ q ∈ region frame (n + 29), first q = second q) :
    framePartsAt first frame n = framePartsAt second frame n := by
  refine Standard.FrameParts.bytes_inj ?_ ?_
  · rw [length_framePartsAt, length_framePartsAt]
  · rw [framePartsAt_bytes, framePartsAt_bytes, bytesAt_congr same]

/-- Only the buffers of a call count. -/
theorem Delivered.congr {limit : Nat} {call : NativeCall} (ready : call.Ready limit)
    {before before' after after' : Memory} {rc : Int}
    (same : ∀ q ∈ call.reads ∪ call.writes, before q = before' q)
    (same' : ∀ q ∈ call.writes, after q = after' q)
    (delivered : call.Delivered before after rc) : call.Delivered before' after' rc := by
  cases ready with
  | @seals key src dst srcLen dstLen =>
      obtain ⟨code, iv, frame⟩ := delivered
      have secret : vectorAt before key 16 = vectorAt before' key 16 :=
        vectorAt_congr fun q inside => same q (Or.inl (Or.inl (Or.inl inside)))
      have text : bytesAt before src srcLen = bytesAt before' src srcLen :=
        bytesAt_congr fun q inside => same q (Or.inl (Or.inl (Or.inr inside)))
      refine ⟨code, iv, ?_⟩
      rw [← secret, ← text, ← frame]
      exact (bytesAt_congr same').symm
  | @opens key frame dst plaintextLen dstLen =>
      have secret : vectorAt before key 16 = vectorAt before' key 16 :=
        vectorAt_congr fun q inside => same q (Or.inl (Or.inl inside))
      have parts : framePartsAt before frame plaintextLen =
          framePartsAt before' frame plaintextLen :=
        framePartsAt_agree fun q inside => same q (Or.inl (Or.inr inside))
      simp only [Delivered, Nat.add_sub_cancel, writes] at delivered same same' ⊢
      rw [← secret, ← parts]
      cases opened : Standard.openFrame (aes (vectorAt before key 16))
        (framePartsAt before frame plaintextLen) with
      | some text =>
          rw [opened] at delivered
          exact ⟨delivered.1, (bytesAt_congr same').symm.trans delivered.2⟩
      | none =>
          rw [opened] at delivered
          refine ⟨delivered.1, fun q inside => ?_⟩
          rw [← same' q inside, ← same q (Or.inr inside)]
          exact delivered.2 q inside

/-- One call over a working library. -/
theorem Ready.delivered {library : Library} {limit : Nat}
    (gcm : ImplementsGcm library limit) {call : NativeCall} (ready : call.Ready limit)
    {s : ProcessState}
    (context : s.hasContext = true) :
    let outcome := call.perform library s
    call.Delivered s.memory outcome.state.memory outcome.value ∧
      ∀ q ∉ call.writes, outcome.state.memory q = s.memory q := by
  cases ready with
  | seals buffers small admissible =>
      obtain ⟨code, ⟨iv, -, frame⟩, outside⟩ :=
        seal_works gcm buffers small admissible context
      exact ⟨⟨code, iv, frame⟩, outside⟩
  | @opens key frame dst plaintextLen dstLen buffers small admissible =>
      obtain ⟨outside, version, accepted, refused⟩ :=
        open_works gcm buffers small admissible context
      rw [length_framePartsAt] at outside refused
      rw [length_framePartsAt] at accepted
      simp only [Delivered, Nat.add_sub_cancel, writes, perform]
      refine ⟨?_, outside⟩
      cases opened : Standard.openFrame (aes (vectorAt s.memory key 16))
        (framePartsAt s.memory frame plaintextLen) with
      | some text => exact accepted text opened
      | none =>
          by_cases right : (framePartsAt s.memory frame plaintextLen).version = 1#8
          · obtain ⟨code, wiped⟩ := refused right opened
            exact ⟨code ▸ by decide, fun q inside => Or.inr (wiped q inside)⟩
          · obtain ⟨code, same⟩ := version right
            exact ⟨code ▸ by decide, fun q _ => Or.inl (congrFun same q)⟩

end NativeCall

/-- The calls of one thread leave each other's buffers alone, so each of them delivers
what it would have delivered first. -/
theorem runCalls_delivers {library : Library} {limit : Nat}
    (gcm : ImplementsGcm library limit) (thread : Thread) {calls : List NativeCall}
    (ready : ∀ call ∈ calls, call.Ready limit) (apart : calls.Pairwise NativeCall.Apart)
    {s : ProcessState} (context : s.hasContext = true) :
    let outcome := runCalls library calls s
    List.Forall₂ (fun call rc => call.Delivered s.memory outcome.2.memory rc)
        calls outcome.1 ∧
      ∀ q, (∀ call ∈ calls, q ∉ call.writes) → outcome.2.memory q = s.memory q := by
  induction calls generalizing s with
  | nil => exact ⟨.nil, fun _ _ => rfl⟩
  | cons call rest ih =>
      obtain ⟨here, later⟩ := List.forall_mem_cons.mp ready
      obtain ⟨separate, apart'⟩ := List.pairwise_cons.mp apart
      obtain ⟨program, realizes⟩ := call.realizable library thread
      obtain ⟨delivered, outside⟩ := here.delivered gcm context
      obtain ⟨rest', kept⟩ := ih later apart' ((realizes.allocated s).trans context)
      constructor
      · refine .cons ?_ ?_
        · refine delivered.congr here (fun _ _ => rfl) fun q write => (kept q ?_).symm
          intro next member written
          exact Set.disjoint_left.mp (separate next member).2 written (Or.inr write)
        · refine List.forall₂_iff_get.mpr ⟨rest'.length_eq, fun i below below' => ?_⟩
          have member : rest.get ⟨i, below⟩ ∈ rest := List.get_mem ..
          refine (rest'.get below below').congr (later _ member) (fun q touched => ?_)
            fun _ _ => rfl
          exact outside q fun written =>
            Set.disjoint_left.mp (separate _ member).1 written touched
      · intro q elsewhere
        obtain ⟨first, others⟩ := List.forall_mem_cons.mp elsewhere
        exact (kept q others).trans (outside q first)

section Results

variable {library : Thread → Library} {limit : Nat}
  (gcm : ∀ thread, ImplementsGcm (library thread) limit)
  {jobs : List (NativeJob library)} (ready : ∀ j ∈ jobs, j.call.Ready limit)
  (apart : jobs.Pairwise fun j k => j.call.Apart k.call)
  {memory : SharedMemory Thread}
  (contexts : ∀ thread, (view thread memory).hasContext = true)

include gcm ready apart contexts

/-- Threads that seal and open over a working library, in any interleaving: every seal
leaves a frame of its text under its key, and every open the text of a valid frame, and
of any other frame an error and no text. -/
theorem native_calls_deliver {n : Nat} {final : SharedMemory Thread}
    (steps : ThreadPool.Steps n
      ⟨Workers.requests (jobs.map NativeJob.job), [], memory⟩ ⟨[], [], final⟩)
    (thread : Thread) :
    ∃ codes, returned thread final = returned thread memory ++ codes ∧
      List.Forall₂ (fun call rc =>
        call.Delivered (view thread memory).memory (view thread final).memory rc)
        (callsOf jobs thread) codes := by
  have different := apart_of_all apart
  obtain ⟨codes, -, bytes⟩ := calls_alone different steps (.refl _) thread
  have own : ∀ call ∈ callsOf jobs thread,
      ∃ j ∈ jobs, j.thread = thread ∧ j.call = call := by
    intro call member
    obtain ⟨j, listed, rfl⟩ := List.mem_map.mp member
    obtain ⟨inside, same⟩ := List.mem_filter.mp listed
    exact ⟨j, inside, of_decide_eq_true same, rfl⟩
  have ours : ∀ call ∈ callsOf jobs thread, call.Ready limit := by
    intro call member
    obtain ⟨j, inside, -, rfl⟩ := own call member
    exact ready j inside
  have apart' : (callsOf jobs thread).Pairwise NativeCall.Apart :=
    List.pairwise_map.mpr (apart.sublist List.filter_sublist)
  obtain ⟨delivered, -⟩ :=
    runCalls_delivers (gcm thread) thread ours apart' (contexts thread)
  refine ⟨_, codes, List.forall₂_iff_get.mpr
    ⟨delivered.length_eq, fun i below below' => ?_⟩⟩
  have member : (callsOf jobs thread).get ⟨i, below⟩ ∈ callsOf jobs thread :=
    List.get_mem ..
  refine (delivered.get below below').congr (ours _ member) (fun _ _ => rfl) ?_
  intro q write
  refine (bytes q fun k listed other written => ?_).symm
  obtain ⟨j, inside, same, call⟩ := own _ member
  have symmetric : Std.Symm fun j k : NativeJob library => j.call.Apart k.call :=
    ⟨fun _ _ => And.symm⟩
  have distinct : k ≠ j := fun equal => other (equal ▸ same)
  have separate := apart.forall listed inside distinct
  exact Set.disjoint_left.mp separate.1 written (Or.inr (call ▸ write))

end Results

/-! ## Two threads -/

/-- Buffers at different addresses. -/
theorem region_apart {p q m n : Nat} (order : p + m ≤ q) (small : q + n ≤ 2 ^ 64) :
    Disjoint (region p m) (region q n) := by
  refine Set.disjoint_left.mpr ?_
  rintro cell ⟨i, below, rfl⟩ ⟨j, less, same⟩
  have equal : (p + i) % 2 ^ 64 = (q + j) % 2 ^ 64 := same
  omega

/-- A text of two bytes is sealed while a frame of three bytes is opened with the same
key. -/
def sealOne : NativeCall := .aes128gcmSeal 16 64 2 128 31

def openOther : NativeCall := .aes128gcmOpen 16 192 32 256 3

theorem sealOne_ready : sealOne.Ready 3 :=
  .seals ⟨by decide, by decide, by decide, by decide,
    (region_apart (by decide) (by decide)).symm,
    (region_apart (by decide) (by decide)).symm⟩ (by decide) (by decide)

theorem openOther_ready : openOther.Ready 3 := by
  have buffers : OpenBuffers 16 192 3 256 3 := ⟨by decide, by decide, by decide, by decide,
    (region_apart (by decide) (by decide)).symm⟩
  exact .opens buffers (by decide) (by decide)

theorem sealOne_apart : sealOne.Apart openOther := by
  constructor
  · refine Set.disjoint_union_right.mpr ⟨Set.disjoint_union_right.mpr ⟨?_, ?_⟩, ?_⟩
    · exact (region_apart (by decide) (by decide)).symm
    · exact region_apart (by decide) (by decide)
    · exact region_apart (by decide) (by decide)
  · refine Set.disjoint_union_right.mpr
      ⟨Set.disjoint_union_right.mpr ⟨Set.disjoint_union_right.mpr ⟨?_, ?_⟩, ?_⟩, ?_⟩
    · exact (region_apart (by decide) (by decide)).symm
    · exact (region_apart (by decide) (by decide)).symm
    · exact (region_apart (by decide) (by decide)).symm
    · exact (region_apart (by decide) (by decide)).symm

/-- Nothing has happened yet, and every thread has a context. -/
def idle : SharedMemory Bool where
  get
    | .byte _ => (0#8 : Byte)
    | .context _ => (⟨[], true⟩ : ThreadCtx)
    | .returned _ => ([] : List Int)

/-- One thread seals and the other one opens. -/
theorem twoThreads (library : Bool → Library) :
    ∃ jobs : List (NativeJob library), (jobs.Pairwise fun j k => j.call.Apart k.call) ∧
      callsOf jobs true = [sealOne] ∧ callsOf jobs false = [openOther] ∧
      ∀ j ∈ jobs, j.call.Ready 3 := by
  obtain ⟨first, realizes⟩ := sealOne.realizable (library true) true
  obtain ⟨second, realizes'⟩ := openOther.realizable (library false) false
  exact ⟨[⟨true, sealOne, first, realizes⟩, ⟨false, openOther, second, realizes'⟩],
    List.pairwise_pair.mpr sealOne_apart, rfl, rfl,
    List.forall_mem_cons.mpr ⟨sealOne_ready,
      List.forall_mem_singleton.mpr openOther_ready⟩⟩

theorem native_calls_independent_example :
    let library : Bool → Library := fun _ => gcmLibrary (Vector.replicate 12 0#8)
    ∃ jobs : List (NativeJob library), ∃ m final, ThreadPool.Steps m
        ⟨Workers.requests (jobs.map NativeJob.job), [], idle⟩ ⟨[], [], final⟩ ∧
      returned true final = (runCalls (library true) [sealOne] (view true idle)).1 ∧
      returned false final =
        (runCalls (library false) [openOther] (view false idle)).1 := by
  intro library
  obtain ⟨jobs, apart, seals, opens, -⟩ := twoThreads library
  have different := apart_of_all apart
  obtain ⟨-, ⟨m, final, onward⟩, alone⟩ :=
    native_calls_independent different (.refl ⟨Workers.requests _, [], idle⟩)
  refine ⟨jobs, m, final, onward, ?_, ?_⟩
  · rw [← seals]
    exact (alone m final onward true).1
  · rw [← opens]
    exact (alone m final onward false).1

theorem native_calls_deliver_example :
    let library : Bool → Library := fun _ => gcmLibrary (Vector.replicate 12 0#8)
    ∃ jobs : List (NativeJob library), ∃ m final, ThreadPool.Steps m
        ⟨Workers.requests (jobs.map NativeJob.job), [], idle⟩ ⟨[], [], final⟩ ∧
      (∃ codes, returned true final = codes ∧ List.Forall₂ (fun call rc =>
        call.Delivered (view true idle).memory (view true final).memory rc)
        [sealOne] codes) ∧
      ∃ codes, returned false final = codes ∧ List.Forall₂ (fun call rc =>
        call.Delivered (view false idle).memory (view false final).memory rc)
        [openOther] codes := by
  intro library
  obtain ⟨jobs, apart, seals, opens, ready⟩ := twoThreads library
  obtain ⟨m, final, steps⟩ := Workers.completes (separated_jobs (apart_of_all apart))
    (.refl ⟨Workers.requests _, [], idle⟩)
  have delivered := native_calls_deliver (fun _ => gcmLibrary_implements _ 3) ready apart
    (fun _ => rfl) steps
  refine ⟨jobs, m, final, steps, ?_, ?_⟩
  · rw [← seals]
    exact delivered true
  · rw [← opens]
    exact delivered false

end GpuKvSeal.Cpu
