import GpuKvSeal.Device.Writers
import GpuKvSeal.Host.Heap
import GpuKvSeal.System.Delivered

/-!
# What can be seen while a program runs

A program writes every byte and status word of its callers at most once.  So whoever
looks at a result at any time, in any interleaving, sees what was there before or what
will be there in the end: never a key stream, a tag without its mask, or a text that
has not been authenticated.
-/

namespace GpuKvSeal.System

open BigEndian (Byte)
open Device
open Host
open Refinement (bytesAt getElem_bytesAt)
open Standard (openFrame)
open Standard.Gcm (aes)
open ThreadPool (Request SoleWriter Steps Unwritten)
open TracedState.Traced (Ensures)

/-! ## The writers of a cell -/

/-- The cells an event may write. -/
def writtenCells : Event → Set Cell
  | .launch _ l => l.writes
  | .memcpyToSymbol device _ => {.sbox device}
  | .memcpy dst _ => {.roundKeys dst}
  | .malloc _ | .free _ | .synchronize => ∅

/-- At most one of the events writes the cell. -/
def Exclusive (cell : Cell) (events : List Event) : Prop :=
  events.Pairwise fun first second => cell ∉ writtenCells first ∨ cell ∉ writtenCells second

theorem Exclusive.of_unwritten {cell : Cell} {events : List Event}
    (unwritten : ∀ event ∈ events, cell ∉ writtenCells event) : Exclusive cell events :=
  List.pairwise_of_forall_mem_list fun first member _ _ => Or.inl (unwritten first member)

theorem Exclusive.append {cell : Cell} {first second : List Event}
    (left : Exclusive cell first) (right : Exclusive cell second)
    (one : (∀ event ∈ first, cell ∉ writtenCells event) ∨
      ∀ event ∈ second, cell ∉ writtenCells event) : Exclusive cell (first ++ second) := by
  refine List.pairwise_append.mpr ⟨left, right, fun e member e' member' => ?_⟩
  exact one.imp (· e member) (· e' member')

/-- The threads that events ask for. -/
def eventThreads (events : List Event) : List (DeviceProgram Unit) :=
  (threadRequests events).flatMap Request.threads

theorem eventThreads_cons (event : Event) (rest : List Event) :
    eventThreads (event :: rest) = eventThreads [event] ++ eventThreads rest := by
  have split := threadRequests_append [event] rest
  rw [List.singleton_append] at split
  rw [eventThreads, split, List.flatMap_append]
  rfl

@[simp]
theorem eventThreads_launch (stream : Ptr) (l : Launch) :
    eventThreads [.launch stream l] = l.bodies := List.append_nil _

theorem eventThreads_unwritten {cell : Cell} {event : Event}
    (unwritten : cell ∉ writtenCells event) :
    ∀ thread ∈ eventThreads [event], Unwritten cell thread := by
  cases event with
  | launch stream l =>
      intro thread member
      exact Launch.bodies_unwritten unwritten thread (eventThreads_launch stream l ▸ member)
  | memcpyToSymbol device table =>
      refine List.forall_mem_singleton.mpr ?_
      exact CellProgram.Program.Within.store fun same => unwritten same.symm
  | memcpy dst bytes =>
      refine List.forall_mem_singleton.mpr ?_
      exact CellProgram.Program.Within.store fun same => unwritten same.symm
  | malloc | free | synchronize => exact List.forall_mem_nil _

/-- One event without races writes every cell at most once. -/
theorem eventThreads_soleWriter {cell : Cell} {event : Event}
    (noRaces : NoRaces [event]) : SoleWriter cell (eventThreads [event]) := by
  by_cases written : cell ∈ writtenCells event
  · cases event with
    | launch stream l =>
        rw [eventThreads_launch]
        exact (noRaces stream l (List.mem_singleton_self _)).soleWriter cell
    | memcpyToSymbol | memcpy =>
        exact ⟨List.forall_mem_singleton.mpr (.store _ _), List.pairwise_singleton _ _⟩
    | malloc | free | synchronize => cases written
  · exact .of_unwritten (eventThreads_unwritten written)

theorem eventThreads_allUnwritten {cell : Cell} {events : List Event}
    (unwritten : ∀ event ∈ events, cell ∉ writtenCells event) :
    ∀ thread ∈ eventThreads events, Unwritten cell thread := by
  induction events with
  | nil => exact List.forall_mem_nil _
  | cons event rest ih =>
      obtain ⟨here, later⟩ := List.forall_mem_cons.mp unwritten
      rw [eventThreads_cons]
      exact List.forall_mem_append.mpr ⟨eventThreads_unwritten here, ih later⟩

/-- Where one event at most writes a cell, one thread at most does. -/
theorem Exclusive.soleWriter {cell : Cell} {events : List Event}
    (exclusive : Exclusive cell events) (noRaces : NoRaces events) :
    SoleWriter cell (eventThreads events) := by
  induction events with
  | nil => exact .of_unwritten (by simp [eventThreads, threadRequests])
  | cons event rest ih =>
      obtain ⟨others, exclusive'⟩ := List.pairwise_cons.mp exclusive
      have here : NoRaces [event] := fun stream l member =>
        noRaces stream l (List.mem_singleton.mp member ▸ List.mem_cons_self ..)
      have later := ih exclusive' fun stream l member =>
        noRaces stream l (List.mem_cons_of_mem _ member)
      rw [eventThreads_cons]
      by_cases written : cell ∈ writtenCells event
      · refine (eventThreads_soleWriter here).append_left (eventThreads_allUnwritten ?_)
        exact fun e member => (others e member).resolve_left (not_not_intro written)
      · exact SoleWriter.append_right (eventThreads_unwritten written) later

/-! ## One call -/

/-- Consecutive parts of a buffer. -/
theorem spans_disjoint {p : Ptr} {a m b n : Nat} (order : a + m ≤ b)
    (small : b + n ≤ 2 ^ 64) :
    Disjoint (span (advance p a) m) (span (advance p b) n) := by
  refine Set.disjoint_left.mpr ?_
  rintro cell ⟨i, -, below, rfl⟩ ⟨j, -, below', same⟩
  rw [advance_advance, advance_advance] at same
  have place := advance_inj (by omega) (by omega) (Cell.byte.inj same)
  omega

/-- The hash writes nothing of a caller. -/
theorem ghashLaunches_caller (device : Int) (h : KeyHandle) (ciphertext : Ptr) (len : Nat)
    {cell : Cell} (caller : isCaller cell) :
    ∀ l ∈ ghashLaunches device h ciphertext len, cell ∉ l.writes := by
  intro l member write
  obtain ⟨i, -, rfl | rfl⟩ := (ghashLaunches_inside device h ciphertext len l member).2 write
  · exact caller
  · exact caller

/-- At most one launch of an operation writes a cell of its caller. -/
theorem launches_exclusive {c : ApiCall} (operation : c.Operation) (device : Int)
    (h : KeyHandle) {cell : Cell} (caller : isCaller cell) :
    (c.launches device h).Pairwise fun first second =>
      cell ∉ first.writes ∨ cell ∉ second.writes := by
  have header : HEADER_LEN = 13 := rfl
  have unwritten : ∀ {launches : List Launch}, (∀ l ∈ launches, cell ∉ l.writes) →
      launches.Pairwise fun first second => cell ∉ first.writes ∨ cell ∉ second.writes :=
    fun none => List.pairwise_of_forall_mem_list fun l member _ _ => Or.inl (none l member)
  have counter : ∀ {src dst iv roundKeys authOk} {len : Nat},
      (ctrLaunches device src dst len iv roundKeys authOk).Pairwise fun first second =>
        cell ∉ first.writes ∨ cell ∉ second.writes := by
    intro src dst iv roundKeys authOk len
    unfold ctrLaunches
    split
    · exact List.pairwise_singleton _ _
    · exact List.Pairwise.nil
  cases operation with
  | reserve => exact List.Pairwise.nil
  | @sealAsync key src dst plaintextLen admissible apart dstCapacity iv stream =>
      have hash := ghashLaunches_caller device h (advance dst HEADER_LEN) plaintextLen caller
      have text : ∀ l ∈ ctrLaunches device src (advance dst HEADER_LEN) plaintextLen
          (advance dst 1) h.dRoundKeys none,
          l.writes ⊆ span (advance dst HEADER_LEN) plaintextLen := by
        intro l member
        have inside := (ctrLaunches_inside device src (advance dst HEADER_LEN) (by omega)
          (advance dst 1) h.dRoundKeys none l member).2
        rwa [coveredLen_eq (by omega)] at inside
      have tag : ∀ {cell : Cell}, cell ∈ Launch.writes ⟨device, .finalizeTag dst plaintextLen
          h.dRoundKeys (ghashRoot h plaintextLen), 1, 1⟩ →
          cell ∈ span (advance dst (13 + plaintextLen)) 16 := by
        rintro cell ⟨i, -, inside⟩
        rw [← header, ← advance_advance]
        exact inside
      have first : ∀ {cell : Cell}, cell ∈ Launch.writes ⟨device, .writeFrameHeader dst
          (iv.getD (Vector.replicate 12 0#8)), 1, 1⟩ → cell ∈ span (advance dst 0) 13 := by
        rintro cell ⟨i, -, k, lower, below, rfl⟩
        exact ⟨k, lower, below, by rw [advance_advance, Nat.zero_add]⟩
      have front := spans_disjoint (p := dst) (a := 0) (m := 13) (b := 13)
        (n := plaintextLen) (by omega) (by omega)
      have back := spans_disjoint (p := dst) (a := 13) (m := plaintextLen)
        (b := 13 + plaintextLen) (n := 16) (by omega) (by omega)
      have around := spans_disjoint (p := dst) (a := 0) (m := 13)
        (b := 13 + plaintextLen) (n := 16) (by omega) (by omega)
      refine List.pairwise_cons.mpr ⟨fun l member => ?_, ?_⟩
      · rcases List.mem_append.mp member with ctr | later
        · exact not_and_or.mp fun both =>
            Set.disjoint_left.mp front (first both.1) (text l ctr both.2)
        · rcases List.mem_append.mp later with inside | last
          · exact Or.inr (hash l inside)
          · rw [List.mem_singleton.mp last]
            exact not_and_or.mp fun both =>
              Set.disjoint_left.mp around (first both.1) (tag both.2)
      · refine List.pairwise_append.mpr ⟨counter, ?_, fun l ctr l' member => ?_⟩
        · exact List.pairwise_append.mpr ⟨unwritten hash, List.pairwise_singleton _ _,
            fun l inside _ _ => Or.inl (hash l inside)⟩
        · rcases List.mem_append.mp member with inside | last
          · exact Or.inr (hash l' inside)
          · rw [List.mem_singleton.mp last]
            exact not_and_or.mp fun both =>
              Set.disjoint_left.mp back (text l ctr both.1) (tag both.2)
  | @openAsync key src dst plaintextLen admissible apart frameLen authOk stream =>
      have hash := ghashLaunches_caller device h (advance src HEADER_LEN) plaintextLen caller
      refine List.pairwise_append.mpr ⟨unwritten hash, ?_,
        fun l inside _ _ => Or.inl (hash l inside)⟩
      refine List.pairwise_cons.mpr ⟨fun l ctr => not_and_or.mp fun both => ?_, counter⟩
      -- The check writes a status word and the other launch bytes.
      obtain ⟨i, -, flag⟩ := both.1
      obtain ⟨k, -, -, byte⟩ := (ctrLaunches_inside device _ dst (by omega) _ _ _ l ctr).2
        both.2
      cases flag.symm.trans byte

section Calls

variable {driver : Driver} (reliable : driver.Succeeds cleanupCalls)
  {streams : Ptr → Ptr} {s : HostState} {c : ApiCall} {rest : List ApiCall}
  (arranged : Arranged streams (c :: rest)) {leaked : List Block}
  (accounted : Accounted s leaked) (allowed : c.Allowed s) {cell : Cell}
  (caller : isCaller cell)

include caller

/-- A creation writes nothing of a caller. -/
theorem creation_unwritten {events : List Event} (creation : Creation s events) :
    ∀ event ∈ events, cell ∉ writtenCells event := by
  intro event member write
  cases creation event member with
  | memcpyToSymbol | memcpy =>
      cases write
      exact caller
  | initHashKey device roundKeys fresh =>
      obtain ⟨_, -, i, -, rfl⟩ := write
      exact caller
  | synchronize | malloc | free => cases write

include reliable arranged accounted allowed

/-- A call writes the cells of its caller only where its results are, and each of them
with one event at most. -/
theorem call_writes :
    c.perform.Ensures driver s fun _ _ events => Exclusive cell events ∧
      (cell ∉ c.outputs → ∀ event ∈ events, cell ∉ writtenCells event) := by
  have none : ∀ {events : List Event}, (∀ event ∈ events, cell ∉ writtenCells event) →
      Exclusive cell events ∧
        (cell ∉ c.outputs → ∀ event ∈ events, cell ∉ writtenCells event) :=
    fun unwritten => ⟨.of_unwritten unwritten, fun _ => unwritten⟩
  rcases arranged.known c (List.mem_cons_self ..) with
    operation | ⟨p, rfl⟩ | ⟨key, keyLen, device, out, rfl⟩
  · refine (operation_asks reliable operation accounted allowed).mono ?_
    rintro rc s' events (⟨rfl, -⟩ | ⟨h, h', before, full, launched, -, -, issued, part, rfl⟩)
    · exact none (List.forall_mem_nil _)
    have quiet : ∀ event ∈ before, cell ∉ writtenCells event := by
      intro event member
      rcases issued.bookkeeping event member with ⟨q, rfl⟩ | ⟨q, rfl⟩
      · exact id
      · exact id
    rcases issued.launched with rfl | ⟨rfl, -⟩
    · rw [List.sublist_nil.mp part]
      exact none (List.forall_mem_append.mpr ⟨quiet, List.forall_mem_nil _⟩)
    constructor
    · refine Exclusive.append (.of_unwritten quiet) ?_ (Or.inl quiet)
      exact List.pairwise_map.mpr
        ((launches_exclusive operation h.device h' caller).sublist part)
    · refine fun outside => List.forall_mem_append.mpr ⟨quiet, fun event member => ?_⟩
      obtain ⟨l, listed, rfl⟩ := List.mem_map.mp member
      intro write
      rcases (launches_inside operation h.device h' l (part.subset listed)).2 write with
        result | ⟨i, rfl | rfl⟩
      · exact outside result
      · exact caller
      · exact caller
  · by_cases null : p = 0
    · rw [ApiCall.perform, lmcacheGpuAes128gcmKeyDestroy, if_pos null]
      exact Ensures.pure (none (List.forall_mem_nil _))
    · obtain ⟨h, live⟩ : ∃ h, s.handles.lookup p = some h :=
        Option.isSome_iff_exists.mp (AList.lookup_isSome.mpr (allowed.resolve_left null))
      refine (lmcacheGpuAes128gcmKeyDestroy_spec driver accounted live).mono ?_
      exact fun rc s' events destroyed =>
        none (creation_unwritten caller (destroyed.events.creation s))
  · by_cases refused : key = .none ∨ out = 0 ∨ keyLen ≠ 16
    · rw [ApiCall.perform, lmcacheGpuAes128gcmKeyCreate_refused device refused]
      exact Ensures.pure (none (List.forall_mem_nil _))
    · obtain ⟨given, nonnull, rfl⟩ : key ≠ .none ∧ out ≠ 0 ∧ keyLen = 16 := by
        simpa using refused
      obtain ⟨secret, rfl⟩ := Option.ne_none_iff_exists'.mp given
      refine (lmcacheGpuAes128gcmKeyCreate_spec driver secret device nonnull
        accounted).mono ?_
      exact fun rc s' events created => none (creation_unwritten caller created.creation)

end Calls

/-! ## Programs -/

section Programs

variable {driver : Driver} (reliable : driver.Succeeds cleanupCalls)
  {streams : Ptr → Ptr} {cell : Cell} (caller : isCaller cell)

include reliable caller

/-- Nobody but the call whose result a cell is writes it. -/
theorem programEvents_exclusive {calls : List ApiCall} (arranged : Arranged streams calls)
    {s : HostState} {leaked : List Block} (accounted : Accounted s leaked)
    (valid : Valid driver s calls) :
    Exclusive cell (programEvents driver s calls) ∧
      ((∀ c ∈ calls, cell ∉ c.outputs) →
        ∀ event ∈ programEvents driver s calls, cell ∉ writtenCells event) := by
  induction calls generalizing s leaked with
  | nil => exact ⟨List.Pairwise.nil, fun _ => List.forall_mem_nil _⟩
  | cons c rest ih =>
      obtain ⟨allowed, valid'⟩ := valid
      obtain ⟨exclusive, outside⟩ := call_writes reliable arranged accounted allowed caller
      obtain ⟨lost, accounted', -⟩ := (c.perform_spec driver accounted allowed).accounted
      obtain ⟨exclusive', outside'⟩ := ih arranged.tail accounted' valid'
      have buffers := (List.pairwise_cons.mp arranged.apart).1
      constructor
      · refine exclusive.append exclusive' ?_
        by_cases result : cell ∈ c.outputs
        · refine Or.inr (outside' fun d member theirs => ?_)
          exact Set.disjoint_left.mp (buffers d member).outputs theirs (Or.inr result)
        · exact Or.inl (outside result)
      · intro nowhere
        obtain ⟨here, later⟩ := List.forall_mem_cons.mp nowhere
        exact List.forall_mem_append.mpr ⟨outside here, outside' later⟩

/-- At most one thread of a program writes a cell of its callers. -/
theorem program_soleWriter {calls : List ApiCall} (arranged : Arranged streams calls)
    {s : HostState} (fresh : Fresh s) (valid : Valid driver s calls) (memory : Memory) :
    SoleWriter cell (eventThreads (programEvents driver s calls)) :=
  (programEvents_exclusive reliable caller arranged fresh.accounted valid).1.soleWriter
    (program_orderly reliable arranged fresh valid memory).2

end Programs

/-! ## Texts that were not authenticated -/

/-- The secret behind each handle after some calls. -/
def secretsAt (driver : Driver) (secrets : Ptr → Vector Byte 16) :
    HostState → List ApiCall → Ptr → Vector Byte 16
  | _, [] => secrets
  | s, c :: rest =>
      secretsAt driver (secretsAfter driver secrets s c) (c.perform driver s).state rest

/-- The result of one of the calls of a program. -/
theorem Delivers.result {driver : Driver} {memory : Memory}
    {secrets : Ptr → Vector Byte 16} {s : HostState} {before after : List ApiCall}
    {c : ApiCall} (delivers : Delivers driver memory secrets s (before ++ c :: after))
    (ok : (c.perform driver (stateAfter driver s before)).value = .ok) :
    Result (secretsAt driver secrets s before c.handle) memory c := by
  induction before generalizing s secrets with
  | nil => exact delivers.1 ok
  | cons d rest ih => exact ih delivers.2 ok

/-- A cell that no event writes. -/
theorem drain_unwritten (schedule : Schedule) {cell : Cell} {events : List Event}
    (unwritten : ∀ event ∈ events, cell ∉ writtenCells event) (memory : Memory) :
    drain schedule events memory cell = memory cell := by
  induction events generalizing memory with
  | nil => rfl
  | cons event rest ih =>
      obtain ⟨here, later⟩ := List.forall_mem_cons.mp unwritten
      refine (ih later _).trans ?_
      cases event with
      | launch stream l => exact Launch.run_frame schedule l memory here
      | memcpyToSymbol device table =>
          exact CellProgram.Store.update_of_ne memory table here
      | memcpy dst bytes => exact CellProgram.Store.update_of_ne memory bytes here
      | malloc | free | synchronize => rfl

end GpuKvSeal.System
