import GpuKvSeal.Foundations.CellProgram

/-!
# Threads that interleave access by access

A host hands batches of threads to streams, writes single cells itself and now and
then waits.  The oldest batch of each stream is in flight, and between any two
accesses of one thread all other threads in flight may go on.  Where no thread
touches what another one in flight writes, every interleaving ends in the memory
that the threads leave one after another, and after the same number of steps.
-/

namespace GpuKvSeal.ThreadPool

open CellProgram (Store Program)
open CellProgram.Program (Within store)
open Relation (ReflTransGen)

variable {Stream Cell : Type} {Val : Cell → Type}

/-! ## What a thread touches -/

/-- Neither thread writes what the other one touches, whatever they read. -/
def Apart (first second : Program Val Unit) : Prop :=
  ∃ reads writes reads' writes', first.Within reads writes ∧
    second.Within reads' writes' ∧ Disjoint writes (reads' ∪ writes') ∧
    Disjoint writes' reads

/-- What is left of a thread touches no more than the thread. -/
def Residual (thread rest : Program Val Unit) : Prop :=
  ∀ reads writes, thread.Within reads writes → rest.Within reads writes

theorem Residual.refl (thread : Program Val Unit) : Residual thread thread :=
  fun _ _ within => within

theorem Apart.symm {first second : Program Val Unit} (apart : Apart first second) :
    Apart second first := by
  obtain ⟨reads, writes, reads', writes', within, within', one, other⟩ := apart
  obtain ⟨fromReads, fromWrites⟩ := Set.disjoint_union_right.mp one
  exact ⟨reads', writes', reads, writes, within', within,
    Set.disjoint_union_right.mpr ⟨other, fromWrites.symm⟩, fromReads⟩

theorem Apart.residual {first second rest rest' : Program Val Unit}
    (apart : Apart first second) (left : Residual first rest)
    (right : Residual second rest') : Apart rest rest' := by
  obtain ⟨reads, writes, reads', writes', within, within', one, other⟩ := apart
  exact ⟨reads, writes, reads', writes', left _ _ within, right _ _ within', one,
    other⟩

/-- A thread does not touch what another one is about to write. -/
theorem Apart.of_write {first : Program Val Unit} {cell : Cell} {value : Val cell}
    {next : Program Val Unit} (apart : Apart first (.write cell value next)) :
    ∃ reads writes, first.Within reads writes ∧ cell ∉ reads ∪ writes := by
  obtain ⟨reads, writes, reads', writes', within, within', one, other⟩ := apart
  obtain ⟨-, fromWrites⟩ := Set.disjoint_union_right.mp one
  cases within' with
  | write inside later =>
      refine ⟨reads, writes, within, fun touched => ?_⟩
      rcases touched with read | write
      · exact Set.disjoint_left.mp other inside read
      · exact Set.disjoint_left.mp fromWrites write inside

/-- A thread does not write what another one is about to read. -/
theorem Apart.of_read {first : Program Val Unit} {cell : Cell}
    {next : Val cell → Program Val Unit} (apart : Apart first (.read cell next)) :
    ∃ reads writes, first.Within reads writes ∧ cell ∉ writes := by
  obtain ⟨reads, writes, reads', writes', within, within', one, -⟩ := apart
  cases within' with
  | read inside later =>
      exact ⟨reads, writes, within, fun write =>
        Set.disjoint_left.mp one write (Or.inl inside)⟩

/-- The cell a thread touches next, and whether it writes it. -/
def nextAccess : Program Val Unit → Option (Cell × Bool)
  | .done _ => none
  | .read cell _ => some (cell, false)
  | .write cell _ _ => some (cell, true)

/-- The next access is to a cell the thread may touch. -/
theorem nextAccess_within {thread : Program Val Unit} {reads writes : Set Cell}
    (within : thread.Within reads writes) {cell : Cell} {write : Bool}
    (next : nextAccess thread = some (cell, write)) : cell ∈ reads ∪ writes := by
  cases within with
  | done => cases next
  | read inside later =>
      cases next
      exact Or.inl inside
  | write inside later =>
      cases next
      exact Or.inr inside

/-- The next accesses of the threads are to one cell, and one of them writes
it. -/
def Race (first second : Program Val Unit) : Prop :=
  ∃ cell write write', nextAccess first = some (cell, write) ∧
    nextAccess second = some (cell, write') ∧ (write ∨ write')

theorem Apart.no_race {first second : Program Val Unit}
    (apart : Apart first second) : ¬ Race first second := by
  -- Whoever writes next is apart from the other one, who touches the same cell.
  have one_way : ∀ {first second : Program Val Unit} {cell : Cell} {write : Bool},
      Apart first second → nextAccess second = some (cell, true) →
      nextAccess first = some (cell, write) → False := by
    intro first second cell write apart writes touches
    cases second with
    | done | read => cases writes
    | write cell value next =>
        cases writes
        obtain ⟨reads, writes, within, outside⟩ := apart.of_write
        cases within with
        | done => cases touches
        | read inside later =>
            cases touches
            exact outside (Or.inl inside)
        | write inside later =>
            cases touches
            exact outside (Or.inr inside)
  rintro ⟨cell, write, write', touches, touches', conflict⟩
  rcases conflict with rfl | rfl
  · exact one_way apart.symm touches touches'
  · exact one_way apart touches' touches

/-! ## Batches on streams -/

/-- All threads handed over, one batch after another. -/
def threadsOf (pending : List (Stream × List (Program Val Unit))) :
    List (Program Val Unit) := pending.flatMap Prod.snd

@[simp]
theorem threadsOf_nil : threadsOf ([] : List (Stream × List (Program Val Unit))) = [] :=
  rfl

@[simp]
theorem threadsOf_cons (entry : Stream × List (Program Val Unit))
    (rest : List (Stream × List (Program Val Unit))) :
    threadsOf (entry :: rest) = entry.2 ++ threadsOf rest := rfl

theorem threadsOf_append (first second : List (Stream × List (Program Val Unit))) :
    threadsOf (first ++ second) = threadsOf first ++ threadsOf second :=
  List.flatMap_append

theorem threadsOf_middle (before after : List (Stream × List (Program Val Unit)))
    (stream : Stream) (ahead behind : List (Program Val Unit))
    (thread : Program Val Unit) :
    threadsOf (before ++ (stream, ahead ++ thread :: behind) :: after) =
      (threadsOf before ++ ahead) ++ thread :: (behind ++ threadsOf after) := by
  simp [threadsOf]

/-- Threads of the batches are apart unless their stream orders them. -/
def Unordered (first second : Stream × List (Program Val Unit)) : Prop :=
  first.1 ≠ second.1 → ∀ t ∈ first.2, ∀ u ∈ second.2, Apart t u

theorem Unordered.symm {first second : Stream × List (Program Val Unit)}
    (unordered : Unordered first second) : Unordered second first :=
  fun different t inside u other =>
    (unordered different.symm u other t inside).symm

instance : Std.Symm (@Unordered Stream Cell Val) := ⟨fun _ _ => Unordered.symm⟩

/-- Every batch is what is left of one of the recent batches. -/
def Covers (recent pending : List (Stream × List (Program Val Unit))) : Prop :=
  ∀ entry ∈ pending, ∃ old ∈ recent, old.1 = entry.1 ∧
    ∀ thread ∈ entry.2, ∃ t ∈ old.2, Residual t thread

theorem Covers.of_subset {recent pending : List (Stream × List (Program Val Unit))}
    (inside : pending ⊆ recent) : Covers recent pending :=
  fun entry member => ⟨entry, inside member, rfl, fun thread listed =>
    ⟨thread, listed, Residual.refl thread⟩⟩

theorem Covers.append {recent pending more : List (Stream × List (Program Val Unit))}
    (covers : Covers recent pending) : Covers (recent ++ more) (pending ++ more) := by
  intro entry member
  rcases List.mem_append.mp member with old | new
  · obtain ⟨source, listed, rest⟩ := covers entry old
    exact ⟨source, List.mem_append_left _ listed, rest⟩
  · exact Covers.of_subset (List.subset_append_right recent more) entry new

/-- A thread that has made an access is in the place of the thread. -/
theorem Covers.of_residual {before after : List (Stream × List (Program Val Unit))}
    {stream : Stream} {ahead behind : List (Program Val Unit)}
    {thread thread' : Program Val Unit} (residual : Residual thread thread') :
    Covers (before ++ (stream, ahead ++ thread :: behind) :: after)
      (before ++ (stream, ahead ++ thread' :: behind) :: after) := by
  intro entry member
  rcases List.mem_append.mp member with early | here
  · exact Covers.of_subset (List.subset_append_left ..) entry early
  · cases here with
    | head =>
        refine ⟨_, List.mem_append_right _ (List.mem_cons_self ..), rfl, ?_⟩
        intro t inside
        rcases List.mem_append.mp inside with first | last
        · exact ⟨t, List.mem_append_left _ first, Residual.refl t⟩
        · cases last with
          | head =>
              exact ⟨thread, List.mem_append_right _ (List.mem_cons_self ..),
                residual⟩
          | tail _ later =>
              exact ⟨t, List.mem_append_right _ (List.mem_cons_of_mem _ later),
                Residual.refl t⟩
    | tail _ late =>
        exact ⟨entry, List.mem_append_right _ (List.mem_cons_of_mem _ late), rfl,
          fun t inside => ⟨t, inside, Residual.refl t⟩⟩

/-- Threads that do not notice a write of the host: they do not touch the cell, or
they do not write it and it has the value already. -/
def Unnoticed (cell : Cell) (value : Val cell) (memory : Store Val)
    (threads : List (Program Val Unit)) : Prop :=
  (∀ thread ∈ threads, ∃ reads writes, thread.Within reads writes ∧
      cell ∉ reads ∪ writes) ∨
    (memory cell = value ∧
      ∀ thread ∈ threads, ∃ reads writes, thread.Within reads writes ∧
        cell ∉ writes)

theorem Unnoticed.covered {cell : Cell} {value : Val cell} {memory : Store Val}
    {recent pending : List (Stream × List (Program Val Unit))}
    (unnoticed : Unnoticed cell value memory (threadsOf recent))
    (covers : Covers recent pending) :
    Unnoticed cell value memory (threadsOf pending) := by
  have from_recent : ∀ thread ∈ threadsOf pending,
      ∃ t ∈ threadsOf recent, Residual t thread := by
    intro thread member
    obtain ⟨entry, listed, inside⟩ := List.mem_flatMap.mp member
    obtain ⟨old, source, -, all⟩ := covers entry listed
    obtain ⟨t, here, residual⟩ := all thread inside
    exact ⟨t, List.mem_flatMap.mpr ⟨old, source, here⟩, residual⟩
  refine unnoticed.imp (fun avoids thread member => ?_) fun ⟨same, avoids⟩ =>
    ⟨same, fun thread member => ?_⟩
  · obtain ⟨t, source, residual⟩ := from_recent thread member
    obtain ⟨reads, writes, within, outside⟩ := avoids t source
    exact ⟨reads, writes, residual _ _ within, outside⟩
  · obtain ⟨t, source, residual⟩ := from_recent thread member
    obtain ⟨reads, writes, within, outside⟩ := avoids t source
    exact ⟨reads, writes, residual _ _ within, outside⟩

/-! ## One access -/

variable [DecidableEq Cell]

@[simp]
theorem exec_read (cell : Cell) (next : Val cell → Program Val Unit)
    (memory : Store Val) :
    (Program.read cell next).exec memory = (next (memory cell)).exec memory := rfl

@[simp]
theorem exec_write (cell : Cell) (value : Val cell) (next : Program Val Unit)
    (memory : Store Val) :
    (Program.write cell value next).exec memory =
      next.exec (memory.update cell value) := rfl

/-- A thread makes its next access. -/
inductive Access :
    Program Val Unit → Store Val → Program Val Unit → Store Val → Prop
  | read (cell : Cell) (next : Val cell → Program Val Unit) (memory : Store Val) :
      Access (.read cell next) memory (next (memory cell)) memory
  | write (cell : Cell) (value : Val cell) (next : Program Val Unit)
      (memory : Store Val) :
      Access (.write cell value next) memory next (memory.update cell value)

/-- The number of accesses a thread makes when it runs alone. -/
def accesses : Program Val Unit → Store Val → Nat
  | .done _, _ => 0
  | .read cell next, memory => accesses (next (memory cell)) memory + 1
  | .write cell value next, memory => accesses next (memory.update cell value) + 1

theorem Access.residual {thread rest : Program Val Unit} {memory memory' : Store Val}
    (access : Access thread memory rest memory') : Residual thread rest := by
  intro reads writes within
  cases access with
  | read cell next memory =>
      cases within with
      | read inside later => exact later _
  | write cell value next memory =>
      cases within with
      | write inside later => exact later

/-- A thread makes as many accesses in stores that agree on what it reads. -/
theorem accesses_agree {reads writes : Set Cell} {thread : Program Val Unit}
    (within : thread.Within reads writes) {first second : Store Val}
    (agree : Program.Agree reads first second) :
    accesses thread first = accesses thread second := by
  induction within generalizing first second with
  | done result => rfl
  | @read cell next inside later ih =>
      have same : first cell = second cell := agree cell inside
      rw [accesses, accesses, ← same]
      exact congrArg (· + 1) (ih _ agree)
  | @write cell value next inside later ih =>
      exact congrArg (· + 1) (ih (agree.update cell value))

/-! ## Threads one after another -/

/-- The memory the threads leave one after another. -/
def execAll (threads : List (Program Val Unit)) (memory : Store Val) : Store Val :=
  threads.foldl (fun current thread => thread.exec current) memory

/-- The accesses the threads make one after another. -/
def accessesAll : List (Program Val Unit) → Store Val → Nat
  | [], _ => 0
  | thread :: rest, memory =>
      accesses thread memory + accessesAll rest (thread.exec memory)

@[simp]
theorem execAll_nil (memory : Store Val) :
    execAll ([] : List (Program Val Unit)) memory = memory := rfl

@[simp]
theorem execAll_cons (thread : Program Val Unit) (rest : List (Program Val Unit))
    (memory : Store Val) :
    execAll (thread :: rest) memory = execAll rest (thread.exec memory) := rfl

theorem execAll_append (first second : List (Program Val Unit))
    (memory : Store Val) :
    execAll (first ++ second) memory = execAll second (execAll first memory) :=
  List.foldl_append ..

theorem accessesAll_append (first second : List (Program Val Unit))
    (memory : Store Val) :
    accessesAll (first ++ second) memory =
      accessesAll first memory + accessesAll second (execAll first memory) := by
  induction first generalizing memory with
  | nil => exact (Nat.zero_add _).symm
  | cons thread rest ih =>
      rw [List.cons_append, accessesAll, accessesAll, ih, execAll_cons, Nat.add_assoc]

/-- The threads leave a cell alone that none of them writes. -/
theorem execAll_frame {threads : List (Program Val Unit)} {cell : Cell}
    (avoids : ∀ thread ∈ threads, ∃ reads writes, thread.Within reads writes ∧
      cell ∉ writes) (memory : Store Val) :
    execAll threads memory cell = memory cell := by
  induction threads generalizing memory with
  | nil => rfl
  | cons thread rest ih =>
      obtain ⟨reads, writes, within, outside⟩ := avoids thread (List.mem_cons_self ..)
      rw [execAll_cons, ih fun t member => avoids t (List.mem_cons_of_mem _ member)]
      exact within.exec_frame memory outside

/-- A write that no thread notices may come first. -/
theorem execAll_update {threads : List (Program Val Unit)} {cell : Cell}
    (avoids : ∀ thread ∈ threads, ∃ reads writes, thread.Within reads writes ∧
      cell ∉ reads ∪ writes) (value : Val cell) (memory : Store Val) :
    execAll threads (memory.update cell value) =
        (execAll threads memory).update cell value ∧
      accessesAll threads (memory.update cell value) =
        accessesAll threads memory := by
  induction threads generalizing memory with
  | nil => exact ⟨rfl, rfl⟩
  | cons thread rest ih =>
      obtain ⟨reads, writes, within, outside⟩ := avoids thread (List.mem_cons_self ..)
      have within' : (store cell value).Within (∅ : Set Cell) {cell} :=
        .store rfl
      have notRead : cell ∉ reads := fun read => outside (Or.inl read)
      have notWritten : cell ∉ writes := fun write => outside (Or.inr write)
      have commutes : thread.exec (memory.update cell value) =
          (thread.exec memory).update cell value := by
        have apart : Disjoint writes (∅ ∪ {cell}) := by
          rw [Set.empty_union]
          exact Set.disjoint_singleton_right.mpr notWritten
        have swapped := within.exec_comm within' apart
          (Set.disjoint_singleton_left.mpr notRead) memory
        rw [CellProgram.Program.exec_store, CellProgram.Program.exec_store] at swapped
        exact swapped.symm
      have agree : Program.Agree reads (memory.update cell value) memory := by
        intro other read
        refine memory.update_of_ne value fun same => ?_
        exact notRead (same ▸ read)
      obtain ⟨same, count⟩ := ih (fun t member => avoids t
        (List.mem_cons_of_mem _ member)) (thread.exec memory)
      constructor
      · rw [execAll_cons, commutes, same, execAll_cons]
      · rw [accessesAll, accessesAll, commutes, count, accesses_agree within agree]

/-- Threads that are done leave the memory as it is. -/
theorem execAll_finished {threads : List (Program Val Unit)}
    (finished : ∀ thread ∈ threads, thread = .done ()) (memory : Store Val) :
    execAll threads memory = memory ∧ accessesAll threads memory = 0 := by
  induction threads with
  | nil => exact ⟨rfl, rfl⟩
  | cons thread rest ih =>
      obtain rfl := finished thread (List.mem_cons_self ..)
      obtain ⟨same, count⟩ := ih fun t member =>
        finished t (List.mem_cons_of_mem _ member)
      constructor
      · rw [execAll_cons]
        exact same
      · rw [accessesAll]
        exact (Nat.zero_add _).trans count

/-- A thread apart from all that would run before it makes its next access as it
would in its turn. -/
theorem Access.execAll_eq {before : List (Program Val Unit)}
    {thread rest : Program Val Unit} {memory memory' : Store Val}
    (access : Access thread memory rest memory')
    (apart : ∀ other ∈ before, Apart other thread) (after : List (Program Val Unit)) :
    execAll (before ++ rest :: after) memory' =
        execAll (before ++ thread :: after) memory ∧
      accessesAll (before ++ rest :: after) memory' + 1 =
        accessesAll (before ++ thread :: after) memory := by
  rw [execAll_append, execAll_append, accessesAll_append, accessesAll_append,
    execAll_cons, execAll_cons, accessesAll, accessesAll]
  cases access with
  | read cell next memory =>
      have unchanged : execAll before memory cell = memory cell :=
        execAll_frame (fun other member => (apart other member).of_read) memory
      rw [accesses, exec_read, unchanged]
      exact ⟨rfl, by omega⟩
  | write cell value next memory =>
      obtain ⟨first, count⟩ := execAll_update
        (fun other member => (apart other member).of_write) value memory
      rw [accesses, exec_write, first, count]
      exact ⟨rfl, by omega⟩

/-! ## The pool -/

/-- What a host asks for: a batch of threads on a stream, a write of its own, or
that everything handed over has run. -/
inductive Request (Stream : Type) {Cell : Type} (Val : Cell → Type) where
  | enqueue (stream : Stream) (threads : List (Program Val Unit))
  | write (cell : Cell) (value : Val cell)
  | wait

/-- The requests still to come, what is left of the batches handed over, the
oldest first, and the memory. -/
structure Config (Stream : Type) {Cell : Type} (Val : Cell → Type) where
  requests : List (Request Stream Val)
  pending : List (Stream × List (Program Val Unit))
  memory : Store Val

/-- The host makes its next request, a thread of the oldest batch of a stream
makes its next access, or such a batch is over because all its threads are done.
A wait is over when nothing is pending on any stream, whichever device it belongs
to. -/
inductive Step : Config Stream Val → Config Stream Val → Prop
  | enqueue (stream : Stream) (threads : List (Program Val Unit))
      (rest : List (Request Stream Val))
      (pending : List (Stream × List (Program Val Unit))) (memory : Store Val) :
      Step ⟨.enqueue stream threads :: rest, pending, memory⟩
        ⟨rest, pending ++ [(stream, threads)], memory⟩
  | write (cell : Cell) (value : Val cell) (rest : List (Request Stream Val))
      (pending : List (Stream × List (Program Val Unit))) (memory : Store Val) :
      Step ⟨.write cell value :: rest, pending, memory⟩
        ⟨rest, pending, memory.update cell value⟩
  | wait (rest : List (Request Stream Val)) (memory : Store Val) :
      Step ⟨.wait :: rest, [], memory⟩ ⟨rest, [], memory⟩
  | access {before : List (Stream × List (Program Val Unit))} {stream : Stream}
      (oldest : ∀ entry ∈ before, entry.1 ≠ stream)
      {thread thread' : Program Val Unit} {memory memory' : Store Val}
      (access : Access thread memory thread' memory')
      (requests : List (Request Stream Val))
      (ahead behind : List (Program Val Unit))
      (after : List (Stream × List (Program Val Unit))) :
      Step
        ⟨requests, before ++ (stream, ahead ++ thread :: behind) :: after, memory⟩
        ⟨requests, before ++ (stream, ahead ++ thread' :: behind) :: after,
          memory'⟩
  | retire {before : List (Stream × List (Program Val Unit))} {stream : Stream}
      (oldest : ∀ entry ∈ before, entry.1 ≠ stream)
      {threads : List (Program Val Unit)}
      (finished : ∀ thread ∈ threads, thread = .done ())
      (requests : List (Request Stream Val))
      (after : List (Stream × List (Program Val Unit))) (memory : Store Val) :
      Step ⟨requests, before ++ (stream, threads) :: after, memory⟩
        ⟨requests, before ++ after, memory⟩

/-- A run of some number of steps. -/
inductive Steps : Nat → Config Stream Val → Config Stream Val → Prop
  | refl (config : Config Stream Val) : Steps 0 config config
  | tail {n : Nat} {first second third : Config Stream Val}
      (steps : Steps n first second) (step : Step second third) :
      Steps (n + 1) first third

/-- The memory that requests leave when each batch runs at once, one thread
after another. -/
def outcome : List (Request Stream Val) → Store Val → Store Val
  | [], memory => memory
  | .enqueue _ threads :: rest, memory => outcome rest (execAll threads memory)
  | .write cell value :: rest, memory => outcome rest (memory.update cell value)
  | .wait :: rest, memory => outcome rest memory

/-- The steps that requests cost when each batch runs at once: a batch is handed
over, makes its accesses and is over. -/
def cost : List (Request Stream Val) → Store Val → Nat
  | [], _ => 0
  | .enqueue _ threads :: rest, memory =>
      accessesAll threads memory + 2 + cost rest (execAll threads memory)
  | .write cell value :: rest, memory => 1 + cost rest (memory.update cell value)
  | .wait :: rest, memory => 1 + cost rest memory

/-- The memory once everything pending has run in order. -/
def Config.settled (config : Config Stream Val) : Store Val :=
  execAll (threadsOf config.pending) config.memory

/-- The steps left if everything runs in order. -/
def Config.remaining (config : Config Stream Val) : Nat :=
  accessesAll (threadsOf config.pending) config.memory + config.pending.length +
    cost config.requests config.settled

/-! ## Orderly requests -/

/-- The threads of a batch are apart from each other and from those of other
streams that may still be pending, and nothing pending notices a write.  `recent`
are the batches since the last wait, and they have left the memory. -/
def Orderly : List (Stream × List (Program Val Unit)) → Store Val →
    List (Request Stream Val) → Prop
  | _, _, [] => True
  | recent, memory, .enqueue stream threads :: rest =>
      threads.Pairwise Apart ∧
        (∀ entry ∈ recent, Unordered entry (stream, threads)) ∧
        Orderly (recent ++ [(stream, threads)]) (execAll threads memory) rest
  | recent, memory, .write cell value :: rest =>
      Unnoticed cell value memory (threadsOf recent) ∧
        Orderly recent (memory.update cell value) rest
  | _, memory, .wait :: rest => Orderly [] memory rest

/-- Requests stay orderly when threads go on. -/
theorem Orderly.covered {recent pending : List (Stream × List (Program Val Unit))}
    {memory : Store Val} {requests : List (Request Stream Val)}
    (orderly : Orderly recent memory requests) (covers : Covers recent pending) :
    Orderly pending memory requests := by
  induction requests generalizing recent pending memory with
  | nil => trivial
  | cons request rest ih =>
      cases request with
      | enqueue stream threads =>
          obtain ⟨batch, apart, later⟩ := orderly
          refine ⟨batch, fun entry member different t inside u other => ?_,
            ih later covers.append⟩
          obtain ⟨old, listed, same, all⟩ := covers entry member
          obtain ⟨source, here, residual⟩ := all t inside
          exact (apart old listed (same ▸ different) source here u other).residual
            residual (Residual.refl u)
      | write cell value => exact ⟨orderly.1.covered covers, ih orderly.2 covers⟩
      | wait => exact orderly

/-! ## Requests one after another -/

/-- The batches that may still be pending after requests. -/
def pendingAfter : List (Stream × List (Program Val Unit)) →
    List (Request Stream Val) → List (Stream × List (Program Val Unit))
  | recent, [] => recent
  | recent, .enqueue stream threads :: rest =>
      pendingAfter (recent ++ [(stream, threads)]) rest
  | recent, .write _ _ :: rest => pendingAfter recent rest
  | _, .wait :: rest => pendingAfter [] rest

theorem outcome_append (first second : List (Request Stream Val))
    (memory : Store Val) :
    outcome (first ++ second) memory = outcome second (outcome first memory) := by
  induction first generalizing memory with
  | nil => rfl
  | cons request rest ih =>
      cases request with
      | enqueue stream threads => exact ih _
      | write cell value => exact ih _
      | wait => exact ih memory

omit [DecidableEq Cell] in
theorem pendingAfter_append (recent : List (Stream × List (Program Val Unit)))
    (first second : List (Request Stream Val)) :
    pendingAfter recent (first ++ second) =
      pendingAfter (pendingAfter recent first) second := by
  induction first generalizing recent with
  | nil => rfl
  | cons request rest ih =>
      cases request with
      | enqueue stream threads => exact ih _
      | write cell value => exact ih recent
      | wait => exact ih []

/-- Orderly requests may follow each other. -/
theorem Orderly.append {recent : List (Stream × List (Program Val Unit))}
    {memory : Store Val} {first second : List (Request Stream Val)}
    (orderly : Orderly recent memory first)
    (later : Orderly (pendingAfter recent first) (outcome first memory) second) :
    Orderly recent memory (first ++ second) := by
  induction first generalizing recent memory with
  | nil => exact later
  | cons request rest ih =>
      cases request with
      | enqueue stream threads => exact ⟨orderly.1, orderly.2.1, ih orderly.2.2 later⟩
      | write cell value => exact ⟨orderly.1, ih orderly.2 later⟩
      | wait =>
          have settled : Orderly [] memory rest := orderly
          exact ih settled later

@[simp]
theorem outcome_waits (n : Nat) (memory : Store Val) :
    outcome (List.replicate n (.wait : Request Stream Val)) memory = memory := by
  induction n with
  | zero => rfl
  | succ n ih => exact ih

omit [DecidableEq Cell] in
theorem pendingAfter_waits (recent : List (Stream × List (Program Val Unit)))
    (n : Nat) :
    pendingAfter recent (List.replicate n .wait) = if n = 0 then recent else [] := by
  induction n generalizing recent with
  | zero => rfl
  | succ n ih =>
      rw [if_neg (Nat.succ_ne_zero n)]
      exact (ih []).trans (ite_self _)

theorem Orderly.waits (recent : List (Stream × List (Program Val Unit)))
    (memory : Store Val) (n : Nat) :
    Orderly recent memory (List.replicate n .wait) := by
  induction n generalizing recent with
  | zero => trivial
  | succ n ih => exact ih []

omit [DecidableEq Cell] in
theorem pendingAfter_enqueues (recent : List (Stream × List (Program Val Unit)))
    (stream : Stream) (batches : List (List (Program Val Unit))) :
    pendingAfter recent (batches.map (.enqueue stream)) =
      recent ++ batches.map (Prod.mk stream) := by
  induction batches generalizing recent with
  | nil => exact (List.append_nil recent).symm
  | cons batch rest ih =>
      exact (ih _).trans (List.append_assoc recent [(stream, batch)] _)

/-- Batches of one stream have to be apart only from those of other streams. -/
theorem Orderly.enqueues {recent : List (Stream × List (Program Val Unit))}
    {stream : Stream} {batches : List (List (Program Val Unit))}
    (each : ∀ batch ∈ batches, batch.Pairwise Apart)
    (apart : ∀ batch ∈ batches, ∀ entry ∈ recent, Unordered entry (stream, batch))
    (memory : Store Val) :
    Orderly recent memory (batches.map (.enqueue stream)) := by
  induction batches generalizing recent memory with
  | nil => trivial
  | cons batch rest ih =>
      have here := List.mem_cons_self (a := batch) (l := rest)
      refine ⟨each batch here, apart batch here, ih
        (fun other member => each other (List.mem_cons_of_mem _ member))
        (fun other member entry inside => ?_) _⟩
      rcases List.mem_append.mp inside with old | new
      · exact apart other (List.mem_cons_of_mem _ member) entry old
      · rw [List.mem_singleton.mp new]
        exact fun different => absurd rfl different

omit [DecidableEq Cell] in
theorem Covers.trans {first second third : List (Stream × List (Program Val Unit))}
    (covers : Covers first second) (covers' : Covers second third) :
    Covers first third := by
  intro entry member
  obtain ⟨middle, listed, same, all⟩ := covers' entry member
  obtain ⟨old, source, same', all'⟩ := covers middle listed
  refine ⟨old, source, same'.trans same, fun thread inside => ?_⟩
  obtain ⟨t, here, residual⟩ := all thread inside
  obtain ⟨u, there, residual'⟩ := all' t here
  exact ⟨u, there, fun reads writes within => residual _ _ (residual' _ _ within)⟩

/-- A step makes at most one request, and what is pending afterwards is left of what
may be pending after it. -/
theorem Step.covered {config next : Config Stream Val} (step : Step config next) :
    ∃ made, config.requests = made ++ next.requests ∧
      ∀ recent, Covers recent config.pending →
        Covers (pendingAfter recent made) next.pending := by
  cases step with
  | enqueue stream threads rest pending memory =>
      exact ⟨[.enqueue stream threads], rfl, fun recent covers => covers.append⟩
  | write cell value rest pending memory =>
      exact ⟨[.write cell value], rfl, fun recent covers => covers⟩
  | wait rest memory => exact ⟨[.wait], rfl, fun _ _ => .of_subset fun _ => id⟩
  | access oldest access requests ahead behind after =>
      exact ⟨[], rfl, fun recent covers => covers.trans
        (Covers.of_residual access.residual)⟩
  | retire oldest finished requests after memory =>
      refine ⟨[], rfl, fun recent covers entry member => covers entry ?_⟩
      rcases List.mem_append.mp member with early | late
      · exact List.mem_append_left _ early
      · exact List.mem_append_right _ (List.mem_cons_of_mem _ late)

/-- Whatever the interleaving, all that is pending is left of batches that the
requests made so far may leave pending. -/
theorem Steps.covered {n : Nat} {start config : Config Stream Val}
    (steps : Steps n start config) :
    ∃ made, start.requests = made ++ config.requests ∧
      Covers (pendingAfter start.pending made) config.pending := by
  induction steps with
  | refl start => exact ⟨[], rfl, Covers.of_subset fun _ => id⟩
  | tail steps step ih =>
      obtain ⟨made, split, covers⟩ := ih
      obtain ⟨more, split', onward⟩ := step.covered
      refine ⟨made ++ more, by rw [split, split', List.append_assoc], ?_⟩
      rw [pendingAfter_append]
      exact onward _ covers

/-! ## What a step keeps -/

/-- What is pending is apart where no stream orders it, and the rest of the
requests is orderly. -/
structure Invariant (config : Config Stream Val) : Prop where
  batches : ∀ entry ∈ config.pending, entry.2.Pairwise Apart
  unordered : config.pending.Pairwise Unordered
  orderly : Orderly config.pending config.settled config.requests

/-- A thread in flight is apart from all threads that come before it. -/
theorem Invariant.apart {requests : List (Request Stream Val)}
    {before after : List (Stream × List (Program Val Unit))} {stream : Stream}
    {ahead behind : List (Program Val Unit)} {thread : Program Val Unit}
    {memory : Store Val}
    (invariant : Invariant ⟨requests,
      before ++ (stream, ahead ++ thread :: behind) :: after, memory⟩)
    (oldest : ∀ entry ∈ before, entry.1 ≠ stream) :
    ∀ other ∈ threadsOf before ++ ahead, Apart other thread := by
  intro other member
  rcases List.mem_append.mp member with elsewhere | same
  · obtain ⟨entry, listed, inside⟩ := List.mem_flatMap.mp elsewhere
    have ordered := (List.pairwise_append.mp invariant.unordered).2.2 entry listed
      _ (List.mem_cons_self ..)
    exact ordered (oldest entry listed) other inside thread (by simp)
  · have batch := invariant.batches _
      (List.mem_append_right before (List.mem_cons_self ..))
    exact (List.pairwise_append.mp batch).2.2 other same thread
      (List.mem_cons_self ..)

/-- Writing the value a cell has changes nothing. -/
theorem update_same (memory : Store Val) (cell : Cell) :
    memory.update cell (memory cell) = memory := by
  refine CellProgram.Store.ext (funext fun other => ?_)
  by_cases same : other = cell
  · subst same
    exact memory.update_self other _
  · exact memory.update_of_ne _ same

/-- The invariant survives an access. -/
theorem Invariant.access {requests : List (Request Stream Val)}
    {before after : List (Stream × List (Program Val Unit))} {stream : Stream}
    {ahead behind : List (Program Val Unit)} {thread thread' : Program Val Unit}
    {memory memory' : Store Val}
    (invariant : Invariant ⟨requests,
      before ++ (stream, ahead ++ thread :: behind) :: after, memory⟩)
    (residual : Residual thread thread')
    (settled : Config.settled ⟨requests,
        before ++ (stream, ahead ++ thread' :: behind) :: after, memory'⟩ =
      Config.settled ⟨requests,
        before ++ (stream, ahead ++ thread :: behind) :: after, memory⟩) :
    Invariant ⟨requests,
      before ++ (stream, ahead ++ thread' :: behind) :: after, memory'⟩ := by
  obtain ⟨batches, unordered, orderly⟩ := invariant
  obtain ⟨others, middle⟩ := List.forall_mem_append.mp batches
  obtain ⟨batch, rest⟩ := List.forall_mem_cons.mp middle
  constructor
  · refine List.forall_mem_append.mpr ⟨others, List.forall_mem_cons.mpr ⟨?_, rest⟩⟩
    rw [List.pairwise_middle Apart.symm, List.pairwise_cons] at batch ⊢
    exact ⟨fun u member => (batch.1 u member).residual residual (Residual.refl u),
      batch.2⟩
  · rw [List.pairwise_middle Unordered.symm, List.pairwise_cons] at unordered ⊢
    refine ⟨fun entry member different t inside u other => ?_, unordered.2⟩
    rcases List.mem_append.mp inside with first | last
    · exact unordered.1 entry member different t (List.mem_append_left _ first) u other
    · cases last with
      | head =>
          have apart := unordered.1 entry member different thread
            (List.mem_append_right _ (List.mem_cons_self ..)) u other
          exact apart.residual residual (Residual.refl u)
      | tail _ later =>
          exact unordered.1 entry member different t
            (List.mem_append_right _ (List.mem_cons_of_mem _ later)) u other
  · show Orderly _ (Config.settled _) requests
    rw [settled]
    exact orderly.covered (Covers.of_residual residual)

/-- A write that nothing pending notices might as well come after everything
pending. -/
theorem Unnoticed.settled {cell : Cell} {value : Val cell} {memory : Store Val}
    {threads : List (Program Val Unit)}
    (unnoticed : Unnoticed cell value (execAll threads memory) threads) :
    execAll threads (memory.update cell value) =
        (execAll threads memory).update cell value ∧
      accessesAll threads (memory.update cell value) = accessesAll threads memory := by
  rcases unnoticed with untouched | ⟨same, unwritten⟩
  · exact execAll_update untouched value memory
  · have here : memory cell = value := (execAll_frame unwritten memory).symm.trans same
    have nothing : memory.update cell value = memory := by
      rw [← here]
      exact update_same memory cell
    have nothing' : (execAll threads memory).update cell value =
        execAll threads memory := by
      rw [← same]
      exact update_same _ cell
    rw [nothing, nothing']
    exact ⟨rfl, rfl⟩

/-- A step keeps the invariant and the outcome, and one step less is left. -/
theorem Invariant.step {config next : Config Stream Val}
    (invariant : Invariant config) (step : Step config next) :
    Invariant next ∧
      outcome next.requests next.settled = outcome config.requests config.settled ∧
      next.remaining + 1 = config.remaining := by
  cases step with
  | enqueue stream threads rest pending memory =>
      obtain ⟨batches, unordered, batch, apart, later⟩ := invariant
      have settled : Config.settled ⟨rest, pending ++ [(stream, threads)], memory⟩ =
          execAll threads (execAll (threadsOf pending) memory) := by
        rw [Config.settled, threadsOf_append, threadsOf_cons, execAll_append,
          execAll_append]
        rfl
      refine ⟨⟨?_, ?_, ?_⟩, ?_, ?_⟩
      · refine List.forall_mem_append.mpr ⟨batches, List.forall_mem_singleton.mpr batch⟩
      · refine List.pairwise_append.mpr ⟨unordered, List.pairwise_singleton _ _, ?_⟩
        intro entry member other last
        rw [List.mem_singleton.mp last]
        exact apart entry member
      · rw [settled]
        exact later
      · rw [settled]
        rfl
      · rw [Config.remaining, Config.remaining, settled, cost]
        simp only [Config.settled, threadsOf_append, threadsOf_cons, threadsOf_nil,
          List.append_nil, accessesAll_append, List.length_append,
          List.length_singleton]
        omega
  | write cell value rest pending memory =>
      obtain ⟨batches, unordered, unnoticed, later⟩ := invariant
      obtain ⟨settled, count⟩ := Unnoticed.settled unnoticed
      refine ⟨⟨batches, unordered, ?_⟩, ?_, ?_⟩
      · show Orderly pending (execAll _ _) rest
        rw [settled]
        exact later
      · show outcome rest (execAll _ _) = _
        rw [settled]
        rfl
      · simp only [Config.remaining, Config.settled, settled, count, cost]
        omega
  | wait rest memory =>
      obtain ⟨-, -, later⟩ := invariant
      refine ⟨⟨nofun, List.Pairwise.nil, later⟩, rfl, ?_⟩
      simp only [Config.remaining, Config.settled, cost]
      omega
  | @access before stream oldest thread thread' memory memory' access requests ahead
      behind after =>
      obtain ⟨same, count⟩ :=
        access.execAll_eq (invariant.apart oldest) (behind ++ threadsOf after)
      rw [← threadsOf_middle before after stream,
        ← threadsOf_middle before after stream] at same count
      refine ⟨invariant.access access.residual same, ?_, ?_⟩
      · exact congrArg (outcome requests) same
      · simp only [Config.remaining, Config.settled, same, ← count,
          List.length_append, List.length_cons]
        omega
  | @retire before stream oldest threads finished requests after memory =>
      have fewer : (before ++ after).Sublist (before ++ (stream, threads) :: after) :=
        (List.sublist_cons_self _ _).append_left before
      have nothing := execAll_finished finished (execAll (threadsOf before) memory)
      have same : execAll (threadsOf (before ++ after)) memory =
          execAll (threadsOf (before ++ (stream, threads) :: after)) memory := by
        rw [threadsOf_append, threadsOf_append, threadsOf_cons, execAll_append,
          execAll_append, execAll_append, nothing.1]
      have count : accessesAll (threadsOf (before ++ after)) memory =
          accessesAll (threadsOf (before ++ (stream, threads) :: after)) memory := by
        rw [threadsOf_append, threadsOf_append, threadsOf_cons, accessesAll_append,
          accessesAll_append, accessesAll_append, nothing.1, nothing.2, Nat.zero_add]
      obtain ⟨batches, unordered, orderly⟩ := invariant
      refine ⟨⟨fun entry member => batches entry (fewer.subset member),
        unordered.sublist fewer, ?_⟩, congrArg (outcome requests) same, ?_⟩
      · show Orderly _ (execAll _ memory) requests
        rw [same]
        exact orderly.covered (Covers.of_subset fewer.subset)
      · simp only [Config.remaining, Config.settled, same, count, List.length_append,
          List.length_cons]
        omega

/-! ## Runs -/

section Runs

variable {requests : List (Request Stream Val)} {memory : Store Val}
  (orderly : Orderly [] memory requests)

include orderly

/-- What holds after any number of steps. -/
theorem Steps.kept {n : Nat} {config : Config Stream Val}
    (steps : Steps n ⟨requests, [], memory⟩ config) :
    Invariant config ∧
      outcome config.requests config.settled = outcome requests memory ∧
      config.remaining + n = cost requests memory := by
  generalize start : (⟨requests, [], memory⟩ : Config Stream Val) = first at steps
  induction steps with
  | refl first =>
      subst start
      refine ⟨⟨nofun, List.Pairwise.nil, orderly⟩, rfl, ?_⟩
      exact (Nat.zero_add _)
  | tail steps step ih =>
      obtain ⟨invariant, same, left⟩ := ih start
      obtain ⟨invariant', same', left'⟩ := invariant.step step
      exact ⟨invariant', same'.trans same, by omega⟩

/-- Whatever the interleaving, the memory is the one that the batches leave when
each runs at once. -/
theorem Steps.memory_eq {n : Nat} {final : Store Val}
    (steps : Steps n ⟨requests, [], memory⟩ ⟨[], [], final⟩) :
    final = outcome requests memory := (Steps.kept orderly steps).2.1

/-- No run is longer than the one in order, and one that is as long is
complete. -/
theorem Steps.length_le {n : Nat} {config : Config Stream Val}
    (steps : Steps n ⟨requests, [], memory⟩ config) :
    n ≤ cost requests memory ∧
      (n = cost requests memory ↔ config.requests = [] ∧ config.pending = []) := by
  obtain ⟨-, -, left⟩ := Steps.kept orderly steps
  obtain ⟨reqs, pending, current⟩ := config
  refine ⟨by omega, fun all => ?_, ?_⟩
  · have none : Config.remaining ⟨reqs, pending, current⟩ = 0 := by omega
    unfold Config.remaining at none
    cases reqs with
    | nil =>
        have empty : pending.length = 0 := (Nat.add_eq_zero_iff.mp
          (Nat.add_eq_zero_iff.mp none).1).2
        exact ⟨rfl, List.eq_nil_of_length_eq_zero empty⟩
    | cons request rest =>
        cases request with
        | enqueue | write | wait =>
            simp only [cost] at none
            omega
  · rintro ⟨rfl, rfl⟩
    have none : Config.remaining ⟨[], ([] : List (Stream × List (Program Val Unit))),
        current⟩ = 0 := rfl
    omega

end Runs

/-- Something can always happen until everything is over. -/
theorem Config.progress (config : Config Stream Val)
    (unfinished : ¬ (config.requests = [] ∧ config.pending = [])) :
    ∃ next, Step config next := by
  obtain ⟨requests, pending, memory⟩ := config
  cases pending with
  | nil =>
      cases requests with
      | nil => exact absurd ⟨rfl, rfl⟩ unfinished
      | cons request rest =>
          cases request with
          | enqueue stream threads => exact ⟨_, .enqueue stream threads rest [] memory⟩
          | write cell value => exact ⟨_, .write cell value rest [] memory⟩
          | wait => exact ⟨_, .wait rest memory⟩
  | cons entry after =>
      obtain ⟨stream, threads⟩ := entry
      have oldest : ∀ entry ∈ ([] : List (Stream × List (Program Val Unit))),
          entry.1 ≠ stream := by simp
      by_cases finished : ∀ thread ∈ threads, thread = .done ()
      · exact ⟨_, .retire oldest finished requests after memory⟩
      · push Not at finished
        obtain ⟨thread, member, going⟩ := finished
        obtain ⟨ahead, behind, rfl⟩ := List.append_of_mem member
        cases thread with
        | done result => exact absurd rfl going
        | read cell next =>
            exact ⟨_, .access oldest (.read cell next memory) requests ahead behind
              after⟩
        | write cell value next =>
            exact ⟨_, .access oldest (.write cell value next memory) requests ahead
              behind after⟩

theorem Steps.head {n : Nat} {first second third : Config Stream Val}
    (step : Step first second) (steps : Steps n second third) :
    Steps (n + 1) first third := by
  induction steps with
  | refl second => exact .tail (.refl first) step
  | tail steps last ih => exact .tail (ih step) last

/-- From there on everything can be brought to an end. -/
theorem Invariant.completes {config : Config Stream Val}
    (invariant : Invariant config) :
    ∃ n final, Steps n config ⟨[], [], final⟩ := by
  induction left : config.remaining using Nat.strong_induction_on generalizing config
    with
  | _ k ih =>
      by_cases finished : config.requests = [] ∧ config.pending = []
      · obtain ⟨requests, pending, memory⟩ := config
        obtain ⟨rfl, rfl⟩ := finished
        exact ⟨0, memory, .refl _⟩
      · obtain ⟨next, step⟩ := config.progress finished
        obtain ⟨invariant', -, fewer⟩ := invariant.step step
        obtain ⟨n, final, steps⟩ := ih next.remaining (by omega) invariant' rfl
        exact ⟨n + 1, final, steps.head step⟩

/-! ## Races -/

/-- The threads of the oldest batch of a stream. -/
def inFlight [DecidableEq Stream]
    (pending : List (Stream × List (Program Val Unit))) (stream : Stream) :
    List (Program Val Unit) := (pending.lookup stream).getD []

/-- Threads in flight at the same time have no race. -/
theorem Invariant.no_race [DecidableEq Stream] {config : Config Stream Val}
    (invariant : Invariant config) {stream stream' : Stream} {i j : Nat}
    {thread thread' : Program Val Unit}
    (here : (inFlight config.pending stream)[i]? = some thread)
    (there : (inFlight config.pending stream')[j]? = some thread')
    (different : (stream, i) ≠ (stream', j)) : ¬ Race thread thread' := by
  have listed : ∀ {stream : Stream} {i : Nat} {thread : Program Val Unit},
      (inFlight config.pending stream)[i]? = some thread →
      (stream, inFlight config.pending stream) ∈ config.pending := by
    intro stream i thread found
    unfold inFlight at found ⊢
    cases batch : config.pending.lookup stream with
    | none =>
        rw [batch] at found
        cases found
    | some threads =>
        obtain ⟨before, after, split, -⟩ := List.lookup_eq_some_iff.mp batch
        rw [split]
        exact List.mem_append_right _ (List.mem_cons_self ..)
  apply Apart.no_race
  by_cases same : stream = stream'
  · subst same
    have numbers : i ≠ j := fun equal => different (equal ▸ rfl)
    have batch := invariant.batches _ (listed here)
    obtain ⟨below, rfl⟩ := List.getElem?_eq_some_iff.mp here
    obtain ⟨below', rfl⟩ := List.getElem?_eq_some_iff.mp there
    rcases Nat.lt_or_gt_of_ne numbers with less | more
    · exact List.pairwise_iff_getElem.mp batch i j below below' less
    · exact (List.pairwise_iff_getElem.mp batch j i below' below more).symm
  · have entries := invariant.unordered.forall (listed here) (listed there)
      fun equal => same (congrArg Prod.fst equal)
    exact entries same thread (List.mem_of_getElem? here) thread'
      (List.mem_of_getElem? there)

end GpuKvSeal.ThreadPool
