import GpuKvSeal.Device.Threads
import GpuKvSeal.System.Asks
import GpuKvSeal.System.Undisturbed

/-!
# Programs access by access

Every launch hands its threads to a stream, a copy of the host is a write of its
own, and releases and synchronizations wait.  A program that keeps its buffers
apart and gives every handle a stream has requests that are orderly, whatever
fails on the way: it may create and destroy keys while operations on other keys
are still in flight.  So every interleaving of single accesses has the outcome of
the events in the order of the host, and no two threads race.
-/

namespace GpuKvSeal.System

open BigEndian (Byte)
open Device
open Host
open Refinement (tableCells)
open ThreadPool (Apart Orderly Race Steps Unordered Unnoticed cost inFlight outcome
  pendingAfter threadsOf)
open TracedState.Traced (Ensures)

/-! ## Requests of events -/

/-- What an event asks of the device, thread by thread. -/
def threadRequest : Event → Option (ThreadPool.Request Ptr Cell.Val)
  | .launch stream l => some (.enqueue stream l.bodies)
  | .memcpyToSymbol device table => some (.write (.sbox device) table)
  | .memcpy dst bytes => some (.write (.roundKeys dst) bytes)
  | .free _ | .synchronize => some .wait
  | .malloc _ => none

/-- The requests of events in their order. -/
def threadRequests (events : List Event) : List (ThreadPool.Request Ptr Cell.Val) :=
  events.filterMap threadRequest

theorem threadRequests_append (first second : List Event) :
    threadRequests (first ++ second) = threadRequests first ++ threadRequests second :=
  List.filterMap_append ..

/-- No launch among the events has a race. -/
def NoRaces (events : List Event) : Prop :=
  ∀ stream l, Event.launch stream l ∈ events → l.RaceFree

theorem NoRaces.append {first second : List Event} (left : NoRaces first)
    (right : NoRaces second) : NoRaces (first ++ second) := by
  intro stream l member
  rcases List.mem_append.mp member with early | late
  · exact left stream l early
  · exact right stream l late

/-- Without races the requests leave what the events leave. -/
theorem outcome_threadRequests (schedule : Schedule) {events : List Event}
    (noRaces : NoRaces events) (memory : Memory) :
    outcome (threadRequests events) memory = drain schedule events memory := by
  induction events generalizing memory with
  | nil => rfl
  | cons event rest ih =>
      have later := ih (fun stream l member =>
        noRaces stream l (List.mem_cons_of_mem _ member))
      cases event with
      | launch stream l =>
          have raceFree := noRaces stream l (List.mem_cons_self ..)
          rw [drain_cons, Event.apply, ← raceFree.execAll_bodies schedule]
          exact later _
      | memcpyToSymbol device table => exact later _
      | memcpy dst bytes => exact later _
      | free p => exact later memory
      | synchronize => exact later memory
      | malloc p => exact later memory

/-- Launches of one stream. -/
theorem threadRequests_launches (stream : Ptr) (launches : List Launch) :
    threadRequests (launchEvents stream launches) =
      (launches.map Launch.bodies).map (.enqueue stream) := by
  induction launches with
  | nil => rfl
  | cons l rest ih => exact congrArg (_ :: ·) ih

/-- Allocations and releases ask for nothing but waiting. -/
theorem threadRequests_bookkeeping {events : List Event}
    (bookkeeping : Bookkeeping events) :
    threadRequests events =
      List.replicate (events.filterMap (Event.request 0)).length .wait := by
  induction events with
  | nil => rfl
  | cons event rest ih =>
      obtain ⟨here, later⟩ := List.forall_mem_cons.mp bookkeeping
      rcases here with ⟨p, rfl⟩ | ⟨p, rfl⟩
      · exact ih later
      · exact congrArg (_ :: ·) (ih later)

/-! ## What is pending -/

/-- What a launch hands over. -/
def batch (entry : Ptr × Launch) : Ptr × List (DeviceProgram Unit) :=
  (entry.1, entry.2.bodies)

/-- The tables an operation reads are those of its handle. -/
theorem launches_tables {c : ApiCall} (operation : c.Operation) (device : Int)
    (h : KeyHandle) :
    ∀ l ∈ c.launches device h, ∀ cell ∈ l.reads, isTable cell →
      cell ∈ tableCells device h.dRoundKeys h.dHPow2 := by
  have bytes : ∀ {p : Ptr} {n : Nat} {cell : Cell}, cell ∈ span p n →
      ¬ isTable cell := by
    rintro p n _ ⟨k, -, -, rfl⟩ table
    exact table
  have nodes : ∀ {count : Nat} {cell : Cell}, cell ∈ nodeCells h.dNodesA h.dNodesB
      count → ¬ isTable cell := by
    rintro count _ ⟨i, -, rfl | rfl⟩ table
    · exact table
    · exact table
  intro l member cell read table
  cases operation with
  | reserve => cases member
  | @sealAsync key src dst plaintextLen admissible =>
      have reads := (sealLaunches_inside device h src (by omega) dst _ l member).1
      rw [frameBytes_eq dst (by omega)] at reads
      rcases reads read with ((source | frame) | node) | inside
      · exact absurd table (bytes source)
      · exact absurd table (bytes frame)
      · exact absurd table (nodes node)
      · exact inside
  | @openAsync key src dst plaintextLen admissible apart frameLen authOk =>
      have reads := (openLaunches_inside device h src dst (by omega) authOk l member).1
      rw [frameBytes_eq src (by omega)] at reads
      rcases reads read with ((frame | flag) | node) | inside
      · exact absurd table (bytes frame)
      · rw [flag] at table
        cases table
      · exact absurd table (nodes node)
      · exact inside

/-- A launch that may still be pending belongs to an operation on a handle that is
live and has the nodes and the tables the launch uses. -/
structure Held (streams : Ptr → Ptr) (s : HostState) (entry : Ptr × Launch)
    (c : ApiCall) (h : KeyHandle) : Prop where
  recent : Recent streams s (entry.1, ⟨0, entry.2⟩) c h
  tables : ∀ cell ∈ entry.2.reads, isTable cell →
    cell ∈ tableCells h.device h.dRoundKeys h.dHPow2

/-- Between two calls of a program: the allocations are accounted for, the S-box
is in place on the device of every live handle, and all that may still be pending
is held and apart from what the rest of the program touches. -/
structure Standing (streams : Ptr → Ptr) (s : HostState) (memory : Memory)
    (calls : List ApiCall) (recent : List (Ptr × Launch)) : Prop where
  accounted : ∃ leaked, Accounted s leaked
  sboxes : ∀ p h, s.handles.lookup p = some h → memory (.sbox h.device) = HOST_SBOX
  held : ∀ entry ∈ recent, ∃ c h, Held streams s entry c h ∧
    ∀ d ∈ calls, BuffersApart c d

/-- No operation writes a table. -/
theorem Held.writes {streams : Ptr → Ptr} {s : HostState} {entry : Ptr × Launch}
    {c : ApiCall} {h : KeyHandle} (held : Held streams s entry c h) (cell : Cell)
    (table : isTable cell) : cell ∉ entry.2.writes := by
  intro write
  rcases held.recent.writes write with result | node
  · exact Set.disjoint_left.mp (caller_apart c h) (Or.inr result) (Or.inr table)
  · exact Set.disjoint_left.mp (nodes_tables_apart h) node table

/-- A pending thread belongs to a pending launch. -/
theorem mem_threads {recent : List (Ptr × Launch)} {thread : DeviceProgram Unit}
    (member : thread ∈ threadsOf (recent.map batch)) :
    ∃ entry ∈ recent, thread ∈ entry.2.bodies := by
  obtain ⟨_, listed, inside⟩ := List.mem_flatMap.mp member
  obtain ⟨entry, source, rfl⟩ := List.mem_map.mp listed
  exact ⟨entry, source, inside⟩

section Standing

variable {streams : Ptr → Ptr} {s : HostState} {memory : Memory}
  {calls : List ApiCall} {recent : List (Ptr × Launch)}
  (standing : Standing streams s memory calls recent)

include standing

/-- Nobody notices that a creation copies the S-box once more. -/
theorem Standing.unnoticed_sbox (device : Int) :
    Unnoticed (.sbox device) HOST_SBOX memory (threadsOf (recent.map batch)) := by
  by_cases there : memory (.sbox device) = HOST_SBOX
  · refine Or.inr ⟨there, fun thread member => ?_⟩
    obtain ⟨entry, source, inside⟩ := mem_threads member
    obtain ⟨c, h, held, -⟩ := standing.held entry source
    exact ⟨_, _, Launch.bodies_within inside, held.writes (.sbox device) trivial⟩
  · refine Or.inl fun thread member => ?_
    obtain ⟨entry, source, inside⟩ := mem_threads member
    obtain ⟨c, h, held, -⟩ := standing.held entry source
    refine ⟨_, _, Launch.bodies_within inside, ?_⟩
    rintro (read | write)
    · rcases held.tables _ read trivial with (same | same) | ⟨i, -, same⟩
      · rw [Cell.sbox.inj same] at there
        exact there (standing.sboxes _ h held.recent.live)
      · cases same
      · cases same
    · exact held.writes (.sbox device) trivial write

/-- Nor that it fills a buffer that was not in use. -/
theorem Standing.unnoticed_roundKeys {p : Ptr} (fresh : p ∉ s.livePtrs)
    (bytes : Vector Byte 176) :
    Unnoticed (.roundKeys p) bytes memory (threadsOf (recent.map batch)) := by
  refine Or.inl fun thread member => ?_
  obtain ⟨entry, source, inside⟩ := mem_threads member
  obtain ⟨c, h, held, -⟩ := standing.held entry source
  obtain ⟨leaked, accounted⟩ := standing.accounted
  refine ⟨_, _, Launch.bodies_within inside, ?_⟩
  rintro (read | write)
  · rcases held.tables _ read trivial with (same | same) | ⟨i, -, same⟩
    · cases same
    · rw [Cell.roundKeys.inj same] at fresh
      exact fresh (tables_live accounted held.recent.live).1
    · cases same
  · exact held.writes (.roundKeys p) trivial write

/-- The launch of a creation is apart from everything pending. -/
theorem Standing.fresh_apart {l : Launch} (fresh : FreshLaunch s l) :
    ∀ entry ∈ recent.map batch, Unordered entry (batch (0, l)) := by
  intro entry member different
  obtain ⟨source, listed, rfl⟩ := List.mem_map.mp member
  obtain ⟨c, h, held, -⟩ := standing.held source listed
  obtain ⟨leaked, accounted⟩ := standing.accounted
  obtain ⟨device, roundKeys, hPow2, rfl, -, powers⟩ := fresh.tables
  have written : ∀ cell ∈ Launch.writes ⟨device, .initHashKey roundKeys hPow2, 1, 1⟩,
      ∃ i, cell = .hPow2 hPow2 i := by
    rintro cell ⟨_, -, i, -, rfl⟩
    exact ⟨i, rfl⟩
  refine Launch.bodies_separate (Set.disjoint_left.mpr fun cell write touched => ?_)
    (Set.disjoint_left.mpr fun cell write read => ?_)
  · have table : isTable cell := by
      rcases touched with ⟨i, -, (rfl | rfl) | ⟨j, -, rfl⟩⟩ | other
      · trivial
      · trivial
      · trivial
      · obtain ⟨i, rfl⟩ := written cell other
        trivial
    exact held.writes cell table write
  · obtain ⟨i, rfl⟩ := written cell write
    rcases held.tables _ read trivial with (same | same) | ⟨j, -, same⟩
    · cases same
    · cases same
    · rw [(Cell.hPow2.inj same).1] at powers
      exact powers (tables_live accounted held.recent.live).2

end Standing

/-! ## Passing from one configuration to another -/

/-- With these launches pending and all of them taken into account in the memory,
the events are orderly; afterwards those launches may be pending. -/
structure Passes (recent : List (Ptr × Launch)) (memory : Memory)
    (events : List Event) (recent' : List (Ptr × Launch)) (memory' : Memory) :
    Prop where
  orderly : Orderly (recent.map batch) memory (threadRequests events)
  pending : pendingAfter (recent.map batch) (threadRequests events) =
    recent'.map batch
  outcome : outcome (threadRequests events) memory = memory'
  noRaces : NoRaces events

theorem Passes.nil (recent : List (Ptr × Launch)) (memory : Memory) :
    Passes recent memory [] recent memory where
  orderly := trivial
  pending := rfl
  outcome := rfl
  noRaces := by
    intro stream l member
    cases member

theorem Passes.append {recent recent' recent'' : List (Ptr × Launch)}
    {memory memory' memory'' : Memory} {first second : List Event}
    (before : Passes recent memory first recent' memory')
    (after : Passes recent' memory' second recent'' memory'') :
    Passes recent memory (first ++ second) recent'' memory'' where
  orderly := by
    rw [threadRequests_append]
    refine before.orderly.append ?_
    rw [before.pending, before.outcome]
    exact after.orderly
  pending := by
    rw [threadRequests_append, ThreadPool.pendingAfter_append, before.pending,
      after.pending]
  outcome := by
    rw [threadRequests_append, ThreadPool.outcome_append, before.outcome,
      after.outcome]
  noRaces := before.noRaces.append after.noRaces

/-- Events that ask for nothing but some waiting. -/
theorem Passes.waits {events : List Event} {n : Nat}
    (requests : threadRequests events = List.replicate n .wait)
    (launches : ∀ stream l, Event.launch stream l ∉ events)
    (recent : List (Ptr × Launch)) (memory : Memory) :
    Passes recent memory events (if n = 0 then recent else []) memory where
  orderly := by
    rw [requests]
    exact Orderly.waits _ _ n
  pending := by
    rw [requests, ThreadPool.pendingAfter_waits]
    split <;> rfl
  outcome := by
    rw [requests, ThreadPool.outcome_waits]
  noRaces := fun stream l member => absurd member (launches stream l)

/-- Launches of one stream, apart from what is pending on others. -/
theorem Passes.launches {stream : Ptr} {launched : List Launch}
    {recent : List (Ptr × Launch)} (raceFree : ∀ l ∈ launched, l.RaceFree)
    (apart : ∀ l ∈ launched, ∀ entry ∈ recent.map batch,
      Unordered entry (batch (stream, l))) (memory : Memory) :
    Passes recent memory (launchEvents stream launched)
      (recent ++ launched.map (Prod.mk stream)) (runAll inOrder launched memory) := by
  have noRaces : NoRaces (launchEvents stream launched) := by
    intro stream' l member
    obtain ⟨l, listed, same⟩ := List.mem_map.mp member
    cases same
    exact raceFree l listed
  refine ⟨?_, ?_, ?_, noRaces⟩
  · rw [threadRequests_launches]
    refine Orderly.enqueues (fun threads member => ?_)
      (fun threads member entry inside => ?_) memory
    · obtain ⟨l, listed, rfl⟩ := List.mem_map.mp member
      exact (raceFree l listed).bodies_apart
    · obtain ⟨l, listed, rfl⟩ := List.mem_map.mp member
      exact apart l listed entry inside
  · rw [threadRequests_launches, ThreadPool.pendingAfter_enqueues, List.map_append,
      List.map_map, List.map_map]
    rfl
  · rw [outcome_threadRequests inOrder noRaces, drain_launchEvents]

/-! ## Creations -/

/-- A creation leaves every S-box in place. -/
theorem creation_sbox (schedule : Schedule) {s : HostState} {events : List Event}
    (creation : Creation s events) {memory : Memory} {device : Int}
    (there : memory (.sbox device) = HOST_SBOX) :
    drain schedule events memory (.sbox device) = HOST_SBOX := by
  induction events generalizing memory with
  | nil => exact there
  | cons event rest ih =>
      obtain ⟨here, later⟩ := List.forall_mem_cons.mp creation
      refine ih later ?_
      cases here with
      | memcpyToSymbol other =>
          by_cases same : device = other
          · subst same
            exact CellProgram.Store.update_self ..
          · exact (CellProgram.Store.update_of_ne _ _ (by simpa)).trans there
      | memcpy bytes fresh =>
          exact (CellProgram.Store.update_of_ne _ _ (by simp)).trans there
      | initHashKey other roundKeys fresh =>
          refine (Launch.run_frame schedule _ memory ?_).trans there
          rintro ⟨_, -, i, -, same⟩
          cases same
      | synchronize => exact there
      | malloc p => exact there
      | free p => exact there

section Creations

variable {streams : Ptr → Ptr} {s : HostState} {calls : List ApiCall}

/-- Fewer launches pending. -/
theorem Standing.idle {memory : Memory} {recent : List (Ptr × Launch)}
    (standing : Standing streams s memory calls recent) :
    Standing streams s memory calls [] :=
  ⟨standing.accounted, standing.sboxes, by simp⟩

/-- What a creation asks for before its launch. -/
theorem Standing.preparation {memory : Memory} {recent : List (Ptr × Launch)}
    (standing : Standing streams s memory calls recent) {event : Event}
    (preparation : Preparation s event) :
    ∃ recent' memory', Passes recent memory [event] recent' memory' ∧
      Standing streams s memory' calls recent' := by
  have quiet : ∀ {event : Event}, (∀ stream l, event ≠ .launch stream l) →
      NoRaces [event] := by
    intro event other stream l member
    exact absurd (List.mem_singleton.mp member).symm (other stream l)
  cases preparation with
  | memcpyToSymbol device =>
      refine ⟨recent, memory.update (.sbox device) HOST_SBOX,
        ⟨⟨standing.unnoticed_sbox device, trivial⟩, rfl, rfl, quiet (by simp)⟩,
        standing.accounted, fun p h live => ?_, standing.held⟩
      by_cases same : h.device = device
      · subst same
        exact CellProgram.Store.update_self ..
      · exact (CellProgram.Store.update_of_ne _ _ (by simpa)).trans
          (standing.sboxes p h live)
  | @memcpy q bytes fresh =>
      refine ⟨recent, memory.update (.roundKeys q) bytes,
        ⟨⟨standing.unnoticed_roundKeys fresh bytes, trivial⟩, rfl, rfl,
          quiet (by simp)⟩,
        standing.accounted, fun p h live => ?_, standing.held⟩
      exact (CellProgram.Store.update_of_ne _ _ (by simp)).trans
        (standing.sboxes p h live)
  | malloc q =>
      exact ⟨recent, memory, ⟨trivial, rfl, rfl, quiet (by simp)⟩, standing⟩
  | free q =>
      exact ⟨[], memory, ⟨trivial, rfl, rfl, quiet (by simp)⟩, standing.idle⟩

theorem Standing.preparations {events : List Event}
    (prepared : ∀ event ∈ events, Preparation s event) :
    ∀ {memory : Memory} {recent : List (Ptr × Launch)},
      Standing streams s memory calls recent →
      ∃ recent' memory', Passes recent memory events recent' memory' ∧
        Standing streams s memory' calls recent' := by
  induction events with
  | nil => exact fun standing => ⟨_, _, .nil _ _, standing⟩
  | cons event rest ih =>
      intro memory recent standing
      obtain ⟨here, later⟩ := List.forall_mem_cons.mp prepared
      obtain ⟨_, _, first, standing'⟩ := standing.preparation here
      obtain ⟨_, _, others, standing''⟩ := ih later standing'
      exact ⟨_, _, first.append others, standing''⟩

/-- What a creation asks for after its launch. -/
theorem Passes.settled {events : List Event}
    (settled : ∀ event ∈ events, Settlement event) (recent : List (Ptr × Launch))
    (memory : Memory) :
    Passes recent memory events (if events.length = 0 then recent else []) memory := by
  have requests : threadRequests events = List.replicate events.length .wait := by
    induction events with
    | nil => rfl
    | cons event rest ih =>
        obtain ⟨here, later⟩ := List.forall_mem_cons.mp settled
        cases here with
        | synchronize => exact congrArg (_ :: ·) (ih later)
        | free p => exact congrArg (_ :: ·) (ih later)
  refine Passes.waits requests (fun stream l member => ?_) recent memory
  cases settled _ member

/-- The events of a creation, as long as its result is not in use. -/
theorem Standing.creationTrace {memory : Memory} {recent : List (Ptr × Launch)}
    (standing : Standing streams s memory calls recent) {events : List Event}
    (trace : CreationTrace s events) :
    ∃ recent' memory', Passes recent memory events recent' memory' ∧
      ∀ entry ∈ recent', ∃ c h, Held streams s entry c h ∧
        ∀ d ∈ calls, BuffersApart c d := by
  obtain ⟨writes, launched, rest, rfl, prepared, settled, shape⟩ := trace
  obtain ⟨recent₁, memory₁, first, standing₁⟩ := standing.preparations prepared
  rcases shape with rfl | ⟨l, rfl, fresh, waits⟩
  · refine ⟨_, _, (first.append (.nil _ _)).append (.settled settled _ _), ?_⟩
    split
    · exact standing₁.held
    · exact standing₁.idle.held
  · obtain ⟨device, roundKeys, hPow2, rfl, -, -⟩ := fresh.tables
    have launch : Passes recent₁ memory₁ (launchEvents 0
        [⟨device, .initHashKey roundKeys hPow2, 1, 1⟩]) _ _ :=
      .launches (List.forall_mem_singleton.mpr (Or.inl rfl))
        (List.forall_mem_singleton.mpr (standing₁.fresh_apart fresh)) memory₁
    refine ⟨_, _, (first.append launch).append (.settled settled _ _), ?_⟩
    rw [if_neg (by simpa using waits)]
    exact standing₁.idle.held

end Creations

/-! ## Calls -/

/-- The calls of a program: creations, destructions, and operations on the stream
of their handle, with buffers that are apart from those of all other calls. -/
structure Arranged (streams : Ptr → Ptr) (calls : List ApiCall) : Prop where
  known : ∀ c ∈ calls, c.Operation ∨ (∃ p, c = .keyDestroy p) ∨
    ∃ key keyLen device out, c = .keyCreate key keyLen device out
  streams : ∀ c ∈ calls, ∀ stream, c.stream = some stream → stream = streams c.handle
  apart : calls.Pairwise BuffersApart

theorem Arranged.tail {streams : Ptr → Ptr} {c : ApiCall} {rest : List ApiCall}
    (arranged : Arranged streams (c :: rest)) : Arranged streams rest where
  known := fun d member => arranged.known d (List.mem_cons_of_mem _ member)
  streams := fun d member => arranged.streams d (List.mem_cons_of_mem _ member)
  apart := (List.pairwise_cons.mp arranged.apart).2

section Calls

variable {driver : Driver} (reliable : driver.Succeeds cleanupCalls)
  {streams : Ptr → Ptr} {s : HostState} {memory : Memory} {c : ApiCall}
  {rest : List ApiCall} {recent : List (Ptr × Launch)}

/-- What one call does to what stands between calls. -/
def Advances (streams : Ptr → Ptr) (memory : Memory) (recent : List (Ptr × Launch))
    (rest : List ApiCall) (s' : HostState) (events : List Event) : Prop :=
  ∃ recent' memory', Passes recent memory events recent' memory' ∧
    Standing streams s' memory' rest recent'

/-- A call that is refused. -/
theorem Standing.refused (standing : Standing streams s memory (c :: rest) recent) :
    Advances streams memory recent rest s [] := by
  refine ⟨recent, memory, .nil _ _, standing.accounted, standing.sboxes, ?_⟩
  intro entry member
  obtain ⟨d, h, held, apart⟩ := standing.held entry member
  exact ⟨d, h, held, fun d' later => apart d' (List.mem_cons_of_mem _ later)⟩

/-- A launch stays held where its handle does. -/
theorem Held.congr {s' : HostState} {entry : Ptr × Launch} {d : ApiCall}
    {h : KeyHandle} (held : Held streams s entry d h)
    (live : s'.handles.lookup d.handle = some h) : Held streams s' entry d h where
  recent := ⟨held.recent.stream, held.recent.handle, live, held.recent.equipped,
    held.recent.reads, held.recent.writes, held.recent.raceFree⟩
  tables := held.tables

include reliable in
/-- A creation. -/
theorem Standing.keyCreate {key : Option (Vector Byte 16)} {keyLen : Nat}
    {device : Int} {out : Ptr}
    (standing : Standing streams s memory (.keyCreate key keyLen device out :: rest)
      recent) :
    (ApiCall.perform (.keyCreate key keyLen device out)).Ensures driver s
      fun _ s' events => Advances streams memory recent rest s' events := by
  by_cases refused : key = none ∨ out = 0 ∨ keyLen ≠ 16
  · rw [ApiCall.perform, lmcacheGpuAes128gcmKeyCreate_refused device refused]
    exact Ensures.pure standing.refused
  obtain ⟨given, nonnull, rfl⟩ : key ≠ none ∧ out ≠ 0 ∧ keyLen = 16 := by
    simpa using refused
  obtain ⟨secret, rfl⟩ := Option.ne_none_iff_exists'.mp given
  obtain ⟨leaked, accounted⟩ := standing.accounted
  refine ((lmcacheGpuAes128gcmKeyCreate_trace (cleanupCalls_free reliable) s
    (some secret) 16 device out).and (lmcacheGpuAes128gcmKeyCreate_spec driver secret
      device nonnull accounted)).mono ?_
  rintro rc s' events ⟨trace, created⟩
  obtain ⟨recent', memory', passes, held⟩ := standing.creationTrace trace
  obtain ⟨lost, accounted', -⟩ := created.accounted
  have drained : drain inOrder events memory = memory' := by
    rw [← outcome_threadRequests inOrder passes.noRaces, passes.outcome]
  have kept : ∀ p h, s.handles.lookup p = some h →
      memory' (.sbox h.device) = HOST_SBOX := by
    intro p h live
    rw [← drained]
    exact creation_sbox inOrder created.creation (standing.sboxes p h live)
  have later : ∀ entry ∈ recent', ∀ d h, Held streams s entry d h →
      (∀ d' ∈ .keyCreate (some secret) 16 device out :: rest, BuffersApart d d') →
      s'.handles.lookup d.handle = some h →
      ∃ d h, Held streams s' entry d h ∧ ∀ d' ∈ rest, BuffersApart d d' :=
    fun entry _ d h known apart live => ⟨d, h, known.congr live,
      fun d' member => apart d' (List.mem_cons_of_mem _ member)⟩
  refine ⟨recent', memory', passes, ⟨_, accounted'⟩, ?_, fun entry member => ?_⟩
  · intro p h live
    cases created.result with
    | created q roundKeys hPow2 current launched nonnull' fresh handles outs init
        accepted switched clean split =>
        rw [handles] at live
        by_cases same : p = q
        · subst same
          rw [AList.lookup_insert] at live
          cases live
          rw [← drained, ← switched (cleanupCalls_device reliable), split]
          have tail := (split ▸ created.creation : Creation s _)
          exact creation_sbox inOrder (List.forall_mem_cons.mp tail).2
            (CellProgram.Store.update_self ..)
        · exact kept p h ((AList.lookup_insert_ne same).symm.trans live)
    | failed bad handles =>
        rw [handles] at live
        exact kept p h live
  · obtain ⟨d, h, known, apart⟩ := held entry member
    refine later entry member d h known apart ?_
    cases created.result with
    | created q roundKeys hPow2 current launched nonnull' fresh handles =>
        have other : d.handle ≠ q := fun same => fresh (same ▸
          AList.lookup_isSome.mp (by rw [known.recent.live]; rfl))
        rw [handles, AList.lookup_insert_ne other]
        exact known.recent.live
    | failed bad handles =>
        rw [handles]
        exact known.recent.live

include reliable in
/-- A destruction waits for everything. -/
theorem Standing.keyDestroy {key : Ptr}
    (standing : Standing streams s memory (.keyDestroy key :: rest) recent)
    (allowed : (ApiCall.keyDestroy key).Allowed s) :
    (ApiCall.perform (.keyDestroy key)).Ensures driver s
      fun _ s' events => Advances streams memory recent rest s' events := by
  by_cases null : key = 0
  · rw [ApiCall.perform, lmcacheGpuAes128gcmKeyDestroy, if_pos null]
    exact Ensures.pure standing.refused
  obtain ⟨h, live⟩ : ∃ h, s.handles.lookup key = some h :=
    Option.isSome_iff_exists.mp (AList.lookup_isSome.mpr (allowed.resolve_left null))
  obtain ⟨leaked, accounted⟩ := standing.accounted
  refine ((lmcacheGpuAes128gcmKeyDestroy_spec driver accounted live).and
    (keyDestroy_waits (cleanupCalls_free reliable) accounted live)).mono ?_
  rintro rc s' events ⟨destroyed, p, released⟩
  obtain ⟨lost, accounted', -⟩ := destroyed.accounted
  have passes := Passes.waits (threadRequests_bookkeeping destroyed.events)
    (fun stream l member => by
      rcases destroyed.events _ member with ⟨q, same⟩ | ⟨q, same⟩
      · cases same
      · cases same) recent memory
  rw [if_neg (request_of_free released 0)] at passes
  refine ⟨[], memory, passes, ⟨_, accounted'⟩, fun q g found => ?_, by simp⟩
  rw [destroyed.handles] at found
  by_cases same : q = key
  · subst same
    rw [AList.lookup_erase] at found
    cases found
  · rw [AList.lookup_erase_ne same] at found
    exact standing.sboxes q g found

/-- An operation that does not wait leaves what is pending held. -/
theorem Held.issued {s' : HostState} {entry : Ptr × Launch} {d : ApiCall}
    {h g g' : KeyHandle} {before : List Event} {launched : List Launch}
    (held : Held streams s entry d h) (issued : Issued s s' c g g' before launched)
    (live : s.handles.lookup c.handle = some g)
    (unwaiting : ∀ p, Event.free p ∉ before) : ∃ h', Held streams s' entry d h' := by
  obtain ⟨h', recent⟩ := held.recent.issued issued live unwaiting
  refine ⟨h', recent, fun cell read table => ?_⟩
  have tables := held.tables cell read table
  by_cases same : d.handle = c.handle
  · have before := held.recent.live
    have after := recent.live
    rw [same, live] at before
    rw [same, issued.updated.live] at after
    cases before
    cases after
    rw [issued.extends_.device, issued.extends_.roundKeys, issued.extends_.hPow2]
    exact tables
  · have after := recent.live
    rw [issued.updated.others _ same, held.recent.live] at after
    cases after
    exact tables

/-- What an operation asks is in order, as far as it gets. -/
theorem Standing.asks {s' : HostState} {events : List Event} {leaked : List Block}
    (standing : Standing streams s memory (c :: rest) recent)
    (arranged : Arranged streams (c :: rest)) (operation : c.Operation)
    (asks : Asks s leaked c s' events) :
    Advances streams memory recent rest s' events := by
  obtain ⟨h, h', before, full, launched, live, accounted', issued, part, rfl⟩ := asks
  have here := List.mem_cons_self (a := c) (l := rest)
  have device : h'.device = h.device := issued.extends_.device
  -- What is still pending once the operation has waited.
  let kept := if (before.filterMap (Event.request 0)).length = 0 then recent else []
  have heldKept : ∀ entry ∈ kept, ∃ d g, Held streams s' entry d g ∧
      ∀ d' ∈ c :: rest, BuffersApart d d' := by
    intro entry member
    by_cases none : (before.filterMap (Event.request 0)).length = 0
    · rw [show kept = recent from if_pos none] at member
      obtain ⟨d, g, held, apart⟩ := standing.held entry member
      obtain ⟨g', held'⟩ := held.issued issued live
        fun p released => request_of_free released 0 none
      exact ⟨d, g', held', apart⟩
    · rw [show kept = [] from if_neg none] at member
      cases member
  have waits := Passes.waits (threadRequests_bookkeeping issued.bookkeeping)
    (fun stream l member => by
      rcases issued.bookkeeping _ member with ⟨q, same⟩ | ⟨q, same⟩
      · cases same
      · cases same) recent memory
  -- What the operation adds.
  have fresh : ∀ l ∈ launched, Held streams s' (c.stream.getD 0, l) c h' := by
    intro l member
    refine ⟨issued.recent operation accounted' (arranged.streams c here) 0 l
      (part.subset member), fun cell read table => ?_⟩
    rcases issued.launched with rfl | ⟨rfl, -⟩
    · cases part.subset member
    · rw [← device] at part
      exact launches_tables operation h'.device h' l (part.subset member) cell read table
  have launches := Passes.launches (fun l member => (fresh l member).recent.raceFree)
    (fun l member entry inside different => by
      obtain ⟨source, listed, rfl⟩ := List.mem_map.mp inside
      obtain ⟨d, g, held, apart⟩ := heldKept source listed
      have separate := held.recent.separate accounted' (fresh l member).recent
        (apart c here) different
      exact Launch.bodies_separate separate.apart separate.apart') memory
  refine ⟨_, _, waits.append launches, ⟨_, accounted'⟩, fun p g found => ?_, ?_⟩
  · have untouched : runAll inOrder launched memory (.sbox g.device) =
        memory (.sbox g.device) :=
      runAll_frame inOrder
        (fun l member => (fresh l member).writes (.sbox g.device) trivial) memory
    rw [untouched]
    by_cases same : p = c.handle
    · rw [same, issued.updated.live] at found
      cases found
      rw [device]
      exact standing.sboxes _ h live
    · rw [issued.updated.others p same] at found
      exact standing.sboxes p g found
  · intro entry member
    rcases List.mem_append.mp member with old | new
    · obtain ⟨d, g, held, apart⟩ := heldKept entry old
      exact ⟨d, g, held, fun d' later => apart d' (List.mem_cons_of_mem _ later)⟩
    · obtain ⟨l, listed, rfl⟩ := List.mem_map.mp new
      exact ⟨c, h', fresh l listed, (List.pairwise_cons.mp arranged.apart).1⟩

include reliable in
/-- Every call of a program. -/
theorem Standing.call (standing : Standing streams s memory (c :: rest) recent)
    (arranged : Arranged streams (c :: rest)) (allowed : c.Allowed s) :
    c.perform.Ensures driver s fun _ s' events =>
      Advances streams memory recent rest s' events := by
  rcases arranged.known c (List.mem_cons_self ..) with
    operation | ⟨p, rfl⟩ | ⟨key, keyLen, device, out, rfl⟩
  · obtain ⟨leaked, accounted⟩ := standing.accounted
    refine (operation_asks reliable operation accounted allowed).mono ?_
    rintro rc s' events (⟨rfl, rfl⟩ | asks)
    · exact standing.refused
    · exact standing.asks arranged operation asks
  · exact standing.keyDestroy reliable allowed
  · exact standing.keyCreate reliable

end Calls

/-- The requests of a program are orderly. -/
theorem Standing.program {driver : Driver} (reliable : driver.Succeeds cleanupCalls)
    {streams : Ptr → Ptr} {calls : List ApiCall} {s : HostState} {memory : Memory}
    {recent : List (Ptr × Launch)}
    (standing : Standing streams s memory calls recent)
    (arranged : Arranged streams calls) (valid : Valid driver s calls) :
    ∃ recent' memory', Passes recent memory (programEvents driver s calls) recent'
      memory' := by
  induction calls generalizing s memory recent with
  | nil => exact ⟨_, _, .nil _ _⟩
  | cons c rest ih =>
      obtain ⟨allowed, later⟩ := valid
      obtain ⟨recent', memory', first, standing'⟩ :=
        standing.call reliable arranged allowed
      obtain ⟨_, _, others⟩ := ih standing' arranged.tail later
      exact ⟨_, _, first.append others⟩

theorem Standing.fresh {s : HostState} (fresh : Fresh s) (streams : Ptr → Ptr)
    (memory : Memory) (calls : List ApiCall) : Standing streams s memory calls [] where
  accounted := ⟨[], fresh.accounted⟩
  sboxes := by
    intro p h live
    rw [fresh.handles] at live
    cases live
  held := by simp

/-! ## Every interleaving -/

/-- The device before a program: nothing pending, all requests still to come. -/
def programStart (driver : Driver) (s : HostState) (calls : List ApiCall)
    (memory : Memory) : ThreadPool.Config Ptr Cell.Val :=
  ⟨threadRequests (programEvents driver s calls), [], memory⟩

/-- Everything has been asked for and has run. -/
def Finished (config : ThreadPool.Config Ptr Cell.Val) : Prop :=
  config.requests = [] ∧ config.pending = []

section Programs

variable {driver : Driver} (reliable : driver.Succeeds cleanupCalls)
  {streams : Ptr → Ptr} {calls : List ApiCall} (arranged : Arranged streams calls)
  {s : HostState} (fresh : Fresh s) (valid : Valid driver s calls) (memory : Memory)

include reliable arranged fresh valid

theorem program_orderly :
    Orderly [] memory (threadRequests (programEvents driver s calls)) ∧
      NoRaces (programEvents driver s calls) := by
  obtain ⟨_, _, passes⟩ :=
    (Standing.fresh fresh streams memory calls).program reliable arranged valid
  exact ⟨passes.orderly, passes.noRaces⟩

/-- A program can be brought to an end from wherever it has got to. -/
theorem program_completes {n : Nat} {config : ThreadPool.Config Ptr Cell.Val}
    (steps : Steps n (programStart driver s calls memory) config) :
    ∃ m final, Steps m config ⟨[], [], final⟩ :=
  (Steps.kept (program_orderly reliable arranged fresh valid memory).1 steps).1.completes

end Programs

/-! ## Two programs -/

/-- Calls that are given no buffers. -/
theorem BuffersApart.of_empty {first second : ApiCall}
    (outputs : second.outputs = ∅) (inputs : second.inputs = ∅) :
    BuffersApart first second :=
  ⟨outputs ▸ Set.empty_disjoint _, Or.inr (inputs ▸ Set.disjoint_empty _)⟩

/-- A key is created while a seal with another key is in flight. -/
def createMeanwhile : List ApiCall :=
  [.createZero, .sealAsync 1 16 1 64 30 zeroIv 5, createOnes]

theorem createMeanwhile_arranged : Arranged (fun _ => 5) createMeanwhile where
  known := List.forall_mem_cons.mpr ⟨Or.inr (Or.inr ⟨_, _, _, _, rfl⟩),
    List.forall_mem_cons.mpr ⟨Or.inl (.sealAsync 1 (by decide)
      (span_disjoint (by decide) (by decide)).symm 30 _ 5),
      List.forall_mem_singleton.mpr (Or.inr (Or.inr ⟨_, _, _, _, rfl⟩))⟩⟩
  streams := by
    simp [createMeanwhile, ApiCall.createZero, createOnes, ApiCall.stream]
  apart := by
    have after (c : ApiCall) : BuffersApart .createZero c :=
      ⟨by simp [ApiCall.createZero, ApiCall.inputs, ApiCall.outputs],
        Or.inr (Set.empty_disjoint _)⟩
    have before (c : ApiCall) : BuffersApart c createOnes := .of_empty rfl rfl
    simp [createMeanwhile, after, before]

/-- The launch of a creation is rejected, and then an open is stopped behind its
first launch. -/
def openAfterReject : List ApiCall := [.createZero, .openAsync 1 64 30 128 1 8 5]

theorem openAfterReject_arranged : Arranged (fun _ => 5) openAfterReject where
  known := List.forall_mem_cons.mpr ⟨Or.inr (Or.inr ⟨_, _, _, _, rfl⟩),
    List.forall_mem_singleton.mpr (Or.inl (.openAsync 1 (by decide)
      (span_disjoint (by decide) (by decide)).symm 30 8 5))⟩
  streams := by
    simp [openAfterReject, ApiCall.createZero, ApiCall.stream]
  apart := by
    refine List.pairwise_pair.mpr ⟨?_, Or.inr (Set.empty_disjoint _)⟩
    simp [ApiCall.createZero, ApiCall.inputs, ApiCall.outputs]

/-- The launch of that open, with its threads in flight. -/
def segmentLaunch : Launch := ⟨0, .ghashSegment 77 1 2 3, 1, 128⟩

end GpuKvSeal.System
