import GpuKvSeal.System.Programs

/-!
# Launches that may overtake each other

Launches on different streams belong to different handles.  Between two waits no
handle gives up its nodes, so all launches that may be pending together belong to
handles that are live at once, and these have different nodes.  Their buffers are
apart because the calls of the program keep them apart.
-/

namespace GpuKvSeal.System

open BigEndian (Byte)
open Device
open Host
open StreamQueue (Orderly Unordered)

/-- Two calls, the second made later: it leaves the buffers of the first alone,
and reads what the first writes only on the same stream. -/
structure BuffersApart (first second : ApiCall) : Prop where
  outputs : Disjoint second.outputs (first.inputs ∪ first.outputs)
  inputs : first.stream = second.stream ∨ Disjoint first.outputs second.inputs

/-- The programs a caller may run: every handle has a stream of its own choice,
and the buffers of different calls are apart. -/
structure Disciplined (streams : Ptr → Ptr) (calls : List ApiCall) : Prop where
  operations : ∀ c ∈ calls, c.Operation
  streams : ∀ c ∈ calls, ∀ stream, c.stream = some stream →
    stream = streams c.handle
  apart : calls.Pairwise BuffersApart

theorem Disciplined.tail {streams : Ptr → Ptr} {c : ApiCall}
    {rest : List ApiCall} (disciplined : Disciplined streams (c :: rest)) :
    Disciplined streams rest where
  operations := fun c' member =>
    disciplined.operations c' (List.mem_cons_of_mem _ member)
  streams := fun c' member =>
    disciplined.streams c' (List.mem_cons_of_mem _ member)
  apart := (List.pairwise_cons.mp disciplined.apart).2

/-- Launches without races that touch different cells. -/
structure Separate (first second : Work) : Prop where
  raceFree : first.launch.RaceFree
  raceFree' : second.launch.RaceFree
  apart : Disjoint first.launch.writes
    (second.launch.reads ∪ second.launch.writes)
  apart' : Disjoint second.launch.writes first.launch.reads

theorem Separate.run_comm {first second : Work} (separate : Separate first second)
    (schedule : Schedule) (memory : Memory) :
    second.run schedule (first.run schedule memory) =
      first.run schedule (second.run schedule memory) :=
  separate.raceFree.run_comm separate.raceFree' separate.apart separate.apart'
    schedule memory

/-! ## Kinds of cells -/

/-- The buffers of a caller are bytes and status words. -/
theorem caller_apart (c : ApiCall) (h : KeyHandle) :
    Disjoint (c.inputs ∪ c.outputs) (nodesOf h ∪ {cell | isTable cell}) := by
  refine Set.disjoint_left.mpr fun cell caller library => ?_
  have kind : (∃ p, cell = .byte p) ∨ ∃ p, cell = .flag p := by
    cases c with
    | keyCreate | keyDestroy | reserve => rcases caller with none | none <;> cases none
    | sealAsync =>
        rcases caller with ⟨k, -, -, rfl⟩ | ⟨k, -, -, rfl⟩
        · exact Or.inl ⟨_, rfl⟩
        · exact Or.inl ⟨_, rfl⟩
    | openAsync =>
        rcases caller with ⟨k, -, -, rfl⟩ | ⟨k, -, -, rfl⟩ | rfl
        · exact Or.inl ⟨_, rfl⟩
        · exact Or.inl ⟨_, rfl⟩
        · exact Or.inr ⟨_, rfl⟩
  rcases kind with ⟨p, rfl⟩ | ⟨p, rfl⟩
  · rcases library with ⟨i, same | same⟩ | table
    · cases same
    · cases same
    · exact table
  · rcases library with ⟨i, same | same⟩ | table
    · cases same
    · cases same
    · exact table

theorem nodes_tables_apart (h : KeyHandle) :
    Disjoint (nodesOf h) {cell | isTable cell} := by
  refine Set.disjoint_left.mpr ?_
  rintro cell ⟨i, rfl | rfl⟩ table
  · exact table
  · exact table

/-- Two live handles have different nodes. -/
theorem nodes_apart {s : HostState} {leaked : List Block}
    (accounted : Accounted s leaked) {p q : Ptr} {h g : KeyHandle}
    (live : s.handles.lookup p = some h) (live' : s.handles.lookup q = some g)
    (different : p ≠ q) (equipped : 0 < h.nodeCapacity)
    (equipped' : 0 < g.nodeCapacity) : Disjoint (nodesOf h) (nodesOf g) := by
  have others : g.buffers ⊆ s.ownedExcept p := by
    intro block member
    have kept : (s.handles.erase p).lookup q = some g :=
      (AList.lookup_erase_ne different.symm).trans live'
    exact List.mem_flatMap.mpr ⟨⟨q, g⟩, AList.mem_lookup_iff.mp kept, member⟩
  have distinct := (accounted.split live).distinct
  rw [List.map_append, List.nodup_append] at distinct
  have apart : ∀ a ∈ h.buffers, ∀ b ∈ g.buffers, a.1 ≠ b.1 := by
    intro a inside b inside'
    exact distinct.2.2 _ (List.mem_map_of_mem inside) _
      (List.mem_map_of_mem (List.mem_append_left _ (others inside')))
  simp only [KeyHandle.buffers, nodeBuffers_of_pos equipped,
    nodeBuffers_of_pos equipped', List.forall_mem_append,
    List.forall_mem_cons] at apart
  obtain ⟨-, ⟨-, aa, ab, -⟩, ⟨-, ba, bb, -⟩, -⟩ := apart
  refine Set.disjoint_left.mpr ?_
  rintro cell ⟨i, rfl | rfl⟩ ⟨j, same | same⟩
  · exact aa (Cell.node.inj same).1
  · exact ab (Cell.node.inj same).1
  · exact ba (Cell.node.inj same).1
  · exact bb (Cell.node.inj same).1

/-- Calls whose results and nodes are apart write apart from what they read. -/
theorem footprints_apart {c d : ApiCall} {h g : KeyHandle}
    (results : Disjoint c.outputs (d.inputs ∪ d.outputs))
    (nodes : Disjoint (nodesOf h) (nodesOf g)) :
    Disjoint (c.outputs ∪ nodesOf h)
      (d.inputs ∪ d.outputs ∪ nodesOf g ∪ {cell | isTable cell}) := by
  refine Set.disjoint_left.mpr ?_
  rintro cell (result | node) ((caller | node') | table)
  · exact Set.disjoint_left.mp results result caller
  · exact Set.disjoint_left.mp (caller_apart c g) (Or.inr result) (Or.inl node')
  · exact Set.disjoint_left.mp (caller_apart c g) (Or.inr result) (Or.inr table)
  · exact Set.disjoint_left.mp (caller_apart d h) caller (Or.inl node)
  · exact Set.disjoint_left.mp nodes node node'
  · exact Set.disjoint_left.mp (nodes_tables_apart h) node table

/-! ## What is pending -/

/-- A launch of a call on a handle that still has the nodes the launch uses. -/
structure Recent (streams : Ptr → Ptr) (s : HostState) (entry : Ptr × Work)
    (c : ApiCall) (h : KeyHandle) : Prop where
  stream : c.stream = some entry.1
  handle : entry.1 = streams c.handle
  live : s.handles.lookup c.handle = some h
  equipped : 0 < h.nodeCapacity
  reads : entry.2.launch.reads ⊆
    c.inputs ∪ c.outputs ∪ nodesOf h ∪ {cell | isTable cell}
  writes : entry.2.launch.writes ⊆ c.outputs ∪ nodesOf h
  raceFree : entry.2.launch.RaceFree

/-- Launches of calls on different streams, both still to run. -/
theorem Recent.separate {streams : Ptr → Ptr} {s : HostState}
    {leaked : List Block} {first second : Ptr × Work} {c d : ApiCall}
    {h g : KeyHandle} (accounted : Accounted s leaked)
    (recent : Recent streams s first c h) (recent' : Recent streams s second d g)
    (buffers : BuffersApart c d) (different : first.1 ≠ second.1) :
    Separate first.2 second.2 := by
  have handles : c.handle ≠ d.handle := fun same => different
    (recent.handle.trans ((congrArg streams same).trans recent'.handle.symm))
  have nodes := nodes_apart accounted recent.live recent'.live handles
    recent.equipped recent'.equipped
  have results : Disjoint c.outputs d.inputs := by
    refine buffers.inputs.resolve_left fun same => different ?_
    rw [recent.stream, recent'.stream] at same
    exact Option.some.inj same
  have outputs := (Set.disjoint_union_right.mp buffers.outputs).2
  have touched : second.2.launch.reads ∪ second.2.launch.writes ⊆
      d.inputs ∪ d.outputs ∪ nodesOf g ∪ {cell | isTable cell} :=
    Set.union_subset recent'.reads (recent'.writes.trans
      ((Set.union_subset_union_left _ Set.subset_union_right).trans
        Set.subset_union_left))
  refine ⟨recent.raceFree, recent'.raceFree, ?_, ?_⟩
  · exact (footprints_apart (Set.disjoint_union_right.mpr ⟨results, outputs.symm⟩)
      nodes).mono recent.writes touched
  · exact (footprints_apart buffers.outputs nodes.symm).mono recent'.writes
      recent.reads

/-- A call that does not wait leaves the nodes of pending launches in place. -/
theorem Recent.issued {streams : Ptr → Ptr} {s s' : HostState}
    {entry : Ptr × Work} {c d : ApiCall} {h g g' : KeyHandle}
    {before : List Event} {launched : List Launch}
    (recent : Recent streams s entry c h) (issued : Issued s s' d g g' before launched)
    (live : s.handles.lookup d.handle = some g)
    (unwaiting : ∀ p, Event.free p ∉ before) :
    ∃ h', Recent streams s' entry c h' := by
  by_cases same : c.handle = d.handle
  · have found := recent.live
    rw [same, live] at found
    obtain rfl := Option.some.inj found
    have nodes : nodesOf g' = nodesOf g := by
      rcases issued.waits with ⟨a, b⟩ | none | ⟨p, released⟩
      · rw [nodesOf, nodesOf, a, b]
      · exact absurd none recent.equipped.ne'
      · exact absurd released (unwaiting p)
    refine ⟨g', recent.stream, recent.handle, ?_,
      recent.equipped.trans_le issued.extends_.capacity, ?_, ?_, recent.raceFree⟩
    · rw [same]
      exact issued.updated.live
    · rw [nodes]
      exact recent.reads
    · rw [nodes]
      exact recent.writes
  · exact ⟨h, recent.stream, recent.handle,
      (issued.updated.others c.handle same).trans recent.live, recent.equipped,
      recent.reads, recent.writes, recent.raceFree⟩

/-! ## Programs -/

/-- The launches of a call, behind what was enqueued before it. -/
theorem Issued.recent {streams : Ptr → Ptr} {s s' : HostState} {c : ApiCall}
    {h h' : KeyHandle} {before : List Event} {launched : List Launch}
    {leaked : List Block} (issued : Issued s s' c h h' before launched)
    (operation : c.Operation) (accounted : Accounted s' leaked)
    (own : ∀ stream, c.stream = some stream → stream = streams c.handle)
    (call : Nat) :
    ∀ l ∈ launched, Recent streams s' (c.stream.getD 0, ⟨call, l⟩) c h' := by
  intro l member
  rcases issued.launched with rfl | ⟨rfl, equipped⟩
  · cases member
  have distinct := accounted.node_distinct issued.updated.live equipped
  obtain ⟨reads, writes⟩ := launches_inside operation h.device h' l member
  obtain ⟨stream, given⟩ : ∃ stream, c.stream = some stream := by
    cases operation with
    | reserve => cases member
    | sealAsync => exact ⟨_, rfl⟩
    | openAsync => exact ⟨_, rfl⟩
  have here : c.stream.getD 0 = stream := by rw [given, Option.getD_some]
  refine ⟨?_, ?_, issued.updated.live, equipped, reads, writes,
    launches_raceFree operation h.device distinct l member⟩
  · rw [given, Option.getD_some]
  · rw [here]
    exact own stream given

/-- Calls made one after another, each with what it has issued. -/
@[elab_as_elim]
theorem Disciplined.induction {driver : Driver}
    (reliable : driver.Succeeds operationCalls) {streams : Ptr → Ptr}
    {leaked : List Block} {motive : HostState → List ApiCall → Prop}
    (nil : ∀ s, motive s [])
    (cons : ∀ {s : HostState} {c : ApiCall} {rest : List ApiCall}
      {h h' : KeyHandle} {before : List Event} {launched : List Launch},
      Disciplined streams (c :: rest) → s.lastError = cudaSuccess →
      s.handles.lookup c.handle = some h →
      Accounted (c.perform driver s).state leaked →
      Issued s (c.perform driver s).state c h h' before launched →
      (c.perform driver s).events =
        before ++ launchEvents (c.stream.getD 0) launched →
      motive (c.perform driver s).state rest → motive s (c :: rest))
    {calls : List ApiCall} {s : HostState} (accounted : Accounted s leaked)
    (clear : s.lastError = cudaSuccess) (disciplined : Disciplined streams calls)
    (live : ∀ c ∈ calls, c.handle ∈ s.handles) : motive s calls := by
  induction calls generalizing s with
  | nil => exact nil s
  | cons c rest ih =>
      have here := List.mem_cons_self (a := c) (l := rest)
      obtain ⟨h, found⟩ := Option.isSome_iff_exists.mp
        (AList.lookup_isSome.mpr (live c here))
      have effect := operation_issued reliable (disciplined.operations c here)
        accounted found clear
      unfold TracedState.Traced.Ensures at effect
      obtain ⟨clear', accounted', h', before, launched, issued, trace⟩ := effect
      refine cons disciplined clear found accounted' issued trace
        (ih accounted' clear' disciplined.tail fun d member => ?_)
      exact issued.live (live d (List.mem_cons_of_mem _ member))

/-- The launches that were pending before a call and still are after it has
waited. -/
theorem Issued.pending {streams : Ptr → Ptr} {s s' : HostState} {c : ApiCall}
    {rest : List ApiCall} {h h' : KeyHandle} {before : List Event}
    {launched : List Launch} {recent : List (Ptr × Work)}
    (issued : Issued s s' c h h' before launched)
    (found : s.handles.lookup c.handle = some h)
    (pending : ∀ entry ∈ recent, ∃ d g, Recent streams s entry d g ∧
      ∀ d' ∈ c :: rest, BuffersApart d d') (call : Nat) :
    ∀ entry ∈ (if (before.filterMap (Event.request call)).length = 0 then recent
        else []),
      ∃ d g, Recent streams s' entry d g ∧ ∀ d' ∈ c :: rest, BuffersApart d d' := by
  intro entry member
  split at member
  · rename_i none
    obtain ⟨d, g, known, apart⟩ := pending entry member
    have unwaiting : ∀ p, Event.free p ∉ before := fun p released =>
      request_of_free released call none
    obtain ⟨g', known'⟩ := known.issued issued found unwaiting
    exact ⟨d, g', known', apart⟩
  · cases member

/-- The requests of a program: any two launches that may be pending together on
different streams are separate. -/
theorem requests_orderly {driver : Driver}
    (reliable : driver.Succeeds operationCalls) {streams : Ptr → Ptr}
    {leaked : List Block} {calls : List ApiCall} {s : HostState}
    (accounted : Accounted s leaked) (clear : s.lastError = cudaSuccess)
    (disciplined : Disciplined streams calls)
    (live : ∀ c ∈ calls, c.handle ∈ s.handles) :
    ∀ (call : Nat) {recent : List (Ptr × Work)},
      (∀ entry ∈ recent, ∃ c h, Recent streams s entry c h ∧
        ∀ d ∈ calls, BuffersApart c d) →
      Orderly Separate recent (requests driver s call calls) := by
  refine Disciplined.induction reliable (fun _ _ _ _ => trivial) ?_ accounted clear
    disciplined live
  intro s c rest h h' before launched disciplined clear found accounted' issued
    trace ih call recent pending
  have here := List.mem_cons_self (a := c) (l := rest)
  have fresh := issued.recent (disciplined.operations c here) accounted'
    (disciplined.streams c here) call
  have kept := issued.pending found pending call
  rw [requests_cons issued.bookkeeping trace]
  refine Orderly.waits (Orderly.enqueues (fun job member entry inside => ?_) ?_)
  · obtain ⟨l, listed, rfl⟩ := List.mem_map.mp member
    obtain ⟨d, g, known, apart⟩ := kept entry inside
    exact known.separate accounted' (fresh l listed) (apart c here)
  · refine ih (call + 1) fun entry member => ?_
    rcases List.mem_append.mp member with old | new
    · obtain ⟨d, g, known, apart⟩ := kept entry old
      exact ⟨d, g, known, fun d' later => apart d' (List.mem_cons_of_mem _ later)⟩
    · obtain ⟨work, queued, rfl⟩ := List.mem_map.mp new
      obtain ⟨l, listed, rfl⟩ := List.mem_map.mp queued
      exact ⟨c, h', fresh l listed, (List.pairwise_cons.mp disciplined.apart).1⟩

end GpuKvSeal.System
