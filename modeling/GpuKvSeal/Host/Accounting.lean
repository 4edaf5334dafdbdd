import GpuKvSeal.Host.Contracts

/-!
# Who owns which allocation

The live allocations are accounted for when they are the buffers of the live
handles together with a list of blocks that no handle owns.  In the middle of a
call that list holds what the call has acquired; between calls it holds only
what a failed release left behind.
-/

namespace GpuKvSeal.Host

open Device (Ptr)
open TracedState.Traced (Ensures)

/-- An allocated block: its address and its size in bytes. -/
abbrev Block := Ptr × Nat

/-- The two node buffers, once there is a workspace. -/
def KeyHandle.nodeBuffers (h : KeyHandle) : List Block :=
  if h.nodeCapacity = 0 then []
  else [(h.dNodesA, h.nodeCapacity * sizeofGHashNode),
    (h.dNodesB, h.nodeCapacity * sizeofGHashNode)]

/-- The round keys and the power table. -/
def KeyHandle.tables (h : KeyHandle) : List Block :=
  [(h.dRoundKeys, 176), (h.dHPow2, sizeofBlock128 * 64)]

/-- The buffers behind a handle. -/
def KeyHandle.buffers (h : KeyHandle) : List Block := h.tables ++ h.nodeBuffers

/-- The blocks of all live allocations. -/
def HostState.blocks (s : HostState) : List Block :=
  s.allocations.map fun a => (a.ptr, a.bytes)

/-- The buffers of all live handles. -/
def HostState.owned (s : HostState) : List Block :=
  s.handles.entries.flatMap fun entry => entry.2.buffers

/-- The buffers of all live handles but one. -/
def HostState.ownedExcept (s : HostState) (key : Ptr) : List Block :=
  (s.handles.erase key).entries.flatMap fun entry => entry.2.buffers

theorem owned_of_lookup {s : HostState} {key : Ptr} {h : KeyHandle}
    (live : s.handles.lookup key = some h) :
    s.owned.Perm (h.buffers ++ s.ownedExcept key) := by
  have member : key ∈ s.handles.entries.keys := by
    rw [← AList.keys, ← AList.mem_keys, ← AList.lookup_isSome, live]
    rfl
  obtain ⟨h', before, after, -, entries, erased⟩ := List.exists_of_kerase member
  have same : h' = h := by
    have found : ⟨key, h'⟩ ∈ s.handles.entries := by
      rw [entries]
      simp
    have other := AList.mem_lookup_iff.mpr found
    rw [live] at other
    exact (Option.some.inj other).symm
  subst same
  show (s.handles.entries.flatMap _).Perm
    (_ ++ (List.kerase key s.handles.entries).flatMap _)
  rw [erased, entries]
  simp only [List.flatMap_append, List.flatMap_cons]
  rw [← List.append_assoc, ← List.append_assoc]
  exact List.Perm.append_right _ List.perm_append_comm

theorem owned_insert (s : HostState) (key : Ptr) (h : KeyHandle) :
    ({ s with handles := s.handles.insert key h } : HostState).owned =
      h.buffers ++ s.ownedExcept key := by
  unfold HostState.owned HostState.ownedExcept AList.erase
  rw [AList.entries_insert]
  rfl

/-! ## Holding a list of blocks -/

/-- Exactly these blocks are allocated, and nothing was freed twice. -/
structure Holds (s : HostState) (blocks : List Block) : Prop where
  exactly : s.blocks.Perm blocks
  distinct : (blocks.map Prod.fst).Nodup
  nonnull : ∀ block ∈ blocks, block.1 ≠ 0
  frees : s.invalidFrees = 0

theorem Holds.perm {s : HostState} {blocks blocks' : List Block}
    (holds : Holds s blocks) (same : blocks.Perm blocks') :
    Holds s blocks' where
  exactly := holds.exactly.trans same
  distinct := (same.map Prod.fst).nodup_iff.mp holds.distinct
  nonnull := fun block member => holds.nonnull block (same.mem_iff.mpr member)
  frees := holds.frees

theorem Holds.congr {s s' : HostState} {blocks : List Block}
    (holds : Holds s blocks) (allocations : s'.allocations = s.allocations)
    (frees : s'.invalidFrees = s.invalidFrees) : Holds s' blocks where
  exactly := by
    rw [HostState.blocks, allocations]
    exact holds.exactly
  distinct := holds.distinct
  nonnull := holds.nonnull
  frees := frees.trans holds.frees

theorem Holds.sameHeap {s s' : HostState} {blocks : List Block}
    (holds : Holds s blocks) (same : SameHeap s s') : Holds s' blocks :=
  holds.congr same.allocations same.invalidFrees

theorem mem_livePtrs {s : HostState} {p : Ptr} :
    p ∈ s.livePtrs ↔ p ∈ s.blocks.map Prod.fst := by
  simp [HostState.livePtrs, HostState.blocks]

theorem Holds.live {s : HostState} {blocks : List Block}
    (holds : Holds s blocks) {p : Ptr} :
    p ∈ s.livePtrs ↔ p ∈ blocks.map Prod.fst := by
  rw [mem_livePtrs]
  exact (holds.exactly.map Prod.fst).mem_iff

/-- A successful allocation adds a block. -/
theorem Holds.allocate {s : HostState} {blocks : List Block}
    (holds : Holds s blocks) {p : Ptr} (bytes : Nat) (fresh : p ∉ s.livePtrs)
    (nonnull : p ≠ 0) :
    Holds { s.counted with
      allocations := ⟨p, bytes, s.device⟩ :: s.allocations }
      ((p, bytes) :: blocks) where
  exactly := List.Perm.cons _ holds.exactly
  distinct := by
    rw [List.map_cons, List.nodup_cons]
    exact ⟨fun member => fresh (holds.live.mpr member), holds.distinct⟩
  nonnull := by
    intro block member
    rcases List.mem_cons.mp member with rfl | old
    · exact nonnull
    · exact holds.nonnull block old
  frees := holds.frees

/-- A successful release removes its block. -/
theorem Holds.release {s : HostState} {blocks : List Block} {p : Ptr}
    {bytes : Nat} (holds : Holds s ((p, bytes) :: blocks)) :
    Holds { s.counted with allocations := s.allocations.filter (·.ptr ≠ p) }
      blocks := by
  have distinct := holds.distinct
  rw [List.map_cons, List.nodup_cons] at distinct
  refine ⟨?_, distinct.2, fun block member =>
    holds.nonnull block (List.mem_cons_of_mem _ member), holds.frees⟩
  have removed : (s.allocations.filter (·.ptr ≠ p)).map
      (fun a => (a.ptr, a.bytes)) = s.blocks.filter (·.1 ≠ p) := by
    rw [HostState.blocks, List.filter_map]
    rfl
  have rest : blocks.filter (·.1 ≠ p) = blocks := by
    refine List.filter_eq_self.mpr fun block member => ?_
    have listed : block.1 ∈ blocks.map Prod.fst := List.mem_map_of_mem member
    have other : block.1 ≠ p := fun same => distinct.1 (same ▸ listed)
    simpa using other
  show ((s.allocations.filter (·.ptr ≠ p)).map _).Perm blocks
  rw [removed]
  have filtered := holds.exactly.filter (·.1 ≠ p)
  have first : ((p, bytes) :: blocks).filter (·.1 ≠ p) = blocks := by
    rw [List.filter_cons_of_neg (by simp), rest]
  rwa [first] at filtered

/-! ## Releasing a buffer -/

/-- Events that only allocate or release. -/
def Bookkeeping (events : List Event) : Prop :=
  ∀ event ∈ events, (∃ p, event = .malloc p) ∨ ∃ p, event = .free p

theorem Bookkeeping.nil : Bookkeeping [] := by
  intro event member
  cases member

theorem Bookkeeping.malloc (p : Ptr) : Bookkeeping [.malloc p] := by
  intro event member
  exact Or.inl ⟨p, List.mem_singleton.mp member⟩

theorem Bookkeeping.free (p : Ptr) : Bookkeeping [.free p] := by
  intro event member
  exact Or.inr ⟨p, List.mem_singleton.mp member⟩

theorem Bookkeeping.append {first second : List Event}
    (left : Bookkeeping first) (right : Bookkeeping second) :
    Bookkeeping (first ++ second) := by
  intro event member
  rcases List.mem_append.mp member with inFirst | inSecond
  · exact left event inFirst
  · exact right event inSecond

/-- What releasing buffers may do: some of them stay allocated, all of them go
when no release fails. -/
structure Released (driver : Driver) (s s' : HostState) (freed kept : List Block)
    (events : List Event) : Prop where
  blocks : ∃ lost, Holds s' (lost ++ kept) ∧ lost.Sublist freed ∧
    (driver.Succeeds {.free} → lost = [] ∧ s'.lastError = s.lastError)
  handles : s'.handles = s.handles
  outs : s'.outs = s.outs
  device : s'.device = s.device
  sticky : Sticky s s'
  events : Bookkeeping events

theorem cudaFree_released (driver : Driver) {s : HostState} {p : Ptr}
    {bytes : Nat} {kept : List Block} (holds : Holds s ((p, bytes) :: kept)) :
    (cudaFree p).Ensures driver s fun _ s' events =>
      Released driver s s' [(p, bytes)] kept events := by
  have live : p ∈ s.livePtrs := holds.live.mpr (by simp)
  refine (cudaFree_spec driver s live).mono ?_
  rintro rc s' events (⟨-, success, rfl, rfl⟩ | ⟨failure, same, rfl, rfl⟩)
  · refine ⟨⟨[], holds.release, List.nil_sublist _, fun _ => ⟨rfl, rfl⟩⟩, rfl,
      rfl, rfl, id, Bookkeeping.free p⟩
  · refine ⟨⟨[(p, bytes)], holds.sameHeap (Quiet.failed s _ rc).sameHeap,
      List.Sublist.refl _, fun reliable => ?_⟩, rfl, rfl, rfl,
      fun clear => absurd clear failure, Bookkeeping.nil⟩
    rw [reliable .free rfl] at same
    exact absurd same.symm failure

theorem freeUnlessNull_released (driver : Driver) {s : HostState} {p : Ptr}
    {bytes : Nat} {kept : List Block} (holds : Holds s ((p, bytes) :: kept)) :
    (freeUnlessNull p).Ensures driver s fun _ s' events =>
      Released driver s s' [(p, bytes)] kept events := by
  have nonnull : p ≠ 0 := holds.nonnull (p, bytes) (List.mem_cons_self ..)
  rw [freeUnlessNull, if_pos nonnull]
  refine (cudaFree_released driver holds).bind fun rc s' events released => ?_
  refine Ensures.pure ?_
  rw [List.append_nil]
  exact released

theorem freeUnlessNull_null (driver : Driver) (s : HostState) :
    freeUnlessNull 0 driver s = ⟨(), s, []⟩ := rfl

end GpuKvSeal.Host
