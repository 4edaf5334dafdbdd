import GpuKvSeal.Host.Accounting

/-!
# Growing a workspace

A call that needs more nodes than the handle has allocates two larger buffers,
releases the old ones and swaps.  If either allocation fails the handle keeps
what it had.
-/

namespace GpuKvSeal.Host

open Device (Ptr)
open TracedState.Traced (Ensures)

/-- Between calls: the live allocations are the buffers of the live handles
and the blocks that a failed release left behind. -/
structure Accounted (s : HostState) (leaked : List Block) : Prop where
  holds : Holds s (s.owned ++ leaked)
  empty : ∀ key h, s.handles.lookup key = some h → h.nodeCapacity = 0 →
    h.dNodesA = 0 ∧ h.dNodesB = 0
  keys : ∀ key ∈ s.handles, key ≠ 0

theorem Accounted.sameHeap {s s' : HostState} {leaked : List Block}
    (accounted : Accounted s leaked) (same : SameHeap s s') :
    Accounted s' leaked where
  holds := by
    have owned : s'.owned = s.owned := by
      rw [HostState.owned, same.handles]
      rfl
    rw [owned]
    exact accounted.holds.sameHeap same
  empty := by
    rw [same.handles]
    exact accounted.empty
  keys := by
    rw [same.handles]
    exact accounted.keys

/-- Split off the buffers of one handle. -/
theorem Accounted.split {s : HostState} {leaked : List Block} {key : Ptr}
    {h : KeyHandle} (accounted : Accounted s leaked)
    (live : s.handles.lookup key = some h) :
    Holds s (h.buffers ++ (s.ownedExcept key ++ leaked)) := by
  refine accounted.holds.perm ?_
  rw [← List.append_assoc]
  exact (owned_of_lookup live).append_right leaked

theorem Accounted.node_distinct {s : HostState} {leaked : List Block}
    {key : Ptr} {h : KeyHandle} (accounted : Accounted s leaked)
    (live : s.handles.lookup key = some h) (some : 0 < h.nodeCapacity) :
    h.dNodesA ≠ h.dNodesB := by
  have distinct := (accounted.split live).distinct
  have nonempty : h.nodeCapacity ≠ 0 := by omega
  simp only [KeyHandle.buffers, KeyHandle.nodeBuffers, if_neg nonempty,
    List.map_append, List.map_cons, List.nodup_append] at distinct
  have nodes := distinct.1.2.1
  simp only [List.nodup_cons, List.mem_cons] at nodes
  exact fun same => nodes.1 (Or.inl same)

/-- A call that leaves the handles as they were stays accounted for. -/
theorem Accounted.kept {s s' : HostState} {leaked lost : List Block}
    (accounted : Accounted s leaked) (handles : s'.handles = s.handles)
    (holds : Holds s' (lost ++ (s.owned ++ leaked))) :
    Accounted s' (lost ++ leaked) where
  holds := by
    have owned : s'.owned = s.owned := by
      rw [HostState.owned, handles]
      rfl
    rw [owned]
    exact holds.perm (List.perm_append_comm_assoc _ _ _)
  empty := by
    rw [handles]
    exact accounted.empty
  keys := by
    rw [handles]
    exact accounted.keys

/-- A call that replaces one handle stays accounted for. -/
theorem Accounted.replaced {s s' : HostState} {leaked lost : List Block}
    {key : Ptr} {h' : KeyHandle} (accounted : Accounted s leaked)
    (nonnull : key ≠ 0) (handles : s'.handles = s.handles.insert key h')
    (holds : Holds s' (lost ++ (h'.buffers ++ (s.ownedExcept key ++ leaked))))
    (shape : h'.nodeCapacity = 0 → h'.dNodesA = 0 ∧ h'.dNodesB = 0) :
    Accounted s' (lost ++ leaked) where
  holds := by
    have owned : s'.owned = h'.buffers ++ s.ownedExcept key := by
      rw [← owned_insert, HostState.owned, handles]
      rfl
    rw [owned]
    refine holds.perm (List.perm_iff_count.mpr fun block => ?_)
    simp only [List.count_append]
    omega
  empty := by
    intro other g found none
    rw [handles] at found
    by_cases same : other = key
    · subst same
      rw [AList.lookup_insert] at found
      cases found
      exact shape none
    · rw [AList.lookup_insert_ne same] at found
      exact accounted.empty other g found none
  keys := by
    intro other member
    rw [handles] at member
    rcases (AList.mem_insert _).mp member with rfl | old
    · exact nonnull
    · exact accounted.keys other old

/-- The calls that release a pointer. -/
def freeCalls (p : Ptr) : Nat := if p = 0 then 0 else 1

/-- The calls that let a workspace grow to a number of nodes. -/
def growthCalls (h : KeyHandle) (required : Nat) : Nat :=
  if required ≤ h.nodeCapacity then 0
  else 2 + freeCalls h.dNodesA + freeCalls h.dNodesB

theorem cudaFree_calls (driver : Driver) (s : HostState) (p : Ptr) :
    (cudaFree p driver s).state.calls = s.calls + 1 := by
  have counted := call_calls driver s .free
  rw [cudaFree, TracedState.Traced.bind_apply]
  dsimp only
  split
  · refine Eq.trans ?_ counted
    unfold release
    split <;> rfl
  · exact counted

theorem freeUnlessNull_calls (driver : Driver) (s : HostState) (p : Ptr) :
    (freeUnlessNull p driver s).state.calls = s.calls + freeCalls p := by
  unfold freeUnlessNull freeCalls
  by_cases null : p = 0
  · rw [if_neg (not_not.mpr null), if_pos null]
    rfl
  · rw [if_pos null, if_neg null]
    exact cudaFree_calls driver s p

theorem freeNodes_calls (driver : Driver) (s : HostState) (h : KeyHandle) :
    (freeNodes h).Ensures driver s fun _ s' _ =>
      s'.calls = s.calls + (freeCalls h.dNodesA + freeCalls h.dNodesB) := by
  have first := freeUnlessNull_calls driver s h.dNodesA
  have second := freeUnlessNull_calls driver
    (freeUnlessNull h.dNodesA driver s).state h.dNodesB
  exact second.trans (by rw [first, Nat.add_assoc])

/-- How `ensure_workspace` may end. -/
inductive WorkspaceResult (driver : Driver) (s s' : HostState) (key : Ptr)
    (h : KeyHandle) (required : Nat) : ReturnCode → List Event → Prop
  | enough (fits : required ≤ h.nodeCapacity) (same : s' = s) :
      WorkspaceResult driver s s' key h required .ok []
  | grown {events : List Event} (a b : Ptr) (small : h.nodeCapacity < required)
      (distinct : a ≠ b)
      (handles : s'.handles = s.handles.insert key
        { h with dNodesA := a, dNodesB := b, nodeCapacity := required })
      (lastError : driver.Succeeds {.free} → s'.lastError = s.lastError) :
      WorkspaceResult driver s s' key h required .ok events
  | failed {events : List Event} (small : h.nodeCapacity < required)
      (handles : s'.handles = s.handles) (lastError : s'.lastError ≠ cudaSuccess)
      (refused : ¬ driver.Succeeds {.malloc}) :
      WorkspaceResult driver s s' key h required .errAlloc events

/-- What `ensure_workspace` leaves in every case. -/
structure WorkspaceEffect (driver : Driver) (s s' : HostState) (key : Ptr)
    (h : KeyHandle) (leaked : List Block) (required : Nat) (rc : ReturnCode)
    (events : List Event) : Prop where
  result : WorkspaceResult driver s s' key h required rc events
  accounted : ∃ lost, Accounted s' (lost ++ leaked) ∧
    (driver.Succeeds {.free} → lost = [])
  events : Bookkeeping events
  device : s'.device = s.device
  outs : s'.outs = s.outs
  sticky : Sticky s s'
  calls : rc = .ok → s'.calls = s.calls + growthCalls h required

theorem nodeBuffers_of_pos {h : KeyHandle} (some : 0 < h.nodeCapacity) :
    h.nodeBuffers = [(h.dNodesA, h.nodeCapacity * sizeofGHashNode),
      (h.dNodesB, h.nodeCapacity * sizeofGHashNode)] :=
  if_neg (by omega)

/-- Releasing the old node buffers, if there are any. -/
theorem freeNodes_spec (driver : Driver) {s : HostState} {h : KeyHandle}
    {kept : List Block} (holds : Holds s (h.nodeBuffers ++ kept))
    (empty : h.nodeCapacity = 0 → h.dNodesA = 0 ∧ h.dNodesB = 0) :
    (freeNodes h).Ensures driver s fun _ s' events =>
      Released driver s s' h.nodeBuffers kept events := by
  by_cases none : h.nodeCapacity = 0
  · obtain ⟨a, b⟩ := empty none
    have nothing : h.nodeBuffers = [] := if_pos none
    rw [nothing] at holds ⊢
    rw [freeNodes, a, b]
    refine Ensures.bind_eq (freeUnlessNull_null driver s) ?_
    exact Ensures.of_eq (freeUnlessNull_null driver s)
      ⟨⟨[], holds, List.Sublist.refl _, fun _ => ⟨rfl, rfl⟩⟩, rfl, rfl, rfl, id,
        Bookkeeping.nil⟩
  · rw [nodeBuffers_of_pos (Nat.pos_of_ne_zero none)] at holds ⊢
    refine (freeUnlessNull_released driver holds).bind ?_
    rintro - s₁ events₁ first
    obtain ⟨lost₁, holds₁, sub₁, exact₁⟩ := first.blocks
    have next : Holds s₁ ((h.dNodesB, h.nodeCapacity * sizeofGHashNode) ::
        (lost₁ ++ kept)) := holds₁.perm List.perm_middle
    refine (freeUnlessNull_released driver next).mono ?_
    rintro - s₂ events₂ second
    obtain ⟨lost₂, holds₂, sub₂, exact₂⟩ := second.blocks
    refine ⟨⟨lost₁ ++ lost₂, ?_, sub₁.append sub₂, fun reliable => ?_⟩,
      second.handles.trans first.handles, second.outs.trans first.outs,
      second.device.trans first.device,
      fun clear => first.sticky (second.sticky clear),
      first.events.append second.events⟩
    · refine holds₂.perm ?_
      rw [← List.append_assoc]
      exact List.Perm.append_right _ List.perm_append_comm
    · obtain ⟨none₁, error₁⟩ := exact₁ reliable
      obtain ⟨none₂, error₂⟩ := exact₂ reliable
      rw [none₁, none₂]
      exact ⟨rfl, error₂.trans error₁⟩

/-- With the new buffers in place of the old ones, which are still to be released. -/
theorem Holds.swapped {s state : HostState} {key a b : Ptr} {h : KeyHandle}
    {leaked : List Block} {count : Nat} (positive : 0 < count)
    (live : s.handles.lookup key = some h)
    (holds : Holds state ((b, count * sizeofGHashNode) ::
      (a, count * sizeofGHashNode) :: (s.owned ++ leaked))) :
    Holds state (h.nodeBuffers ++ (KeyHandle.buffers { h with
      dNodesA := a
      dNodesB := b
      nodeCapacity := count } ++ (s.ownedExcept key ++ leaked))) := by
  let h' : KeyHandle := { h with dNodesA := a, dNodesB := b, nodeCapacity := count }
  have tables : h'.tables = h.tables := rfl
  have nodes : h'.nodeBuffers =
      [(a, count * sizeofGHashNode), (b, count * sizeofGHashNode)] :=
    nodeBuffers_of_pos positive
  refine holds.perm (List.perm_iff_count.mpr fun block => ?_)
  have before := (owned_of_lookup live).count_eq block
  show _ = List.count block (h.nodeBuffers ++ (h'.buffers ++ _))
  simp only [KeyHandle.buffers, tables, nodes, List.count_append,
    List.count_cons, List.count_nil] at before ⊢
  omega

theorem ensureWorkspace_spec (driver : Driver) {s : HostState} {key : Ptr}
    {h : KeyHandle} {leaked : List Block} (accounted : Accounted s leaked)
    (live : s.handles.lookup key = some h) (plaintextLen : Nat) :
    (ensureWorkspace key plaintextLen).Ensures driver s fun rc s' events =>
      WorkspaceEffect driver s s' key h leaked (requiredNodes plaintextLen) rc
        events := by
  have found : readHandle key driver s = ⟨h, s, []⟩ := by
    rw [readHandle_apply, live]
    rfl
  refine Ensures.bind_eq found (Ensures.ite (fun fits => ?_) fun small => ?_)
  · exact Ensures.pure ⟨.enough fits rfl, ⟨[], accounted, fun _ => rfl⟩,
      Bookkeeping.nil, rfl, rfl, id, fun _ => by rw [growthCalls, if_pos fits]; rfl⟩
  have small : h.nodeCapacity < requiredNodes plaintextLen := by omega
  have refusal : ∀ {state : HostState} {rc : CudaError}, rc ≠ cudaSuccess →
      driver.outcome .malloc state.calls = rc → ¬ driver.Succeeds {.malloc} := by
    intro state rc failure refused reliable
    rw [reliable .malloc rfl] at refused
    exact failure refused.symm
  have nonnull : key ≠ 0 :=
    accounted.keys key (AList.lookup_isSome.mp (by rw [live]; rfl))
  refine (cudaMalloc_spec driver s _).bind ?_
  rintro result s₁ events₁
    (⟨a, rfl, -, nonnullA, freshA, rfl, rfl⟩ |
      ⟨rc, rfl, failure, refused, rfl, rfl⟩)
  swap
  · exact Ensures.pure ⟨.failed small rfl failure (refusal failure refused),
      ⟨[], accounted.sameHeap (Quiet.failed s _ rc).sameHeap, fun _ => rfl⟩,
      Bookkeeping.nil, rfl, rfl, fun clear => absurd clear failure, nofun⟩
  have holds₁ := accounted.holds.allocate
    (requiredNodes plaintextLen * sizeofGHashNode) freshA nonnullA
  refine (cudaMalloc_spec driver _ _).bind ?_
  rintro result s₂ events₂
    (⟨b, rfl, -, nonnullB, freshB, rfl, rfl⟩ |
      ⟨rc, rfl, failure, refused, rfl, rfl⟩)
  swap
  · refine (cudaFree_released driver
      (holds₁.sameHeap (Quiet.failed _ _ rc).sameHeap)).bind ?_
    rintro - s₃ events₃ released
    obtain ⟨lost, holds₃, -, exact₃⟩ := released.blocks
    exact Ensures.pure ⟨.failed small released.handles
      (fun clear => absurd (released.sticky clear) failure)
      (refusal failure refused),
      ⟨lost, accounted.kept released.handles holds₃,
        fun reliable => (exact₃ reliable).1⟩,
      (Bookkeeping.malloc a).append (released.events.append Bookkeeping.nil),
      released.device, released.outs,
      fun clear => absurd (released.sticky clear) failure, nofun⟩
  have holds₂ := holds₁.allocate
    (requiredNodes plaintextLen * sizeofGHashNode) freshB nonnullB
  have distinct : a ≠ b := by
    intro equal
    exact freshB (holds₁.live.mpr (by simp [equal]))
  let h' : KeyHandle := { h with
    dNodesA := a
    dNodesB := b
    nodeCapacity := requiredNodes plaintextLen }
  have positive : 0 < h'.nodeCapacity := by
    show 0 < requiredNodes plaintextLen
    omega
  refine ((freeNodes_spec driver (holds₂.swapped positive live)
    (accounted.empty key h live)).and
    (freeNodes_calls driver _ h)).bind ?_
  rintro - s₃ events₃ ⟨released, counted⟩
  obtain ⟨lost, holds₃, -, exact₃⟩ := released.blocks
  have handles : s₃.handles = s.handles := released.handles
  have stored : modifyHandle key (fun h => { h with
        dNodesA := a
        dNodesB := b
        nodeCapacity := requiredNodes plaintextLen }) driver s₃ =
      ⟨(), { s₃ with handles := s.handles.insert key h' }, []⟩ := by
    rw [modifyHandle, modifyState, handles, live]
    rfl
  refine Ensures.bind_eq stored (Ensures.pure ?_)
  exact ⟨.grown a b small distinct rfl fun reliable => (exact₃ reliable).2,
    ⟨lost, accounted.replaced nonnull rfl (holds₃.congr rfl rfl)
      fun none => absurd none positive.ne', fun reliable => (exact₃ reliable).1⟩,
    (Bookkeeping.malloc a).append ((Bookkeeping.malloc b).append
      (released.events.append Bookkeeping.nil)),
    released.device, released.outs, released.sticky, fun _ => by
      rw [growthCalls, if_neg (by omega)]
      exact counted.trans (by simp only [counted_calls]; omega)⟩

end GpuKvSeal.Host
