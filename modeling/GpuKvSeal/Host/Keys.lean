import GpuKvSeal.Host.Calls

/-!
# Creating and destroying keys

Creation acquires a host object and two device buffers and undoes what it has
when a later step fails.  Destruction releases all buffers of a handle.
-/

namespace GpuKvSeal.Host

open Device (Ptr Launch HOST_SBOX expandAes128Key)
open BigEndian (Byte)
open TracedState.Traced (Ensures)

/-! ## Destruction -/

/-- What destroying a live key does. -/
structure Destroyed (driver : Driver) (s s' : HostState) (key : Ptr)
    (leaked : List Block) (rc : ReturnCode) (events : List Event) : Prop where
  code : rc = .ok
  handles : s'.handles = s.handles.erase key
  accounted : ∃ lost, Accounted s' (lost ++ leaked) ∧
    (driver.Succeeds {.free} → lost = [])
  outs : s'.outs = s.outs
  events : Bookkeeping events

theorem Accounted.erased {s s' : HostState} {leaked lost : List Block}
    {key : Ptr} (accounted : Accounted s leaked)
    (handles : s'.handles = s.handles.erase key)
    (holds : Holds s' (lost ++ (s.ownedExcept key ++ leaked))) :
    Accounted s' (lost ++ leaked) where
  holds := by
    have owned : s'.owned = s.ownedExcept key := by
      rw [HostState.owned, handles]
      rfl
    rw [owned]
    exact holds.perm (List.perm_append_comm_assoc _ _ _)
  empty := by
    intro other g found none
    rw [handles] at found
    by_cases same : other = key
    · subst same
      rw [AList.lookup_erase] at found
      cases found
    · rw [AList.lookup_erase_ne same] at found
      exact accounted.empty other g found none
  keys := by
    intro other member
    rw [handles] at member
    exact accounted.keys other (AList.mem_erase.mp member).2

theorem Destroyed.switchBack {driver : Driver} {s s' s'' : HostState}
    {key : Ptr} {leaked : List Block} {rc : ReturnCode} {events : List Event}
    (destroyed : Destroyed driver s s' key leaked rc events)
    (heap : SameHeap s' s'') :
    Destroyed driver s s'' key leaked rc events where
  code := destroyed.code
  handles := heap.handles.trans destroyed.handles
  accounted := by
    obtain ⟨lost, accounted, exact_⟩ := destroyed.accounted
    exact ⟨lost, accounted.sameHeap heap, exact_⟩
  outs := heap.outs.trans destroyed.outs
  events := destroyed.events

theorem lmcacheGpuAes128gcmKeyDestroy_spec (driver : Driver) {s : HostState}
    {key : Ptr} {h : KeyHandle} {leaked : List Block}
    (accounted : Accounted s leaked) (live : s.handles.lookup key = some h) :
    (lmcacheGpuAes128gcmKeyDestroy key).Ensures driver s fun rc s' events =>
      Destroyed driver s s' key leaked rc events := by
  have nonnull : key ≠ 0 :=
    accounted.keys key (AList.lookup_isSome.mp (by rw [live]; rfl))
  rw [lmcacheGpuAes128gcmKeyDestroy, if_neg nonnull]
  refine Ensures.bind_eq (readHandle_live driver live) ?_
  refine (withDevice_spec driver s h.device _ fun s₀ heap₀ _ _ _ _ => ?_).mono
    fun rc s'' events ⟨s', destroyed, heap, _, _⟩ =>
      Destroyed.switchBack destroyed heap
  have holds₀ : Holds s₀ (h.nodeBuffers ++ ((h.dHPow2, sizeofBlock128 * 64) ::
      (h.dRoundKeys, 176) :: (s.ownedExcept key ++ leaked))) := by
    refine ((accounted.split live).sameHeap heap₀).perm
      (List.perm_iff_count.mpr fun block => ?_)
    simp only [KeyHandle.buffers, KeyHandle.tables, List.count_append,
      List.count_cons, List.count_nil]
    omega
  refine (freeNodes_spec driver holds₀ (accounted.empty key h live)).bind ?_
  rintro - s₁ events₁ first
  obtain ⟨lost₁, holds₁, -, exact₁⟩ := first.blocks
  have next : Holds s₁ ((h.dHPow2, sizeofBlock128 * 64) :: (lost₁ ++
      ((h.dRoundKeys, 176) :: (s.ownedExcept key ++ leaked)))) :=
    holds₁.perm List.perm_middle
  refine (freeUnlessNull_released driver next).bind ?_
  rintro - s₂ events₂ second
  obtain ⟨lost₂, holds₂, -, exact₂⟩ := second.blocks
  have last : Holds s₂ ((h.dRoundKeys, 176) :: (lost₂ ++ (lost₁ ++
      (s.ownedExcept key ++ leaked)))) := by
    refine holds₂.perm (List.perm_iff_count.mpr fun block => ?_)
    simp only [List.count_append, List.count_cons]
    omega
  refine (freeUnlessNull_released driver last).bind ?_
  rintro - s₃ events₃ third
  obtain ⟨lost₃, holds₃, -, exact₃⟩ := third.blocks
  have handles : s₃.handles = s.handles := third.handles.trans
    (second.handles.trans (first.handles.trans heap₀.handles))
  have deleted : deleteHandle key driver s₃ =
      ⟨(), { s₃ with handles := s.handles.erase key }, []⟩ := by
    rw [deleteHandle, modifyState, handles]
  have holds : Holds s₃ (lost₃ ++ (lost₂ ++ lost₁) ++
      (s.ownedExcept key ++ leaked)) := by
    simpa [List.append_assoc] using holds₃
  refine Ensures.bind_eq deleted (Ensures.pure ⟨rfl, rfl,
    ⟨lost₃ ++ (lost₂ ++ lost₁), accounted.erased rfl (holds.congr rfl rfl),
      fun reliable => ?_⟩,
    third.outs.trans (second.outs.trans (first.outs.trans heap₀.outs)),
    first.events.append (second.events.append (third.events.append
      Bookkeeping.nil))⟩)
  rw [(exact₁ reliable).1, (exact₂ reliable).1, (exact₃ reliable).1]
  rfl

/-! ## Creation -/

/-- How key creation may end. -/
inductive CreateResult (driver : Driver) (s s' : HostState)
    (key : Vector Byte 16) (device : Int) (out : Ptr) :
    ReturnCode → List Event → Prop
  | created {events : List Event} (p roundKeys hPow2 : Ptr) (current : Int)
      (launched : List Event) (nonnull : p ≠ 0) (fresh : p ∉ s.handles)
      (handles : s'.handles = s.handles.insert p
        { device := device, dRoundKeys := roundKeys, dHPow2 := hPow2 })
      (outs : s'.outs = Function.update s.outs out p)
      (init : launched = [] ∨ launched =
        launchEvents 0 [⟨current, .initHashKey roundKeys hPow2, 1, 1⟩])
      (accepted : driver.Succeeds {.launch} → launched =
        launchEvents 0 [⟨current, .initHashKey roundKeys hPow2, 1, 1⟩])
      (switched : driver.Succeeds {.getDevice, .setDevice} → current = device)
      (clean : driver.Succeeds {.getDevice, .setDevice, .launch} →
        s'.lastError = s.lastError)
      (trace : events = [.memcpyToSymbol current HOST_SBOX, .malloc roundKeys,
        .malloc hPow2, .memcpy roundKeys (expandAes128Key key)] ++ launched ++
          [.synchronize]) :
      CreateResult driver s s' key device out .ok events
  | failed {rc : ReturnCode} {events : List Event} (bad : rc ≠ .ok)
      (handles : s'.handles = s.handles) (outs : s'.outs = s.outs) :
      CreateResult driver s s' key device out rc events

/-- What creation may ask of the device.  The tables it fills were not in use
before. -/
inductive CreationEvent (s : HostState) : Event → Prop
  | memcpyToSymbol (device : Int) :
      CreationEvent s (.memcpyToSymbol device HOST_SBOX)
  | memcpy {p : Ptr} (bytes : Vector Byte 176) (fresh : p ∉ s.livePtrs) :
      CreationEvent s (.memcpy p bytes)
  | initHashKey (device : Int) (roundKeys : Ptr) {hPow2 : Ptr}
      (fresh : hPow2 ∉ s.livePtrs) :
      CreationEvent s (.launch 0 ⟨device, .initHashKey roundKeys hPow2, 1, 1⟩)
  | synchronize : CreationEvent s .synchronize
  | malloc (p : Ptr) : CreationEvent s (.malloc p)
  | free (p : Ptr) : CreationEvent s (.free p)

/-- All events are events of a creation. -/
def Creation (s : HostState) (events : List Event) : Prop :=
  ∀ event ∈ events, CreationEvent s event

theorem Creation.nil (s : HostState) : Creation s [] := by
  intro event member
  cases member

theorem Creation.single {s : HostState} {event : Event}
    (creation : CreationEvent s event) : Creation s [event] := by
  intro other member
  rw [List.mem_singleton.mp member]
  exact creation

theorem Creation.append {s : HostState} {first second : List Event}
    (left : Creation s first) (right : Creation s second) :
    Creation s (first ++ second) := by
  intro event member
  rcases List.mem_append.mp member with inFirst | inSecond
  · exact left event inFirst
  · exact right event inSecond

theorem Bookkeeping.creation {events : List Event}
    (bookkeeping : Bookkeeping events) (s : HostState) : Creation s events := by
  intro event member
  rcases bookkeeping event member with ⟨p, rfl⟩ | ⟨p, rfl⟩
  · exact .malloc p
  · exact .free p

/-- What key creation does in every case. -/
structure Created (driver : Driver) (s s' : HostState) (key : Vector Byte 16)
    (device : Int) (out : Ptr) (leaked : List Block) (rc : ReturnCode)
    (events : List Event) : Prop where
  result : CreateResult driver s s' key device out rc events
  creation : Creation s events
  accounted : ∃ lost, Accounted s' (lost ++ leaked) ∧
    (driver.Succeeds {.free} → lost = [])

theorem Created.switchBack {driver : Driver} {s s' s'' : HostState}
    {key : Vector Byte 16} {device : Int} {out : Ptr} {leaked : List Block}
    {rc : ReturnCode} {events : List Event}
    (created : Created driver s s' key device out leaked rc events)
    (heap : SameHeap s' s'')
    (clean : driver.Succeeds {.getDevice, .setDevice} →
      s''.lastError = s'.lastError) :
    Created driver s s'' key device out leaked rc events where
  result := by
    cases created.result with
    | created p roundKeys hPow2 current launched nonnull fresh handles outs init
        accepted switched clean' trace =>
        refine .created p roundKeys hPow2 current launched nonnull fresh
          (heap.handles.trans handles) (heap.outs.trans outs) init accepted
          switched (fun reliable => ?_) trace
        refine (clean fun kind member => ?_).trans (clean' reliable)
        rcases member with rfl | rfl
        · exact reliable .getDevice (Or.inl rfl)
        · exact reliable .setDevice (Or.inr (Or.inl rfl))
    | failed bad handles outs =>
        exact .failed bad (heap.handles.trans handles) (heap.outs.trans outs)
  creation := created.creation
  accounted := by
    obtain ⟨lost, accounted, exact_⟩ := created.accounted
    exact ⟨lost, accounted.sameHeap heap, exact_⟩

/-- The object is new and takes no room on the device: adding it and taking it
away again leaves the handles as they were. -/
theorem erase_insert {handles : AList fun _ : Ptr => KeyHandle} {p : Ptr}
    (fresh : p ∉ handles) (h : KeyHandle) :
    (handles.insert p h).erase p = handles := by
  have absent : p ∉ handles.entries.keys := fresh
  apply AList.ext
  show List.kerase p (handles.insert p h).entries = handles.entries
  rw [AList.entries_insert, List.kerase_of_notMem_keys absent]
  exact List.kerase_cons_eq rfl

theorem ownedExcept_fresh {s : HostState} {p : Ptr} (fresh : p ∉ s.handles) :
    s.ownedExcept p = s.owned := by
  have absent : p ∉ s.handles.entries.keys := fresh
  show (List.kerase p s.handles.entries).flatMap _ = _
  rw [List.kerase_of_notMem_keys absent]
  rfl

/-- A field of an object that was just added. -/
theorem modifyHandle_inserted (driver : Driver) {state : HostState} {p : Ptr}
    {handles : AList fun _ : Ptr => KeyHandle} {g : KeyHandle}
    (f : KeyHandle → KeyHandle) (inserted : state.handles = handles.insert p g) :
    modifyHandle p f driver state =
      ⟨(), { state with handles := handles.insert p (f g) }, []⟩ := by
  rw [modifyHandle, modifyState, inserted, AList.lookup_insert,
    AList.insert_insert]
  rfl

/-- A new object and the blocks that creation has acquired for it so far. -/
structure Building (s state : HostState) (p : Ptr) (g : KeyHandle)
    (blocks leaked : List Block) : Prop where
  handles : state.handles = s.handles.insert p g
  outs : state.outs = s.outs
  holds : Holds state (blocks ++ (s.owned ++ leaked))

namespace Building

variable {s state : HostState} {p : Ptr} {g : KeyHandle}
  {blocks leaked : List Block}

theorem sameHeap {state' : HostState} (building : Building s state p g blocks leaked)
    (heap : SameHeap state state') : Building s state' p g blocks leaked where
  handles := heap.handles.trans building.handles
  outs := heap.outs.trans building.outs
  holds := building.holds.sameHeap heap

theorem stored (building : Building s state p g blocks leaked)
    (f : KeyHandle → KeyHandle) :
    Building s { state with handles := s.handles.insert p (f g) } p (f g) blocks
      leaked where
  handles := rfl
  outs := building.outs
  holds := building.holds.congr rfl rfl

theorem allocated (building : Building s state p g blocks leaked) {q : Ptr}
    (bytes : Nat) (fresh : q ∉ state.livePtrs) (nonnull : q ≠ 0) :
    Building s { state.counted with
      allocations := ⟨q, bytes, state.device⟩ :: state.allocations } p g
      ((q, bytes) :: blocks) leaked where
  handles := building.handles
  outs := building.outs
  holds := building.holds.allocate bytes fresh nonnull

/-- What is left of the first block when it is released. -/
theorem released {q : Ptr} {bytes : Nat} (driver : Driver)
    (building : Building s state p g ((q, bytes) :: blocks) leaked) :
    (cudaFree q).Ensures driver state fun _ state' events =>
      ∃ lost, Building s state' p g (blocks ++ lost) leaked ∧
        (driver.Succeeds {.free} → lost = []) ∧ Bookkeeping events := by
  have first : Holds state ((q, bytes) :: (blocks ++ (s.owned ++ leaked))) :=
    building.holds
  refine (cudaFree_released driver first).mono fun _ state' events freed => ?_
  obtain ⟨lost, holds, -, exactly⟩ := freed.blocks
  refine ⟨lost, ⟨freed.handles.trans building.handles,
    freed.outs.trans building.outs, ?_⟩,
    fun reliable => (exactly reliable).1, freed.events⟩
  rw [List.append_assoc]
  exact holds.perm (List.perm_append_comm_assoc _ _ _)

/-- Every failure ends by deleting the object, whatever its fields are then. -/
theorem deleted (building : Building s state p g blocks leaked) (driver : Driver)
    (key : Vector Byte 16) (device : Int) (out : Ptr)
    (accounted : Accounted s leaked) (fresh : p ∉ s.handles)
    {trace : List Event → List Event} {rc : ReturnCode} (bad : rc ≠ .ok)
    (exactly : driver.Succeeds {.free} → blocks = [])
    (creation : Creation s (trace [])) :
    (do deleteHandle p; pure rc : Cuda ReturnCode).Ensures driver state
      fun rc s' events => Created driver s s' key device out leaked rc
        (trace events) := by
  have erased : deleteHandle p driver state =
      ⟨(), { state with handles := s.handles }, []⟩ := by
    rw [deleteHandle, modifyState, building.handles, erase_insert fresh]
  refine Ensures.bind_eq erased (Ensures.pure ⟨.failed bad rfl building.outs,
    creation, blocks, ?_, exactly⟩)
  exact accounted.kept rfl (building.holds.congr rfl rfl)

/-- A failure after both tables were allocated. -/
theorem tablesDeleted {roundKeys hPow2 : Ptr}
    (building : Building s state p g
      [(hPow2, sizeofBlock128 * 64), (roundKeys, 176)] leaked)
    (driver : Driver) (key : Vector Byte 16) (device : Int) (out : Ptr)
    (accounted : Accounted s leaked) (fresh : p ∉ s.handles)
    {trace : List Event → List Event}
    (creation : ∀ events, Bookkeeping events → Creation s (trace events)) :
    (do
      let _ ← cudaFree hPow2
      let _ ← cudaFree roundKeys
      deleteHandle p
      pure .errCuda : Cuda ReturnCode).Ensures driver state
      fun rc s' events => Created driver s s' key device out leaked rc
        (trace events) := by
  refine (building.released driver).bind ?_
  rintro - s₁ events₁ ⟨lost₁, building₁, exactly₁, events₁_free⟩
  refine (building₁.released driver).bind ?_
  rintro - s₂ events₂ ⟨lost₂, building₂, exactly₂, events₂_free⟩
  refine building₂.deleted driver key device out accounted fresh (by simp)
    (fun reliable => ?_) ?_
  · rw [exactly₁ reliable, exactly₂ reliable]
    rfl
  · exact creation _ (events₁_free.append (events₂_free.append Bookkeeping.nil))

/-- The object is complete when both tables are filled. -/
theorem finished {roundKeys hPow2 : Ptr} {device : Int}
    (building : Building s state p
      { device := device, dRoundKeys := roundKeys, dHPow2 := hPow2 }
      [(hPow2, sizeofBlock128 * 64), (roundKeys, 176)] leaked)
    (accounted : Accounted s leaked) (nonnull : p ≠ 0) (fresh : p ∉ s.handles)
    (out : Ptr) :
    Accounted { state.counted with outs := Function.update state.outs out p }
      leaked := by
  show Accounted _ ([] ++ leaked)
  refine accounted.replaced nonnull building.handles ?_ fun _ => ⟨rfl, rfl⟩
  rw [ownedExcept_fresh fresh]
  refine Holds.perm (building.holds.congr rfl rfl) ?_
  refine List.perm_iff_count.mpr fun block => ?_
  simp only [KeyHandle.buffers, KeyHandle.tables, KeyHandle.nodeBuffers, if_true,
    List.count_append, List.count_cons, List.count_nil]
  omega

/-- The outcome when every result that creation looks at was good. -/
theorem created {driver : Driver} {key : Vector Byte 16} {device current : Int}
    {out roundKeys hPow2 : Ptr} {launched : List Event} {error : CudaError}
    (building : Building s state p
      { device := device, dRoundKeys := roundKeys, dHPow2 := hPow2 }
      [(hPow2, sizeofBlock128 * 64), (roundKeys, 176)] leaked)
    (accounted : Accounted s leaked) (nonnull : p ≠ 0) (fresh : p ∉ s.handles)
    (switched : driver.Succeeds {.getDevice, .setDevice} →
      error = s.lastError ∧ current = device)
    (init : (launched =
        launchEvents 0 [⟨current, .initHashKey roundKeys hPow2, 1, 1⟩] ∧
          state.lastError = error) ∨
      (¬ driver.Succeeds {.launch} ∧ launched = []))
    {events : List Event}
    (trace : events = [.memcpyToSymbol current HOST_SBOX, .malloc roundKeys,
      .malloc hPow2, .memcpy roundKeys (expandAes128Key key)] ++ launched ++
        [.synchronize])
    (creation : Creation s events) :
    Created driver s
      { state.counted with outs := Function.update state.outs out p } key device
      out leaked .ok events := by
  refine ⟨.created p roundKeys hPow2 current launched nonnull fresh building.handles
    ?_ ?_ ?_ (fun reliable => (switched reliable).2) ?_ trace, creation, [],
    building.finished accounted nonnull fresh out, fun _ => rfl⟩
  · exact congrArg (Function.update · out p) building.outs
  · rcases init with ⟨whole, -⟩ | ⟨-, nothing⟩
    · exact Or.inr whole
    · exact Or.inl nothing
  · intro reliable
    rcases init with ⟨whole, -⟩ | ⟨refused, -⟩
    · exact whole
    · exact absurd reliable refused
  · intro reliable
    have guard : driver.Succeeds {.getDevice, .setDevice} := by
      rintro kind (rfl | rfl)
      · exact reliable .getDevice (Or.inl rfl)
      · exact reliable .setDevice (Or.inr (Or.inl rfl))
    rcases init with ⟨-, same⟩ | ⟨refused, -⟩
    · exact same.trans (switched guard).1
    · exact absurd (fun kind member => reliable kind (Or.inr (Or.inr member))) refused

end Building

/-- The steps of creation after the object exists. -/
theorem createTables_spec (driver : Driver) {s s₀ : HostState} {p : Ptr}
    (key : Vector Byte 16) (device : Int) (out : Ptr) {leaked : List Block}
    (accounted : Accounted s leaked) (nonnull : p ≠ 0) (fresh : p ∉ s.handles)
    (heap₀ : SameHeap { s with handles := s.handles.insert p {} } s₀)
    (switched : driver.Succeeds {.getDevice, .setDevice} →
      s₀.lastError = s.lastError ∧ s₀.device = device) :
    (createTables p key device out).Ensures driver s₀ fun rc s' events =>
      Created driver s s' key device out leaked rc events := by
  have building₀ : Building s s₀ p {} [] leaked :=
    ⟨heap₀.handles, heap₀.outs,
      accounted.holds.congr heap₀.allocations heap₀.invalidFrees⟩
  have live₀ : s₀.livePtrs = s.livePtrs :=
    congrArg (List.map Allocation.ptr) heap₀.allocations
  refine Ensures.bind_eq (modifyHandle_inserted driver _ building₀.handles) ?_
  have building₁ := building₀.stored fun fields => { fields with device := device }
  -- The table of the S-box.
  refine (cudaMemcpyToSymbol_spec driver _ _).bind ?_
  rintro rc s₁ events₁ (⟨rfl, -, rfl, rfl⟩ | ⟨failure, -, rfl, rfl⟩)
  swap
  · rw [if_pos failure]
    exact (building₁.sameHeap (Quiet.failed ..).sameHeap).deleted driver key device
      out accounted fresh (by simp) (fun _ => rfl) (Creation.nil s)
  rw [if_neg (by simp)]
  have copied : Creation s [.memcpyToSymbol s₀.device HOST_SBOX] :=
    Creation.single (.memcpyToSymbol _)
  -- The round keys.
  refine (cudaMalloc_spec driver _ _).bind ?_
  rintro result s₂ events₂
    (⟨roundKeys, rfl, -, nonnull₂, fresh₂, rfl, rfl⟩ |
      ⟨rc, rfl, failure, -, rfl, rfl⟩)
  swap
  · exact (building₁.sameHeap ((Quiet.counted _).trans
      (Quiet.failed ..)).sameHeap).deleted driver key device out accounted fresh
      (by simp) (fun _ => rfl) copied
  have building₂ := (building₁.sameHeap (Quiet.counted _).sameHeap).allocated 176
    fresh₂ nonnull₂
  refine Ensures.bind_eq (modifyHandle_inserted driver _ building₂.handles) ?_
  have building₃ := building₂.stored
    fun fields => { fields with dRoundKeys := roundKeys }
  -- The powers of the hash key.
  refine (cudaMalloc_spec driver _ _).bind ?_
  rintro result s₃ events₃
    (⟨hPow2, rfl, -, nonnull₃, fresh₃, rfl, rfl⟩ |
      ⟨rc, rfl, failure, -, rfl, rfl⟩)
  swap
  · refine ((building₃.sameHeap (Quiet.failed ..).sameHeap).released driver).bind ?_
    rintro - s₄ events₄ ⟨lost, building₄, exactly, released⟩
    refine building₄.deleted driver key device out accounted fresh (by simp)
      exactly ?_
    exact copied.append ((Creation.single (.malloc roundKeys)).append
      ((released.append Bookkeeping.nil).creation s))
  have building₄ := building₃.allocated (sizeofBlock128 * 64) fresh₃ nonnull₃
  refine Ensures.bind_eq (modifyHandle_inserted driver _ building₄.handles) ?_
  have building₅ := building₄.stored fun fields => { fields with dHPow2 := hPow2 }
  have allocated : Creation s [.malloc roundKeys, .malloc hPow2] :=
    (Creation.single (.malloc roundKeys)).append (Creation.single (.malloc hPow2))
  -- The copy of the round keys.
  refine (cudaMemcpy_spec driver _ _ _).bind ?_
  rintro rc s₄ events₄ (⟨rfl, -, rfl, rfl⟩ | ⟨failure, -, rfl, rfl⟩)
  swap
  · rw [if_pos failure]
    refine (building₅.sameHeap (Quiet.failed ..).sameHeap).tablesDeleted driver key
      device out accounted fresh fun events bookkeeping => ?_
    exact copied.append (allocated.append (bookkeeping.creation s))
  rw [if_neg (by simp)]
  have freshKeys : roundKeys ∉ s.livePtrs := by
    rw [← live₀]
    exact fresh₂
  have freshPowers : hPow2 ∉ s.livePtrs := by
    rw [← live₀]
    exact fun member => fresh₃ (List.mem_cons_of_mem _ member)
  have filled : Creation s [.memcpyToSymbol s₀.device HOST_SBOX, .malloc roundKeys,
      .malloc hPow2, .memcpy roundKeys (expandAes128Key key)] :=
    copied.append (allocated.append (Creation.single (.memcpy _ freshKeys)))
  -- The launch that fills the powers; nobody looks at its result.
  refine (launchKernel_spec driver _ _ _ _ 0).bind ?_
  rintro - s₅ launched ⟨quiet, init⟩
  have building₆ := building₅.sameHeap ((Quiet.counted _).trans quiet).sameHeap
  have initial : Creation s launched := by
    rcases init with ⟨-, -, rfl, -⟩ | ⟨-, rfl, -⟩
    · exact Creation.single (.initHashKey _ _ freshPowers)
    · exact Creation.nil s
  refine (cudaDeviceSynchronize_spec driver _).bind ?_
  rintro rc s₆ events₆ (⟨rfl, -, rfl, rfl⟩ | ⟨failure, -, rfl, rfl⟩)
  swap
  · rw [if_pos failure]
    refine (building₆.sameHeap (Quiet.failed ..).sameHeap).tablesDeleted driver key
      device out accounted fresh fun events bookkeeping => ?_
    exact filled.append (initial.append (bookkeeping.creation s))
  rw [if_neg (by simp)]
  have finished : ∀ f : HostState → HostState, modifyState f driver s₅.counted =
      ⟨(), f s₅.counted, []⟩ := fun f => rfl
  refine Ensures.bind_eq (finished _) (Ensures.pure ?_)
  have whole : (launched =
      launchEvents 0 [⟨s₀.device, .initHashKey roundKeys hPow2, 1, 1⟩] ∧
        s₅.lastError = s₀.lastError) ∨
      (¬ driver.Succeeds {.launch} ∧ launched = []) := by
    rcases init with ⟨-, -, all, same⟩ | ⟨refused, nothing, -⟩
    · exact Or.inl ⟨all, same⟩
    · exact Or.inr ⟨fun reliable => refused (by decide) (reliable .launch rfl _),
        nothing⟩
  refine building₆.created accounted nonnull fresh switched whole ?_ ?_
  · simp
  · exact filled.append (initial.append ((Creation.single .synchronize).append
      (Creation.nil s)))

/-- What key creation does with any arguments. -/
theorem lmcacheGpuAes128gcmKeyCreate_spec (driver : Driver) {s : HostState}
    (key : Vector Byte 16) (device : Int) {out : Ptr} (nonnull : out ≠ 0)
    {leaked : List Block} (accounted : Accounted s leaked) :
    (lmcacheGpuAes128gcmKeyCreate (some key) 16 device out).Ensures driver s
      fun rc s' events =>
        Created driver s s' key device out leaked rc events := by
  have admitted : ¬ (out = 0 ∨ 16 ≠ 16) := by
    rintro (null | length)
    · exact nonnull null
    · exact length rfl
  simp only [lmcacheGpuAes128gcmKeyCreate, if_neg admitted]
  refine (withDevice_spec driver s device _ fun s₀ heap₀ _ _ clean₀ _ => ?_).mono
    fun rc s'' events ⟨s', created, heap, _, clean⟩ =>
      Created.switchBack created heap clean
  refine (newKeyHandle_spec driver s₀).bind ?_
  rintro result s₁ events ⟨rfl, ⟨p, rfl, -, object, fresh, rfl⟩ |
    ⟨rfl, -, rfl⟩⟩
  · have fresh' : p ∉ s.handles := by
      rw [← heap₀.handles]
      exact fresh
    refine createTables_spec driver key device out accounted object fresh'
      ⟨heap₀.allocations, ?_, heap₀.outs, heap₀.invalidFrees⟩ clean₀
    exact congrArg (AList.insert p {}) heap₀.handles
  · refine Ensures.pure ⟨.failed (by simp) heap₀.handles heap₀.outs,
      Creation.nil s, [], ?_, fun _ => rfl⟩
    exact accounted.sameHeap (heap₀.trans (Quiet.counted s₀).sameHeap)

/-- A creation that succeeds on a reliable driver has put a new object behind
the caller's variable and has enqueued all steps that fill its tables. -/
theorem Created.of_ok {driver : Driver} {s s' : HostState}
    {key : Vector Byte 16} {device : Int} {out : Ptr} {leaked : List Block}
    {rc : ReturnCode} {events : List Event}
    (created : Created driver s s' key device out leaked rc events)
    (ok : rc = .ok)
    (reliable : driver.Succeeds {.getDevice, .setDevice, .launch}) :
    ∃ roundKeys hPow2,
      s'.handles.lookup (s'.outs out) = some
        { device := device, dRoundKeys := roundKeys, dHPow2 := hPow2 } ∧
      events = [.memcpyToSymbol device HOST_SBOX, .malloc roundKeys,
        .malloc hPow2, .memcpy roundKeys (expandAes128Key key)] ++
          launchEvents 0 [⟨device, .initHashKey roundKeys hPow2, 1, 1⟩] ++
          [.synchronize] := by
  cases created.result with
  | created p roundKeys hPow2 current launched _ _ handles outs _ accepted
      switched _ trace =>
      obtain rfl : current = device := by
        refine switched ?_
        rintro kind (rfl | rfl)
        · exact reliable .getDevice (Or.inl rfl)
        · exact reliable .setDevice (Or.inr (Or.inl rfl))
      have launch : driver.Succeeds {.launch} := fun kind member =>
        reliable kind (Or.inr (Or.inr member))
      refine ⟨roundKeys, hPow2, ?_, ?_⟩
      · rw [handles, outs, Function.update_self, AList.lookup_insert]
      · rw [trace, accepted launch]
  | failed bad => exact absurd ok bad

/-- Without a key, a place for the result or the right length nothing
happens. -/
theorem lmcacheGpuAes128gcmKeyCreate_refused {key : Option (Vector Byte 16)}
    {keyLen : Nat} {out : Ptr} (device : Int)
    (refused : key = none ∨ out = 0 ∨ keyLen ≠ 16) :
    lmcacheGpuAes128gcmKeyCreate key keyLen device out = pure .errArgument := by
  cases key with
  | none => rfl
  | some key =>
      have arguments : out = 0 ∨ keyLen ≠ 16 :=
        refused.resolve_left (by simp)
      simp only [lmcacheGpuAes128gcmKeyCreate, if_pos arguments]

end GpuKvSeal.Host
