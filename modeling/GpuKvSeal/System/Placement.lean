import GpuKvSeal.Host.Reservations
import GpuKvSeal.System.Lifetimes

/-!
# Work stays on its device

A process may drive several devices.  The guard of a call switches to the device of its
key, so the buffers of a key are allocated there and its kernels run there, and the
device of the caller is current again afterwards.  This holds of every run in which
the device can be read and switched, whatever else fails.
-/

namespace GpuKvSeal.System

open BigEndian (Byte)
open Device
open Host
open TracedState.Traced (Ensures)

/-! ## Work for one key -/

/-- The buffers of the object behind a key. -/
def buffersOf (s : HostState) (key : Ptr) : List Ptr :=
  handleBuffers ((s.handles.lookup key).getD {})

/-- Addresses that are allocated and not for the key. -/
structure Foreign (key : Ptr) (foreign : Set Ptr) (s : HostState) : Prop where
  live : ∀ p ∈ foreign, p ∈ s.livePtrs
  other : ∀ p ∈ buffersOf s key, p ∉ foreign

/-- Work for a key allocates on one device and launches there, and touches neither
foreign addresses nor other keys. -/
structure Local (device : Int) (key : Ptr) (foreign : Set Ptr) (s s' : HostState)
    (events : List Event) : Prop where
  allocations : ∀ a ∈ s'.allocations, a ∈ s.allocations ∨ a.device = device
  kept : ∀ a : Allocation, a.ptr ∈ foreign →
    (a ∈ s'.allocations ↔ a ∈ s.allocations)
  others : ∀ q ≠ key, s'.handles.lookup q = s.handles.lookup q
  launches : ∀ stream l, Event.launch stream l ∈ events →
    l.device = device ∧ ∀ p ∈ kernelBuffers l.kernel, p ∉ foreign

theorem Local.append {device : Int} {key : Ptr} {foreign : Set Ptr}
    {s s' s'' : HostState} {first second : List Event}
    (before : Local device key foreign s s' first)
    (after : Local device key foreign s' s'' second) :
    Local device key foreign s s'' (first ++ second) where
  allocations a member := by
    rcases after.allocations a member with old | new
    · exact before.allocations a old
    · exact Or.inr new
  kept a inside := (after.kept a inside).trans (before.kept a inside)
  others q other := (after.others q other).trans (before.others q other)
  launches stream l member := (List.mem_append.mp member).elim
    (before.launches stream l) (after.launches stream l)

/-- Neither the heap nor an object has changed. -/
structure Still (s s' : HostState) : Prop where
  allocations : s'.allocations = s.allocations
  handles : s'.handles = s.handles

theorem Still.refl (s : HostState) : Still s s := ⟨rfl, rfl⟩

theorem Still.of_heap {s s' : HostState} (same : SameHeap s s') : Still s s' :=
  ⟨same.allocations, same.handles⟩

theorem Still.local {device : Int} {key : Ptr} {foreign : Set Ptr} {s s' : HostState}
    {events : List Event} (still : Still s s')
    (launches : ∀ stream l, Event.launch stream l ∈ events →
      l.device = device ∧ ∀ p ∈ kernelBuffers l.kernel, p ∉ foreign) :
    Local device key foreign s s' events where
  allocations a member := Or.inl (still.allocations ▸ member)
  kept a _ := by rw [still.allocations]
  others q _ := by rw [still.handles]
  launches := launches

/-- Without a launch. -/
theorem Still.silent {device : Int} {key : Ptr} {foreign : Set Ptr} {s s' : HostState}
    (still : Still s s') : Local device key foreign s s' [] :=
  still.local fun _ _ member => absurd member List.not_mem_nil

theorem Still.foreign {key : Ptr} {foreign : Set Ptr} {s s' : HostState}
    (still : Still s s') (clear : Foreign key foreign s) : Foreign key foreign s' where
  live p member := by
    rw [livePtrs_congr still.allocations]
    exact clear.live p member
  other := by
    rw [buffersOf, still.handles]
    exact clear.other

/-- A computation works for a key on the current device.  The addresses in its result
are not foreign. -/
def Confined (key : Ptr) (foreign : Set Ptr) {α : Type} (names : α → List Ptr)
    (program : Cuda α) : Prop :=
  ∀ driver s, Foreign key foreign s → program.Ensures driver s fun value s' events =>
    s'.device = s.device ∧ Foreign key foreign s' ∧
      (∀ p ∈ names value, p ∉ foreign) ∧ Local s.device key foreign s s' events

/-- Results without addresses. -/
def nameless {α : Type} : α → List Ptr := fun _ => []

/-- The address of a successful allocation. -/
def acquired : Except CudaError Ptr → List Ptr
  | .ok p => [p]
  | .error _ => []

namespace Confined

variable {key : Ptr} {foreign : Set Ptr} {α β : Type}

theorem pure {names : α → List Ptr} {value : α}
    (known : ∀ p ∈ names value, p ∉ foreign) :
    Confined key foreign names (Pure.pure value) := fun _ s clear =>
  ⟨rfl, clear, known, (Still.refl s).silent⟩

/-- A result without addresses. -/
theorem done (value : α) : Confined key foreign nameless (Pure.pure value) :=
  .pure (List.forall_mem_nil _)

theorem bind {names : α → List Ptr} {names' : β → List Ptr} {first : Cuda α}
    {second : α → Cuda β} (before : Confined key foreign names first)
    (after : ∀ value, (∀ p ∈ names value, p ∉ foreign) →
      Confined key foreign names' (second value)) :
    Confined key foreign names' (first >>= second) := by
  intro driver s clear
  refine (before driver s clear).bind ?_
  rintro value s' events ⟨device, clear', known, work⟩
  refine (after value known driver s' clear').mono ?_
  rintro result s'' events' ⟨device', clear'', known', work'⟩
  rw [device] at work' device'
  exact ⟨device', clear'', known', work.append work'⟩

theorem ite {names : α → List Ptr} {test : Prop} [Decidable test] {yes no : Cuda α}
    (whenTrue : Confined key foreign names yes)
    (whenFalse : Confined key foreign names no) :
    Confined key foreign names (if test then yes else no) := by
  split
  · exact whenTrue
  · exact whenFalse

/-- A call that changes no more than the counter and the last error, and launches
nothing. -/
theorem quiet {program : Cuda α} (calm : ∀ driver s, program.Ensures driver s
      fun _ s' events => Quiet s s' ∧ ∀ stream l, Event.launch stream l ∉ events) :
    Confined key foreign nameless program := by
  intro driver s clear
  refine (calm driver s).mono fun _ s' events ⟨same, launches⟩ => ?_
  have still := Still.of_heap same.sameHeap
  exact ⟨same.device, still.foreign clear, List.forall_mem_nil _,
    still.local fun stream l member => absurd member (launches stream l)⟩

theorem cudaPeekAtLastError : Confined key foreign nameless cudaPeekAtLastError :=
  quiet fun _ s => ⟨Quiet.refl s, fun _ _ => nofun⟩

theorem cudaMemcpyToSymbol (table : Vector Byte 256) :
    Confined key foreign nameless (cudaMemcpyToSymbol table) := by
  refine quiet fun driver s => (cudaMemcpyToSymbol_spec driver s table).mono ?_
  rintro rc s' events (⟨-, -, rfl, rfl⟩ | ⟨-, -, rfl, rfl⟩)
  · exact ⟨Quiet.counted s, by simp⟩
  · exact ⟨Quiet.failed s _ _, by simp⟩

theorem cudaMemcpy (dst : Ptr) (bytes : Vector Byte 176) :
    Confined key foreign nameless (cudaMemcpy dst bytes) := by
  refine quiet fun driver s => (cudaMemcpy_spec driver s dst bytes).mono ?_
  rintro rc s' events (⟨-, -, rfl, rfl⟩ | ⟨-, -, rfl, rfl⟩)
  · exact ⟨Quiet.counted s, by simp⟩
  · exact ⟨Quiet.failed s _ _, by simp⟩

theorem cudaDeviceSynchronize : Confined key foreign nameless cudaDeviceSynchronize := by
  refine quiet fun driver s => (cudaDeviceSynchronize_spec driver s).mono ?_
  rintro rc s' events (⟨-, -, rfl, rfl⟩ | ⟨-, -, rfl, rfl⟩)
  · exact ⟨Quiet.counted s, by simp⟩
  · exact ⟨Quiet.failed s _ _, by simp⟩

theorem storeKey (out p : Ptr) : Confined key foreign nameless
    (modifyState fun s => { s with outs := Function.update s.outs out p }) := by
  intro driver s clear
  exact ⟨rfl, ⟨clear.live, clear.other⟩, List.forall_mem_nil _,
    fun a member => Or.inl member, fun _ _ => Iff.rfl, fun _ _ => rfl, fun _ _ => nofun⟩

theorem launchKernel {kernel : Kernel} (known : ∀ p ∈ kernelBuffers kernel, p ∉ foreign)
    (grid : Int) (threads : Nat) (stream : Ptr) :
    Confined key foreign nameless (launchKernel kernel grid threads stream) := by
  intro driver s clear
  refine (launchKernel_spec driver s kernel grid threads stream).mono ?_
  rintro - s' events ⟨same, result⟩
  have still := Still.of_heap same.sameHeap
  refine ⟨same.device, still.foreign clear, List.forall_mem_nil _, still.local ?_⟩
  rcases result with ⟨-, -, rfl, -⟩ | ⟨-, rfl, -⟩
  · intro stream' l member
    cases List.mem_singleton.mp member
    exact ⟨rfl, known⟩
  · exact fun _ _ => nofun

theorem readHandle : Confined key foreign handleBuffers (readHandle key) := fun _ s clear =>
  ⟨rfl, clear, clear.other, (Still.refl s).silent⟩

/-- A new address is not foreign. -/
theorem cudaMalloc (bytes : Nat) :
    Confined key foreign acquired (cudaMalloc bytes) := by
  intro driver s clear
  refine (cudaMalloc_spec driver s bytes).mono ?_
  rintro _ s' events (⟨p, rfl, -, -, fresh, rfl, rfl⟩ | ⟨rc, rfl, -, -, rfl, rfl⟩)
  · have new : p ∉ foreign := fun inside => fresh (clear.live p inside)
    refine ⟨rfl, ⟨fun q inside => List.mem_cons_of_mem _ (clear.live q inside),
      clear.other⟩, List.forall_mem_singleton.mpr new, ?_⟩
    refine ⟨fun a member => ?_, fun a inside => ?_, fun _ _ => rfl, fun _ _ => by simp⟩
    · rcases List.mem_cons.mp member with rfl | old
      · exact Or.inr rfl
      · exact Or.inl old
    · refine List.mem_cons.trans (or_iff_right ?_)
      rintro rfl
      exact new inside
  · have still := Still.of_heap (Quiet.failed s .malloc rc).sameHeap
    exact ⟨rfl, still.foreign clear, List.forall_mem_nil _, still.silent⟩

theorem cudaFree {p : Ptr} (known : p ∉ foreign) :
    Confined key foreign nameless (cudaFree p) := by
  intro driver s clear
  have nothing : ∀ {s' : HostState}, s'.device = s.device → Still s s' →
      s'.device = s.device ∧ Foreign key foreign s' ∧
        (∀ q ∈ ([] : List Ptr), q ∉ foreign) ∧ Local s.device key foreign s s' [] :=
    fun device still => ⟨device, still.foreign clear, List.forall_mem_nil _,
      still.silent⟩
  by_cases live : p ∈ s.livePtrs
  · refine (cudaFree_spec driver s live).mono ?_
    rintro rc s' events (⟨-, -, rfl, rfl⟩ | ⟨-, -, rfl, rfl⟩)
    · have others : ∀ {q : Ptr}, q ∈ foreign → q ≠ p := fun inside same =>
        known (same ▸ inside)
      refine ⟨rfl, ⟨fun q inside => ?_, clear.other⟩, List.forall_mem_nil _,
        fun a member => Or.inl (List.mem_of_mem_filter member), fun a inside => ?_,
        fun _ _ => rfl, fun _ _ => by simp⟩
      · obtain ⟨a, listed, rfl⟩ := List.mem_map.mp (clear.live q inside)
        exact List.mem_map.mpr ⟨a, List.mem_filter.mpr
          ⟨listed, by simpa using others inside⟩, rfl⟩
      · refine List.mem_filter.trans (and_iff_left ?_)
        simpa using others inside
    · exact nothing rfl ⟨rfl, rfl⟩
  · refine (call_spec driver s .free).bind ?_
    rintro rc s' events ⟨rfl, ⟨rfl, -, rfl⟩ | ⟨failure, -, rfl⟩⟩
    · have refused : p ∉ s.counted.livePtrs := live
      rw [if_pos rfl]
      exact Ensures.of_eq (if_neg refused) (nothing rfl ⟨rfl, rfl⟩)
    · rw [if_neg failure]
      exact nothing rfl ⟨rfl, rfl⟩

/-- The object of the key is given addresses that are not foreign. -/
theorem modifyHandle (f : KeyHandle → KeyHandle)
    (known : ∀ h, ∀ p ∈ handleBuffers (f h), p ∈ handleBuffers h ∨ p ∉ foreign) :
    Confined key foreign nameless (modifyHandle key f) := by
  intro driver s clear
  refine ⟨rfl, ⟨clear.live, fun p member => ?_⟩, List.forall_mem_nil _,
    fun a member => Or.inl member, fun _ _ => Iff.rfl, fun q other => ?_, fun _ _ => nofun⟩
  · have found : (s.handles.insert key (f ((s.handles.lookup key).getD {}))).lookup key =
        some (f ((s.handles.lookup key).getD {})) := AList.lookup_insert _
    have inside : p ∈ handleBuffers (f ((s.handles.lookup key).getD {})) := by
      have same : p ∈ handleBuffers (((s.handles.insert key
        (f ((s.handles.lookup key).getD {}))).lookup key).getD {}) := member
      rwa [found] at same
    exact (known _ p inside).elim (clear.other p) id
  · exact AList.lookup_insert_ne other

theorem freeUnlessNull {p : Ptr} (known : p ∉ foreign) :
    Confined key foreign nameless (freeUnlessNull p) :=
  .ite ((cudaFree known).bind fun _ _ => .done _) (.done _)

theorem freeNodes {h : KeyHandle} (known : ∀ p ∈ handleBuffers h, p ∉ foreign) :
    Confined key foreign nameless (freeNodes h) :=
  (freeUnlessNull (known _ (by simp [handleBuffers]))).bind fun _ _ =>
    freeUnlessNull (known _ (by simp [handleBuffers]))

/-- The workspace of the key grows with new buffers, and only its own are released. -/
theorem ensureWorkspace (plaintextLen : Nat) :
    Confined key foreign nameless (ensureWorkspace key plaintextLen) := by
  refine readHandle.bind fun h known => .ite (.done _) ?_
  refine (cudaMalloc _).bind fun first fresh => ?_
  cases first with
  | error rc => exact .done _
  | ok a =>
      refine (cudaMalloc _).bind fun second fresh' => ?_
      have newA := List.forall_mem_singleton.mp fresh
      cases second with
      | error rc => exact (cudaFree newA).bind fun _ _ => .done _
      | ok b =>
          have newB := List.forall_mem_singleton.mp fresh'
          refine (freeNodes known).bind fun _ _ => (modifyHandle _ ?_).bind fun _ _ => .done _
          intro g p member
          simp only [handleBuffers, List.mem_cons, List.not_mem_nil, or_false] at member ⊢
          rcases member with rfl | rfl | rfl | rfl
          · exact Or.inl (Or.inl rfl)
          · exact Or.inl (Or.inr (Or.inl rfl))
          · exact Or.inr newA
          · exact Or.inr newB

theorem reduceLoop {hPow2 : Ptr} (table : hPow2 ∉ foreign) (stream : Ptr) (count : Nat) :
    ∀ input output, input ∉ foreign → output ∉ foreign → 0 ∉ foreign →
      Confined key foreign (fun result => [result.2])
        (reduceLoop hPow2 stream input output count) := by
  induction count using Nat.strongRecOn with
  | ind count ih =>
      intro input output known known' nonnull
      rw [Host.reduceLoop]
      by_cases more : count > 1
      · rw [if_pos more]
        have buffers : ∀ p ∈ kernelBuffers (.ghashCombine input output count hPow2),
            p ∉ foreign := by
          simpa [kernelBuffers] using ⟨known, known', table⟩
        refine (launchKernel buffers _ _ _).bind fun _ _ =>
          cudaPeekAtLastError.bind fun _ _ => .ite (.pure ?_) ?_
        · exact List.forall_mem_singleton.mpr nonnull
        · exact ih _ (by omega) output input known' known nonnull
      · rw [if_neg more]
        exact .pure (List.forall_mem_singleton.mpr known)

theorem launchCtr (src dst : Ptr) (len : Nat) (iv : Ptr) {roundKeys : Ptr}
    (known : roundKeys ∉ foreign) (authOk : Option Ptr) (stream : Ptr) :
    Confined key foreign nameless (launchCtr src dst len iv roundKeys authOk stream) := by
  have buffers : ∀ p ∈ kernelBuffers (.ctrCrypt src dst len iv roundKeys authOk),
      p ∉ foreign := by
    simpa [kernelBuffers] using known
  exact .ite (launchKernel buffers _ _ _) (.done _)

variable (nonnull : 0 ∉ foreign)

include nonnull

theorem deleteHandle : Confined key foreign nameless (deleteHandle key) := by
  intro driver s clear
  refine ⟨rfl, ⟨clear.live, fun p member => ?_⟩, List.forall_mem_nil _,
    fun a member => Or.inl member, fun _ _ => Iff.rfl, fun q other => ?_, fun _ _ => nofun⟩
  · have gone : (s.handles.erase key).lookup key = none := AList.lookup_erase _ _
    have same : p ∈ handleBuffers (((s.handles.erase key).lookup key).getD {}) := member
    rw [gone] at same
    have null : p = 0 := by simpa [handleBuffers] using same
    exact null ▸ nonnull
  · exact AList.lookup_erase_ne other

theorem enqueueGhash (ciphertext : Ptr) (ciphertextLen : Nat) (stream : Ptr) :
    Confined key foreign (fun result => [result.2])
      (enqueueGhash key ciphertext ciphertextLen stream) := by
  have null : ∀ p ∈ [(0 : Ptr)], p ∉ foreign := List.forall_mem_singleton.mpr nonnull
  refine (ensureWorkspace _).bind fun _ _ => .ite (.pure null) ?_
  refine readHandle.bind fun h known => ?_
  have table : h.dHPow2 ∉ foreign := known _ (by simp [handleBuffers])
  have nodesA : h.dNodesA ∉ foreign := known _ (by simp [handleBuffers])
  have nodesB : h.dNodesB ∉ foreign := known _ (by simp [handleBuffers])
  have buffers : ∀ p ∈ kernelBuffers
      (.ghashSegment ciphertext ciphertextLen h.dHPow2 h.dNodesA), p ∉ foreign := by
    simpa [kernelBuffers] using ⟨table, nodesA⟩
  exact (launchKernel buffers _ _ _).bind fun _ _ => cudaPeekAtLastError.bind fun _ _ =>
    .ite (.pure null) (reduceLoop table _ _ _ _ nodesA nodesB nonnull)

theorem enqueueSeal (input : Ptr) (plaintextLen : Nat) (out : Ptr) (iv : Vector Byte 12)
    (stream : Ptr) :
    Confined key foreign nameless (enqueueSeal key input plaintextLen out iv stream) := by
  refine readHandle.bind fun h known => ?_
  have keys : h.dRoundKeys ∉ foreign := known _ (by simp [handleBuffers])
  refine (launchKernel (List.forall_mem_nil _) _ _ _).bind fun _ _ => ?_
  refine (launchCtr _ _ _ _ keys _ _).bind fun _ _ => ?_
  refine (enqueueGhash nonnull _ _ _).bind ?_
  rintro ⟨grc, root⟩ node
  refine .ite (.done _) ?_
  have buffers : ∀ p ∈ kernelBuffers (.finalizeTag out plaintextLen h.dRoundKeys root),
      p ∉ foreign := by
    simpa [kernelBuffers] using ⟨keys, node root (List.mem_singleton_self _)⟩
  exact (launchKernel buffers _ _ _).bind fun _ _ =>
    cudaPeekAtLastError.bind fun _ _ => .done _

theorem enqueueOpen (frame plain : Ptr) (plaintextLen : Nat) (authOk stream : Ptr) :
    Confined key foreign nameless
      (enqueueOpen key frame plain plaintextLen authOk stream) := by
  refine readHandle.bind fun h known => ?_
  have keys : h.dRoundKeys ∉ foreign := known _ (by simp [handleBuffers])
  refine (enqueueGhash nonnull _ _ _).bind ?_
  rintro ⟨grc, root⟩ node
  refine .ite (.done _) ?_
  have buffers : ∀ p ∈ kernelBuffers
      (.verifyTag frame plaintextLen h.dRoundKeys root authOk), p ∉ foreign := by
    simpa [kernelBuffers] using ⟨keys, node root (List.mem_singleton_self _)⟩
  exact (launchKernel buffers _ _ _).bind fun _ _ =>
    (launchCtr _ _ _ _ keys _ _).bind fun _ _ =>
      cudaPeekAtLastError.bind fun _ _ => .done _

theorem createTables (secret : Vector Byte 16) (device : Int) (out : Ptr) :
    Confined key foreign nameless (createTables key secret device out) := by
  have delete : ∀ rc : ReturnCode, Confined key foreign nameless
      (do Host.deleteHandle key; Pure.pure rc : Cuda ReturnCode) := fun rc =>
    (deleteHandle nonnull).bind fun _ _ => .done rc
  refine (modifyHandle (fun fields => { fields with device := device })
    fun h p member => Or.inl member).bind fun _ _ => ?_
  refine (cudaMemcpyToSymbol _).bind fun _ _ => .ite (delete _) ?_
  refine (cudaMalloc _).bind fun first fresh => ?_
  cases first with
  | error rc => exact delete _
  | ok roundKeys =>
      have keys := List.forall_mem_singleton.mp fresh
      refine (modifyHandle _ ?_).bind fun _ _ => ?_
      · intro h p member
        simp only [handleBuffers, List.mem_cons, List.not_mem_nil, or_false] at member ⊢
        rcases member with rfl | other
        · exact Or.inr keys
        · exact Or.inl (Or.inr other)
      refine (cudaMalloc _).bind fun second fresh' => ?_
      cases second with
      | error rc => exact (cudaFree keys).bind fun _ _ => delete _
      | ok hPow2 =>
          have table := List.forall_mem_singleton.mp fresh'
          refine (modifyHandle _ ?_).bind fun _ _ => ?_
          · intro h p member
            simp only [handleBuffers, List.mem_cons, List.not_mem_nil, or_false] at member ⊢
            rcases member with old | rfl | other
            · exact Or.inl (Or.inl old)
            · exact Or.inr table
            · exact Or.inl (Or.inr (Or.inr other))
          have undo : Confined key foreign nameless (do
              let _ ← Host.cudaFree hPow2
              let _ ← Host.cudaFree roundKeys
              Host.deleteHandle key
              Pure.pure .errCuda : Cuda ReturnCode) :=
            (cudaFree table).bind fun _ _ => (cudaFree keys).bind fun _ _ => delete _
          have buffers : ∀ p ∈ kernelBuffers (.initHashKey roundKeys hPow2),
              p ∉ foreign := by
            simpa [kernelBuffers] using ⟨keys, table⟩
          exact (cudaMemcpy _ _).bind fun _ _ => .ite undo
            ((launchKernel buffers _ _ _).bind fun _ _ =>
              cudaDeviceSynchronize.bind fun _ _ => .ite undo
                ((storeKey _ _).bind fun _ _ => .done _))

end Confined

/-! ## Calls -/

/-- What work for a key on a device looks like from outside: the device of the caller
is current again, and addresses that were foreign are. -/
structure Placed (device : Int) (key : Ptr) (s s' : HostState) (events : List Event) :
    Prop where
  restored : s'.device = s.device
  work : ∀ foreign, 0 ∉ foreign → Foreign key foreign s →
    Foreign key foreign s' ∧ Local device key foreign s s' events

theorem Confined.placed {driver : Driver} {s : HostState} {key : Ptr} {α : Type}
    {names : α → List Ptr} {body : Cuda α}
    (inside : ∀ foreign, 0 ∉ foreign → Foreign key foreign s →
      Confined key foreign names body) :
    body.Ensures driver s fun _ s' events => Placed s.device key s s' events := by
  constructor
  · have nothing : Foreign key ∅ s := ⟨fun _ => nofun, fun _ _ => id⟩
    exact (inside ∅ id nothing driver s nothing).1
  · intro foreign nonnull clear
    obtain ⟨-, clear', -, work⟩ := inside foreign nonnull clear driver s clear
    exact ⟨clear', work⟩

theorem Placed.within {device : Int} {key : Ptr} {s s₁ s₂ s' : HostState}
    {events : List Event} (placed : Placed device key s₁ s₂ events)
    (before : Still s s₁) (after : Still s₂ s') (restored : s'.device = s.device) :
    Placed device key s s' events where
  restored := restored
  work foreign nonnull clear := by
    obtain ⟨clear', work⟩ := placed.work foreign nonnull (before.foreign clear)
    refine ⟨after.foreign clear', ?_⟩
    have entered : Local device key foreign s s₁ [] := before.silent
    have left : Local device key foreign s₂ s' [] := after.silent
    simpa using (entered.append work).append left

/-- The guard of a call.  Which key the body works for may depend on its result. -/
theorem withDevice_placed {driver : Driver}
    (reliable : driver.Succeeds {.getDevice, .setDevice}) {α : Type} {body : Cuda α}
    {s : HostState} (target : Int) (keys : Set Ptr)
    (inside : ∀ s₁, Still s s₁ → s₁.device = target →
      body.Ensures driver s₁ fun _ s₂ events =>
        ∃ key ∈ keys, Placed target key s₁ s₂ events) :
    (withDevice target body).Ensures driver s fun _ s' events =>
      ∃ key ∈ keys, Placed target key s s' events := by
  have switch : driver.Succeeds {.setDevice} := fun kind member =>
    reliable kind (Or.inr member)
  refine (cudaGetDevice_spec driver s).bind ?_
  rintro old s₁ events ⟨rfl, ⟨-, rfl, rfl⟩ | ⟨rc, failure, same, -⟩⟩
  swap
  · exact absurd (same.symm.trans (reliable .getDevice (Or.inl rfl) _)) failure
  refine (switchWhen_spec driver s.counted (s.device ≠ target) target).bind ?_
  rintro - s₂ events ⟨rfl, heap, -, -, switched⟩
  have there : s₂.device = target := by
    rw [(switched switch).2]
    by_cases same : s.device = target
    · rw [if_neg (by simpa using same)]
      exact same
    · rw [if_pos (by simpa using same)]
  have before := Still.of_heap ((Quiet.counted s).sameHeap.trans heap)
  refine (inside s₂ before there).bind ?_
  rintro value s₃ events ⟨key, member, placed⟩
  refine (switchWhen_spec driver s₃ (s.device ≠ target) s.device).bind ?_
  rintro - s₄ events' ⟨rfl, heap', -, -, switched'⟩
  refine Ensures.pure ⟨key, member, ?_⟩
  have restored : s₄.device = s.device := by
    rw [(switched' switch).2]
    by_cases same : s.device = target
    · rw [if_neg (by simpa using same), placed.restored, there, same]
    · rw [if_pos (by simpa using same)]
  simpa using placed.within before (Still.of_heap heap') restored

/-- The body of a creation works for a new key. -/
theorem newKeyHandle_placed (driver : Driver) {s : HostState} {device : Int}
    (there : s.device = device) (secret : Vector Byte 16) (out : Ptr)
    {body : Option Ptr → Cuda ReturnCode}
    (refused : body none = pure .errAlloc)
    (accepted : ∀ p, body (some p) = createTables p secret device out) :
    (newKeyHandle >>= body).Ensures driver s fun _ s' events =>
      ∃ p ∈ {p | p ∉ s.handles}, Placed device p s s' events := by
  subst there
  refine (newKeyHandle_spec driver s).bind ?_
  rintro result s₁ events ⟨rfl, ⟨p, rfl, -, -, unused, rfl⟩ | ⟨rfl, -, rfl⟩⟩
  · have clear : ∀ foreign, 0 ∉ foreign → Foreign p foreign s → Foreign p foreign
        { s.counted with handles := s.handles.insert p {} } := by
      intro foreign nonnull clear
      refine ⟨clear.live, fun q member => ?_⟩
      have empty : q ∈ handleBuffers {} := by
        have same : q ∈ handleBuffers (((s.handles.insert p {}).lookup p).getD {}) :=
          member
        rwa [AList.lookup_insert] at same
      have null : q = 0 := by simpa [handleBuffers] using empty
      exact null ▸ nonnull
    have placed : (createTables p secret s.device out).Ensures driver
        { s.counted with handles := s.handles.insert p {} }
        fun _ s' events => Placed s.device p _ s' events :=
      Confined.placed fun _ nonnull _ => Confined.createTables nonnull secret s.device out
    rw [accepted]
    refine placed.mono fun _ s' events' done => ⟨p, unused, done.restored, ?_⟩
    intro foreign nonnull clear'
    obtain ⟨clear'', work⟩ := done.work foreign nonnull (clear foreign nonnull clear')
    have inserted : Local s.device p foreign s
        { s.counted with handles := s.handles.insert p {} } [] :=
      ⟨fun a member => Or.inl member, fun _ _ => Iff.rfl,
        fun q other => AList.lookup_insert_ne other,
        fun _ _ member => absurd member List.not_mem_nil⟩
    exact ⟨clear'', inserted.append work⟩
  · obtain ⟨p, unused⟩ := Infinite.exists_notMem_finset s.handles.keys.toFinset
    rw [refused]
    refine Ensures.pure ⟨p, ?_, rfl, fun foreign _ clear => ?_⟩
    · exact fun member => unused (List.mem_toFinset.mpr (AList.mem_keys.mp member))
    · have still := Still.of_heap (Quiet.counted s).sameHeap
      exact ⟨still.foreign clear, still.silent⟩

/-- Every call does nothing, or works for a live key on the device of the key, or for a
new one on the device that it is created for. -/
theorem call_placed {driver : Driver} (reliable : driver.Succeeds {.getDevice, .setDevice})
    (s : HostState) (c : ApiCall) (allowed : c.Allowed s) :
    c.perform.Ensures driver s fun _ s' events => (s' = s ∧ events = []) ∨
      (∃ h, s.handles.lookup c.handle = some h ∧ Placed h.device c.handle s s' events) ∨
      ∃ secret device out p, c = .keyCreate (some secret) 16 device out ∧ out ≠ 0 ∧
        p ∉ s.handles ∧ Placed device p s s' events := by
  have found : ∀ {key : Ptr}, c.handle = key → key ≠ 0 →
      ∃ h, s.handles.lookup key = some h := by
    rintro key rfl nonnull
    exact Option.isSome_iff_exists.mp
      (AList.lookup_isSome.mpr (allowed.resolve_left nonnull))
  -- The body of an operation or a destruction, behind the guard of its key.
  have guarded : ∀ {key : Ptr} {h : KeyHandle} {body : KeyHandle → Cuda ReturnCode},
      s.handles.lookup key = some h →
      (∀ foreign, 0 ∉ foreign → ∀ g, (∀ p ∈ handleBuffers g, p ∉ foreign) →
        Confined key foreign nameless (body g)) →
      (readHandle key >>= fun g => withDevice g.device (body g)).Ensures driver s
        fun _ s' events => Placed h.device key s s' events := by
    intro key h body live inside
    refine Ensures.bind_eq (readHandle_live driver live) ?_
    have placed : (withDevice h.device (body h)).Ensures driver s fun _ s' events =>
        ∃ p ∈ ({key} : Set Ptr), Placed h.device p s s' events := by
      refine withDevice_placed reliable h.device {key} fun s₁ still there => ?_
      have confined : ∀ foreign, 0 ∉ foreign → Foreign key foreign s₁ →
          Confined key foreign nameless (body h) := by
        intro foreign nonnull clear
        refine inside foreign nonnull h ?_
        have own := clear.other
        rwa [buffersOf, still.handles, live] at own
      exact (Confined.placed confined).mono fun _ _ _ done =>
        ⟨key, rfl, there ▸ done⟩
    refine placed.mono ?_
    rintro _ s' events ⟨p, rfl, done⟩
    exact done
  have refused : ∀ {rc : ReturnCode}, (pure rc : Cuda ReturnCode).Ensures driver s
      fun _ s' events => (s' = s ∧ events = []) ∨
        (∃ h, s.handles.lookup c.handle = some h ∧ Placed h.device c.handle s s' events) ∨
        ∃ secret device out p, c = .keyCreate (some secret) 16 device out ∧ out ≠ 0 ∧
          p ∉ s.handles ∧ Placed device p s s' events :=
    Ensures.pure (Or.inl ⟨rfl, rfl⟩)
  cases c with
  | keyCreate key keyLen device out =>
      cases key with
      | none => exact refused
      | some secret =>
          refine Ensures.ite (fun _ => refused) fun given => ?_
          obtain ⟨nonnull, rfl⟩ : out ≠ 0 ∧ keyLen = 16 := by simpa using given
          refine (withDevice_placed reliable device {p | p ∉ s.handles}
            fun s₁ still there => ?_).mono ?_
          · rw [← still.handles]
            exact newKeyHandle_placed driver there secret out rfl fun _ => rfl
          · rintro _ s' events ⟨p, unused, placed⟩
            exact Or.inr (Or.inr ⟨secret, device, out, p, rfl, nonnull, unused, placed⟩)
  | keyDestroy key =>
      refine Ensures.ite (fun _ => refused) fun nonnull => ?_
      obtain ⟨h, live⟩ := found rfl nonnull
      refine (guarded live fun foreign null g known => ?_).mono fun _ _ _ placed =>
        Or.inr (Or.inl ⟨h, live, placed⟩)
      exact (Confined.freeNodes known).bind fun _ _ =>
        (Confined.freeUnlessNull (known _ (by simp [handleBuffers]))).bind fun _ _ =>
        (Confined.freeUnlessNull (known _ (by simp [handleBuffers]))).bind fun _ _ =>
        (Confined.deleteHandle null).bind fun _ _ => .done _
  | reserve key maxPlaintextLen =>
      refine Ensures.ite (fun _ => refused) fun nonnull => ?_
      obtain ⟨h, live⟩ := found rfl nonnull
      exact (guarded live fun foreign null g known => .ensureWorkspace _).mono
        fun _ _ _ placed => Or.inr (Or.inl ⟨h, live, placed⟩)
  | sealAsync key src plaintextLen dst dstCapacity iv stream =>
      cases iv with
      | none => exact refused
      | some iv =>
          refine Ensures.ite (fun _ => refused) fun given => ?_
          refine Ensures.ite (fun _ => refused) fun _ => ?_
          refine Ensures.ite (fun _ => refused) fun _ => ?_
          have nonnull : key ≠ 0 := fun null => given (Or.inl null)
          obtain ⟨h, live⟩ := found rfl nonnull
          refine (guarded live fun foreign null g known => ?_).mono fun _ _ _ placed =>
            Or.inr (Or.inl ⟨h, live, placed⟩)
          exact (Confined.ensureWorkspace _).bind fun _ _ => .ite (.done _)
            (.enqueueSeal null _ _ _ _ _)
  | openAsync key src frameLen dst plaintextLen authOk stream =>
      refine Ensures.ite (fun _ => refused) fun given => ?_
      refine Ensures.ite (fun _ => refused) fun _ => ?_
      have nonnull : key ≠ 0 := fun null => given (Or.inl null)
      obtain ⟨h, live⟩ := found rfl nonnull
      refine (guarded live fun foreign null g known => ?_).mono fun _ _ _ placed =>
        Or.inr (Or.inl ⟨h, live, placed⟩)
      exact (Confined.ensureWorkspace _).bind fun _ _ => .ite (.done _)
        (.enqueueOpen null _ _ _ _ _)

/-! ## Keys and their devices -/

/-- The buffers of every key are on the device of the key. -/
def Housed (s : HostState) : Prop :=
  ∀ key h, s.handles.lookup key = some h → ∀ a ∈ s.allocations,
    a.ptr ∈ handleBuffers h → a.device = h.device

theorem handleBuffers_owned {s : HostState} {leaked : List Block}
    (accounted : Accounted s leaked) {key : Ptr} {h : KeyHandle}
    (live : s.handles.lookup key = some h) {p : Ptr} (member : p ∈ handleBuffers h)
    (nonnull : p ≠ 0) : p ∈ h.buffers.map Prod.fst := by
  simp only [handleBuffers, List.mem_cons, List.not_mem_nil, or_false] at member
  rcases Nat.eq_zero_or_pos h.nodeCapacity with none | equipped
  · obtain ⟨nodesA, nodesB⟩ := accounted.empty key h live none
    rw [nodesA, nodesB, or_self, or_iff_left nonnull] at member
    rcases member with rfl | rfl
    · simp [KeyHandle.buffers, KeyHandle.tables]
    · simp [KeyHandle.buffers, KeyHandle.tables]
  · rw [KeyHandle.buffers, KeyHandle.tables, nodeBuffers_of_pos equipped]
    rcases member with rfl | rfl | rfl | rfl
    · simp
    · simp
    · simp
    · simp

/-- Different keys have different buffers. -/
theorem handleBuffers_apart {s : HostState} {leaked : List Block}
    (accounted : Accounted s leaked) {key other : Ptr} {h g : KeyHandle}
    (live : s.handles.lookup key = some h) (live' : s.handles.lookup other = some g)
    (different : other ≠ key) {p : Ptr} (nonnull : p ≠ 0) (member : p ∈ handleBuffers g) :
    p ∉ handleBuffers h := by
  intro member'
  have distinct := (accounted.split live).distinct
  rw [List.map_append, List.nodup_append] at distinct
  have kept : (s.handles.erase key).lookup other = some g :=
    (AList.lookup_erase_ne different).trans live'
  have among : g.buffers ⊆ s.ownedExcept key := fun block inside =>
    List.mem_flatMap.mpr ⟨⟨other, g⟩, AList.mem_lookup_iff.mp kept, inside⟩
  have listed : p ∈ (s.ownedExcept key ++ leaked).map Prod.fst :=
    List.map_subset _ (List.subset_append_of_subset_left _ among)
      (handleBuffers_owned accounted live' member nonnull)
  exact distinct.2.2 p (handleBuffers_owned accounted live member' nonnull) p listed rfl

/-- Everything that is allocated and not for a key. -/
def elsewhere (s : HostState) (key : Ptr) : Set Ptr :=
  {p | p ∈ s.livePtrs ∧ p ∉ buffersOf s key}

theorem elsewhere_foreign (s : HostState) (key : Ptr) :
    Foreign key (elsewhere s key) s :=
  ⟨fun _ member => member.1, fun _ own member => member.2 own⟩

theorem allocation_nonnull {s : HostState} {leaked : List Block}
    (accounted : Accounted s leaked) {p : Ptr} (live : p ∈ s.livePtrs) : p ≠ 0 := by
  obtain ⟨block, member, rfl⟩ := List.mem_map.mp (accounted.holds.live.mp live)
  exact accounted.holds.nonnull block member

/-- What is elsewhere is not at the null address. -/
theorem null_elsewhere {s : HostState} {leaked : List Block}
    (accounted : Accounted s leaked) (key : Ptr) : (0 : Ptr) ∉ elsewhere s key :=
  fun null => allocation_nonnull accounted null.1 rfl

section Step

variable {device : Int} {key : Ptr} {s s' : HostState} {events : List Event}
  {leaked leaked' : List Block}

/-- What a call has for a key is on the device that it works on. -/
theorem Placed.near (placed : Placed device key s s' events)
    (accounted : Accounted s leaked) (housed : Housed s)
    (belongs : ∀ h, s.handles.lookup key = some h → h.device = device)
    {a : Allocation} (member : a ∈ s'.allocations) (own : a.ptr ∉ elsewhere s key) :
    a.device = device := by
  obtain ⟨-, work⟩ := placed.work _ (null_elsewhere accounted key)
    (elsewhere_foreign s key)
  rcases work.allocations a member with old | new
  · have live : a.ptr ∈ s.livePtrs := List.mem_map_of_mem old
    have mine : a.ptr ∈ buffersOf s key := by
      by_contra other
      exact own ⟨live, other⟩
    cases found : s.handles.lookup key with
    | none =>
        rw [buffersOf, found] at mine
        have null : a.ptr = 0 := by simpa [handleBuffers] using mine
        exact absurd null (allocation_nonnull accounted live)
    | some h =>
        rw [buffersOf, found] at mine
        exact (housed key h found a old mine).trans (belongs h found)
  · exact new

/-- One call keeps the buffers of all keys on their devices. -/
theorem Placed.housed (placed : Placed device key s s' events)
    (accounted : Accounted s leaked) (accounted' : Accounted s' leaked')
    (housed : Housed s) (belongs : ∀ h, s.handles.lookup key = some h → h.device = device)
    (belongs' : ∀ h, s'.handles.lookup key = some h → h.device = device) :
    Housed s' := by
  intro other g found a member buffer
  obtain ⟨clear, work⟩ := placed.work _ (null_elsewhere accounted key)
    (elsewhere_foreign s key)
  by_cases same : other = key
  · subst same
    have own : a.ptr ∉ elsewhere s other := by
      apply clear.other
      rwa [buffersOf, found]
    rw [belongs' g found]
    exact placed.near accounted housed belongs member own
  · rw [work.others other same] at found
    have present : a.ptr ≠ 0 :=
      allocation_nonnull accounted' (List.mem_map_of_mem member)
    have live : a.ptr ∈ s.livePtrs := by
      apply (accounted.split found).live.mpr
      rw [List.map_append]
      exact List.mem_append_left _ (handleBuffers_owned accounted found buffer present)
    have apart : a.ptr ∉ buffersOf s key := by
      cases mine : s.handles.lookup key with
      | none =>
          rw [buffersOf, mine]
          simpa [handleBuffers] using present
      | some h =>
          rw [buffersOf, mine]
          exact handleBuffers_apart accounted mine found same present buffer
    exact housed other g found a ((work.kept a ⟨live, apart⟩).mp member) buffer

end Step

/-- A new key is on the device that it is created for. -/
theorem Created.device_of {driver : Driver} {s s' : HostState} {secret : Vector Byte 16}
    {device : Int} {out p : Ptr} {leaked : List Block} {rc : ReturnCode}
    {events : List Event}
    (created : Created driver s s' secret device out leaked rc events)
    (unused : p ∉ s.handles) {g : KeyHandle} (found : s'.handles.lookup p = some g) :
    g.device = device := by
  cases created.result with
  | created q roundKeys hPow2 current launched _ fresh handles =>
      rw [handles] at found
      by_cases same : p = q
      · rw [same, AList.lookup_insert] at found
        exact congrArg KeyHandle.device (Option.some.inj found).symm
      · rw [AList.lookup_insert_ne same] at found
        exact absurd (AList.lookup_isSome.mp (by rw [found]; rfl)) unused
  | failed bad handles =>
      rw [handles] at found
      exact absurd (AList.lookup_isSome.mp (by rw [found]; rfl)) unused

/-- A call that does something works for one key, on the device of that key. -/
theorem call_housed {driver : Driver} (reliable : driver.Succeeds {.getDevice, .setDevice})
    {s : HostState} {leaked : List Block} (accounted : Accounted s leaked) (c : ApiCall)
    (allowed : c.Allowed s) :
    c.perform.Ensures driver s fun _ s' events => (s' = s ∧ events = []) ∨
      ∃ device key, Placed device key s s' events ∧
        (∀ h, s.handles.lookup key = some h → h.device = device) ∧
        ∀ h, s'.handles.lookup key = some h → h.device = device := by
  rcases call_placed reliable s c allowed with unchanged | ⟨h, live, placed⟩ |
    ⟨secret, device, out, p, rfl, nonnull, unused, placed⟩
  · exact Or.inl unchanged
  · refine Or.inr ⟨h.device, c.handle, placed, fun g found => ?_, fun g found => ?_⟩
    · rw [live] at found
      exact congrArg KeyHandle.device (Option.some.inj found).symm
    · by_cases destroys : c = .keyDestroy c.handle
      · rw [destroys] at live found
        have destroyed := lmcacheGpuAes128gcmKeyDestroy_spec driver accounted live
        have gone := (congrArg (AList.lookup c.handle) destroyed.handles).trans
          (AList.lookup_erase _ _)
        exact absurd (found.symm.trans gone) (Option.some_ne_none g)
      · obtain ⟨h', found', extends_⟩ :=
          (ApiCall.perform_spec driver accounted c allowed).kept _ h live destroys
        obtain rfl := Option.some.inj (found.symm.trans found')
        exact extends_.device
  · refine Or.inr ⟨device, p, placed, fun g found => ?_, fun g found => ?_⟩
    · exact absurd (AList.lookup_isSome.mp (by rw [found]; rfl)) unused
    · have created := lmcacheGpuAes128gcmKeyCreate_spec driver secret device nonnull
        accounted
      exact Created.device_of created unused found

/-- No call moves a key to another device. -/
theorem call_keeps_device (driver : Driver) {s : HostState} {leaked : List Block}
    (accounted : Accounted s leaked) (c : ApiCall) (allowed : c.Allowed s) :
    c.perform.Ensures driver s fun _ s' _ => ∀ p h h', s.handles.lookup p = some h →
      s'.handles.lookup p = some h' → h'.device = h.device := by
  intro p h h' live found
  by_cases destroys : c = .keyDestroy p
  · subst destroys
    have destroyed := lmcacheGpuAes128gcmKeyDestroy_spec driver accounted live
    have gone := (congrArg (AList.lookup p) destroyed.handles).trans
      (AList.lookup_erase _ _)
    exact absurd (found.symm.trans gone) (Option.some_ne_none h')
  · obtain ⟨g, found', extends_⟩ :=
      (ApiCall.perform_spec driver accounted c allowed).kept p h live destroys
    obtain rfl := Option.some.inj (found.symm.trans found')
    exact extends_.device

/-- The handle that a creation stores. -/
theorem Created.stored_device {driver : Driver} {s s' : HostState}
    {secret : Vector Byte 16} {device : Int} {out : Ptr} {leaked : List Block}
    {rc : ReturnCode} {events : List Event}
    (created : Created driver s s' secret device out leaked rc events) (ok : rc = .ok) :
    ∃ h, s'.handles.lookup (s'.outs out) = some h ∧ h.device = device := by
  cases created.result with
  | created p roundKeys hPow2 current launched _ fresh handles outs =>
      have stored : s'.outs out = p := by rw [outs, Function.update_self]
      have found := (congrArg (AList.lookup p) handles).trans (AList.lookup_insert _)
      rw [stored]
      exact ⟨_, found, rfl⟩
  | failed bad => exact absurd ok bad

/-- A key is created on the device that is asked for. -/
theorem keyCreate_device (driver : Driver) {s : HostState} {leaked : List Block}
    (accounted : Accounted s leaked) (key : Option (Vector Byte 16)) (keyLen : Nat)
    (device : Int) (out : Ptr) :
    (lmcacheGpuAes128gcmKeyCreate key keyLen device out).Ensures driver s fun rc s' _ =>
      rc = .ok → ∃ h, s'.handles.lookup (s'.outs out) = some h ∧ h.device = device := by
  intro ok
  by_cases refused : key = none ∨ out = 0 ∨ keyLen ≠ 16
  · rw [lmcacheGpuAes128gcmKeyCreate_refused device refused] at ok
    cases ok
  · rw [not_or, not_or, Decidable.not_not] at refused
    obtain ⟨given, nonnull, rfl⟩ := refused
    obtain ⟨secret, rfl⟩ := Option.ne_none_iff_exists'.mp given
    exact Created.stored_device (lmcacheGpuAes128gcmKeyCreate_spec driver secret device
      nonnull accounted) ok

/-! ## Runs -/

theorem fresh_housed {s : HostState} (fresh : Fresh s) : Housed s := by
  intro key h found
  rw [fresh.handles] at found
  cases found

/-- In every run in which the device can be read and switched, the device of the caller
is current between calls and the buffers of every key are on the device of the key. -/
theorem run_housed {start s : HostState} {calls : List ApiCall} (fresh : Fresh start)
    (run : Run (·.Succeeds {.getDevice, .setDevice}) start calls s) :
    s.device = start.device ∧ Housed s := by
  induction run with
  | nil => exact ⟨rfl, fresh_housed fresh⟩
  | @call calls s before driver reliable c allowed ih =>
      obtain ⟨device, housed⟩ := ih
      obtain ⟨leaked, accounted⟩ := before.accounted ⟨[], fresh.accounted⟩
      obtain ⟨lost, accounted', -⟩ :=
        (ApiCall.perform_spec driver accounted c allowed).accounted
      rcases call_housed reliable accounted c allowed with ⟨unchanged, -⟩ |
        ⟨target, key, placed, belongs, belongs'⟩
      · rw [unchanged]
        exact ⟨device, housed⟩
      · exact ⟨placed.restored.trans device,
          placed.housed accounted accounted' housed belongs belongs'⟩

/-- In every run in which the device can be read and switched, whatever else fails:
after every call the device of the caller is current again, every key has the device
that it was created for and its buffers are there, and the threads that a call launches
run on the device of the buffers that they touch. -/
theorem devices_respected {start s : HostState} {calls : List ApiCall}
    (fresh : Fresh start) (run : Run (·.Succeeds {.getDevice, .setDevice}) start calls s)
    {driver : Driver} (reliable : driver.Succeeds {.getDevice, .setDevice}) (c : ApiCall)
    (allowed : c.Allowed s) :
    let o := c.perform driver s
    o.state.device = start.device ∧ Housed o.state ∧
      (∀ key keyLen device out, c = .keyCreate key keyLen device out → o.value = .ok →
        ∃ h, o.state.handles.lookup (o.state.outs out) = some h ∧ h.device = device) ∧
      (∀ p h h', s.handles.lookup p = some h → o.state.handles.lookup p = some h' →
        h'.device = h.device) ∧
      ∀ stream l, .launch stream l ∈ o.events → ∀ cell ∈ l.reads ∪ l.writes,
        ∀ a ∈ o.state.allocations, buffer cell = some a.ptr → a.device = l.device := by
  intro o
  obtain ⟨device, housed⟩ := run_housed fresh run
  obtain ⟨device', housed'⟩ := run_housed fresh (run.call reliable c allowed)
  obtain ⟨leaked, accounted⟩ := run.accounted ⟨[], fresh.accounted⟩
  refine ⟨device', housed', ?_, call_keeps_device driver accounted c allowed,
    fun stream l launched cell touched a member belongs => ?_⟩
  · rintro key keyLen device out rfl ok
    exact keyCreate_device driver accounted key keyLen device out ok
  rcases call_housed reliable accounted c allowed with ⟨-, none⟩ |
    ⟨target, key, placed, before, -⟩
  · rw [none] at launched
    cases launched
  · obtain ⟨-, work⟩ := placed.work _ (null_elsewhere accounted key)
      (elsewhere_foreign s key)
    obtain ⟨there, used⟩ := work.launches stream l launched
    rw [there]
    exact placed.near accounted housed before member
      (used _ (touched_buffer touched belongs))

/-- Keys on two devices; the seal of the caller on the first runs on the second. -/
theorem devices_respected_example :
    let onSecond : ApiCall := .keyCreate (some (Vector.replicate 16 0#8)) 16 1 16
    let s := (onSecond.perform .steady .oneKey).state
    let o := (ApiCall.sealAsync 2 16 16 64 45 (some (Vector.replicate 12 0#8)) 5).perform
      .steady s
    (∃ h, s.handles.lookup (s.outs 16) = some h ∧ h.device = 1) ∧
    o.state.device = 0 ∧ Housed o.state ∧ ∀ stream l, .launch stream l ∈ o.events →
      ∀ cell ∈ l.reads ∪ l.writes, ∀ a ∈ o.state.allocations,
        buffer cell = some a.ptr → a.device = l.device := by
  intro onSecond
  have steady : Driver.steady.Succeeds {.getDevice, .setDevice} :=
    Driver.steady_succeeds _
  have run : Run (·.Succeeds {.getDevice, .setDevice}) .blank [.createZero, onSecond]
      (onSecond.perform .steady .oneKey).state :=
    .call (HostState.oneKey_run steady) steady onSecond (Or.inl rfl)
  have ok : (onSecond.perform .steady .oneKey).value = .ok := by decide
  have first := devices_respected HostState.blank_fresh (HostState.oneKey_run steady)
    steady onSecond (Or.inl rfl)
  have second := devices_respected HostState.blank_fresh run steady
    (.sealAsync 2 16 16 64 45 (some (Vector.replicate 12 0#8)) 5) (Or.inr (by decide))
  exact ⟨first.2.2.1 _ 16 1 16 rfl ok, second.1, second.2.1, second.2.2.2.2⟩

end GpuKvSeal.System
