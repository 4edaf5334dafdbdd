import GpuKvSeal.Host.Heap
import GpuKvSeal.System.Interleaving

/-!
# Nothing in flight uses released memory

The library releases node buffers and tables while work on them may still be
queued.  Every launch is given buffers that are allocated when it is enqueued, and a
release waits for everything in flight.  So whatever a thread is about to touch, in
any interleaving and after any failures, has been allocated and not been released.
-/

namespace GpuKvSeal.System

open BigEndian (Byte)
open Device
open Host
open ThreadPool (Steps nextAccess nextAccess_within pendingAfter)
open TracedState.Traced (Ensures Emits)

/-! ## Buffers of the library -/

/-- The buffer of the library that a cell belongs to. -/
def buffer : Cell → Option Ptr
  | .byte _ | .flag _ | .sbox _ => none
  | .roundKeys p => some p
  | .hPow2 p _ => some p
  | .node p _ => some p

/-- The buffers of the library that a kernel is given. -/
def kernelBuffers : Kernel → List Ptr
  | .initHashKey roundKeys hPow2 => [roundKeys, hPow2]
  | .writeFrameHeader .. => []
  | .ctrCrypt _ _ _ _ roundKeys _ => [roundKeys]
  | .ghashSegment _ _ hPow2 nodes => [hPow2, nodes]
  | .ghashCombine input output _ hPow2 => [input, output, hPow2]
  | .finalizeTag _ _ roundKeys root => [roundKeys, root]
  | .verifyTag _ _ roundKeys root _ => [roundKeys, root]

/-- Bytes belong to the caller. -/
theorem span_buffer {p : Ptr} {start stop : Nat} {cell : Cell}
    (inside : cell ∈ bytesBetween p start stop) : buffer cell = none := by
  obtain ⟨k, -, -, rfl⟩ := inside
  rfl

theorem powerTable_buffer {hPow2 p : Ptr} {cell : Cell} (inside : cell ∈ powerTable hPow2)
    (belongs : buffer cell = some p) : p = hPow2 := by
  obtain ⟨i, -, rfl⟩ := inside
  exact (Option.some.inj belongs).symm

/-- A thread touches no other buffers of the library than its kernel is given. -/
theorem touched_buffer {l : Launch} {cell : Cell} (touched : cell ∈ l.reads ∪ l.writes)
    {p : Ptr} (belongs : buffer cell = some p) : p ∈ kernelBuffers l.kernel := by
  have bytes : ∀ {q : Ptr} {start stop : Nat}, cell ∉ bytesBetween q start stop := by
    intro q start stop inside
    rw [span_buffer inside] at belongs
    cases belongs
  obtain ⟨device, kernel, grid, threads⟩ := l
  rcases touched with ⟨i, -, read⟩ | ⟨i, -, write⟩
  · cases kernel with
    | initHashKey roundKeys hPow2 =>
        rcases read with (rfl | rfl) | power
        · cases belongs
          simp [kernelBuffers]
        · cases belongs
        · simp [kernelBuffers, powerTable_buffer power belongs]
    | writeFrameHeader frame iv => cases read
    | ctrCrypt src dst len iv roundKeys authOk =>
        rcases read with ((⟨flag, -, rfl⟩ | source) | counter) | (rfl | rfl)
        · cases belongs
        · exact absurd source bytes
        · exact absurd counter bytes
        · cases belongs
          simp [kernelBuffers]
        · cases belongs
    | ghashSegment ciphertext ciphertextLen hPow2 nodes =>
        rcases read with source | power
        · exact absurd source bytes
        · simp [kernelBuffers, powerTable_buffer power belongs]
    | ghashCombine input output count hPow2 =>
        rcases read with ⟨j, -, -, rfl⟩ | power
        · cases belongs
          simp [kernelBuffers]
        · simp [kernelBuffers, powerTable_buffer power belongs]
    | finalizeTag frame plaintextLen roundKeys root =>
        rcases read with counter | (rfl | rfl | rfl)
        · exact absurd counter bytes
        · cases belongs
          simp [kernelBuffers]
        · cases belongs
        · cases belongs
          simp [kernelBuffers]
    | verifyTag frame plaintextLen roundKeys root authOk =>
        rcases read with (header | tag) | (rfl | rfl | rfl)
        · exact absurd header bytes
        · exact absurd tag bytes
        · cases belongs
          simp [kernelBuffers]
        · cases belongs
        · cases belongs
          simp [kernelBuffers]
  · cases kernel with
    | initHashKey roundKeys hPow2 => simp [kernelBuffers, powerTable_buffer write belongs]
    | writeFrameHeader frame iv => exact absurd write bytes
    | ctrCrypt src dst len iv roundKeys authOk => exact absurd write bytes
    | ghashSegment ciphertext ciphertextLen hPow2 nodes =>
        obtain ⟨-, rfl⟩ := write
        cases belongs
        simp [kernelBuffers]
    | ghashCombine input output count hPow2 =>
        obtain ⟨-, rfl⟩ := write
        cases belongs
        simp [kernelBuffers]
    | finalizeTag frame plaintextLen roundKeys root => exact absurd write bytes
    | verifyTag frame plaintextLen roundKeys root authOk =>
        cases write
        cases belongs

/-- The buffers of the library that an event uses. -/
def eventBuffers : Event → List Ptr
  | .launch _ l => kernelBuffers l.kernel
  | .memcpy dst _ => [dst]
  | .memcpyToSymbol .. | .synchronize | .malloc _ | .free _ => []

/-- Every event uses buffers that are allocated when it is issued. -/
def Grounded : List Ptr → List Event → Prop
  | _, [] => True
  | live, event :: rest =>
      eventBuffers event ⊆ live ∧ Grounded (heapAfter live [event]) rest

theorem Grounded.append {live : List Ptr} {first second : List Event}
    (before : Grounded live first) (after : Grounded (heapAfter live first) second) :
    Grounded live (first ++ second) := by
  induction first generalizing live with
  | nil => exact after
  | cons event rest ih =>
      refine ⟨before.1, ih before.2 ?_⟩
      rw [← heapAfter_append]
      exact after

/-- Events that use nothing. -/
theorem Grounded.of_unused {events : List Event}
    (unused : ∀ event ∈ events, eventBuffers event = []) (live : List Ptr) :
    Grounded live events := by
  induction events generalizing live with
  | nil => trivial
  | cons event rest ih =>
      obtain ⟨here, later⟩ := List.forall_mem_cons.mp unused
      exact ⟨here ▸ List.nil_subset _, ih later _⟩

theorem Grounded.of_bookkeeping {events : List Event} (bookkeeping : Bookkeeping events)
    (live : List Ptr) : Grounded live events := by
  refine .of_unused (fun event member => ?_) live
  rcases bookkeeping event member with ⟨p, rfl⟩ | ⟨p, rfl⟩
  · rfl
  · rfl

/-- Launches on allocated buffers. -/
theorem Grounded.of_launches {live : List Ptr} {launches : List Launch}
    (allocated : ∀ l ∈ launches, kernelBuffers l.kernel ⊆ live) (stream : Ptr) :
    Grounded live (launchEvents stream launches) := by
  induction launches with
  | nil => trivial
  | cons l rest ih =>
      obtain ⟨here, later⟩ := List.forall_mem_cons.mp allocated
      exact ⟨here, ih later⟩

/-! ## What calls use -/

/-- The buffers of a handle that its kernels are given. -/
def handleBuffers (h : KeyHandle) : List Ptr :=
  [h.dRoundKeys, h.dHPow2, h.dNodesA, h.dNodesB]

/-- The buffers of a live handle with a workspace are allocated. -/
theorem handleBuffers_live {s : HostState} {leaked : List Block} {key : Ptr}
    {h : KeyHandle} (accounted : Accounted s leaked)
    (live : s.handles.lookup key = some h) (equipped : 0 < h.nodeCapacity) :
    handleBuffers h ⊆ s.livePtrs := by
  have holds := accounted.split live
  intro p member
  apply holds.live.mpr
  simp only [handleBuffers, List.mem_cons, List.not_mem_nil, or_false] at member
  rw [KeyHandle.buffers, KeyHandle.tables, nodeBuffers_of_pos equipped]
  rcases member with rfl | rfl | rfl | rfl
  · simp
  · simp
  · simp
  · simp

theorem ghashLaunches_buffers (device : Int) (h : KeyHandle) (ciphertext : Ptr)
    (ciphertextLen : Nat) :
    ∀ l ∈ ghashLaunches device h ciphertext ciphertextLen,
      kernelBuffers l.kernel ⊆ handleBuffers h := by
  intro l member
  rcases List.mem_cons.mp member with rfl | later
  · simp [kernelBuffers, handleBuffers]
  · obtain ⟨input, output, n, ⟨rfl, rfl⟩ | ⟨rfl, rfl⟩, -, -, rfl⟩ :=
      mem_reduceLaunches later
    · simp [kernelBuffers, handleBuffers]
    · simp [kernelBuffers, handleBuffers]

theorem ctrLaunches_buffers (device : Int) (h : KeyHandle) (src dst : Ptr) (len : Nat)
    (iv : Ptr) (authOk : Option Ptr) :
    ∀ l ∈ ctrLaunches device src dst len iv h.dRoundKeys authOk,
      kernelBuffers l.kernel ⊆ handleBuffers h := by
  intro l member
  unfold ctrLaunches at member
  split at member
  · rw [List.mem_singleton.mp member]
    simp [kernelBuffers, handleBuffers]
  · cases member

theorem ghashRoot_buffers (h : KeyHandle) (len : Nat) :
    ghashRoot h len ∈ handleBuffers h := by
  rcases reduceRoot_cases (requiredNodes len) h.dNodesA h.dNodesB with same | same
  · rw [ghashRoot, same]
    simp [handleBuffers]
  · rw [ghashRoot, same]
    simp [handleBuffers]

theorem sealLaunches_buffers (device : Int) (h : KeyHandle) (src : Ptr)
    (plaintextLen : Nat) (dst : Ptr) (iv : Vector Byte 12) :
    ∀ l ∈ sealLaunches device h src plaintextLen dst iv,
      kernelBuffers l.kernel ⊆ handleBuffers h := by
  intro l member
  rw [sealLaunches, List.mem_cons, List.mem_append, List.mem_append,
    List.mem_singleton] at member
  rcases member with rfl | counter | hash | rfl
  · exact List.nil_subset _
  · exact ctrLaunches_buffers device h src _ plaintextLen _ none l counter
  · exact ghashLaunches_buffers device h _ plaintextLen l hash
  · refine List.cons_subset.mpr ⟨by simp [handleBuffers], ?_⟩
    exact List.cons_subset.mpr ⟨ghashRoot_buffers h plaintextLen, List.nil_subset _⟩

theorem openLaunches_buffers (device : Int) (h : KeyHandle) (src dst : Ptr)
    (plaintextLen : Nat) (authOk : Ptr) :
    ∀ l ∈ openLaunches device h src dst plaintextLen authOk,
      kernelBuffers l.kernel ⊆ handleBuffers h := by
  intro l member
  rw [openLaunches, List.mem_append, List.mem_cons] at member
  rcases member with hash | rfl | counter
  · exact ghashLaunches_buffers device h _ plaintextLen l hash
  · refine List.cons_subset.mpr ⟨by simp [handleBuffers], ?_⟩
    exact List.cons_subset.mpr ⟨ghashRoot_buffers h plaintextLen, List.nil_subset _⟩
  · exact ctrLaunches_buffers device h _ dst plaintextLen _ (some authOk) l counter

/-- An operation on a live handle, from the launches of its body. -/
theorem GuardedEffect.grounded {driver : Driver} {s s' : HostState} {key : Ptr}
    {h : KeyHandle} {leaked : List Block} {plaintextLen : Nat}
    {body : HostState → KeyHandle → ReturnCode → HostState → List Event → Prop}
    {rc : ReturnCode} {events : List Event}
    (effect : GuardedEffect driver s s' key h leaked (requiredNodes plaintextLen)
      body rc events)
    (launched : ∀ s₁ h' rc s₂ events, body s₁ h' rc s₂ events →
      ∃ stream launches, events = launchEvents stream launches ∧
        ∀ l ∈ launches, kernelBuffers l.kernel ⊆ handleBuffers h')
    (trace : HeapTrace s.livePtrs events s'.livePtrs) : Grounded s.livePtrs events := by
  obtain ⟨lost, accounted, -⟩ := effect.accounted
  cases effect.result with
  | refused small handles error cause bookkeeping => exact .of_bookkeeping bookkeeping _
  | ran s₁ s₂ h' before after extends_ fits unchanged updated live bookkeeping done =>
      obtain ⟨stream, launches, rfl, inside⟩ := launched _ _ _ _ _ done
      have positive := requiredNodes_pos plaintextLen
      have allocated := handleBuffers_live accounted updated.live (by omega)
      have heap := trace.heap
      rw [heapAfter_append, heapAfter_launchEvents] at heap
      refine (Grounded.of_bookkeeping bookkeeping _).append (.of_launches ?_ stream)
      rw [heap]
      exact fun l member => List.Subset.trans (inside l member) allocated

/-! ## Creations -/

/-- The events of a computation use buffers that are allocated at the time. -/
def Uses {α : Type} (program : Cuda α) (driver : Driver) (s : HostState) : Prop :=
  program.Ensures driver s fun _ _ events => Grounded s.livePtrs events

/-- A computation that uses nothing. -/
theorem Uses.of_unused {α : Type} {program : Cuda α}
    (unused : program.Emits fun event => eventBuffers event = []) (driver : Driver)
    (s : HostState) : Uses program driver s :=
  Grounded.of_unused (unused driver s) s.livePtrs

/-- The second part starts with the heap that the first leaves. -/
theorem Uses.bind {driver : Driver} {s : HostState} {α β : Type} {first : Cuda α}
    {second : α → Cuda β} (composed : Composed first) (here : Uses first driver s)
    (reached : α → HostState → Prop)
    (reaches : first.Ensures driver s fun value s' _ => reached value s')
    (later : ∀ value s', reached value s' → Uses (second value) driver s') :
    Uses (first >>= second) driver s := by
  refine (((composed.heap driver s).and here).and reaches).bind ?_
  rintro value s' events ⟨⟨trace, grounded⟩, holds⟩
  refine (later value s' holds).mono fun _ _ others onward => grounded.append ?_
  rw [trace.heap]
  exact onward

/-- Nobody uses a buffer to allocate or release one. -/
theorem cudaMalloc_unused (bytes : Nat) :
    (cudaMalloc bytes).Emits fun event => eventBuffers event = [] := by
  intro driver s event member
  rcases cudaMalloc_spec driver s bytes with
    ⟨p, -, -, -, -, events, -⟩ | ⟨rc, -, -, -, events, -⟩
  · rw [events] at member
    rw [List.mem_singleton.mp member]
    rfl
  · rw [events] at member
    cases member

theorem cudaFree_unused (p : Ptr) :
    (cudaFree p).Emits fun event => eventBuffers event = [] := by
  intro driver s event member
  rw [cudaFree_events driver s p event member]
  rfl

theorem cudaMemcpyToSymbol_unused (table : Vector Byte 256) :
    (cudaMemcpyToSymbol table).Emits fun event => eventBuffers event = [] := by
  intro driver s event member
  rcases cudaMemcpyToSymbol_spec driver s table with ⟨-, -, events, -⟩ | ⟨-, -, events, -⟩
  · rw [events] at member
    rw [List.mem_singleton.mp member]
    rfl
  · rw [events] at member
    cases member

theorem cudaDeviceSynchronize_unused :
    cudaDeviceSynchronize.Emits fun event => eventBuffers event = [] := by
  intro driver s event member
  rcases cudaDeviceSynchronize_spec driver s with ⟨-, -, events, -⟩ | ⟨-, -, events, -⟩
  · rw [events] at member
    rw [List.mem_singleton.mp member]
    rfl
  · rw [events] at member
    cases member

/-- A successful allocation is allocated, and an allocation releases nothing. -/
theorem cudaMalloc_allocates (driver : Driver) (s : HostState) (bytes : Nat) :
    (cudaMalloc bytes).Ensures driver s fun result s' _ =>
      ∀ q, result = .ok q → q ∈ s'.livePtrs := by
  apply (cudaMalloc_spec driver s bytes).mono
  rintro _ s' _ (⟨p, rfl, -, -, -, -, rfl⟩ | ⟨rc, rfl, -⟩) q same
  · cases same
    exact List.mem_cons_self ..
  · cases same

theorem cudaMalloc_keeps (driver : Driver) (s : HostState) (bytes : Nat) {q : Ptr}
    (live : q ∈ s.livePtrs) :
    (cudaMalloc bytes).Ensures driver s fun _ s' _ => q ∈ s'.livePtrs := by
  apply (cudaMalloc_spec driver s bytes).mono
  rintro _ s' _ (⟨p, -, -, -, -, -, rfl⟩ | ⟨rc, -, -, -, -, rfl⟩)
  · exact List.mem_cons_of_mem _ live
  · exact live

/-- The steps of a creation after the object exists. -/
theorem createTables_uses (driver : Driver) (s : HostState) (p : Ptr)
    (key : Vector Byte 16) (device : Int) (out : Ptr) :
    Uses (createTables p key device out) driver s := by
  have silent : ∀ {α : Type} {program : Cuda α},
      (∀ driver s, (program driver s).events = []) →
      program.Emits fun event => eventBuffers event = [] := .of_silent
  have delete : ∀ (rc : ReturnCode), (do deleteHandle p; pure rc : Cuda ReturnCode).Emits
      fun event => eventBuffers event = [] := fun rc =>
    Emits.bind (silent fun _ _ => rfl) fun _ => Emits.pure rc
  have undo : ∀ roundKeys hPow2 : Ptr, (do
      let _ ← cudaFree hPow2
      let _ ← cudaFree roundKeys
      deleteHandle p
      pure .errCuda : Cuda ReturnCode).Emits fun event => eventBuffers event = [] :=
    fun roundKeys hPow2 => (cudaFree_unused hPow2).bind fun _ =>
      (cudaFree_unused roundKeys).bind fun _ => delete _
  refine Uses.bind (.modifyHandle _ _) trivial (fun _ _ => True) trivial ?_
  rintro - s₁ -
  refine Uses.bind (.cudaMemcpyToSymbol _)
    (.of_unused (cudaMemcpyToSymbol_unused _) _ _) (fun _ _ => True) trivial ?_
  rintro rc s₂ -
  refine Ensures.ite (fun _ => Uses.of_unused (delete _) _ _) fun _ => ?_
  -- The round keys.
  refine Uses.bind (.cudaMalloc _) (.of_unused (cudaMalloc_unused _) _ _)
    (fun result s' => ∀ q, result = .ok q → q ∈ s'.livePtrs)
    (cudaMalloc_allocates driver s₂ _) ?_
  rintro (rc | roundKeys) s₃ allocated
  · exact Uses.of_unused (delete _) _ _
  have keys := allocated roundKeys rfl
  refine Uses.bind (.modifyHandle _ _) trivial (fun _ s' => roundKeys ∈ s'.livePtrs)
    keys ?_
  clear allocated keys
  rintro - s₄ keys
  -- The powers of the hash key.
  refine Uses.bind (.cudaMalloc _) (.of_unused (cudaMalloc_unused _) _ _)
    (fun result s' => roundKeys ∈ s'.livePtrs ∧ ∀ q, result = .ok q → q ∈ s'.livePtrs)
    ⟨cudaMalloc_keeps driver s₄ _ keys, cudaMalloc_allocates driver s₄ _⟩ ?_
  rintro (rc | hPow2) s₅ ⟨keys, allocated⟩
  · exact Uses.of_unused ((cudaFree_unused roundKeys).bind fun _ => delete _) _ _
  have powers := allocated hPow2 rfl
  refine Uses.bind (.modifyHandle _ _) trivial
    (fun _ s' => roundKeys ∈ s'.livePtrs ∧ hPow2 ∈ s'.livePtrs) ⟨keys, powers⟩ ?_
  clear allocated keys powers
  rintro - s₆ ⟨keys, powers⟩
  -- The copy and the launch.
  refine Uses.bind (.cudaMemcpy _ _) ?_
    (fun _ s' => roundKeys ∈ s'.livePtrs ∧ hPow2 ∈ s'.livePtrs) ?_ ?_
  · apply (cudaMemcpy_spec driver s₆ roundKeys _).mono
    rintro rc s' events (⟨-, -, rfl, -⟩ | ⟨-, -, rfl, -⟩)
    · exact ⟨List.cons_subset.mpr ⟨keys, List.nil_subset _⟩, trivial⟩
    · trivial
  · apply (cudaMemcpy_spec driver s₆ roundKeys _).mono
    rintro rc s' events (⟨-, -, -, rfl⟩ | ⟨-, -, -, rfl⟩)
    · exact ⟨keys, powers⟩
    · exact ⟨keys, powers⟩
  rintro rc s₇ ⟨keys, powers⟩
  refine Ensures.ite (fun _ => Uses.of_unused (undo _ _) _ _) fun _ => ?_
  refine Uses.bind (.launchKernel _ _ _ _) ?_ (fun _ _ => True) trivial ?_
  · apply (launchKernel_spec driver s₇ _ _ _ _).mono
    rintro - s' events ⟨-, ⟨-, -, rfl, -⟩ | ⟨-, rfl, -⟩⟩
    · exact ⟨List.cons_subset.mpr ⟨keys, List.cons_subset.mpr ⟨powers,
        List.nil_subset _⟩⟩, trivial⟩
    · trivial
  rintro - s₈ -
  refine Uses.of_unused (cudaDeviceSynchronize_unused.bind fun rc => .ite
    (fun _ => undo _ _) fun _ => ?_) _ _
  exact Emits.bind (silent fun _ _ => rfl) fun _ => Emits.pure _

/-- Every call uses buffers that are allocated at the time. -/
theorem call_uses (driver : Driver) {s : HostState} {leaked : List Block}
    (accounted : Accounted s leaked) (c : ApiCall) (allowed : c.Allowed s) :
    Uses c.perform driver s := by
  have found : ∀ {key : Ptr}, c.handle = key → key ≠ 0 →
      ∃ h, s.handles.lookup key = some h := by
    rintro key rfl nonnull
    have member := allowed.resolve_left nonnull
    exact Option.isSome_iff_exists.mp (AList.lookup_isSome.mpr member)
  have traced := c.perform_composed.heap driver s
  cases c with
  | keyCreate key keyLen device out =>
      cases key with
      | none => exact Ensures.pure trivial
      | some key =>
          refine Ensures.ite (fun _ => Ensures.pure trivial) fun _ => ?_
          refine withDevice_events device _ fun s₀ heap₀ => ?_
          rw [← livePtrs_congr heap₀.allocations]
          refine Uses.bind .newKeyHandle ?_ (fun _ _ => True) trivial ?_
          · apply (newKeyHandle_spec driver s₀).mono
            rintro _ _ events ⟨rfl, -⟩
            trivial
          · rintro (_ | p) s₁ -
            · exact Ensures.pure trivial
            · exact createTables_uses driver s₁ p key device out
  | keyDestroy key =>
      by_cases null : key = 0
      · rw [ApiCall.perform, lmcacheGpuAes128gcmKeyDestroy, if_pos null]
        exact Ensures.pure trivial
      · obtain ⟨h, live⟩ := found rfl null
        exact (lmcacheGpuAes128gcmKeyDestroy_spec driver accounted live).mono
          fun _ _ _ destroyed => .of_bookkeeping destroyed.events _
  | reserve key maxPlaintextLen =>
      by_cases null : key = 0
      · rw [ApiCall.perform, lmcacheGpuAes128gcmReserve, if_pos null]
        exact Ensures.pure trivial
      · obtain ⟨h, live⟩ := found rfl null
        refine ((lmcacheGpuAes128gcmReserve_spec driver accounted live null
          maxPlaintextLen).and traced).mono ?_
        rintro rc s' events ⟨effect, trace⟩
        refine GuardedEffect.grounded effect (fun _ _ _ _ _ done => ⟨0, [], done.2, ?_⟩)
          trace
        simp
  | sealAsync key src plaintextLen dst dstCapacity iv stream =>
      by_cases admits : iv.isSome ∧ SealAdmits key src plaintextLen dst dstCapacity
      · obtain ⟨some, admits⟩ := admits
        obtain ⟨iv, rfl⟩ := Option.isSome_iff_exists.mp some
        obtain ⟨h, live⟩ := found rfl admits.key
        refine ((lmcacheGpuAes128gcmSealAsync_spec driver accounted live admits iv
          stream).and traced).mono ?_
        rintro rc s' events ⟨effect, trace⟩
        refine GuardedEffect.grounded effect (fun s₁ h' _ _ _ done => ?_) trace
        obtain ⟨part, inside, same⟩ := done.1.part
        exact ⟨stream, part, same, fun l member =>
          sealLaunches_buffers s₁.device h' src plaintextLen dst iv l
            (inside.subset member)⟩
      · rw [ApiCall.perform, lmcacheGpuAes128gcmSealAsync_unadmitted admits]
        exact Ensures.pure trivial
  | openAsync key src frameLen dst plaintextLen authOk stream =>
      by_cases admits : OpenAdmits key src frameLen dst plaintextLen authOk
      · obtain ⟨h, live⟩ := found rfl admits.key
        refine ((lmcacheGpuAes128gcmOpenAsync_spec driver accounted live admits
          stream).and traced).mono ?_
        rintro rc s' events ⟨effect, trace⟩
        refine GuardedEffect.grounded effect (fun s₁ h' _ _ _ done => ?_) trace
        obtain ⟨part, inside, same⟩ := done.1.part
        exact ⟨stream, part, same, fun l member =>
          openLaunches_buffers s₁.device h' src dst plaintextLen authOk l
            (inside.subset member)⟩
      · rw [ApiCall.perform, lmcacheGpuAes128gcmOpenAsync_refused admits]
        exact Ensures.pure trivial

/-- So does a whole program. -/
theorem programEvents_grounded (driver : Driver) {s : HostState} {leaked : List Block}
    (accounted : Accounted s leaked) {calls : List ApiCall} (valid : Valid driver s calls) :
    Grounded s.livePtrs (programEvents driver s calls) := by
  induction calls generalizing s leaked with
  | nil => trivial
  | cons c rest ih =>
      obtain ⟨allowed, later⟩ := valid
      obtain ⟨⟨lost, accounted', -⟩, -⟩ := c.perform_spec driver accounted allowed
      refine (call_uses driver accounted c allowed).append ?_
      rw [(c.perform_composed.heap driver s).heap]
      exact ih accounted' later

/-! ## Every interleaving -/

/-- The launches that may be pending after events. -/
def recentLaunches : List (Ptr × Launch) → List Event → List (Ptr × Launch)
  | recent, [] => recent
  | recent, .launch stream l :: rest => recentLaunches (recent ++ [(stream, l)]) rest
  | _, .free _ :: rest => recentLaunches [] rest
  | _, .synchronize :: rest => recentLaunches [] rest
  | recent, .malloc _ :: rest => recentLaunches recent rest
  | recent, .memcpy .. :: rest => recentLaunches recent rest
  | recent, .memcpyToSymbol .. :: rest => recentLaunches recent rest

theorem pendingAfter_threadRequests (recent : List (Ptr × Launch)) (events : List Event) :
    pendingAfter (recent.map batch) (threadRequests events) =
      (recentLaunches recent events).map batch := by
  induction events generalizing recent with
  | nil => rfl
  | cons event rest ih =>
      cases event with
      | launch stream l =>
          refine Eq.trans ?_ (ih (recent ++ [(stream, l)]))
          rw [List.map_append]
          rfl
      | free p => exact ih []
      | synchronize => exact ih []
      | malloc p => exact ih recent
      | memcpy dst bytes => exact ih recent
      | memcpyToSymbol device table => exact ih recent

/-- The launches that may be pending use buffers that are allocated: a release of
one of them would have waited. -/
theorem Grounded.recent {live : List Ptr} {events : List Event}
    (grounded : Grounded live events) {recent : List (Ptr × Launch)}
    (before : ∀ entry ∈ recent, kernelBuffers entry.2.kernel ⊆ live) :
    ∀ entry ∈ recentLaunches recent events,
      kernelBuffers entry.2.kernel ⊆ heapAfter live events := by
  induction events generalizing live recent with
  | nil => exact before
  | cons event rest ih =>
      obtain ⟨here, later⟩ := grounded
      cases event with
      | launch stream l =>
          refine ih later fun entry member => ?_
          rcases List.mem_append.mp member with old | new
          · exact before entry old
          · rw [List.mem_singleton.mp new]
            exact here
      | free p => exact ih later (by simp)
      | synchronize => exact ih later (by simp)
      | malloc p =>
          exact ih later fun entry member =>
            List.Subset.trans (before entry member) (List.subset_cons_self p live)
      | memcpy dst bytes => exact ih later before
      | memcpyToSymbol device table => exact ih later before

theorem Grounded.parts {live : List Ptr} {first second : List Event}
    (grounded : Grounded live (first ++ second)) :
    Grounded live first ∧ Grounded (heapAfter live first) second := by
  induction first generalizing live with
  | nil => exact ⟨trivial, grounded⟩
  | cons event rest ih =>
      obtain ⟨here, later⟩ := grounded
      obtain ⟨before, after⟩ := ih later
      rw [← heapAfter_append] at after
      exact ⟨⟨here, before⟩, after⟩

/-- The requests that are still to come are those of the events of the future. -/
structure Between (events past future : List Event)
    (config : ThreadPool.Config Ptr Cell.Val) : Prop where
  split : events = past ++ future
  requests : threadRequests future = config.requests

/-- In every interleaving, whatever the arguments of the calls and whatever fails: a
buffer of the library that a thread or a copy of the host is about to touch is
allocated, that is, an event of the past allocated it and none has released it since. -/
theorem interleavings_touch_allocated {driver : Driver} {s : HostState} (fresh : Fresh s)
    {calls : List ApiCall} (valid : Valid driver s calls) {memory : Memory} {n : Nat}
    {config : ThreadPool.Config Ptr Cell.Val}
    (steps : Steps n (programStart driver s calls memory) config) :
    (∃ past future, Between (programEvents driver s calls) past future config) ∧
    ∀ past future, Between (programEvents driver s calls) past future config →
      (∀ stream threads, (stream, threads) ∈ config.pending → ∀ thread ∈ threads,
        ∀ cell write, nextAccess thread = some (cell, write) →
          ∀ p, buffer cell = some p → p ∈ heapAfter [] past) ∧
      ∀ dst bytes rest, future = .memcpy dst bytes :: rest → dst ∈ heapAfter [] past := by
  have nothing : s.livePtrs = [] := by
    rw [HostState.livePtrs, fresh.allocations]
    rfl
  obtain ⟨made, requests, covers⟩ := steps.covered
  change threadRequests (programEvents driver s calls) = _ at requests
  constructor
  · obtain ⟨past, future, split, -, now⟩ := List.filterMap_eq_append_iff.mp requests
    exact ⟨past, future, split, now⟩
  rintro past future ⟨split, now⟩
  have grounded := programEvents_grounded driver fresh.accounted valid
  rw [nothing, split] at grounded
  obtain ⟨before, after⟩ := grounded.parts
  constructor
  · intro stream threads pending thread inside cell write next p belongs
    rw [split, threadRequests_append, now] at requests
    obtain ⟨old, source, -, residuals⟩ := covers _ pending
    rw [← List.append_cancel_right requests] at source
    change old ∈ pendingAfter (List.map batch []) (threadRequests past) at source
    rw [pendingAfter_threadRequests] at source
    obtain ⟨entry, listed, rfl⟩ := List.mem_map.mp source
    obtain ⟨whole, body, residual⟩ := residuals thread inside
    have touched := nextAccess_within (residual _ _ (Launch.bodies_within body)) next
    exact before.recent (by simp) entry listed (touched_buffer touched belongs)
  · rintro dst bytes rest rfl
    exact after.1 (List.mem_singleton_self dst)

/-- The first launch of an open is in flight behind a rejected creation. -/
theorem interleavings_touch_allocated_example :
    ∃ past future, programEvents (.rejecting 6) .blank openAfterReject = past ++ future ∧
      ∀ thread ∈ segmentLaunch.bodies, ∀ cell write,
        nextAccess thread = some (cell, write) →
          ∀ p, buffer cell = some p → p ∈ heapAfter [] past := by
  have steps : Steps 4 (programStart (.rejecting 6) .blank openAfterReject blankMemory)
      ⟨[], [(5, segmentLaunch.bodies)], _⟩ :=
    .tail (.tail (.tail (.tail (.refl _) (.write _ _ _ _ _)) (.write _ _ _ _ _))
      (.wait _ _)) (.enqueue _ _ _ _ _)
  obtain ⟨⟨past, future, between⟩, touched⟩ :=
    interleavings_touch_allocated HostState.blank_fresh (by decide) steps
  exact ⟨past, future, between.split,
    (touched past future between).1 5 _ (List.mem_singleton_self _)⟩

end GpuKvSeal.System
