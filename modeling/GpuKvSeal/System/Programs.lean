import GpuKvSeal.Device.Races
import GpuKvSeal.Host.Queue
import GpuKvSeal.System.Completion
import GpuKvSeal.System.Frames

/-!
# What a call of a program leaves on its stream

An operation that the library does not refuse enqueues its launches behind
whatever was enqueued before, after it has made room for its nodes.  Its launches
touch the buffers of the call, the nodes of the handle and tables, and have no
races.
-/

namespace GpuKvSeal.System

open BigEndian (Byte)
open Device
open Host
open Refinement (tableCells)
open TracedState.Traced (Ensures)

/-! ## Footprints -/

/-- The cells of both node buffers of a handle. -/
def nodesOf (h : KeyHandle) : Set Cell :=
  {cell | ∃ i, cell = .node h.dNodesA i ∨ cell = .node h.dNodesB i}

theorem nodeCells_subset (h : KeyHandle) (count : Nat) :
    nodeCells h.dNodesA h.dNodesB count ⊆ nodesOf h := by
  rintro cell ⟨i, -, same⟩
  exact ⟨i, same⟩

/-- What the launches of an operation read and write. -/
theorem launches_inside {c : ApiCall} (operation : c.Operation) (device : Int)
    (h : KeyHandle) :
    ∀ l ∈ c.launches device h,
      l.reads ⊆ c.inputs ∪ c.outputs ∪ nodesOf h ∪ {cell | isTable cell} ∧
        l.writes ⊆ c.outputs ∪ nodesOf h := by
  intro l member
  have tables : tableCells device h.dRoundKeys h.dHPow2 ⊆ {cell | isTable cell} :=
    fun _ table => tableCells_isTable table
  cases operation with
  | reserve key maxPlaintextLen => cases member
  | @sealAsync key src dst plaintextLen admissible =>
      obtain ⟨reads, writes⟩ :=
        sealLaunches_inside device h src (by omega) dst _ l member
      rw [coveredLen_eq (by omega), frameBytes_eq dst (by omega)] at reads
      rw [frameBytes_eq dst (by omega)] at writes
      exact ⟨reads.trans (Set.union_subset_union (Set.union_subset_union_right _
        (nodeCells_subset h _)) tables),
        writes.trans (Set.union_subset_union_right _ (nodeCells_subset h _))⟩
  | @openAsync key src dst plaintextLen admissible apart frameLen authOk =>
      obtain ⟨reads, writes⟩ :=
        openLaunches_inside device h src dst (by omega) authOk l member
      rw [frameBytes_eq src (by omega)] at reads
      rw [coveredLen_eq (by omega)] at writes
      have flag : span src (plaintextLen + 29) ∪ {.flag authOk} ⊆
          span src (plaintextLen + 29) ∪
            (span dst plaintextLen ∪ {.flag authOk}) :=
        Set.union_subset_union_right _ Set.subset_union_right
      exact ⟨reads.trans (Set.union_subset_union (Set.union_subset_union flag
        (nodeCells_subset h _)) tables),
        writes.trans (Set.union_subset_union_right _ (nodeCells_subset h _))⟩

/-! ## Races -/

theorem reduceLaunches_raceFree (device : Int) (hPow2 : Ptr) (count : Nat) :
    ∀ a b, a ≠ b → ∀ l ∈ reduceLaunches device hPow2 a b count, l.RaceFree := by
  intro a b distinct l member
  obtain ⟨input, output, n, buffers, -, -, rfl⟩ := mem_reduceLaunches member
  refine Or.inr (ghashCombine_apart device n hPow2 _ 128 ?_)
  rcases buffers with ⟨rfl, rfl⟩ | ⟨rfl, rfl⟩
  · exact distinct
  · exact distinct.symm

theorem ghashLaunches_raceFree (device : Int) {h : KeyHandle}
    (distinct : h.dNodesA ≠ h.dNodesB) (ciphertext : Ptr) (len : Nat) :
    ∀ l ∈ ghashLaunches device h ciphertext len, l.RaceFree := by
  intro l member
  rcases List.mem_cons.mp member with rfl | later
  · exact Or.inr (ghashSegment_apart device ciphertext len _ _ _ 128)
  · exact reduceLaunches_raceFree device _ _ _ _ distinct l later

theorem ctrLaunches_raceFree (device : Int) {src dst iv : Ptr} {len : Nat}
    (small : len ≤ 2 ^ 64)
    (apart : Disjoint (span dst len) (span src len ∪ span iv 12))
    (roundKeys : Ptr) (authOk : Option Ptr) :
    ∀ l ∈ ctrLaunches device src dst len iv roundKeys authOk, l.RaceFree := by
  intro l member
  unfold ctrLaunches at member
  split at member
  · rw [List.mem_singleton.mp member]
    exact Or.inr (ctrCrypt_apart device src dst iv roundKeys authOk _ 256 small
      apart)
  · cases member

/-- No launch of an operation has a race. -/
theorem launches_raceFree {c : ApiCall} (operation : c.Operation) (device : Int)
    {h : KeyHandle} (distinct : h.dNodesA ≠ h.dNodesB) :
    ∀ l ∈ c.launches device h, l.RaceFree := by
  intro l member
  cases operation with
  | reserve key maxPlaintextLen => cases member
  | @sealAsync key src dst plaintextLen admissible apart =>
      rw [ApiCall.launches, sealLaunches, List.mem_cons, List.mem_append,
        List.mem_append, List.mem_singleton] at member
      rcases member with rfl | counter | hash | rfl
      · exact Or.inl rfl
      · exact ctrLaunches_raceFree device (by omega)
          (seal_cipher_apart (by omega) apart) _ none l counter
      · exact ghashLaunches_raceFree device distinct _ _ l hash
      · exact Or.inl rfl
  | @openAsync key src dst plaintextLen admissible apart frameLen authOk =>
      rw [ApiCall.launches, openLaunches, List.mem_append, List.mem_cons] at member
      rcases member with hash | rfl | counter
      · exact ghashLaunches_raceFree device distinct _ _ l hash
      · exact Or.inl rfl
      · exact ctrLaunches_raceFree device (by omega) (open_text_apart apart) _
          (some authOk) l counter

/-! ## Calls -/

/-- What an operation does: it may release the nodes of its handle, which waits,
and allocate more; then it enqueues its launches, or none if it is refused. -/
structure Issued (s s' : HostState) (c : ApiCall) (h h' : KeyHandle)
    (before : List Event) (launched : List Launch) : Prop where
  extends_ : Extends h h'
  updated : Updated s s' c.handle h'
  bookkeeping : Bookkeeping before
  waits : (h'.dNodesA = h.dNodesA ∧ h'.dNodesB = h.dNodesB) ∨
    h.nodeCapacity = 0 ∨ ∃ p, Event.free p ∈ before
  launched : launched = [] ∨
    (launched = c.launches h.device h' ∧ 0 < h'.nodeCapacity)

/-- No handle goes away. -/
theorem Issued.live {s s' : HostState} {c : ApiCall} {h h' : KeyHandle}
    {before : List Event} {launched : List Launch}
    (issued : Issued s s' c h h' before launched) {p : Ptr}
    (live : p ∈ s.handles) : p ∈ s'.handles := by
  by_cases same : p = c.handle
  · rw [same, ← AList.lookup_isSome, issued.updated.live]
    rfl
  · rw [← AList.lookup_isSome, issued.updated.others p same, AList.lookup_isSome]
    exact live

/-- An operation on a handle, from what its body does when no call fails. -/
theorem GuardedEffect.issued {driver : Driver} {s s' : HostState} {key : Ptr}
    {h : KeyHandle} {leaked : List Block} {plaintextLen : Nat}
    {body : HostState → KeyHandle → ReturnCode → HostState → List Event → Prop}
    {rc : ReturnCode} {events : List Event} {c : ApiCall} (handle : c.handle = key)
    (effect : GuardedEffect driver s s' key h leaked (requiredNodes plaintextLen)
      body rc events)
    (done : ∀ s₁ h' rc s₂ events, s₁.lastError = cudaSuccess →
      body s₁ h' rc s₂ events → rc = .ok ∧ s₂.lastError = cudaSuccess ∧
        events = launchEvents (c.stream.getD 0) (c.launches s₁.device h'))
    (waits : 0 < h.nodeCapacity → h.nodeCapacity < requiredNodes plaintextLen →
      rc = .ok → ∃ p, Event.free p ∈ events)
    (reliable : driver.Succeeds operationCalls)
    (clear : s.lastError = cudaSuccess) :
    s'.lastError = cudaSuccess ∧ Accounted s' leaked ∧
      ∃ h' before launched, Issued s s' c h h' before launched ∧
        events = before ++ launchEvents (c.stream.getD 0) launched := by
  have subset : ∀ kinds ⊆ operationCalls, driver.Succeeds kinds :=
    fun kinds inside kind member => reliable kind (inside member)
  obtain ⟨lost, accounted, exactly⟩ := effect.accounted
  rw [exactly (subset _ (by simp)), List.nil_append] at accounted
  cases effect.result with
  | refused small handles error cause =>
      exact absurd (subset {.malloc} (by simp)) cause
  | ran s₁ s₂ h' before after extends_ fits unchanged updated live bookkeeping
      body _ _ _ clean =>
      obtain ⟨error₁, device₁, error₂⟩ :=
        clean (subset _ (by simp [Set.insert_subset_iff]))
      obtain ⟨rfl, clear₂, rfl⟩ := done _ _ _ _ _ (error₁.trans clear) body
      have positive := requiredNodes_pos plaintextLen
      refine ⟨error₂.trans clear₂, accounted, h', before, c.launches h.device h',
        ⟨extends_, ?_, bookkeeping, ?_, Or.inr ⟨rfl, by omega⟩⟩, ?_⟩
      · rw [handle]
        exact updated
      · by_cases enough : requiredNodes plaintextLen ≤ h.nodeCapacity
        · rw [(unchanged enough).1]
          exact Or.inl ⟨rfl, rfl⟩
        · refine Or.inr ((Nat.eq_zero_or_pos h.nodeCapacity).imp_right
            fun equipped => ?_)
          obtain ⟨p, released⟩ := waits equipped (by omega) rfl
          refine ⟨p, (List.mem_append.mp released).resolve_right fun launched => ?_⟩
          obtain ⟨l, -, same⟩ := List.mem_map.mp launched
          cases same
      · rw [device₁]

/-- A call that is refused issues nothing. -/
theorem Issued.nothing {s : HostState} {c : ApiCall} {h : KeyHandle}
    (live : s.handles.lookup c.handle = some h) : Issued s s c h h [] [] where
  extends_ := Extends.refl h
  updated := Updated.of_same live rfl
  bookkeeping := Bookkeeping.nil
  waits := Or.inl ⟨rfl, rfl⟩
  launched := Or.inl rfl

/-- The launches of an operation that meets no failure are all enqueued. -/
theorem Pipe.settled {driver : Driver} {s₁ s₂ : HostState} {stream : Ptr}
    {launches : List Launch} {events : List Event} {rc : ReturnCode}
    (pipe : Pipe driver s₁ s₂ stream launches events)
    (code : rc = cudaRc s₂.lastError) (valid : GridsValid launches)
    (reliable : driver.Succeeds {.launch}) (clear : s₁.lastError = cudaSuccess) :
    rc = .ok ∧ s₂.lastError = cudaSuccess ∧
      events = launchEvents stream launches := by
  rcases pipe.outcome with ⟨all, error⟩ | ⟨-, refused, -⟩
  · have clear₂ := error.trans clear
    exact ⟨by rw [code, clear₂, cudaRc_success], clear₂, all⟩
  · exact absurd reliable (refused clear valid)

/-- What a call of a program does, if no call to the runtime fails. -/
theorem operation_issued {driver : Driver} (reliable : driver.Succeeds operationCalls)
    {s : HostState} {leaked : List Block} {c : ApiCall} {h : KeyHandle}
    (operation : c.Operation) (accounted : Accounted s leaked)
    (live : s.handles.lookup c.handle = some h) (clear : s.lastError = cudaSuccess) :
    c.perform.Ensures driver s fun _ s' events =>
      s'.lastError = cudaSuccess ∧ Accounted s' leaked ∧
        ∃ h' before launched, Issued s s' c h h' before launched ∧
          events = before ++ launchEvents (c.stream.getD 0) launched := by
  have free : driver.Succeeds {.free} := fun kind member =>
    reliable kind (by rw [member]; simp)
  have launch : driver.Succeeds {.launch} := fun kind member =>
    reliable kind (by rw [member]; simp)
  have nonnull : c.handle ≠ 0 :=
    accounted.keys c.handle (AList.lookup_isSome.mp (by rw [live]; rfl))
  have refused : s.lastError = cudaSuccess ∧ Accounted s leaked ∧
      ∃ h' before launched, Issued s s c h h' before launched ∧
        [] = before ++ launchEvents (c.stream.getD 0) launched :=
    ⟨clear, accounted, h, [], [], .nothing live, rfl⟩
  cases operation with
  | reserve key maxPlaintextLen =>
      change s.handles.lookup key = some h at live
      rw [ApiCall.perform, lmcacheGpuAes128gcmReserve_eq key _ nonnull]
      have effect := guarded_spec driver accounted live maxPlaintextLen
        (pure .ok : Cuda ReturnCode)
        (fun s₁ _ _ _ => Ensures.pure ⟨Quiet.refl s₁, rfl, rfl, rfl⟩ :
          ∀ s₁ h', s₁.handles.lookup key = some h' →
            requiredNodes maxPlaintextLen ≤ h'.nodeCapacity →
            (pure .ok : Cuda ReturnCode).Ensures driver s₁ fun rc s₂ events =>
              Quiet s₁ s₂ ∧ (rc = .ok ∧ s₂ = s₁ ∧ events = []))
      refine GuardedEffect.issued rfl effect ?_
        (fun equipped small => guarded_waits free accounted live equipped small _)
        reliable clear
      rintro s₁ h' rc s₂ after clear₁ ⟨ok, same, nothing⟩
      exact ⟨ok, same ▸ clear₁, nothing⟩
  | @sealAsync key src dst plaintextLen admissible apart dstCapacity iv stream =>
      change s.handles.lookup key = some h at live
      by_cases admits : iv.isSome ∧ SealAdmits key src plaintextLen dst dstCapacity
      · obtain ⟨some, admits⟩ := admits
        obtain ⟨iv, rfl⟩ := Option.isSome_iff_exists.mp some
        have effect := lmcacheGpuAes128gcmSealAsync_spec driver accounted live admits
          iv stream
        have waits := fun (equipped : 0 < h.nodeCapacity)
            (small : h.nodeCapacity < requiredNodes plaintextLen) =>
          guarded_waits free accounted live equipped small
            (enqueueSeal key src plaintextLen dst iv stream)
        rw [← lmcacheGpuAes128gcmSealAsync_eq admits] at waits
        refine GuardedEffect.issued rfl effect ?_ waits reliable clear
        rintro s₁ h' rc s₂ after clear₁ ⟨pipe, code, -⟩
        exact Pipe.settled pipe code (sealLaunches_valid (by omega) _ _ _ _ _)
          launch clear₁
      · rw [ApiCall.perform, lmcacheGpuAes128gcmSealAsync_unadmitted admits]
        exact refused
  | @openAsync key src dst plaintextLen admissible apart frameLen authOk stream =>
      change s.handles.lookup key = some h at live
      by_cases admits : OpenAdmits key src frameLen dst plaintextLen authOk
      · have effect := lmcacheGpuAes128gcmOpenAsync_spec driver accounted live admits
          stream
        have waits := fun (equipped : 0 < h.nodeCapacity)
            (small : h.nodeCapacity < requiredNodes plaintextLen) =>
          guarded_waits free accounted live equipped small
            (enqueueOpen key src dst plaintextLen authOk stream)
        rw [← lmcacheGpuAes128gcmOpenAsync_eq admits] at waits
        refine GuardedEffect.issued rfl effect ?_ waits reliable clear
        rintro s₁ h' rc s₂ after clear₁ ⟨pipe, code, -⟩
        exact Pipe.settled pipe code (openLaunches_valid (by omega) _ _ _ _ _)
          launch clear₁
      · rw [ApiCall.perform, lmcacheGpuAes128gcmOpenAsync_refused admits]
        exact refused

end GpuKvSeal.System
