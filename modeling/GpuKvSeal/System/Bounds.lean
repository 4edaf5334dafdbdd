import GpuKvSeal.Host.Binding
import GpuKvSeal.System.OpenLimit

/-!
# What a call touches, for every length

The frame size, the block count and the address of the tag wrap at different
lengths.  For exactly two lengths the tag lands one or two bytes before the
frame.  A seal or an open stays inside its buffers unless it gets as far as the
tag with one of them; a reservation touches nothing.
-/

namespace GpuKvSeal.System

open BigEndian (Byte)
open CellProgram (Program)
open Device
open Host
open Refinement (tableCells)
open TracedState (Outcome)

/-! ## Buffers -/

/-- The threads of all launches among the events keep to these cells. -/
def Touches (events : List Event) (reads writes : Set Cell) : Prop :=
  ∀ stream l, Event.launch stream l ∈ events → ∀ i < l.threadCount, ∀ memory,
    (∀ cell ∈ (l.body i).reads memory, cell ∈ reads) ∧
    ∀ cell ∈ (l.body i).writes memory, cell ∈ writes

/-- The nodes of the workspace of a handle. -/
def workspaceCells (h : KeyHandle) : Set Cell :=
  nodeCells h.dNodesA h.dNodesB h.nodeCapacity

/-- The tables of a handle, with the substitution table of any device. -/
def keyTables (h : KeyHandle) : Set Cell :=
  {cell | ∃ device, cell ∈ tableCells device h.dRoundKeys h.dHPow2}

/-- What a seal may touch: the text, the frame, the workspace and the tables. -/
def SealInside {α : Type} (o : Outcome HostState Event α) (key src : Ptr)
    (plaintextLen : Nat) (dst : Ptr) (dstCapacity : Nat) : Prop :=
  ∃ h, o.state.handles.lookup key = some h ∧ Touches o.events
    (span src plaintextLen ∪ span dst dstCapacity ∪ workspaceCells h ∪
      keyTables h)
    (span dst dstCapacity ∪ workspaceCells h)

/-- What an open may touch: the frame, the text, the status word, the workspace
and the tables. -/
def OpenInside {α : Type} (o : Outcome HostState Event α) (key src : Ptr)
    (frameLen : Nat) (dst : Ptr) (plaintextLen : Nat) (authOk : Ptr) : Prop :=
  ∃ h, o.state.handles.lookup key = some h ∧ Touches o.events
    (span src frameLen ∪ {.flag authOk} ∪ workspaceCells h ∪ keyTables h)
    (span dst plaintextLen ∪ {.flag authOk} ∪ workspaceCells h)

theorem touches_of_footprints {events : List Event} {reads writes : Set Cell}
    (inside : ∀ stream l, Event.launch stream l ∈ events →
      l.reads ⊆ reads ∧ l.writes ⊆ writes) : Touches events reads writes := by
  intro stream l member i thread memory
  obtain ⟨readsInside, writesInside⟩ := inside stream l member
  have within := l.kernel.body_within l.device (l.thread i)
  constructor
  · exact fun cell read =>
      readsInside ⟨i, thread, within.reads_mem memory read⟩
  · exact fun cell write =>
      writesInside ⟨i, thread, within.writes_mem memory write⟩

/-- Only launches touch anything. -/
theorem touches_append {before after : List Event} {reads writes : Set Cell}
    (bookkeeping : Bookkeeping before)
    (inside : ∀ stream l, Event.launch stream l ∈ after →
      l.reads ⊆ reads ∧ l.writes ⊆ writes) :
    Touches (before ++ after) reads writes := by
  refine touches_of_footprints fun stream l member => ?_
  rcases List.mem_append.mp member with early | late
  · rcases bookkeeping _ early with ⟨p, same⟩ | ⟨p, same⟩
    · cases same
    · cases same
  · exact inside stream l late

theorem touches_bookkeeping {events : List Event} {reads writes : Set Cell}
    (bookkeeping : Bookkeeping events) : Touches events reads writes := by
  rw [← List.append_nil events]
  exact touches_append bookkeeping fun stream l member =>
    absurd member List.not_mem_nil

/-! ## The launches of an operation -/

/-- Every launch of an operation on a handle comes from its body, which runs
with a workspace that is large enough. -/
theorem GuardedEffect_launches {driver : Driver} {s s' : HostState} {key : Ptr}
    {h : KeyHandle} {leaked : List Block} {required : Nat}
    {body : HostState → KeyHandle → ReturnCode → HostState → List Event → Prop}
    {rc : ReturnCode} {events : List Event}
    (live : s.handles.lookup key = some h)
    (effect : GuardedEffect driver s s' key h leaked required body rc events) :
    ∃ h', s'.handles.lookup key = some h' ∧
      (Bookkeeping events ∨ required ≤ h'.nodeCapacity ∧
        ∃ s₁ rc s₂ before after, body s₁ h' rc s₂ after ∧ Sticky s s₁ ∧
          Bookkeeping before ∧ events = before ++ after) := by
  cases effect.result with
  | refused small handles error cause bookkeeping =>
      exact ⟨h, by rw [handles, live], Or.inl bookkeeping⟩
  | ran s₁ s₂ h' before after extends_ fits unchanged updated live₁ bookkeeping
      done sticky₁ =>
      exact ⟨h', updated.live, Or.inr ⟨fits, s₁, rc, s₂, before, after, done,
        sticky₁, bookkeeping, rfl⟩⟩

theorem workspaceCells_mono {h : KeyHandle} {required : Nat}
    (fits : required ≤ h.nodeCapacity) :
    nodeCells h.dNodesA h.dNodesB required ⊆ workspaceCells h := by
  rintro cell ⟨i, below, same⟩
  exact ⟨i, by omega, same⟩

/-! ## Where the parts of a frame lie -/

/-- Addresses repeat after a full address space. -/
theorem advance_wrap (p : Ptr) {m n : Nat} (around : m = n + 2 ^ 64) :
    advance p m = advance p n := by
  show (p + m) % 2 ^ 64 = (p + n) % 2 ^ 64
  rw [around, ← Nat.add_assoc, Nat.add_mod_right]

/-- The part of a text that its blocks cover is never longer than the text. -/
theorem coveredLen_le (len : Nat) : coveredLen len ≤ len := min_le_left _ _

/-- The lengths whose tag lands before the frame. -/
def TagEscapes (plaintextLen : Nat) : Prop :=
  plaintextLen = 2 ^ 64 - 15 ∨ plaintextLen = 2 ^ 64 - 14

/-- A seal with one of these lengths that gets as far as the tag. -/
structure SealEscapes (s : HostState) (key src : Ptr) (plaintextLen : Nat)
    (dst : Ptr) (dstCapacity : Nat) : Prop where
  length : TagEscapes plaintextLen
  admits : SealAdmits key src plaintextLen dst dstCapacity
  clear : s.lastError = cudaSuccess

/-- An open with one of these lengths that gets as far as the tag. -/
structure OpenEscapes (s : HostState) (key src : Ptr) (frameLen : Nat) (dst : Ptr)
    (plaintextLen : Nat) (authOk : Ptr) : Prop where
  length : TagEscapes plaintextLen
  admits : OpenAdmits key src frameLen dst plaintextLen authOk
  clear : s.lastError = cudaSuccess

/-- Such a text has no blocks. -/
theorem TagEscapes.empty {plaintextLen : Nat} (escapes : TagEscapes plaintextLen) :
    blockCount plaintextLen = 0 := by
  rcases escapes with rfl | rfl
  · decide
  · decide

/-- The header and the ciphertext lie in a buffer of the frame size, unless the
block count is that of a full address space. -/
theorem frameFront_inside (frame : Ptr) {plaintextLen capacity : Nat}
    (word : plaintextLen < 2 ^ 64)
    (room : lmcacheGpuAesgcmFrameSize plaintextLen ≤ capacity)
    (blocks : plaintextLen + 29 < 2 ^ 64 ∨ 2 ^ 64 ≤ plaintextLen + 15) :
    frameFront frame plaintextLen ⊆ span frame capacity := by
  have header : HEADER_LEN = 13 := rfl
  have size : lmcacheGpuAesgcmFrameSize plaintextLen =
      (plaintextLen + 29) % 2 ^ 64 := rfl
  rintro cell (inHeader | ⟨k, -, below, rfl⟩)
  · exact bytesBetween_mono (le_refl 0) (by omega) inHeader
  · rcases blocks with small | wrapped
    · rw [coveredLen_eq (by omega)] at below
      rw [advance_advance]
      exact mem_span (by omega)
    · have none : blockCount plaintextLen = 0 := by
        have count : blockCount plaintextLen =
          (plaintextLen + 15) % 2 ^ 64 / 16 := rfl
        omega
      rw [coveredLen, none] at below
      omega

/-- So does the tag, if it does not escape. -/
theorem frameBytes_inside (frame : Ptr) {plaintextLen capacity : Nat}
    (word : plaintextLen < 2 ^ 64) (inside : ¬ TagEscapes plaintextLen)
    (room : lmcacheGpuAesgcmFrameSize plaintextLen ≤ capacity)
    (blocks : plaintextLen + 29 < 2 ^ 64 ∨ 2 ^ 64 ≤ plaintextLen + 15) :
    frameBytes frame plaintextLen ⊆ span frame capacity := by
  have header : HEADER_LEN = 13 := rfl
  have size : lmcacheGpuAesgcmFrameSize plaintextLen =
      (plaintextLen + 29) % 2 ^ 64 := rfl
  refine Set.union_subset (frameFront_inside frame word room blocks) ?_
  rintro cell ⟨k, -, below, rfl⟩
  rw [tagAddress, advance_advance, advance_advance]
  rcases blocks with small | wrapped
  · exact mem_span (by omega)
  · have escapes : plaintextLen ≠ 2 ^ 64 - 15 ∧ plaintextLen ≠ 2 ^ 64 - 14 :=
      not_or.mp inside
    -- The address of the tag wraps by exactly one full address space.
    have place : advance frame (HEADER_LEN + (plaintextLen + k)) =
        advance frame (13 + plaintextLen + k - 2 ^ 64) := advance_wrap frame (by omega)
    rw [place]
    exact mem_span (by omega)

/-- A tag that escapes has a byte outside every buffer at the address of the
frame. -/
theorem tagByte_outside (frame : Ptr) {plaintextLen capacity : Nat}
    (escapes : TagEscapes plaintextLen) (word : capacity < 2 ^ 64) :
    ∃ i : Fin 16, Cell.byte (advance (tagAddress frame plaintextLen) i.val) ∉
      span frame capacity := by
  -- It is the byte right before the frame.
  have last : ∀ i, HEADER_LEN + (plaintextLen + i) = 2 ^ 64 - 1 →
      Cell.byte (advance (tagAddress frame plaintextLen) i) ∉
        span frame capacity := by
    rintro i place ⟨k, -, below, same⟩
    have address := Cell.byte.inj same
    rw [tagAddress, advance_advance, advance_advance, place] at address
    have equal : 2 ^ 64 - 1 = k := advance_inj (by decide) (by omega) address
    omega
  rcases escapes with rfl | rfl
  · exact ⟨1, last 1 (by decide)⟩
  · exact ⟨0, last 0 (by decide)⟩

/-! ## Seal -/

/-- Each launch of a seal stays inside, if the tag does not escape or an error was
pending. -/
theorem sealBody_inside {driver : Driver} {stream src dst : Ptr}
    {plaintextLen dstCapacity : Nat} {iv : Vector Byte 12} {s₁ s₂ : HostState}
    {h' : KeyHandle} {rc : ReturnCode} {events : List Event}
    (word : plaintextLen < 2 ^ 64)
    (room : lmcacheGpuAesgcmFrameSize plaintextLen ≤ dstCapacity)
    (blocks : blockCount plaintextLen ≤ 0xfffffffe)
    (fits : requiredNodes plaintextLen ≤ h'.nodeCapacity)
    (stays : TagEscapes plaintextLen → s₁.lastError ≠ cudaSuccess)
    (done : SealBody driver stream src plaintextLen dst iv s₁ h' rc s₂ events)
    {stream' : Ptr} {l : Launch} (member : Event.launch stream' l ∈ events) :
    l.reads ⊆ span src plaintextLen ∪ span dst dstCapacity ∪ workspaceCells h' ∪
      keyTables h' ∧
    l.writes ⊆ span dst dstCapacity ∪ workspaceCells h' := by
  have count : blockCount plaintextLen = (plaintextLen + 15) % 2 ^ 64 / 16 := rfl
  have nodes := workspaceCells_mono fits
  have text : span src (coveredLen plaintextLen) ⊆ span src plaintextLen :=
    bytesBetween_mono (le_refl 0) (coveredLen_le _)
  have touched : ∃ frame ⊆ span dst dstCapacity,
      l.reads ⊆ span src (coveredLen plaintextLen) ∪ frame ∪
        nodeCells h'.dNodesA h'.dNodesB (requiredNodes plaintextLen) ∪
        tableCells s₁.device h'.dRoundKeys h'.dHPow2 ∧
      l.writes ⊆ frame ∪
        nodeCells h'.dNodesA h'.dNodesB (requiredNodes plaintextLen) := by
    by_cases escapes : TagEscapes plaintextLen
    · obtain ⟨part, inside, rfl⟩ := done.2.2.resolve_left (stays escapes)
      obtain ⟨l', launched, same⟩ := List.mem_map.mp member
      cases same
      exact ⟨_, frameFront_inside dst word room (by omega),
        sealFront_inside s₁.device h' src word dst iv l (inside.subset launched)⟩
    · obtain ⟨part, inside, rfl⟩ := done.1.part
      obtain ⟨l', launched, same⟩ := List.mem_map.mp member
      cases same
      exact ⟨_, frameBytes_inside dst word escapes room (by omega),
        sealLaunches_inside s₁.device h' src word dst iv l (inside.subset launched)⟩
  obtain ⟨frame, inFrame, reads, writes⟩ := touched
  constructor
  · intro cell read
    rcases reads read with ((source | bytes) | node) | table
    · exact Or.inl (Or.inl (Or.inl (text source)))
    · exact Or.inl (Or.inl (Or.inr (inFrame bytes)))
    · exact Or.inl (Or.inr (nodes node))
    · exact Or.inr ⟨_, table⟩
  · intro cell write
    rcases writes write with bytes | node
    · exact Or.inl (inFrame bytes)
    · exact Or.inr (nodes node)

theorem sealInside {driver : Driver} {s : HostState} {key src dst : Ptr}
    {plaintextLen dstCapacity : Nat} {h : KeyHandle} {leaked : List Block}
    {iv : Option (Vector Byte 12)} (accounted : Accounted s leaked)
    (live : s.handles.lookup key = some h) (word : plaintextLen < 2 ^ 64)
    (stays : ¬ (iv.isSome ∧ SealEscapes s key src plaintextLen dst dstCapacity))
    (stream : Ptr) :
    SealInside (lmcacheGpuAes128gcmSealAsync key src plaintextLen dst dstCapacity iv
      stream driver s) key src plaintextLen dst dstCapacity := by
  by_cases admitted : iv.isSome ∧ SealAdmits key src plaintextLen dst dstCapacity
  case neg =>
    rw [lmcacheGpuAes128gcmSealAsync_unadmitted admitted]
    exact ⟨h, live, touches_bookkeeping .nil⟩
  case pos =>
    obtain ⟨given, admits⟩ := admitted
    obtain ⟨iv, rfl⟩ := Option.isSome_iff_exists.mp given
    have effect := lmcacheGpuAes128gcmSealAsync_spec driver accounted live admits
      iv stream
    obtain ⟨h', live', bookkeeping | ⟨fits, s₁, rc, s₂, before, after, done, sticky,
      bookkeeping, trace⟩⟩ := GuardedEffect_launches live effect
    · exact ⟨h', live', touches_bookkeeping bookkeeping⟩
    · have pending : TagEscapes plaintextLen → s₁.lastError ≠ cudaSuccess :=
        fun escapes clear => stays ⟨given, escapes, admits, sticky clear⟩
      refine ⟨h', live', ?_⟩
      rw [trace]
      exact touches_append bookkeeping fun stream' l member =>
        sealBody_inside word admits.frame admits.blocks fits pending done member

/-- The last thread of a seal writes all bytes of the tag. -/
theorem finalizeTag_writes (device : Int) (frame : Ptr) (plaintextLen : Nat)
    (roundKeys root : Ptr) (memory : Memory) (i : Fin 16) :
    Cell.byte (advance (tagAddress frame plaintextLen) i.val) ∈
      ((Launch.mk device (.finalizeTag frame plaintextLen roundKeys root) 1 1).body
        0).writes memory := by
  have first : (Launch.mk device (.finalizeTag frame plaintextLen roundKeys root) 1
    1).thread 0 = ⟨0, 0, 1⟩ := by
    rw [Launch.thread, Nat.zero_div, Nat.zero_mod]
  rw [Launch.body, first]
  dsimp only [Kernel.body]
  rw [finalizeTagKernel, if_neg (by simp), Program.writes_bind]
  refine List.mem_append_right _ ?_
  generalize (expectedTag device frame roundKeys root).value memory = expected
  generalize (expectedTag device frame roundKeys root).exec memory = later
  refine Program.mem_writes_forEach (List.mem_finRange i) (fun current => ?_) later
  rw [storeByte, Program.writes_store]
  exact List.mem_singleton_self _

/-- Without blocks there is one node and no invalid grid. -/
theorem ghashLaunches_valid_of_empty (device : Int) (h : KeyHandle) (ciphertext : Ptr)
    {len : Nat} (empty : blockCount len = 0) :
    GridsValid (ghashLaunches device h ciphertext len) := by
  have nodes : requiredNodes len = 1 := by
    rw [requiredNodes, empty]
    rfl
  intro l member
  rw [ghashLaunches, nodes, reduceLaunches, if_neg (by omega)] at member
  rw [List.mem_singleton.mp member]
  show 1 ≤ castInt ((1 + 128 - 1) / 128)
  decide

theorem sealLaunches_valid_of_empty (device : Int) (h : KeyHandle) (src dst : Ptr)
    {plaintextLen : Nat} (empty : blockCount plaintextLen = 0)
    (iv : Vector Byte 12) :
    GridsValid (sealLaunches device h src plaintextLen dst iv) := by
  intro l member
  rw [sealLaunches, ctrLaunches, if_neg (by omega), List.nil_append, List.mem_cons,
    List.mem_append, List.mem_singleton] at member
  rcases member with rfl | hash | rfl
  · exact le_refl 1
  · exact ghashLaunches_valid_of_empty device h _ empty l hash
  · exact le_refl 1

/-- A seal that gets as far as a tag that escapes may succeed and write outside its
buffer. -/
theorem seal_escapes {s : HostState} {key src dst : Ptr}
    {plaintextLen dstCapacity : Nat} {h : KeyHandle} {leaked : List Block}
    (accounted : Accounted s leaked) (live : s.handles.lookup key = some h)
    (escapes : SealEscapes s key src plaintextLen dst dstCapacity)
    (word : dstCapacity < 2 ^ 64) (iv : Vector Byte 12) (stream : Ptr) :
    let o := lmcacheGpuAes128gcmSealAsync key src plaintextLen dst dstCapacity
      (some iv) stream .steady s
    o.value = .ok ∧ ¬ SealInside o key src plaintextLen dst dstCapacity := by
  intro o
  let launches := fun device h' => sealLaunches device h' src plaintextLen dst iv
  have effect := lmcacheGpuAes128gcmSealAsync_spec .steady accounted live
    escapes.admits iv stream
  have ok : o.value = .ok := succeeds stream launches effect
    (fun _ _ _ _ _ done => ⟨done.1, done.2.1⟩) (Driver.steady_succeeds _)
    escapes.clear fun device h' =>
      sealLaunches_valid_of_empty device h' src dst escapes.length.empty iv
  obtain ⟨h', before, -, -, -, -, trace⟩ := completed stream launches effect
    (fun _ _ _ _ _ done => ⟨done.1, done.2.1⟩) ok
  refine ⟨ok, ?_⟩
  rintro ⟨g, -, touches⟩
  let final : Launch := ⟨h.device, .finalizeTag dst plaintextLen h'.dRoundKeys
    (ghashRoot h' plaintextLen), 1, 1⟩
  have member : Event.launch stream final ∈ o.events := by
    rw [show o.events = _ from trace]
    refine List.mem_append_right _ (List.mem_map_of_mem ?_)
    show final ∈ sealLaunches ..
    rw [sealLaunches_eq]
    exact List.mem_append_right _ (List.mem_singleton_self _)
  obtain ⟨i, outside⟩ := tagByte_outside dst escapes.length word
  have tag := finalizeTag_writes h.device dst plaintextLen h'.dRoundKeys
    (ghashRoot h' plaintextLen) oneKeyMemory i
  rcases (touches stream final member 0 Nat.zero_lt_one oneKeyMemory).2 _ tag with
    inFrame | ⟨k, -, same | same⟩
  · exact outside inFrame
  · cases same
  · cases same

/-! ## Open -/

/-- Where the frame size wraps but the block count does not, the grid of the
segment kernel is cast to zero. -/
theorem segmentGrid_wraps {plaintextLen : Nat} (wraps : 2 ^ 64 ≤ plaintextLen + 29)
    (blocks : plaintextLen + 15 < 2 ^ 64) :
    castInt ((requiredNodes plaintextLen + 128 - 1) / 128) = 0 := by
  have count : blockCount plaintextLen = (plaintextLen + 15) / 16 :=
    Refinement.blockCount_eq blocks
  have nodes : requiredNodes plaintextLen = (blockCount plaintextLen + 1 + 64 - 1) / 64 :=
    rfl
  have grid : (requiredNodes plaintextLen + 128 - 1) / 128 = 2 ^ 47 := by omega
  rw [grid]
  decide

theorem ghashLaunches_segment (device : Int) (h : KeyHandle) (ciphertext : Ptr)
    (len : Nat) :
    ∃ segment : Launch,
      segment.grid = castInt ((requiredNodes len + 128 - 1) / 128) ∧
      ghashLaunches device h ciphertext len = segment ::
        reduceLaunches device h.dHPow2 h.dNodesA h.dNodesB (requiredNodes len) := by
  rw [ghashLaunches]
  generalize castInt ((requiredNodes len + 128 - 1) / 128) = grid
  exact ⟨_, rfl, rfl⟩

/-- There only combine launches can be among the events. -/
theorem open_launches_wrapped {driver : Driver} {stream src dst authOk : Ptr}
    {plaintextLen : Nat} {s₁ s₂ : HostState} {h' : KeyHandle} {rc : ReturnCode}
    {after : List Event} (wraps : 2 ^ 64 ≤ plaintextLen + 29)
    (blocks : plaintextLen + 15 < 2 ^ 64)
    (done : OpenBody driver stream src dst plaintextLen authOk s₁ h' rc s₂ after)
    (configured : ∀ event ∈ after, event.Configured) {stream' : Ptr} {l : Launch}
    (member : Event.launch stream' l ∈ after) :
    l ∈ reduceLaunches s₁.device h'.dHPow2 h'.dNodesA h'.dNodesB
      (requiredNodes plaintextLen) := by
  have zero := segmentGrid_wraps wraps blocks
  have noSegment : ∀ l, Event.launch stream l ∈ after →
      l.grid ≠ castInt ((requiredNodes plaintextLen + 128 - 1) / 128) := by
    intro l launched same
    have valid : 1 ≤ l.grid := configured _ launched
    rw [same, zero] at valid
    exact absurd valid (by decide)
  obtain ⟨segment, grid, list⟩ := ghashLaunches_segment s₁.device h'
    (advance src HEADER_LEN) plaintextLen
  obtain ⟨-, -, ⟨part, sub, rfl, -⟩ | ⟨-, check, counter, -, -, rfl⟩⟩ := done
  · obtain ⟨l', launched, same⟩ := List.mem_map.mp member
    cases same
    have inHash := sub.subset launched
    rw [list] at inHash
    rcases List.mem_cons.mp inHash with rfl | reduce
    · exact absurd grid (noSegment _ member)
    · exact reduce
  · refine absurd grid (noSegment segment ?_)
    rw [launchEvents_append, list]
    exact List.mem_append_left _ (List.mem_cons_self ..)

/-- Each launch of an open stays inside, if the tag does not escape or an error was
pending. -/
theorem openBody_inside {driver : Driver} {stream src dst authOk : Ptr}
    {plaintextLen frameLen : Nat} {s₁ s₂ : HostState} {h' : KeyHandle}
    {rc : ReturnCode} {events : List Event} (word : plaintextLen < 2 ^ 64)
    (room : lmcacheGpuAesgcmFrameSize plaintextLen ≤ frameLen)
    (fits : requiredNodes plaintextLen ≤ h'.nodeCapacity)
    (stays : TagEscapes plaintextLen → s₁.lastError ≠ cudaSuccess)
    (done : OpenBody driver stream src dst plaintextLen authOk s₁ h' rc s₂ events)
    (configured : ∀ event ∈ events, event.Configured)
    {stream' : Ptr} {l : Launch} (member : Event.launch stream' l ∈ events) :
    l.reads ⊆ span src frameLen ∪ {.flag authOk} ∪ workspaceCells h' ∪ keyTables h' ∧
    l.writes ⊆ span dst plaintextLen ∪ {.flag authOk} ∪ workspaceCells h' := by
  have nodes := workspaceCells_mono fits
  by_cases blocks : plaintextLen + 29 < 2 ^ 64 ∨ 2 ^ 64 ≤ plaintextLen + 15
  case neg =>
    rw [not_or] at blocks
    obtain ⟨reads, writes⟩ := reduceLaunches_inside s₁.device h'.dHPow2 _ _ _ l
      (open_launches_wrapped (by omega) (by omega) done configured member)
    constructor
    · intro cell read
      rcases reads read with node | table
      · exact Or.inl (Or.inr (nodes node))
      · exact Or.inr ⟨0, Or.inr table⟩
    · exact fun cell write => Or.inr (nodes (writes write))
  case pos =>
    by_cases escapes : TagEscapes plaintextLen
    · obtain ⟨-, -, ⟨part, inside, rfl, -⟩ | ⟨clear, -⟩⟩ := done
      · obtain ⟨l', launched, same⟩ := List.mem_map.mp member
        cases same
        obtain ⟨reads, writes⟩ := ghashLaunches_inside s₁.device h' _ _ l
          (inside.subset launched)
        have front := frameFront_inside src word room blocks
        constructor
        · intro cell read
          rcases reads read with (bytes | node) | table
          · exact Or.inl (Or.inl (Or.inl (front (Or.inr bytes))))
          · exact Or.inl (Or.inr (nodes node))
          · exact Or.inr ⟨0, Or.inr table⟩
        · exact fun cell write => Or.inr (nodes (writes write))
      · exact absurd clear (stays escapes)
    · obtain ⟨part, inside, rfl⟩ := done.1.part
      obtain ⟨l', launched, same⟩ := List.mem_map.mp member
      cases same
      obtain ⟨reads, writes⟩ := openLaunches_inside s₁.device h' src dst word authOk l
        (inside.subset launched)
      have frame := frameBytes_inside src word escapes room blocks
      constructor
      · intro cell read
        rcases reads read with ((bytes | flag) | node) | table
        · exact Or.inl (Or.inl (Or.inl (frame bytes)))
        · exact Or.inl (Or.inl (Or.inr flag))
        · exact Or.inl (Or.inr (nodes node))
        · exact Or.inr ⟨_, table⟩
      · intro cell write
        rcases writes write with (bytes | flag) | node
        · exact Or.inl (Or.inl (bytesBetween_mono (le_refl 0) (coveredLen_le _) bytes))
        · exact Or.inl (Or.inr flag)
        · exact Or.inr (nodes node)

theorem openInside {driver : Driver} {s : HostState} {key src dst authOk : Ptr}
    {plaintextLen frameLen : Nat} {h : KeyHandle} {leaked : List Block}
    (accounted : Accounted s leaked) (live : s.handles.lookup key = some h)
    (word : plaintextLen < 2 ^ 64)
    (stays : ¬ OpenEscapes s key src frameLen dst plaintextLen authOk)
    (stream : Ptr) :
    OpenInside (lmcacheGpuAes128gcmOpenAsync key src frameLen dst plaintextLen authOk
      stream driver s) key src frameLen dst plaintextLen authOk := by
  by_cases admits : OpenAdmits key src frameLen dst plaintextLen authOk
  case neg =>
    rw [lmcacheGpuAes128gcmOpenAsync_refused admits]
    exact ⟨h, live, touches_bookkeeping .nil⟩
  case pos =>
    have effect := lmcacheGpuAes128gcmOpenAsync_spec driver accounted live admits
      stream
    have configured := lmcacheGpuAes128gcmOpenAsync_configured key src frameLen dst
      plaintextLen authOk stream driver s
    obtain ⟨h', live', bookkeeping | ⟨fits, s₁, rc, s₂, before, after, done, sticky,
      bookkeeping, trace⟩⟩ := GuardedEffect_launches live effect
    · exact ⟨h', live', touches_bookkeeping bookkeeping⟩
    · have pending : TagEscapes plaintextLen → s₁.lastError ≠ cudaSuccess :=
        fun escapes clear => stays ⟨escapes, admits, sticky clear⟩
      rw [trace] at configured
      have configured' : ∀ event ∈ after, event.Configured := fun event member =>
        configured event (List.mem_append_right _ member)
      refine ⟨h', live', ?_⟩
      rw [trace]
      exact touches_append bookkeeping fun stream' l member =>
        openBody_inside word admits.frame fits pending done configured' member

/-- The check of the tag reads all bytes of the tag. -/
theorem verifyTag_reads (device : Int) (h : KeyHandle) (frame : Ptr)
    (plaintextLen : Nat) (authOk : Ptr) (memory : Memory) (i : Fin 16) :
    Cell.byte (advance (tagAddress frame plaintextLen) i.val) ∈
      ((verifyLaunch device h frame plaintextLen authOk).body 0).reads memory := by
  have first : (verifyLaunch device h frame plaintextLen authOk).thread 0 =
      ⟨0, 0, 1⟩ := by
    rw [verifyLaunch, Launch.thread, Nat.zero_div, Nat.zero_mod]
  rw [Launch.body, first]
  dsimp only [verifyLaunch, Kernel.body]
  rw [verifyTagKernel, if_neg (by simp), Program.reads_bind, Program.reads_bind]
  refine List.mem_append_right _ (List.mem_append_left _ ?_)
  exact Program.mem_reads_collect i (fun current => List.mem_cons_self ..) _

theorem openLaunches_valid_of_empty (device : Int) (h : KeyHandle)
    (src dst authOk : Ptr) {plaintextLen : Nat} (empty : blockCount plaintextLen = 0) :
    GridsValid (openLaunches device h src dst plaintextLen authOk) := by
  intro l member
  rw [openLaunches, openCtrLaunches, ctrLaunches, if_neg (by omega), List.mem_append,
    List.mem_singleton] at member
  rcases member with hash | rfl
  · exact ghashLaunches_valid_of_empty device h _ empty l hash
  · exact le_refl 1

/-- An open that gets as far as a tag that escapes may succeed and read outside its
buffer. -/
theorem open_escapes {s : HostState} {key src dst authOk : Ptr}
    {plaintextLen frameLen : Nat} {h : KeyHandle} {leaked : List Block}
    (accounted : Accounted s leaked) (live : s.handles.lookup key = some h)
    (escapes : OpenEscapes s key src frameLen dst plaintextLen authOk)
    (word : frameLen < 2 ^ 64) (stream : Ptr) :
    let o := lmcacheGpuAes128gcmOpenAsync key src frameLen dst plaintextLen authOk
      stream .steady s
    o.value = .ok ∧ ¬ OpenInside o key src frameLen dst plaintextLen authOk := by
  intro o
  let launches := fun device h' => openLaunches device h' src dst plaintextLen authOk
  have effect := lmcacheGpuAes128gcmOpenAsync_spec .steady accounted live
    escapes.admits stream
  have ok : o.value = .ok := succeeds stream launches effect
    (fun _ _ _ _ _ done => ⟨done.1, done.2.1⟩) (Driver.steady_succeeds _)
    escapes.clear fun device h' =>
      openLaunches_valid_of_empty device h' src dst authOk escapes.length.empty
  obtain ⟨h', before, -, -, -, -, trace⟩ := completed stream launches effect
    (fun _ _ _ _ _ done => ⟨done.1, done.2.1⟩) ok
  refine ⟨ok, ?_⟩
  rintro ⟨g, -, touches⟩
  let check := verifyLaunch h.device h' src plaintextLen authOk
  have member : Event.launch stream check ∈ o.events := by
    rw [show o.events = _ from trace]
    refine List.mem_append_right _ (List.mem_map_of_mem ?_)
    exact List.mem_append_right _ (List.mem_cons_self ..)
  obtain ⟨i, outside⟩ := tagByte_outside src escapes.length word
  have tag := verifyTag_reads h.device h' src plaintextLen authOk oneKeyMemory i
  rcases (touches stream check member 0 Nat.zero_lt_one oneKeyMemory).1 _ tag with
    ((inFrame | same) | ⟨k, -, same | same⟩) | ⟨_, (same | same) | ⟨k, -, same⟩⟩
  · exact outside inFrame
  · cases same
  · cases same
  · cases same
  · cases same
  · cases same
  · cases same

/-! ## All calls -/

/-- A reservation launches nothing. -/
theorem reserve_bookkeeping (driver : Driver) {s : HostState} {key : Ptr}
    {h : KeyHandle} {leaked : List Block} (accounted : Accounted s leaked)
    (live : s.handles.lookup key = some h) (nonnull : key ≠ 0)
    (maxPlaintextLen : Nat) :
    Bookkeeping (lmcacheGpuAes128gcmReserve key maxPlaintextLen driver s).events := by
  have effect := lmcacheGpuAes128gcmReserve_spec driver accounted live nonnull
    maxPlaintextLen
  obtain ⟨h', -, bookkeeping | ⟨-, s₁, rc, s₂, before, after, ⟨-, rfl⟩, -,
    bookkeeping, trace⟩⟩ := GuardedEffect_launches live effect
  · exact bookkeeping
  · rw [trace, List.append_nil]
    exact bookkeeping

/-- Whatever the driver does, this call of a seal stays inside its buffers. -/
def SealStaysInside {α : Type} (call : Cuda α) (s : HostState) (key src : Ptr)
    (plaintextLen : Nat) (dst : Ptr) (dstCapacity : Nat) : Prop :=
  ∀ driver, SealInside (call driver s) key src plaintextLen dst dstCapacity

/-- Whatever the driver does, this call of an open stays inside its buffers. -/
def OpenStaysInside {α : Type} (call : Cuda α) (s : HostState) (key src : Ptr)
    (frameLen : Nat) (dst : Ptr) (plaintextLen : Nat) (authOk : Ptr) : Prop :=
  ∀ driver, OpenInside (call driver s) key src frameLen dst plaintextLen authOk

/-- Whatever the driver does, no kernel of this call touches anything. -/
def TouchesNothing {α : Type} (call : Cuda α) (s : HostState) : Prop :=
  ∀ driver, Touches (call driver s).events ∅ ∅

section Calls

variable {s : HostState} {key : Ptr} {h : KeyHandle} {leaked : List Block}
  (accounted : Accounted s leaked) (live : s.handles.lookup key = some h)

include accounted live

theorem sealStaysInside_iff (src : Ptr) {plaintextLen : Nat} (dst : Ptr)
    {dstCapacity : Nat} (iv : Option (Vector Byte 12)) (stream : Ptr)
    (word : plaintextLen < 2 ^ 64) (capacity : dstCapacity < 2 ^ 64) :
    SealStaysInside (lmcacheGpuAes128gcmSealAsync key src plaintextLen dst dstCapacity
        iv stream) s key src plaintextLen dst dstCapacity ↔
      ¬ (iv.isSome ∧ SealEscapes s key src plaintextLen dst dstCapacity) := by
  constructor
  · rintro inside ⟨given, escapes⟩
    obtain ⟨iv, rfl⟩ := Option.isSome_iff_exists.mp given
    exact (seal_escapes accounted live escapes capacity iv stream).2 (inside .steady)
  · exact fun stays driver => sealInside accounted live word stays stream

theorem openStaysInside_iff (src : Ptr) {frameLen : Nat} (dst : Ptr)
    {plaintextLen : Nat} (authOk stream : Ptr) (word : plaintextLen < 2 ^ 64)
    (length : frameLen < 2 ^ 64) :
    OpenStaysInside (lmcacheGpuAes128gcmOpenAsync key src frameLen dst plaintextLen
        authOk stream) s key src frameLen dst plaintextLen authOk ↔
      ¬ OpenEscapes s key src frameLen dst plaintextLen authOk := by
  constructor
  · exact fun inside escapes =>
      (open_escapes accounted live escapes length stream).2 (inside .steady)
  · exact fun stays driver => openInside accounted live word stays stream

theorem reserve_touchesNothing (maxPlaintextLen : Nat) :
    TouchesNothing (lmcacheGpuAes128gcmReserve key maxPlaintextLen) s := fun driver =>
  touches_bookkeeping (reserve_bookkeeping driver accounted live
    (accounted.keys key (AList.lookup_isSome.mp (by rw [live]; rfl))) maxPlaintextLen)

end Calls

/-! ## The binding -/

theorem cSizeT_lt (value : Int) : cSizeT value < 2 ^ 64 := by
  unfold cSizeT
  omega

section Check

variable (call : Cuda ReturnCode) (operation : String) (s : HostState)

/-- A call of the binding: an error code is raised. -/
def checked : Cuda (Except BindingError Unit) := do
  let rc ← call
  pure (check rc operation)

/-- Raising it enqueues nothing. -/
theorem checked_trace (driver : Driver) :
    (checked call operation driver s).state = (call driver s).state ∧
      (checked call operation driver s).events = (call driver s).events := by
  dsimp only [checked, TracedState.Traced.bind_apply, TracedState.Traced.pure_apply]
  rw [List.append_nil]
  exact ⟨rfl, rfl⟩

theorem sealStaysInside_checked (key src : Ptr) (plaintextLen : Nat) (dst : Ptr)
    (dstCapacity : Nat) :
    SealStaysInside (checked call operation) s key src plaintextLen dst dstCapacity ↔
      SealStaysInside call s key src plaintextLen dst dstCapacity := by
  refine forall_congr' fun driver => ?_
  obtain ⟨state, events⟩ := checked_trace call operation s driver
  rw [SealInside, SealInside, state, events]

theorem openStaysInside_checked (key src : Ptr) (frameLen : Nat) (dst : Ptr)
    (plaintextLen : Nat) (authOk : Ptr) :
    OpenStaysInside (checked call operation) s key src frameLen dst plaintextLen
        authOk ↔
      OpenStaysInside call s key src frameLen dst plaintextLen authOk := by
  refine forall_congr' fun driver => ?_
  obtain ⟨state, events⟩ := checked_trace call operation s driver
  rw [OpenInside, OpenInside, state, events]

theorem touchesNothing_checked (nothing : TouchesNothing call s) :
    TouchesNothing (checked call operation) s := by
  intro driver
  rw [(checked_trace call operation s driver).2]
  exact nothing driver

end Check

section Binding

variable {s : HostState} {key : Ptr} {h : KeyHandle} {leaked : List Block}
  (accounted : Accounted s leaked) (live : s.handles.lookup key = some h)

include accounted live

/-- The binding checks the length of the IV and nothing else. -/
theorem sealAsync_staysInside_iff (srcPtr plaintextLen dstPtr dstCapacity : Int)
    (iv : List Byte) (streamPtr : Int) :
    SealStaysInside (GpuAes128GcmKey.sealAsync key srcPtr plaintextLen dstPtr
        dstCapacity iv streamPtr) s key (cVoidP srcPtr) (cSizeT plaintextLen)
        (cVoidP dstPtr) (cSizeT dstCapacity) ↔
      ¬ (iv.length = IV_LEN ∧ SealEscapes s key (cVoidP srcPtr) (cSizeT plaintextLen)
        (cVoidP dstPtr) (cSizeT dstCapacity)) := by
  by_cases size : iv.length = IV_LEN
  · rw [GpuAes128GcmKey.sealAsync, if_neg (not_not_intro size)]
    refine (sealStaysInside_checked ..).trans ((sealStaysInside_iff accounted live _ _ _
      _ (cSizeT_lt _) (cSizeT_lt _)).trans (not_congr ?_))
    exact and_congr_left fun _ => iff_of_true rfl size
  · rw [GpuAes128GcmKey.sealAsync, if_pos size]
    refine iff_of_true (fun driver => ?_) fun escapes => size escapes.1
    exact ⟨h, live, touches_bookkeeping .nil⟩

theorem openAsync_staysInside_iff (srcPtr frameLen dstPtr plaintextLen authOkPtr
    streamPtr : Int) :
    OpenStaysInside (GpuAes128GcmKey.openAsync key srcPtr frameLen dstPtr plaintextLen
        authOkPtr streamPtr) s key (cVoidP srcPtr) (cSizeT frameLen) (cVoidP dstPtr)
        (cSizeT plaintextLen) (cVoidP authOkPtr) ↔
      ¬ OpenEscapes s key (cVoidP srcPtr) (cSizeT frameLen) (cVoidP dstPtr)
        (cSizeT plaintextLen) (cVoidP authOkPtr) :=
  (openStaysInside_checked ..).trans
    (openStaysInside_iff accounted live _ _ _ _ (cSizeT_lt _) (cSizeT_lt _))

end Binding

/-- In every state that a run reaches, with every live key: a seal or an open stays
inside its buffers unless it gets as far as a tag that escapes, and a reservation
touches nothing.  The same holds for the calls of the binding, whose arguments are
integers of any size. -/
theorem staysInside_iff {start s : HostState} {calls : List ApiCall}
    (fresh : Fresh start) (run : Run (fun _ => True) start calls s) {key : Ptr}
    (held : key ∈ s.handles) :
    (∀ src plaintextLen dst dstCapacity iv stream,
      plaintextLen < 2 ^ 64 → dstCapacity < 2 ^ 64 →
      (SealStaysInside (lmcacheGpuAes128gcmSealAsync key src plaintextLen dst
          dstCapacity iv stream) s key src plaintextLen dst dstCapacity ↔
        ¬ (iv.isSome ∧ SealEscapes s key src plaintextLen dst dstCapacity))) ∧
    (∀ src frameLen dst plaintextLen authOk stream,
      plaintextLen < 2 ^ 64 → frameLen < 2 ^ 64 →
      (OpenStaysInside (lmcacheGpuAes128gcmOpenAsync key src frameLen dst
          plaintextLen authOk stream) s key src frameLen dst plaintextLen authOk ↔
        ¬ OpenEscapes s key src frameLen dst plaintextLen authOk)) ∧
    (∀ maxPlaintextLen,
      TouchesNothing (lmcacheGpuAes128gcmReserve key maxPlaintextLen) s) ∧
    (∀ srcPtr plaintextLen dstPtr dstCapacity iv streamPtr,
      SealStaysInside (GpuAes128GcmKey.sealAsync key srcPtr plaintextLen dstPtr
          dstCapacity iv streamPtr) s key (cVoidP srcPtr) (cSizeT plaintextLen)
          (cVoidP dstPtr) (cSizeT dstCapacity) ↔
        ¬ (iv.length = IV_LEN ∧ SealEscapes s key (cVoidP srcPtr)
          (cSizeT plaintextLen) (cVoidP dstPtr) (cSizeT dstCapacity))) ∧
    (∀ srcPtr frameLen dstPtr plaintextLen authOkPtr streamPtr,
      OpenStaysInside (GpuAes128GcmKey.openAsync key srcPtr frameLen dstPtr
          plaintextLen authOkPtr streamPtr) s key (cVoidP srcPtr) (cSizeT frameLen)
          (cVoidP dstPtr) (cSizeT plaintextLen) (cVoidP authOkPtr) ↔
        ¬ OpenEscapes s key (cVoidP srcPtr) (cSizeT frameLen) (cVoidP dstPtr)
          (cSizeT plaintextLen) (cVoidP authOkPtr)) ∧
    ∀ maxPlaintextLen, TouchesNothing (GpuAes128GcmKey.reserve key maxPlaintextLen)
      s := by
  obtain ⟨leaked, accounted⟩ := run.accounted ⟨[], fresh.accounted⟩
  obtain ⟨h, live⟩ := Option.isSome_iff_exists.mp (AList.lookup_isSome.mpr held)
  refine ⟨?_, ?_, reserve_touchesNothing accounted live, ?_, ?_, ?_⟩
  · intro src plaintextLen dst dstCapacity iv stream word capacity
    exact sealStaysInside_iff accounted live src dst iv stream word capacity
  · intro src frameLen dst plaintextLen authOk stream word length
    exact openStaysInside_iff accounted live src dst authOk stream word length
  · exact sealAsync_staysInside_iff accounted live
  · exact openAsync_staysInside_iff accounted live
  · exact fun maxPlaintextLen => touchesNothing_checked _ _ s
      (reserve_touchesNothing accounted live (cSizeT maxPlaintextLen))

/-- With minus fourteen bytes the frame is one of fifteen: a seal into fourteen bytes
is refused, and one into fifteen places its tag before them. -/
theorem staysInside_iff_example :
    SealStaysInside (GpuAes128GcmKey.sealAsync 1 16 (-14) 64 14
        (List.replicate 12 0#8) 0) .oneKey 1 16 (2 ^ 64 - 14) 64 14 ∧
      ¬ SealStaysInside (GpuAes128GcmKey.sealAsync 1 16 (-14) 64 15
        (List.replicate 12 0#8) 0) .oneKey 1 16 (2 ^ 64 - 14) 64 15 := by
  have binding := (staysInside_iff HostState.blank_fresh
    (@HostState.oneKey_run (fun _ => True) trivial) (by decide : (1 : Ptr) ∈ _)).2.2.2.1
      16 (-14) 64
  constructor
  · refine (binding 14 (List.replicate 12 0#8) 0).mpr fun escapes => ?_
    exact absurd escapes.2.admits.frame (by decide)
  · refine (binding 15 (List.replicate 12 0#8) 0).not.mpr (not_not_intro ⟨rfl, ?_⟩)
    exact ⟨Or.inr rfl, ⟨by decide, by decide, by decide, by decide, by decide⟩, rfl⟩

/-- A seal of 2 ^ 64 - 14 bytes into fifteen succeeds and writes the byte before
them. -/
theorem tag_before_frame :
    let o := lmcacheGpuAes128gcmSealAsync 1 16 (2 ^ 64 - 14) 64 15
      (some (Vector.replicate 12 0#8)) 0 .steady .oneKey
    o.value = .ok ∧ ¬ SealInside o 1 16 (2 ^ 64 - 14) 64 15 := by
  obtain ⟨leaked, h, usable⟩ := oneKey_live.usable
  have escapes : SealEscapes .oneKey 1 16 (2 ^ 64 - 14) 64 15 := by
    refine ⟨Or.inr rfl, ⟨?_, ?_, ?_, ?_, ?_⟩, ?_⟩ <;> decide
  exact seal_escapes usable.accounted usable.live escapes (by decide) _ 0

end GpuKvSeal.System
