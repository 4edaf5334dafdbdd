import GpuKvSeal.System.Completion
import GpuKvSeal.System.Sessions

/-!
# The reduction tree of the hash

The hash pipeline is compared with the loop that absorbs one block after
another.  Each level of the tree is complete: every node that a launch reads
was written by the launch before it, all within the workspace the length asks
for, and the last launch writes the root and nothing else.
-/

namespace GpuKvSeal.System

open BigEndian (Byte)
open HornerHash (horner)
open CellProgram (Program)
open Device
open Host
open Refinement
open Standard (Gcm.element)
open TracedState.Traced (Ensures)

/-! ## The sequential hash -/

/-- Absorb one block after another, starting from zero. -/
def sequentialHash (h : Block128) (blocks : List Block128) : Block128 :=
  blocks.foldl (fun y x => gfMul (bxor y x) h) ⟨0#64, 0#64⟩

theorem value_sequentialHash (h : Block128) (blocks : List Block128) :
    value (sequentialHash h blocks) = horner (value h) (blocks.map value) := by
  have absorb : ∀ y, value (blocks.foldl (fun y x => gfMul (bxor y x) h) y) =
      (blocks.map value).foldl (fun y x => (y + x) * value h) (value y) := by
    induction blocks with
    | nil => exact fun y => rfl
    | cons x rest ih =>
        intro y
        rw [List.foldl_cons, ih, value_gfMul, value_bxor, List.map_cons,
          List.foldl_cons]
  rw [sequentialHash, absorb, value_zero]
  rfl

/-- Block `i` of a text in memory, padded with zeros. -/
def zeroPadded (memory : Memory) (text : Ptr) (len i : Nat) : Block128 :=
  loadBe128 (Vector.ofFn fun j =>
    if i * 16 + j.val < len then memory (.byte (advance text (i * 16 + j.val)))
    else 0#8)

/-- The blocks of a text, and the block of the two lengths in bits. -/
def hashedBlocks (memory : Memory) (text : Ptr) (len : Nat) : List Block128 :=
  (List.range ((len + 15) / 16)).map (zeroPadded memory text len) ++
    [⟨0#64, BitVec.ofNat 64 (8 * len)⟩]

theorem termAt_zeroPadded (memory : Memory) (text : Ptr) {len i : Nat}
    (inside : i < blockCount len) :
    termAt memory text len i = zeroPadded memory text len i := by
  have notLast : i ≠ blockCount len := by omega
  rw [termAt, loadCiphertextTerm, if_neg notLast]
  simp only [CellProgram.Program.value_bind, CellProgram.Program.value_pure]
  rw [zeroPadded, CellProgram.Program.value_collect]
  · congr 2
    funext j
    split <;> rfl
  · intro j
    split <;> rfl

theorem termAt_lengths (memory : Memory) (text : Ptr) (len : Nat) :
    termAt memory text len (blockCount len) =
      ⟨0#64, BitVec.ofNat 64 (8 * len)⟩ := by
  rw [termAt, loadCiphertextTerm, if_pos rfl, CellProgram.Program.value_pure,
    Nat.mul_comm 8, BitVec.ofNat_mul]

/-- The terms of the device are the blocks of the text. -/
theorem hashTerms_hashedBlocks (memory : Memory) (text : Ptr) {len : Nat}
    (small : len + 15 < 2 ^ 64) :
    hashTerms memory text len = (hashedBlocks memory text len).map value := by
  rw [hashTerms, hashedBlocks, List.range_succ, List.map_append, List.map_append,
    List.map_map, ← blockCount_eq small]
  refine congrArg₂ (· ++ ·) ?_ ?_
  · refine List.map_congr_left fun i member => ?_
    rw [termAt_zeroPadded memory text (List.mem_range.mp member)]
    rfl
  · rw [List.map_singleton, List.map_singleton, termAt_lengths]

/-! ## What each launch writes -/

/-- The number of nodes that a launch of the hash makes. -/
def nodesMade : Kernel → Nat
  | .ghashSegment _ len _ _ =>
      (blockCount len + 1 + GHASH_SEGMENT_BLOCKS - 1) / GHASH_SEGMENT_BLOCKS
  | .ghashCombine _ _ count _ => (count + 1) / 2
  | _ => 0

/-- The launch writes the first nodes of a buffer, whatever is in memory. -/
def Makes (schedule : Schedule) (l : Launch) (nodes : Ptr) (count : Nat) : Prop :=
  ∀ memory cell, cell ∈ (l.program schedule memory).writes memory ↔
    ∃ i < count, cell = .node nodes i

theorem ghashSegment_makes (schedule : Schedule) (device : Int)
    (ciphertext : Ptr) (len : Nat) (hPow2 nodes : Ptr) (grid : Int)
    (covers : requiredNodes len ≤ grid.toNat * 128) :
    Makes schedule ⟨device, .ghashSegment ciphertext len hPow2 nodes, grid, 128⟩
      nodes (requiredNodes len) := by
  have segment : GHASH_SEGMENT_BLOCKS = 64 := rfl
  have count : requiredNodes len = (blockCount len + 1 + 64 - 1) / 64 := rfl
  intro memory cell
  let l := Launch.mk device (.ghashSegment ciphertext len hPow2 nodes) grid 128
  constructor
  · intro write
    obtain ⟨i, -, below, same⟩ :=
      (l.program_within schedule memory).writes_mem memory write
    rw [segment] at below
    exact ⟨_, by omega, same⟩
  · rintro ⟨i, below, rfl⟩
    have thread : i < l.threadCount := lt_of_lt_of_le below covers
    refine CellProgram.Program.mem_writes_forEach
      ((l.mem_order schedule memory).mpr thread) (fun current => ?_) memory
    have inside : ¬ i * GHASH_SEGMENT_BLOCKS ≥ blockCount len + 1 := by
      rw [segment]
      omega
    show _ ∈ (ghashSegmentKernel ciphertext len hPow2 nodes
      (l.thread i)).writes current
    rw [ghashSegmentKernel, l.thread_index, if_neg inside]
    simp

theorem ghashCombine_makes (schedule : Schedule) (device : Int)
    (input output : Ptr) (count : Nat) (hPow2 : Ptr) (grid : Int)
    (covers : (count + 1) / 2 ≤ grid.toNat * 128) :
    Makes schedule ⟨device, .ghashCombine input output count hPow2, grid, 128⟩
      output ((count + 1) / 2) := by
  intro memory cell
  let l := Launch.mk device (.ghashCombine input output count hPow2) grid 128
  constructor
  · intro write
    obtain ⟨i, -, below, same⟩ :=
      (l.program_within schedule memory).writes_mem memory write
    exact ⟨_, by omega, same⟩
  · rintro ⟨i, below, rfl⟩
    have thread : i < l.threadCount := lt_of_lt_of_le below covers
    refine CellProgram.Program.mem_writes_forEach
      ((l.mem_order schedule memory).mpr thread) (fun current => ?_) memory
    have inside : ¬ i * 2 ≥ count := by omega
    show _ ∈ (ghashCombineKernel input output count hPow2
      (l.thread i)).writes current
    rw [ghashCombineKernel, l.thread_index, if_neg inside]
    simp only [CellProgram.Program.writes_bind]
    split <;> simp

/-! ## Level by level -/

/-- Every node that a launch reads is available to it: the first launch finds
the given cells, each later one what the launch before it wrote. -/
def Fed (schedule : Schedule) : Set Cell → Memory → List Launch → Prop
  | _, _, [] => True
  | available, memory, l :: rest =>
      (∀ p i, .node p i ∈ (l.program schedule memory).reads memory →
        Cell.node p i ∈ available) ∧
      Fed schedule {cell | cell ∈ (l.program schedule memory).writes memory}
        (l.run schedule memory) rest

/-- The grid of a launch is not truncated and has a thread for every node that
the launch makes. -/
structure CoversNodes (l : Launch) : Prop where
  exactly : l.grid = ((nodesMade l.kernel + 128 - 1) / 128 : Nat)
  positive : 1 ≤ l.grid
  threads : nodesMade l.kernel ≤ l.threadCount

theorem CoversNodes.of_cast {device : Int} {kernel : Kernel} {grid : Int}
    (cast : grid = castInt ((nodesMade kernel + 128 - 1) / 128))
    (some : 0 < nodesMade kernel) (small : nodesMade kernel < 2 ^ 31) :
    CoversNodes ⟨device, kernel, grid, 128⟩ := by
  have bound : (nodesMade kernel + 128 - 1) / 128 < 2 ^ 31 := by omega
  have exactly : grid = ((nodesMade kernel + 128 - 1) / 128 : Nat) := by
    rw [cast, castInt_small bound]
  have positive : 1 ≤ grid := by
    rw [cast]
    exact castInt_valid some (by decide) bound
  have threads : nodesMade kernel ≤ grid.toNat * 128 := by
    rw [cast]
    exact castInt_covers (by decide) bound
  exact ⟨exactly, positive, threads⟩

section Reduction

variable (schedule : Schedule) (device : Int) (hPow2 : Ptr)

theorem reduceLaunches_fed (count : Nat) :
    ∀ (a b : Ptr) (available : Set Cell) (memory : Memory), count < 2 ^ 31 →
      (∀ i < count, Cell.node a i ∈ available) →
      Fed schedule available memory (reduceLaunches device hPow2 a b count) := by
  induction count using Nat.strongRecOn with
  | ind count ih =>
      intro a b available memory small filled
      rw [reduceLaunches]
      by_cases more : count > 1
      · rw [if_pos more]
        let l := Launch.mk device (.ghashCombine a b count hPow2)
          (castInt (((count + 1) / 2 + 128 - 1) / 128)) 128
        have makes : Makes schedule l b ((count + 1) / 2) :=
          ghashCombine_makes schedule device a b count hPow2 _
            (castInt_covers (by decide) (by omega))
        constructor
        · intro p i read
          have inside := (l.program_within schedule memory).reads_mem memory read
          rcases combine_reads _ _ _ _ _ _ _ inside with
            ⟨j, below, same⟩ | ⟨j, -, same⟩
          · rw [same]
            exact filled j below
          · cases same
        · exact ih ((count + 1) / 2) (by omega) b a _ _ (by omega)
            fun i below => (makes memory _).mpr ⟨i, below, rfl⟩
      · rw [if_neg more]
        trivial

theorem reduceLaunches_covers (count : Nat) :
    ∀ a b, count < 2 ^ 31 →
      ∀ l ∈ reduceLaunches device hPow2 a b count, CoversNodes l := by
  intro a b small l member
  obtain ⟨input, output, n, -, several, fewer, rfl⟩ := mem_reduceLaunches member
  have made : nodesMade (.ghashCombine input output n hPow2) = (n + 1) / 2 := rfl
  exact CoversNodes.of_cast (by rw [made]) (by omega) (by omega)

/-- The launches end with one that makes the root. -/
theorem reduceLaunches_makes (count : Nat) :
    ∀ (first : Launch) (a b : Ptr), 0 < count → count < 2 ^ 31 →
      Makes schedule first a count →
      ∃ init last,
        first :: reduceLaunches device hPow2 a b count = init ++ [last] ∧
          Makes schedule last (reduceRoot a b count) 1 := by
  induction count using Nat.strongRecOn with
  | ind count ih =>
      intro first a b some small makes
      rw [reduceLaunches, reduceRoot]
      by_cases more : count > 1
      · rw [if_pos more, if_pos more]
        obtain ⟨init, last, split, root⟩ := ih ((count + 1) / 2) (by omega) _ b a
          (by omega) (by omega) (ghashCombine_makes schedule device a b count hPow2
            (castInt (((count + 1) / 2 + 128 - 1) / 128))
            (castInt_covers (by decide) (by omega)))
        exact ⟨first :: init, last, congrArg (first :: ·) split, root⟩
      · rw [if_neg more, if_neg more]
        obtain rfl : count = 1 := by omega
        exact ⟨[], first, rfl, makes⟩

end Reduction

/-- What the reduction tree of a hash is, over a workspace of two buffers. -/
structure HashTree (schedule : Schedule) (memory : Memory) (a b root : Ptr)
    (required : Nat) (launches : List Launch) : Prop where
  fed : Fed schedule ∅ memory launches
  inside : ∀ l ∈ launches, ∀ current p i,
    .node p i ∈ (l.program schedule current).reads current ∨
      .node p i ∈ (l.program schedule current).writes current →
    i < required ∧ (p = a ∨ p = b)
  covers : ∀ l ∈ launches, CoversNodes l
  root : ∃ init last, launches = init ++ [last] ∧ Makes schedule last root 1

theorem ghashLaunches_tree (schedule : Schedule) (device : Int)
    (handle : KeyHandle) (ciphertext : Ptr) {len : Nat}
    (admissible : len ≤ 2 ^ 36 - 32) (memory : Memory) :
    HashTree schedule memory handle.dNodesA handle.dNodesB
      (ghashRoot handle len) (requiredNodes len)
      (ghashLaunches device handle ciphertext len) := by
  have blocks : blockCount len = (len + 15) / 16 := blockCount_eq (by omega)
  have nodes : requiredNodes len = (blockCount len + 1 + 64 - 1) / 64 := rfl
  have made : nodesMade (.ghashSegment ciphertext len handle.dHPow2
      handle.dNodesA) = requiredNodes len := rfl
  have some := requiredNodes_pos len
  let l := Launch.mk device
    (.ghashSegment ciphertext len handle.dHPow2 handle.dNodesA)
    (castInt ((requiredNodes len + 128 - 1) / 128)) 128
  have makes : Makes schedule l handle.dNodesA (requiredNodes len) :=
    ghashSegment_makes schedule device ciphertext len handle.dHPow2 _ _
      (castInt_covers (by decide) (by omega))
  constructor
  · constructor
    · intro p i read
      have footprint := (l.program_within schedule memory).reads_mem memory read
      rcases footprint with ⟨_, -, ⟨_, _, _, same⟩ | ⟨_, _, same⟩⟩
      · cases same
      · cases same
    · exact reduceLaunches_fed schedule device handle.dHPow2 _ _ _ _ _
        (by omega) fun i below => (makes memory _).mpr ⟨i, below, rfl⟩
  · intro l member current p i touched
    obtain ⟨reads, writes⟩ :=
      ghashLaunches_inside device handle ciphertext len l member
    have within := l.program_within schedule current
    have node : Cell.node p i ∈
        nodeCells handle.dNodesA handle.dNodesB (requiredNodes len) := by
      rcases touched with read | write
      · rcases reads (within.reads_mem current read) with
          (⟨_, _, _, same⟩ | node) | ⟨_, _, same⟩
        · cases same
        · exact node
        · cases same
      · exact writes (within.writes_mem current write)
    obtain ⟨j, below, same | same⟩ := node
    · obtain ⟨rfl, rfl⟩ := Cell.node.inj same
      exact ⟨below, Or.inl rfl⟩
    · obtain ⟨rfl, rfl⟩ := Cell.node.inj same
      exact ⟨below, Or.inr rfl⟩
  · intro l member
    cases member with
    | head => exact CoversNodes.of_cast (by rw [made]) (by omega) (by omega)
    | tail _ later =>
        exact reduceLaunches_covers device handle.dHPow2 _ _ _ (by omega) l later
  · exact reduceLaunches_makes schedule device handle.dHPow2 _ _ _ _ some
      (by omega) makes

/-! ## The whole hash -/

/-- What `enqueueGhash` enqueues from any state, if it succeeds, and that it
succeeds if nothing fails. -/
structure HashComplete (driver : Driver) (s s' : HostState) (key : Ptr)
    (h : KeyHandle) (ciphertext : Ptr) (len : Nat) (stream : Ptr)
    (rc : ReturnCode) (root : Ptr) (events : List Event) : Prop where
  succeeds : driver.Succeeds {.malloc, .free, .launch} →
    s.lastError = cudaSuccess →
    (∀ h', GridsValid (ghashLaunches s.device h' ciphertext len)) → rc = .ok
  complete : rc = .ok → ∃ h' before, Extends h h' ∧
    s'.handles.lookup key = some h' ∧ h'.dNodesA ≠ h'.dNodesB ∧
    Bookkeeping before ∧ events = before ++
      launchEvents stream (ghashLaunches s.device h' ciphertext len) ∧
    root = ghashRoot h' len

theorem enqueueGhash_complete (driver : Driver) {s : HostState} {key : Ptr}
    {h : KeyHandle} {leaked : List Block} (accounted : Accounted s leaked)
    (live : s.handles.lookup key = some h) (ciphertext : Ptr) (len : Nat)
    (stream : Ptr) :
    (enqueueGhash key ciphertext len stream).Ensures driver s
      fun result s' events => HashComplete driver s s' key h ciphertext len stream
        result.1 result.2 events := by
  have workspace := ensureWorkspace_spec driver accounted live len
  unfold Ensures at workspace
  generalize once : ensureWorkspace key len driver s = first at workspace
  obtain ⟨erc, s₁, before⟩ := first
  -- With a workspace in place the hash runs as if it had been there before.
  have ahead : ∀ h', Extends h h' → s₁.handles.lookup key = some h' →
      requiredNodes len ≤ h'.nodeCapacity →
      (driver.Succeeds {.free} → s₁.lastError = s.lastError) → erc = .ok →
      (enqueueGhash key ciphertext len stream).Ensures driver s
        fun result s' events => HashComplete driver s s' key h ciphertext len
          stream result.1 result.2 events := by
    rintro h' extends_ live₁ fits error rfl
    obtain ⟨lost, accounted₁, -⟩ := workspace.accounted
    have distinct := accounted₁.node_distinct live₁
      (lt_of_lt_of_le (requiredNodes_pos len) fits)
    refine Ensures.ahead once (ensureWorkspace_enough driver live₁ fits) ?_
    refine (enqueueGhash_spec driver stream live₁ fits ciphertext).mono ?_
    rintro ⟨rc, root⟩ s' events ⟨pipe, code, rootEq⟩
    rw [workspace.device] at pipe
    refine ⟨fun reliable clear valid => ?_, fun ok => ?_⟩
    · have free : driver.Succeeds {.free} := fun kind member =>
        reliable kind (Or.inr (Or.inl member))
      have launch : driver.Succeeds {.launch} := fun kind member =>
        reliable kind (Or.inr (Or.inr member))
      have clear₁ : s₁.lastError = cudaSuccess := (error free).trans clear
      rcases pipe.outcome with ⟨-, same⟩ | ⟨-, refused, -⟩
      · rw [code, same, clear₁]
        rfl
      · exact absurd launch (refused clear₁ (valid h'))
    · obtain ⟨whole, -⟩ := pipe.complete (cudaRc_ok (code.symm.trans ok))
      refine ⟨h', before, extends_, ?_, distinct, workspace.events, ?_, rootEq ok⟩
      · exact (congrArg (AList.lookup key) pipe.quiet.handles).trans live₁
      · rw [whole]
  cases workspace.result with
  | enough fits same =>
      subst same
      exact ahead h (Extends.refl h) live fits (fun _ => rfl) rfl
  | grown a b small distinct handles lastError =>
      refine ahead { h with
        dNodesA := a
        dNodesB := b
        nodeCapacity := requiredNodes len } ⟨rfl, rfl, rfl, small.le⟩ ?_
          (le_refl _) lastError rfl
      rw [handles, AList.lookup_insert]
  | failed small handles lastError refused =>
      refine Ensures.bind_eq once ?_
      rw [if_pos (by simp)]
      refine Ensures.pure ⟨fun reliable _ _ => ?_, fun ok => by cases ok⟩
      refine absurd (fun kind member => ?_) refused
      exact reliable kind (Or.inl member)

/-- The hash that the launches of `enqueueGhash` leave in the node it names is
the sequential hash of the padded blocks and the length block, with the number
of blocks, whatever the workspace held before; and the launches are a complete
reduction tree inside the workspace. -/
theorem enqueueGhash_sequential {start s : HostState} {calls : List ApiCall}
    (fresh : Fresh start) (run : Run (fun _ => True) start calls s) {key : Ptr}
    {handle : KeyHandle} (live : s.handles.lookup key = some handle)
    (memory : Memory) {h : Block128}
    (table : PowerTable memory handle.dHPow2 (value h)) {len : Nat}
    (admissible : len ≤ 2 ^ 36 - 32) (ciphertext stream : Ptr) (driver : Driver)
    (schedule : Schedule) :
    let o := enqueueGhash key ciphertext len stream driver s
    (driver.Succeeds operationCalls → s.lastError = cudaSuccess →
      o.value.1 = .ok) ∧
    (o.value.1 = .ok → ∃ handle' before,
      o.state.handles.lookup key = some handle' ∧ Bookkeeping before ∧
      o.events = before ++ launchEvents stream
        (ghashLaunches s.device handle' ciphertext len) ∧
      HashTree schedule memory handle'.dNodesA handle'.dNodesB o.value.2
        (requiredNodes len) (ghashLaunches s.device handle' ciphertext len) ∧
      (drain schedule o.events memory (.node o.value.2 0)).y =
        sequentialHash h (hashedBlocks memory ciphertext len) ∧
      (drain schedule o.events memory (.node o.value.2 0)).lenBlocks.toNat =
        (len + 15) / 16 + 1) := by
  intro o
  obtain ⟨leaked, accounted⟩ := run.accounted ⟨[], fresh.accounted⟩
  have spec := enqueueGhash_complete driver accounted live ciphertext len stream
  refine ⟨fun reliable clear => spec.succeeds (fun kind member =>
    reliable kind ?_) clear fun h' =>
      ghashLaunches_valid (by omega) s.device h' ciphertext, fun ok => ?_⟩
  · rcases member with rfl | rfl | rfl <;> simp
  obtain ⟨handle', before, extends_, live', distinct, bookkeeping, events, root⟩ :=
    spec.complete ok
  have events : o.events = before ++ launchEvents stream
      (ghashLaunches s.device handle' ciphertext len) := events
  have root : o.value.2 = ghashRoot handle' len := root
  have drained : drain schedule o.events memory = runAll schedule
      (ghashLaunches s.device handle' ciphertext len) memory := by
    rw [events, drain_append, drain_bookkeeping schedule bookkeeping,
      drain_launchEvents]
  have blocks : blockCount len = (len + 15) / 16 := blockCount_eq (by omega)
  rw [← extends_.hPow2] at table
  obtain ⟨size, covers, level⟩ := ghashLaunches_level schedule s.device handle'
    ciphertext (admissible.trans (by decide)) memory table distinct
  have terms := hashTerms_hashedBlocks memory ciphertext
    (show len + 15 < 2 ^ 64 by omega)
  have count : (hashTerms memory ciphertext len).length = (len + 15) / 16 + 1 := by
    rw [length_hashTerms, blocks]
  refine ⟨handle', before, live', bookkeeping, events, ?_, ?_, ?_⟩
  · rw [root]
    exact ghashLaunches_tree schedule s.device handle' ciphertext admissible memory
  · apply value_injective
    rw [drained, root, level.root (by omega) covers, terms, value_sequentialHash]
  · rw [drained, root, level.length 0 (by omega), HornerHash.chunk_whole covers,
      count, BitVec.toNat_ofNat]
    exact Nat.mod_eq_of_lt (by omega)

/-- Five segments hashed with the zero key, for which the kernel built the table. -/
theorem enqueueGhash_sequential_example :
    let o := enqueueGhash 1 16 5000 0 .steady .oneKey
    let root := drain inOrder o.events oneKeyMemory (.node o.value.2 0)
    requiredNodes 5000 = 5 ∧ root.lenBlocks.toNat = 314 ∧
      root.y = sequentialHash (oneKeyMemory (.hPow2 2 0))
        (hashedBlocks oneKeyMemory 16 5000) := by
  intro o root
  have live : HostState.oneKey.handles.lookup 1 = some ⟨0, 1, 2, 0, 0, 0⟩ := by
    decide
  obtain ⟨_, h, usable⟩ := oneKey_live.usable
  obtain rfl : _ = h := Option.some_inj.mp (live.symm.trans usable.live)
  have powers := usable.ready.powers
  have table : PowerTable oneKeyMemory 2 (value (oneKeyMemory (.hPow2 2 0))) := by
    rw [powers 0 (by decide), pow_zero, pow_one]
    exact powers
  have hashed := enqueueGhash_sequential HostState.blank_fresh
    (HostState.oneKey_run trivial) live oneKeyMemory table
    (by decide : 5000 ≤ 2 ^ 36 - 32) 16 0 .steady inOrder
  obtain ⟨_, _, _, _, _, _, hash, count⟩ :=
    hashed.2 (hashed.1 (Driver.steady_succeeds _) (by decide))
  exact ⟨by decide, count, hash⟩

end GpuKvSeal.System
