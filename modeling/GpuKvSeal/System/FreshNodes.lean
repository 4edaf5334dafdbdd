import GpuKvSeal.Foundations.LastWriter
import GpuKvSeal.System.Overlap

/-!
# No stale node is read

The two node buffers of a handle serve one operation after another.  An operation
fills the first level of its reduction before it combines anything, and every
combine launch reads what the launch before it left.  So each node that is read
was last written by the same operation, whatever earlier operations left there.
-/

namespace GpuKvSeal.System

open BigEndian (Byte)
open CellProgram (Program)
open CellProgram.Program (mem_writes_forEach)
open Device
open Host
open LastWriter (Ledger SelfContained OwnCells record record_comm
  ownCells_of_sound)
open StreamQueue (Drains Orderly jobs runJobs runJobs_append)

/-- The reduction nodes. -/
def isNode : Cell → Prop
  | .node _ _ => True
  | .byte _ | .flag _ | .sbox _ | .roundKeys _ | .hPow2 _ _ => False

/-- Whenever a launch runs and reads a node, the launch that last wrote the node
belongs to the same call. -/
def NodesFresh (schedule : Schedule) (order : List Work) : Prop :=
  ∀ before work after, order = before ++ work :: after →
    ∀ memory, ∀ cell ∈ (work.launch.program schedule memory).reads memory,
      isNode cell →
      ∃ earlier writer later, before = earlier ++ writer :: later ∧
        writer.call = work.call ∧
        (∀ memory, cell ∈ (writer.launch.program schedule memory).writes memory) ∧
        ∀ other ∈ later, ∀ memory,
          cell ∉ (other.launch.program schedule memory).writes memory

/-- What a launch may write. -/
abbrev cellsWritten (work : Work) : Set Cell := work.launch.writes

/-- The nodes a launch may read. -/
abbrev nodesRead (work : Work) : Set Cell :=
  {cell | cell ∈ work.launch.reads ∧ isNode cell}

/-! ## Writes of nodes -/

/-- A node that a launch may write it does write. -/
theorem node_written (schedule : Schedule) {l : Launch} {cell : Cell}
    (node : isNode cell) (write : cell ∈ l.writes) (memory : Memory) :
    cell ∈ (l.program schedule memory).writes memory := by
  obtain ⟨i, inside, write⟩ := write
  refine mem_writes_forEach ((l.mem_order schedule memory).mpr inside)
    (fun memory => ?_) memory
  obtain ⟨device, kernel, grid, threads⟩ := l
  cases kernel with
  | initHashKey roundKeys hPow2 =>
      obtain ⟨k, -, rfl⟩ := write
      cases node
  | writeFrameHeader frame iv =>
      obtain ⟨k, -, -, rfl⟩ := write
      cases node
  | ctrCrypt src dst len iv roundKeys authOk =>
      obtain ⟨k, -, -, rfl⟩ := write
      cases node
  | ghashSegment ciphertext ciphertextLen hPow2 nodes =>
      obtain ⟨below, rfl⟩ := write
      show _ ∈ (ghashSegmentKernel ciphertext ciphertextLen hPow2 nodes
        _).writes memory
      rw [ghashSegmentKernel, if_neg (by omega)]
      simp
  | ghashCombine input output count hPow2 =>
      obtain ⟨below, rfl⟩ := write
      show _ ∈ (ghashCombineKernel input output count hPow2 _).writes memory
      rw [ghashCombineKernel, if_neg (by omega)]
      simp only [Program.writes_bind]
      refine List.mem_append_right _ ?_
      split
      · simp
      · simp
  | finalizeTag frame plaintextLen roundKeys root =>
      obtain ⟨k, -, -, rfl⟩ := write
      cases node
  | verifyTag frame plaintextLen roundKeys root authOk =>
      obtain rfl := write
      cases node

/-- The footprints of the launches decide whether the nodes are fresh. -/
theorem NodesFresh.of_ownCells {order : List Work}
    (own : OwnCells cellsWritten nodesRead Work.call order) (schedule : Schedule) :
    NodesFresh schedule order := by
  intro before work after split memory cell read node
  have inside := (work.launch.program_within schedule memory).reads_mem memory read
  obtain ⟨earlier, writer, later, parts, same, write, unwritten⟩ :=
    own before work after split cell ⟨inside, node⟩
  refine ⟨earlier, writer, later, parts, same,
    node_written schedule node write, fun other member memory written => ?_⟩
  exact unwritten other member
    ((other.launch.program_within schedule memory).writes_mem memory written)

/-! ## One operation -/

section Operation

variable (device : Int) (call : Nat)

/-- Launches that read no nodes. -/
theorem selfContained_nodeless {launches : List Launch} {done : Set Cell}
    (nodeless : ∀ l ∈ launches, ∀ cell ∈ l.reads, ¬ isNode cell) :
    SelfContained cellsWritten nodesRead done (launches.map (Work.mk call)) := by
  induction launches generalizing done with
  | nil => trivial
  | cons l rest ih =>
      obtain ⟨here, later⟩ := List.forall_mem_cons.mp nodeless
      exact ⟨fun cell needed => absurd needed.2 (here cell needed.1), ih later⟩

/-- A combine launch writes the whole next level. -/
theorem combine_fills {input output : Ptr} {count i : Nat} (hPow2 : Ptr)
    {grid : Int} (covers : (count + 1) / 2 ≤ grid.toNat * 128)
    (below : i < (count + 1) / 2) :
    Cell.node output i ∈ cellsWritten ⟨call, device,
      .ghashCombine input output count hPow2, grid, 128⟩ := by
  refine ⟨i, below.trans_le covers, ?_, ?_⟩
  · rw [Launch.thread_index]
    omega
  · rw [Launch.thread_index]

/-- The segment launch writes the first level. -/
theorem segment_fills {ciphertext nodes : Ptr} {len i : Nat} (hPow2 : Ptr)
    {grid : Int} (covers : requiredNodes len ≤ grid.toNat * 128)
    (below : i < requiredNodes len) :
    Cell.node nodes i ∈ cellsWritten ⟨call, device,
      .ghashSegment ciphertext len hPow2 nodes, grid, 128⟩ := by
  have segment : GHASH_SEGMENT_BLOCKS = 64 := rfl
  have count : requiredNodes len = (blockCount len + 1 + 64 - 1) / 64 := rfl
  refine ⟨i, below.trans_le covers, ?_, ?_⟩
  · rw [Launch.thread_index, segment]
    omega
  · rw [Launch.thread_index]

/-- The combine launches need only the level they start from, and end with a root
that is written. -/
theorem reduceLaunches_selfContained (hPow2 : Ptr) (count : Nat) :
    ∀ (a b : Ptr) (done : Set Cell), 0 < count → count < 2 ^ 31 →
      (∀ i < count, Cell.node a i ∈ done) →
      SelfContained cellsWritten nodesRead done
          ((reduceLaunches device hPow2 a b count).map (Work.mk call)) ∧
        (Cell.node (reduceRoot a b count) 0 ∈ done ∨
          ∃ work ∈ (reduceLaunches device hPow2 a b count).map (Work.mk call),
            Cell.node (reduceRoot a b count) 0 ∈ cellsWritten work) := by
  induction count using Nat.strongRecOn with
  | ind count ih =>
      intro a b done positive small filled
      rw [reduceLaunches, reduceRoot]
      by_cases more : count > 1
      · rw [if_pos more, if_pos more, List.map_cons]
        let first : Work := ⟨call, device, .ghashCombine a b count hPow2,
          castInt (((count + 1) / 2 + 128 - 1) / 128), 128⟩
        obtain ⟨contained, root⟩ := ih ((count + 1) / 2) (by omega) b a
          (done ∪ cellsWritten first) (by omega) (by omega)
          fun i below => Or.inr (combine_fills device call hPow2
            (castInt_covers (by decide) (by omega)) below)
        refine ⟨⟨?_, contained⟩, ?_⟩
        · rintro cell ⟨read, node⟩
          rcases combine_reads _ _ _ _ _ _ _ read with ⟨i, below, rfl⟩ | ⟨i, -, rfl⟩
          · exact filled i below
          · cases node
        · rcases root with (before | here) | ⟨work, member, write⟩
          · exact Or.inl before
          · exact Or.inr ⟨first, List.mem_cons_self .., here⟩
          · exact Or.inr ⟨work, List.mem_cons_of_mem _ member, write⟩
      · rw [if_neg more, if_neg more]
        exact ⟨trivial, Or.inl (filled 0 positive)⟩

/-- The launches of a hash need no nodes from before, and write the root. -/
theorem ghashLaunches_selfContained (h : KeyHandle) (ciphertext : Ptr) {len : Nat}
    (admissible : len ≤ 2 ^ 36 - 32) :
    SelfContained cellsWritten nodesRead ∅
        ((ghashLaunches device h ciphertext len).map (Work.mk call)) ∧
      ∃ work ∈ (ghashLaunches device h ciphertext len).map (Work.mk call),
        Cell.node (ghashRoot h len) 0 ∈ cellsWritten work := by
  have blocks : blockCount len = (len + 15) / 16 :=
    Refinement.blockCount_eq (by omega)
  have nodes : requiredNodes len = (blockCount len + 1 + 64 - 1) / 64 := rfl
  let first : Work := ⟨call, device,
    .ghashSegment ciphertext len h.dHPow2 h.dNodesA,
    castInt ((requiredNodes len + 128 - 1) / 128), 128⟩
  have filled : ∀ i < requiredNodes len,
      Cell.node h.dNodesA i ∈ cellsWritten first := fun i below =>
    segment_fills device call h.dHPow2 (castInt_covers (by decide) (by omega)) below
  obtain ⟨contained, root⟩ := reduceLaunches_selfContained device call h.dHPow2
    (requiredNodes len) h.dNodesA h.dNodesB (∅ ∪ cellsWritten first)
    (requiredNodes_pos len) (by omega) fun i below => Or.inr (filled i below)
  refine ⟨⟨?_, contained⟩, ?_⟩
  · rintro cell ⟨⟨i, -, ⟨k, -, -, rfl⟩ | ⟨k, -, rfl⟩⟩, node⟩
    · cases node
    · cases node
  · rcases root with (none | here) | ⟨work, member, write⟩
    · cases none
    · exact ⟨first, List.mem_cons_self .., here⟩
    · exact ⟨work, List.mem_cons_of_mem _ member, write⟩

/-- A counter launch reads no nodes. -/
theorem ctrLaunches_nodeless (src dst : Ptr) (len : Nat) (iv roundKeys : Ptr)
    (authOk : Option Ptr) :
    ∀ l ∈ ctrLaunches device src dst len iv roundKeys authOk,
      ∀ cell ∈ l.reads, ¬ isNode cell := by
  intro l member cell read
  unfold ctrLaunches at member
  split at member
  · rw [List.mem_singleton.mp member] at read
    obtain ⟨i, -, ((⟨flag, -, rfl⟩ | ⟨k, -, -, rfl⟩) | ⟨k, -, -, rfl⟩) | table⟩ := read
    · exact id
    · exact id
    · exact id
    · rcases table with rfl | rfl
      · exact id
      · exact id
  · cases member

/-- A launch that reads no node but the root. -/
theorem selfContained_root {l : Launch} {root : Ptr} {rest : List Launch}
    (reads : ∀ cell ∈ l.reads, isNode cell → cell = .node root 0)
    (nodeless : ∀ l ∈ rest, ∀ cell ∈ l.reads, ¬ isNode cell) :
    SelfContained cellsWritten nodesRead {.node root 0}
      ((l :: rest).map (Work.mk call)) :=
  ⟨fun cell needed => reads cell needed.1 needed.2,
    selfContained_nodeless call nodeless⟩

/-- An operation needs no nodes from before. -/
theorem launches_selfContained {c : ApiCall} (operation : c.Operation)
    (h : KeyHandle) :
    SelfContained cellsWritten nodesRead ∅
      ((c.launches device h).map (Work.mk call)) := by
  cases operation with
  | reserve key maxPlaintextLen => trivial
  | @sealAsync key src dst plaintextLen admissible apart dstCapacity iv stream =>
      let front : List Launch :=
        ⟨device, .writeFrameHeader dst (iv.getD (Vector.replicate 12 0#8)), 1, 1⟩ ::
          ctrLaunches device src (advance dst HEADER_LEN) plaintextLen
            (advance dst 1) h.dRoundKeys none
      have nodeless : ∀ l ∈ front, ∀ cell ∈ l.reads, ¬ isNode cell := by
        refine List.forall_mem_cons.mpr ⟨?_, ctrLaunches_nodeless device _ _ _ _ _ _⟩
        rintro cell ⟨i, -, none⟩
        cases none
      obtain ⟨hash, work, member, write⟩ := ghashLaunches_selfContained device call h
        (advance dst HEADER_LEN) admissible
      have final : SelfContained cellsWritten nodesRead
          {.node (ghashRoot h plaintextLen) 0} (([⟨device, .finalizeTag dst
            plaintextLen h.dRoundKeys (ghashRoot h plaintextLen), 1, 1⟩] :
              List Launch).map (Work.mk call)) := by
        refine selfContained_root call ?_ nofun
        rintro cell ⟨i, -, ⟨k, -, -, rfl⟩ | rfl | rfl | rfl⟩ node
        · cases node
        · cases node
        · cases node
        · rfl
      have rest := hash.append (fun cell inside => Or.inr
        ⟨work, member, Set.mem_singleton_iff.mp inside ▸ write⟩) final
      have whole := (selfContained_nodeless call nodeless :
        SelfContained cellsWritten nodesRead ∅ _).append
          (fun cell none => absurd none (Set.notMem_empty cell)) rest
      rw [← List.map_append, ← List.map_append] at whole
      exact whole
  | @openAsync key src dst plaintextLen admissible apart frameLen authOk stream =>
      obtain ⟨hash, work, member, write⟩ := ghashLaunches_selfContained device call h
        (advance src HEADER_LEN) admissible
      have final : SelfContained cellsWritten nodesRead
          {.node (ghashRoot h plaintextLen) 0}
          ((verifyLaunch device h src plaintextLen authOk ::
            openCtrLaunches device h src dst plaintextLen authOk).map
              (Work.mk call)) := by
        refine selfContained_root call ?_ (ctrLaunches_nodeless device _ _ _ _ _ _)
        rintro cell ⟨i, -, (⟨k, -, -, rfl⟩ | ⟨k, -, -, rfl⟩) | rfl | rfl | rfl⟩ node
        · cases node
        · cases node
        · cases node
        · cases node
        · rfl
      have whole := hash.append (fun cell inside => Or.inr
        ⟨work, member, Set.mem_singleton_iff.mp inside ▸ write⟩) final
      rw [← List.map_append] at whole
      exact whole

end Operation

/-! ## Programs -/

/-- In the order of the host every operation finds its own nodes. -/
theorem requests_sound {driver : Driver} (reliable : driver.Succeeds operationCalls)
    {streams : Ptr → Ptr} {leaked : List Block} {calls : List ApiCall}
    {s : HostState} (accounted : Accounted s leaked)
    (clear : s.lastError = cudaSuccess) (disciplined : Disciplined streams calls)
    (live : ∀ c ∈ calls, c.handle ∈ s.handles) :
    ∀ (call : Nat) {ledger : Ledger Cell Work}, ledger.sound →
      (runJobs (record cellsWritten nodesRead Work.call)
        (jobs (requests driver s call calls)) ledger).sound := by
  refine Disciplined.induction reliable (fun _ _ _ sound => sound) ?_ accounted clear
    disciplined live
  intro s c rest h h' before launched disciplined clear found accounted' issued trace
    ih call ledger sound
  have operation := disciplined.operations c (List.mem_cons_self ..)
  rw [jobs_requests_cons issued.bookkeeping trace, runJobs_append]
  refine ih (call + 1) ?_
  have contained : SelfContained cellsWritten nodesRead ∅
      (launched.map (Work.mk call)) := by
    rcases issued.launched with rfl | ⟨rfl, -⟩
    · trivial
    · exact launches_selfContained h.device call operation h'
  have owned : ∀ job ∈ launched.map (Work.mk call), job.call = call := by
    intro job member
    obtain ⟨l, -, rfl⟩ := List.mem_map.mp member
    rfl
  exact contained.sound owned
    (fun cell none => absurd none (Set.notMem_empty cell)) sound

theorem Separate.record_comm {first second : Work}
    (separate : Separate first second) (ledger : Ledger Cell Work) :
    record cellsWritten nodesRead Work.call second
        (record cellsWritten nodesRead Work.call first ledger) =
      record cellsWritten nodesRead Work.call first
        (record cellsWritten nodesRead Work.call second ledger) := by
  have needed : ∀ work : Work, nodesRead work ⊆ work.launch.reads :=
    fun _ _ needed => needed.1
  have apart : Disjoint (cellsWritten first)
      (nodesRead second ∪ cellsWritten second) :=
    separate.apart.mono_right (Set.union_subset_union_left _ (needed second))
  have apart' : Disjoint (cellsWritten second) (nodesRead first) :=
    separate.apart'.mono_right (needed first)
  exact LastWriter.record_comm apart apart' ledger

/-- Whatever order the device chooses, no stale node is read. -/
theorem nodes_fresh {driver : Driver} (reliable : driver.Succeeds operationCalls)
    {streams : Ptr → Ptr} {leaked : List Block} {calls : List ApiCall}
    {s : HostState} (accounted : Accounted s leaked)
    (clear : s.lastError = cudaSuccess) (disciplined : Disciplined streams calls)
    (live : ∀ c ∈ calls, c.handle ∈ s.handles) {order : List Work}
    (drains : Drains (requests driver s 0 calls) order) (schedule : Schedule) :
    NodesFresh schedule order := by
  have orderly : Orderly Separate [] (requests driver s 0 calls) :=
    requests_orderly reliable accounted clear disciplined live 0 nofun
  refine NodesFresh.of_ownCells (ownCells_of_sound ?_) schedule
  rw [drains.runJobs_eq (fun _ _ separate => separate.record_comm) orderly]
  exact requests_sound reliable accounted clear disciplined live 0 trivial

end GpuKvSeal.System
