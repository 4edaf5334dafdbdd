import GpuKvSeal.Host.Drain
import GpuKvSeal.Host.Runs
import GpuKvSeal.Refinement.TagKernels

/-!
# What an operation touches

The launches of a seal and of an open stay inside the frame, the text, the
status word, the tables of the key, and as many nodes of the workspace as the
operation needs.  Nothing here depends on the length being admissible.
-/

namespace GpuKvSeal.System

open BigEndian (Byte)
open Device
open Host
open Refinement (tableCells)

/-! ## Sets of cells -/

/-- The first nodes of both buffers of a workspace. -/
def nodeCells (a b : Ptr) (count : Nat) : Set Cell :=
  {cell | ∃ i < count, cell = .node a i ∨ cell = .node b i}

/-- The part of a text that its blocks cover: all of it, unless the block count
has wrapped. -/
def coveredLen (len : Nat) : Nat := min len (blockCount len * 16)

/-- The header, the ciphertext and the tag of a frame, each where the kernels
look for it. -/
def frameBytes (frame : Ptr) (plaintextLen : Nat) : Set Cell :=
  span frame 13 ∪ span (advance frame HEADER_LEN) (coveredLen plaintextLen) ∪
    span (tagAddress frame plaintextLen) 16

/-- The header and the ciphertext. -/
def frameFront (frame : Ptr) (plaintextLen : Nat) : Set Cell :=
  span frame 13 ∪ span (advance frame HEADER_LEN) (coveredLen plaintextLen)

theorem frameFront_subset (frame : Ptr) (plaintextLen : Nat) :
    frameFront frame plaintextLen ⊆ frameBytes frame plaintextLen :=
  Set.subset_union_left

theorem coveredLen_eq {len : Nat} (small : len + 15 < 2 ^ 64) :
    coveredLen len = len := by
  rw [coveredLen, Refinement.blockCount_eq small]
  omega

/-- While the length does not wrap, the parts lie one after another. -/
theorem frameBytes_eq (frame : Ptr) {plaintextLen : Nat}
    (small : plaintextLen + 15 < 2 ^ 64) :
    frameBytes frame plaintextLen = span frame (plaintextLen + 29) := by
  have header : HEADER_LEN = 13 := rfl
  rw [frameBytes, coveredLen_eq small]
  ext cell
  constructor
  · rintro ((inside | ⟨k, -, below, rfl⟩) | ⟨k, -, below, rfl⟩)
    · exact bytesBetween_mono (le_refl 0) (by omega) inside
    · rw [advance_advance]
      exact mem_span (by omega)
    · rw [tagAddress, advance_advance, advance_advance]
      exact mem_span (by omega)
  · rintro ⟨k, -, below, rfl⟩
    rcases Nat.lt_or_ge k 13 with inHeader | body
    · exact Or.inl (Or.inl (mem_span inHeader))
    · rcases Nat.lt_or_ge (k - 13) plaintextLen with inCipher | inTag
      · have place : HEADER_LEN + (k - 13) = k := by omega
        have address : advance frame k =
            advance (advance frame HEADER_LEN) (k - 13) := by
          rw [advance_advance, place]
        rw [address]
        exact Or.inl (Or.inr (mem_span inCipher))
      · have place : HEADER_LEN + plaintextLen + (k - 13 - plaintextLen) = k := by
          omega
        have address : advance frame k =
            advance (tagAddress frame plaintextLen) (k - 13 - plaintextLen) := by
          rw [tagAddress, advance_advance, advance_advance, ← Nat.add_assoc,
            place]
        rw [address]
        exact Or.inr (mem_span (by omega))

/-- The cells of key tables and of the substitution table. -/
def isTable : Cell → Prop
  | .sbox _ | .roundKeys _ | .hPow2 _ _ => True
  | .byte _ | .flag _ | .node _ _ => False

theorem tableCells_isTable {device : Int} {roundKeys hPow2 : Ptr} {cell : Cell}
    (table : cell ∈ tableCells device roundKeys hPow2) : isTable cell := by
  rcases table with (rfl | rfl) | ⟨i, -, rfl⟩
  · trivial
  · trivial
  · trivial

/-- Only the kernel of key creation writes tables. -/
theorem operational_writes {l : Launch}
    (other : ∀ roundKeys hPow2, l.kernel ≠ .initHashKey roundKeys hPow2)
    {cell : Cell} (write : cell ∈ l.writes) : ¬ isTable cell := by
  obtain ⟨device, kernel, grid, threads⟩ := l
  obtain ⟨i, -, inside⟩ := write
  cases kernel with
  | initHashKey roundKeys hPow2 => exact absurd rfl (other roundKeys hPow2)
  | writeFrameHeader frame iv =>
      obtain ⟨k, -, -, rfl⟩ := inside
      exact id
  | ctrCrypt src dst len iv roundKeys authOk =>
      obtain ⟨k, -, -, rfl⟩ := inside
      exact id
  | ghashSegment ciphertext ciphertextLen hPow2 nodes =>
      obtain ⟨-, rfl⟩ := inside
      exact id
  | ghashCombine input output count hPow2 =>
      obtain ⟨-, rfl⟩ := inside
      exact id
  | finalizeTag frame plaintextLen roundKeys root =>
      obtain ⟨k, -, -, rfl⟩ := inside
      exact id
  | verifyTag frame plaintextLen roundKeys root authOk =>
      obtain rfl := inside
      exact id

/-! ## Launches of the hash -/

theorem combine_reads (device : Int) (input output : Ptr) (count : Nat)
    (hPow2 : Ptr) (grid : Int) (threads : Nat) :
    (Launch.mk device (.ghashCombine input output count hPow2) grid
      threads).reads ⊆ {cell | ∃ i < count, cell = .node input i} ∪
        powerTable hPow2 := by
  rintro cell ⟨i, -, ⟨j, below, -, same⟩ | table⟩
  · exact Or.inl ⟨j, below, same⟩
  · exact Or.inr table

theorem combine_writes (device : Int) (input output : Ptr) (count : Nat)
    (hPow2 : Ptr) (grid : Int) (threads : Nat) :
    (Launch.mk device (.ghashCombine input output count hPow2) grid
      threads).writes ⊆ {cell | ∃ i < count, cell = .node output i} := by
  rintro cell ⟨i, -, below, same⟩
  exact ⟨_, by omega, same⟩

/-- Reads and writes of the combine launches. -/
theorem reduceLaunches_inside (device : Int) (hPow2 : Ptr) (count : Nat) :
    ∀ a b, ∀ l ∈ reduceLaunches device hPow2 a b count,
      l.reads ⊆ nodeCells a b count ∪ powerTable hPow2 ∧
        l.writes ⊆ nodeCells a b count := by
  intro a b l member
  obtain ⟨input, output, n, buffers, -, fewer, rfl⟩ := mem_reduceLaunches member
  have nodes : ∀ i < n, ∀ p, p = input ∨ p = output →
      Cell.node p i ∈ nodeCells a b count := by
    rintro i below p (rfl | rfl)
    · rcases buffers with ⟨rfl, -⟩ | ⟨rfl, -⟩
      · exact ⟨i, by omega, Or.inl rfl⟩
      · exact ⟨i, by omega, Or.inr rfl⟩
    · rcases buffers with ⟨-, rfl⟩ | ⟨-, rfl⟩
      · exact ⟨i, by omega, Or.inr rfl⟩
      · exact ⟨i, by omega, Or.inl rfl⟩
  constructor
  · refine (combine_reads ..).trans (Set.union_subset_union_left _ ?_)
    rintro cell ⟨i, below, rfl⟩
    exact nodes i below input (Or.inl rfl)
  · refine (combine_writes ..).trans ?_
    rintro cell ⟨i, below, rfl⟩
    exact nodes i below output (Or.inr rfl)

/-- Reads and writes of the launches of a hash. -/
theorem ghashLaunches_inside (device : Int) (h : KeyHandle) (ciphertext : Ptr)
    (len : Nat) :
    ∀ l ∈ ghashLaunches device h ciphertext len,
      l.reads ⊆ span ciphertext (coveredLen len) ∪
        nodeCells h.dNodesA h.dNodesB (requiredNodes len) ∪
        powerTable h.dHPow2 ∧
      l.writes ⊆ nodeCells h.dNodesA h.dNodesB (requiredNodes len) := by
  intro l member
  rcases List.mem_cons.mp member with rfl | later
  · constructor
    · rintro cell ⟨i, -, bytes | table⟩
      · exact Or.inl (Or.inl bytes)
      · exact Or.inr table
    · rintro cell ⟨i, -, below, same⟩
      refine ⟨_, ?_, Or.inl same⟩
      show _ < (blockCount len + 1 + 64 - 1) / 64
      have segment : GHASH_SEGMENT_BLOCKS = 64 := rfl
      rw [segment] at below
      omega
  · obtain ⟨reads, writes⟩ := reduceLaunches_inside device h.dHPow2 _ _ _ l later
    refine ⟨reads.trans ?_, writes⟩
    rintro cell (node | table)
    · exact Or.inl (Or.inr node)
    · exact Or.inr table

theorem reduceRoot_cases (count : Nat) : ∀ a b,
    reduceRoot a b count = a ∨ reduceRoot a b count = b := by
  induction count using Nat.strongRecOn with
  | ind count ih =>
      intro a b
      rw [reduceRoot]
      by_cases more : count > 1
      · rw [if_pos more]
        exact (ih _ (by omega) b a).symm
      · rw [if_neg more]
        exact Or.inl rfl

/-- The root is one of the nodes of the workspace. -/
theorem ghashRoot_mem (h : KeyHandle) (len : Nat) :
    Cell.node (ghashRoot h len) 0 ∈
      nodeCells h.dNodesA h.dNodesB (requiredNodes len) := by
  refine ⟨0, requiredNodes_pos len, ?_⟩
  rcases reduceRoot_cases (requiredNodes len) h.dNodesA h.dNodesB with same | same
  · exact Or.inl (by rw [ghashRoot, same])
  · exact Or.inr (by rw [ghashRoot, same])

/-! ## The counter launch -/

theorem ctrLaunches_inside (device : Int) (src dst : Ptr) {len : Nat}
    (word : len < 2 ^ 64) (iv roundKeys : Ptr) (authOk : Option Ptr) :
    ∀ l ∈ ctrLaunches device src dst len iv roundKeys authOk,
      l.reads ⊆ {cell | ∃ flag, authOk = some flag ∧ cell = .flag flag} ∪
        span src (coveredLen len) ∪ span iv 12 ∪
        {.roundKeys roundKeys, .sbox device} ∧
      l.writes ⊆ span dst (coveredLen len) := by
  intro l member
  unfold ctrLaunches at member
  split at member
  · rename_i some
    rw [List.mem_singleton.mp member]
    -- A launch means that the block count is not zero, so it has not wrapped.
    have whole : coveredLen len = len := by
      refine coveredLen_eq (Nat.lt_of_not_le fun wrapped => ?_)
      have zero : (len + 15) % 2 ^ 64 / 16 = 0 := by omega
      have count : blockCount len = (len + 15) % 2 ^ 64 / 16 := rfl
      omega
    rw [whole]
    constructor
    · rintro cell ⟨i, -, ((flag | bytes) | iv) | table⟩
      · exact Or.inl (Or.inl (Or.inl flag))
      · exact Or.inl (Or.inl (Or.inr
          (bytesBetween_mono (Nat.zero_le _) (min_le_right _ _) bytes)))
      · exact Or.inl (Or.inr iv)
      · exact Or.inr table
    · rintro cell ⟨i, -, bytes⟩
      exact bytesBetween_mono (Nat.zero_le _) (min_le_right _ _) bytes
  · cases member

/-! ## Seal and open -/

/-- Before the tag, a seal reads the text, the header, the ciphertext and the tables,
and writes the header and the ciphertext. -/
theorem sealFront_inside (device : Int) (h : KeyHandle) (src : Ptr)
    {plaintextLen : Nat} (word : plaintextLen < 2 ^ 64) (dst : Ptr)
    (iv : Vector Byte 12) :
    ∀ l ∈ sealFront device h src plaintextLen dst iv,
      l.reads ⊆ span src (coveredLen plaintextLen) ∪
        frameFront dst plaintextLen ∪
        nodeCells h.dNodesA h.dNodesB (requiredNodes plaintextLen) ∪
        tableCells device h.dRoundKeys h.dHPow2 ∧
      l.writes ⊆ frameFront dst plaintextLen ∪
        nodeCells h.dNodesA h.dNodesB (requiredNodes plaintextLen) := by
  have header : span (advance dst 1) 12 ⊆ frameFront dst plaintextLen :=
    fun cell inside => Or.inl (span_advance_subset (le_refl 13) inside)
  intro l member
  rw [sealFront, List.mem_cons, List.mem_append] at member
  rcases member with rfl | counter | hash
  · constructor
    · rintro cell ⟨i, -, none⟩
      cases none
    · rintro cell ⟨i, -, bytes⟩
      exact Or.inl (Or.inl bytes)
  · obtain ⟨reads, writes⟩ := ctrLaunches_inside device src _ word _ _ _ l counter
    constructor
    · intro cell read
      rcases reads read with ((⟨flag, none, -⟩ | bytes) | iv) | table
      · cases none
      · exact Or.inl (Or.inl (Or.inl bytes))
      · exact Or.inl (Or.inl (Or.inr (header iv)))
      · refine Or.inr (Or.inl ?_)
        rcases table with rfl | rfl
        · exact Or.inr rfl
        · exact Or.inl rfl
    · exact fun cell write => Or.inl (Or.inr (writes write))
  · obtain ⟨reads, writes⟩ := ghashLaunches_inside device h _ _ l hash
    constructor
    · intro cell read
      rcases reads read with (bytes | node) | table
      · exact Or.inl (Or.inl (Or.inr (Or.inr bytes)))
      · exact Or.inl (Or.inr node)
      · exact Or.inr (Or.inr table)
    · exact fun cell write => Or.inr (writes write)

/-- The launches of a seal read the text, the frame and the tables, and write
the frame. -/
theorem sealLaunches_inside (device : Int) (h : KeyHandle) (src : Ptr)
    {plaintextLen : Nat} (word : plaintextLen < 2 ^ 64) (dst : Ptr)
    (iv : Vector Byte 12) :
    ∀ l ∈ sealLaunches device h src plaintextLen dst iv,
      l.reads ⊆ span src (coveredLen plaintextLen) ∪
        frameBytes dst plaintextLen ∪
        nodeCells h.dNodesA h.dNodesB (requiredNodes plaintextLen) ∪
        tableCells device h.dRoundKeys h.dHPow2 ∧
      l.writes ⊆ frameBytes dst plaintextLen ∪
        nodeCells h.dNodesA h.dNodesB (requiredNodes plaintextLen) := by
  have header : span (advance dst 1) 12 ⊆ frameBytes dst plaintextLen :=
    fun cell inside => Or.inl (Or.inl (span_advance_subset (le_refl 13) inside))
  have front := frameFront_subset dst plaintextLen
  intro l member
  rw [sealLaunches_eq, List.mem_append, List.mem_singleton] at member
  rcases member with before | rfl
  · obtain ⟨reads, writes⟩ := sealFront_inside device h src word dst iv l before
    constructor
    · intro cell read
      rcases reads read with ((text | bytes) | node) | table
      · exact Or.inl (Or.inl (Or.inl text))
      · exact Or.inl (Or.inl (Or.inr (front bytes)))
      · exact Or.inl (Or.inr node)
      · exact Or.inr table
    · intro cell write
      rcases writes write with bytes | node
      · exact Or.inl (front bytes)
      · exact Or.inr node
  · constructor
    · rintro cell ⟨i, -, iv | table⟩
      · exact Or.inl (Or.inl (Or.inr (header iv)))
      · rcases table with rfl | rfl | rfl
        · exact Or.inr (Or.inl (Or.inr rfl))
        · exact Or.inr (Or.inl (Or.inl rfl))
        · exact Or.inl (Or.inr (ghashRoot_mem h plaintextLen))
    · rintro cell ⟨i, -, bytes⟩
      exact Or.inl (Or.inr bytes)

/-- The launches of an open read the frame, the status word and the tables, and
write the text and the status word. -/
theorem openLaunches_inside (device : Int) (h : KeyHandle) (src dst : Ptr)
    {plaintextLen : Nat} (word : plaintextLen < 2 ^ 64) (authOk : Ptr) :
    ∀ l ∈ openLaunches device h src dst plaintextLen authOk,
      l.reads ⊆ frameBytes src plaintextLen ∪ {.flag authOk} ∪
        nodeCells h.dNodesA h.dNodesB (requiredNodes plaintextLen) ∪
        tableCells device h.dRoundKeys h.dHPow2 ∧
      l.writes ⊆ span dst (coveredLen plaintextLen) ∪ {.flag authOk} ∪
        nodeCells h.dNodesA h.dNodesB (requiredNodes plaintextLen) := by
  have header : span (advance src 1) 12 ⊆ frameBytes src plaintextLen :=
    fun cell inside => Or.inl (Or.inl (span_advance_subset (le_refl 13) inside))
  intro l member
  rw [openLaunches, List.mem_append, List.mem_cons] at member
  rcases member with hash | rfl | counter
  · obtain ⟨reads, writes⟩ := ghashLaunches_inside device h _ _ l hash
    constructor
    · intro cell read
      rcases reads read with (bytes | node) | table
      · exact Or.inl (Or.inl (Or.inl (Or.inl (Or.inr bytes))))
      · exact Or.inl (Or.inr node)
      · exact Or.inr (Or.inr table)
    · exact fun cell write => Or.inr (writes write)
  · constructor
    · rintro cell ⟨i, -, (bytes | bytes) | table⟩
      · exact Or.inl (Or.inl (Or.inl (Or.inl (Or.inl bytes))))
      · exact Or.inl (Or.inl (Or.inl (Or.inr bytes)))
      · rcases table with rfl | rfl | rfl
        · exact Or.inr (Or.inl (Or.inr rfl))
        · exact Or.inr (Or.inl (Or.inl rfl))
        · exact Or.inl (Or.inr (ghashRoot_mem h plaintextLen))
    · rintro cell ⟨i, -, flag⟩
      exact Or.inl (Or.inr flag)
  · obtain ⟨reads, writes⟩ := ctrLaunches_inside device _ dst word _ _ _ l counter
    constructor
    · intro cell read
      rcases reads read with ((⟨flag, same, rfl⟩ | bytes) | iv) | table
      · cases same
        exact Or.inl (Or.inl (Or.inr rfl))
      · exact Or.inl (Or.inl (Or.inl (Or.inl (Or.inr bytes))))
      · exact Or.inl (Or.inl (Or.inl (header iv)))
      · refine Or.inr (Or.inl ?_)
        rcases table with rfl | rfl
        · exact Or.inr rfl
        · exact Or.inl rfl
    · exact fun cell write => Or.inl (Or.inl (writes write))

end GpuKvSeal.System
