import Mathlib
import GpuKvSeal.Device.Kernels

/-!
# What each kernel touches

Every thread of every kernel stays inside a set of cells fixed by the kernel's
arguments and the thread's position, whatever the memory holds.  Where two
threads of a launch write apart from what the others touch, the launch has one
outcome in every order of its threads.
-/

namespace GpuKvSeal.Device

open BigEndian (Byte)
open CellProgram (Program)
open CellProgram.Program (load store forEach collect Within Independent)

/-! ## Addresses -/

theorem advance_advance (p : Ptr) (m n : Nat) :
    advance (advance p m) n = advance p (m + n) := by
  show ((p + m) % 2 ^ 64 + n) % 2 ^ 64 = (p + (m + n)) % 2 ^ 64
  rw [Nat.mod_add_mod, Nat.add_assoc]

theorem advance_inj {p : Ptr} {m n : Nat} (hm : m < 2 ^ 64) (hn : n < 2 ^ 64)
    (same : advance p m = advance p n) : m = n := by
  have residues : m ≡ n [MOD 2 ^ 64] := Nat.ModEq.add_left_cancel' p same
  rwa [Nat.ModEq, Nat.mod_eq_of_lt hm, Nat.mod_eq_of_lt hn] at residues

/-- The bytes from position `start` up to position `stop` behind a pointer. -/
def bytesBetween (p : Ptr) (start stop : Nat) : Set Cell :=
  {cell | ∃ k, start ≤ k ∧ k < stop ∧ cell = .byte (advance p k)}

/-- The first `n` bytes behind a pointer. -/
abbrev span (p : Ptr) (n : Nat) : Set Cell := bytesBetween p 0 n

theorem mem_bytesBetween {p : Ptr} {start stop k : Nat} (lower : start ≤ k)
    (upper : k < stop) : Cell.byte (advance p k) ∈ bytesBetween p start stop :=
  ⟨k, lower, upper, rfl⟩

theorem mem_span {p : Ptr} {n k : Nat} (inside : k < n) :
    Cell.byte (advance p k) ∈ span p n := mem_bytesBetween (Nat.zero_le k) inside

theorem bytesBetween_mono {p : Ptr} {start stop start' stop' : Nat}
    (lower : start' ≤ start) (upper : stop ≤ stop') :
    bytesBetween p start stop ⊆ bytesBetween p start' stop' := by
  rintro cell ⟨k, above, below, rfl⟩
  exact mem_bytesBetween (lower.trans above) (below.trans_le upper)

theorem span_advance_subset {p : Ptr} {m n total : Nat} (fits : m + n ≤ total) :
    span (advance p m) n ⊆ span p total := by
  rintro cell ⟨k, -, below, rfl⟩
  rw [advance_advance]
  exact mem_span (by omega)

/-- Buffers one after another below the end of the address space are apart. -/
theorem span_disjoint {p q m n : Nat} (order : p + m ≤ q)
    (inside : q + n ≤ 2 ^ 64) : Disjoint (span p m) (span q n) := by
  refine Set.disjoint_left.mpr ?_
  rintro cell ⟨i, -, hi, rfl⟩ ⟨j, -, hj, same⟩
  have first : advance p i = p + i := Nat.mod_eq_of_lt (by omega)
  have second : advance q j = q + j := Nat.mod_eq_of_lt (by omega)
  have equal := Cell.byte.inj same
  rw [first, second] at equal
  have apart : p + i < q + j := by omega
  exact absurd equal apart.ne

/-! ## Footprints of one thread -/

/-- The table entries of a key. -/
def powerTable (hPow2 : Ptr) : Set Cell :=
  {cell | ∃ i < 64, cell = .hPow2 hPow2 i}

/-- The cells a thread may read. -/
def Kernel.threadReads (device : Int) : Kernel → Thread → Set Cell
  | .initHashKey roundKeys hPow2, _ =>
      {.roundKeys roundKeys, .sbox device} ∪ powerTable hPow2
  | .writeFrameHeader _ _, _ => ∅
  | .ctrCrypt src _ len iv roundKeys authOk, t =>
      {cell | ∃ flag, authOk = some flag ∧ cell = .flag flag} ∪
        bytesBetween src (t.index * 16) (min (t.index * 16 + 16) len) ∪
        span iv 12 ∪ {.roundKeys roundKeys, .sbox device}
  | .ghashSegment ciphertext ciphertextLen hPow2 _, _ =>
      span ciphertext (min ciphertextLen (blockCount ciphertextLen * 16)) ∪
        powerTable hPow2
  | .ghashCombine input _ count hPow2, t =>
      {cell | ∃ j < count, j / 2 = t.index ∧ cell = .node input j} ∪
        powerTable hPow2
  | .finalizeTag frame _ roundKeys root, _ =>
      span (advance frame 1) 12 ∪
        {.roundKeys roundKeys, .sbox device, .node root 0}
  | .verifyTag frame plaintextLen roundKeys root _, _ =>
      span frame 13 ∪ span (tagAddress frame plaintextLen) 16 ∪
        {.roundKeys roundKeys, .sbox device, .node root 0}

/-- The cells a thread may write. -/
def Kernel.threadWrites : Kernel → Thread → Set Cell
  | .initHashKey _ hPow2, _ => powerTable hPow2
  | .writeFrameHeader frame _, _ => span frame 13
  | .ctrCrypt _ dst len _ _ _, t =>
      bytesBetween dst (t.index * 16) (min (t.index * 16 + 16) len)
  | .ghashSegment _ ciphertextLen _ nodes, t =>
      {cell | t.index * GHASH_SEGMENT_BLOCKS < blockCount ciphertextLen + 1 ∧
        cell = .node nodes t.index}
  | .ghashCombine _ output count _, t =>
      {cell | t.index * 2 < count ∧ cell = .node output t.index}
  | .finalizeTag frame plaintextLen _ _, _ =>
      span (tagAddress frame plaintextLen) 16
  | .verifyTag _ _ _ _ authOk, _ => {.flag authOk}

section Bodies

variable {Reads Writes : Set Cell}

theorem readBytes_within {p : Ptr} {n : Nat} (inside : span p n ⊆ Reads) :
    (readBytes p n).Within Reads Writes :=
  Within.collect fun index =>
    Within.load (inside (mem_span index.isLt))

/-- While bits are left the next table index is inside the table. -/
theorem exponent_room {exponent : BitVec 64} {bit : Nat}
    (nonzero : exponent ≠ 0#64) (room : exponent.toNat < 2 ^ (64 - bit)) :
    bit < 64 ∧ (exponent >>> 1).toNat < 2 ^ (64 - (bit + 1)) := by
  have positive : 0 < exponent.toNat := Nat.pos_of_ne_zero fun zero =>
    nonzero (BitVec.eq_of_toNat_eq zero)
  have inside : bit < 64 := by
    by_contra beyond
    have none : 64 - bit = 0 := by omega
    rw [none] at room
    omega
  have split : 64 - bit = 64 - (bit + 1) + 1 := by omega
  rw [split, Nat.pow_succ] at room
  rw [BitVec.toNat_ushiftRight, Nat.shiftRight_eq_div_pow]
  omega

theorem gfPowLoop_within {hPow2 : Ptr} (table : powerTable hPow2 ⊆ Reads)
    (exponent : BitVec 64) (bit : Nat) (result : Block128)
    (room : exponent.toNat < 2 ^ (64 - bit)) :
    (gfPowLoop hPow2 exponent bit result).Within Reads Writes := by
  induction exponent, bit, result using gfPowLoop.induct with
  | case1 exponent bit result nonzero odd ih =>
      obtain ⟨inside, half⟩ := exponent_room nonzero room
      rw [gfPowLoop, if_pos nonzero, if_pos odd]
      exact Within.bind
        (Within.load (table ⟨bit, inside, rfl⟩))
        fun power => ih power half
  | case2 exponent bit result nonzero even ih =>
      rw [gfPowLoop, if_pos nonzero, if_neg even]
      exact ih (exponent_room nonzero room).2
  | case3 exponent bit result zero =>
      rw [gfPowLoop, if_neg zero]
      exact .pure _

theorem gfPowFromTable_within {hPow2 : Ptr} (table : powerTable hPow2 ⊆ Reads)
    (exponent : BitVec 64) :
    (gfPowFromTable hPow2 exponent).Within Reads Writes :=
  gfPowLoop_within table exponent 0 gfOne exponent.isLt

theorem squareTable_within {hPow2 : Ptr} (table : powerTable hPow2 ⊆ Reads)
    (table' : powerTable hPow2 ⊆ Writes) (i n : Nat) (room : i + n < 64) :
    (squareTable hPow2 i n).Within Reads Writes := by
  induction n generalizing i with
  | zero => exact .pure _
  | succ n ih =>
      have here : i < 64 := by omega
      have next : i + 1 < 64 := by omega
      refine Within.bind (Within.load
        (table ⟨i, here, rfl⟩)) fun power => ?_
      refine Within.bind (Within.store
        (table' ⟨i + 1, next, rfl⟩)) fun _ => ?_
      exact ih (i + 1) (by omega)

theorem loadCiphertextTerm_within {ciphertext : Ptr} {ciphertextLen termIndex
    cipherBlocks : Nat} (lower : termIndex ≤ cipherBlocks)
    (inside : span ciphertext (min ciphertextLen (cipherBlocks * 16)) ⊆ Reads) :
    (loadCiphertextTerm ciphertext ciphertextLen termIndex
      cipherBlocks).Within Reads Writes := by
  unfold loadCiphertextTerm
  split
  · exact .pure _
  · dsimp only
    refine Within.bind ?_ fun _ => .pure _
    refine Within.collect fun j => ?_
    split
    · refine Within.load (inside (mem_span ?_))
      omega
    · exact .pure _

theorem ghashLoop_within {ciphertext : Ptr} {ciphertextLen cipherBlocks : Nat}
    (inside : span ciphertext (min ciphertextLen (cipherBlocks * 16)) ⊆ Reads)
    (h : Block128) (remaining i : Nat) (y : Block128)
    (room : i + remaining ≤ cipherBlocks + 1) :
    (ghashLoop ciphertext ciphertextLen cipherBlocks h remaining i
      y).Within Reads Writes := by
  induction remaining generalizing i y with
  | zero => exact .pure _
  | succ remaining ih =>
      refine Within.bind (loadCiphertextTerm_within (by omega) inside)
        fun x => ?_
      exact ih (i + 1) _ (by omega)

theorem expectedTag_within {device : Int} {frame roundKeys root : Ptr}
    (iv : span (advance frame 1) 12 ⊆ Reads)
    (rest : {.roundKeys roundKeys, .sbox device, .node root 0} ⊆ Reads) :
    (expectedTag device frame roundKeys root).Within Reads Writes := by
  refine Within.bind (readBytes_within iv) fun _ => ?_
  refine Within.bind (Within.load
    (rest (by simp))) fun _ => ?_
  refine Within.bind (Within.load
    (rest (by simp))) fun _ => ?_
  exact Within.bind (Within.load
    (rest (by simp))) fun _ => .pure _

end Bodies

/-! ## Footprints of the kernels -/

theorem initHashKeyKernel_within (device : Int) (roundKeys hPow2 : Ptr)
    (t : Thread) :
    (initHashKeyKernel device roundKeys hPow2 t).Within
      ((Kernel.initHashKey roundKeys hPow2).threadReads device t)
      ((Kernel.initHashKey roundKeys hPow2).threadWrites t) := by
  unfold initHashKeyKernel
  split
  · exact .pure _
  · refine Within.bind (Within.load
      (Or.inl (by simp))) fun _ => ?_
    refine Within.bind (Within.load
      (Or.inl (by simp))) fun _ => ?_
    refine Within.bind (Within.store
      ⟨0, by decide, rfl⟩) fun _ => ?_
    exact squareTable_within Set.subset_union_right (Set.Subset.refl _) 0 63
      (by decide)

theorem writeFrameHeaderKernel_within (device : Int) (frame : Ptr)
    (iv : Vector Byte 12) (t : Thread) :
    (writeFrameHeaderKernel frame iv t).Within
      ((Kernel.writeFrameHeader frame iv).threadReads device t)
      ((Kernel.writeFrameHeader frame iv).threadWrites t) := by
  unfold writeFrameHeaderKernel
  split
  · exact .pure _
  · refine Within.bind (Within.store
      (mem_span (by decide))) fun _ => ?_
    refine Within.forEach fun i _ =>
      Within.store (mem_span ?_)
    omega

theorem ctrCryptKernel_within (device : Int) (src dst : Ptr) (len : Nat)
    (iv roundKeys : Ptr) (authOk : Option Ptr) (t : Thread) :
    (ctrCryptKernel device src dst len iv roundKeys authOk t).Within
      ((Kernel.ctrCrypt src dst len iv roundKeys authOk).threadReads device t)
      ((Kernel.ctrCrypt src dst len iv roundKeys authOk).threadWrites t) := by
  have bounds : ∀ (j : Fin 16) {pos : Nat}, pos = t.index * 16 + j.val →
      pos < len → t.index * 16 ≤ pos ∧ pos < min (t.index * 16 + 16) len := by
    omega
  unfold ctrCryptKernel
  dsimp only
  split
  · exact .pure _
  refine Within.bind ?_ fun failed => ?_
  · cases authOk with
    | none => exact .pure _
    | some flag =>
        refine Within.bind (Within.load
          (Or.inl (Or.inl (Or.inl ⟨flag, rfl, rfl⟩)))) fun _ => .pure _
  split
  · refine Within.forEach fun j _ => ?_
    split
    · rename_i inside
      obtain ⟨lower, upper⟩ := bounds j rfl inside
      exact Within.store
        (mem_bytesBetween lower upper)
    · exact .pure _
  split
  · exact .pure _
  refine Within.bind (readBytes_within fun cell inside =>
    Or.inl (Or.inr inside)) fun ivBytes => ?_
  refine Within.bind (Within.load
    (Or.inr (by simp))) fun rk => ?_
  refine Within.bind (Within.load
    (Or.inr (by simp))) fun sbox => ?_
  refine Within.forEach fun j _ => ?_
  split
  · rename_i inside
    obtain ⟨lower, upper⟩ := bounds j rfl inside
    refine Within.bind (Within.load
      (Or.inl (Or.inl (Or.inr (mem_bytesBetween lower upper))))) fun byte => ?_
    exact Within.store
      (mem_bytesBetween lower upper)
  · exact .pure _

theorem ghashSegmentKernel_within (device : Int) (ciphertext : Ptr)
    (ciphertextLen : Nat) (hPow2 nodes : Ptr) (t : Thread) :
    (ghashSegmentKernel ciphertext ciphertextLen hPow2 nodes t).Within
      ((Kernel.ghashSegment ciphertext ciphertextLen hPow2 nodes).threadReads
        device t)
      ((Kernel.ghashSegment ciphertext ciphertextLen hPow2 nodes).threadWrites
        t) := by
  unfold ghashSegmentKernel
  dsimp only
  split
  · exact .pure _
  · rename_i inside
    refine Within.bind (Within.load
      (Or.inr ⟨0, by decide, rfl⟩)) fun h => ?_
    refine Within.bind (ghashLoop_within Set.subset_union_left h _ _ _
      (by omega)) fun y => ?_
    exact Within.store ⟨by omega, rfl⟩

theorem ghashCombineKernel_within (device : Int) (input output : Ptr)
    (count : Nat) (hPow2 : Ptr) (t : Thread) :
    (ghashCombineKernel input output count hPow2 t).Within
      ((Kernel.ghashCombine input output count hPow2).threadReads device t)
      ((Kernel.ghashCombine input output count hPow2).threadWrites t) := by
  unfold ghashCombineKernel
  dsimp only
  split
  · exact .pure _
  · rename_i inside
    have left : t.index * 2 < count := by omega
    refine Within.bind (Within.load
      (Or.inl ⟨t.index * 2, left, by omega, rfl⟩)) fun a => ?_
    split
    · exact Within.store ⟨left, rfl⟩
    · rename_i paired
      refine Within.bind (Within.load
        (Or.inl ⟨t.index * 2 + 1, by omega, by omega, rfl⟩)) fun b => ?_
      refine Within.bind (gfPowFromTable_within Set.subset_union_right _)
        fun power => ?_
      exact Within.store ⟨left, rfl⟩

theorem finalizeTagKernel_within (device : Int) (frame : Ptr)
    (plaintextLen : Nat) (roundKeys root : Ptr) (t : Thread) :
    (finalizeTagKernel device frame plaintextLen roundKeys root t).Within
      ((Kernel.finalizeTag frame plaintextLen roundKeys root).threadReads
        device t)
      ((Kernel.finalizeTag frame plaintextLen roundKeys root).threadWrites
        t) := by
  unfold finalizeTagKernel
  split
  · exact .pure _
  · refine Within.bind (expectedTag_within Set.subset_union_left
      Set.subset_union_right) fun expected => ?_
    exact Within.forEach fun i _ =>
      Within.store (mem_span i.isLt)

theorem verifyTagKernel_within (device : Int) (frame : Ptr)
    (plaintextLen : Nat) (roundKeys root authOk : Ptr) (t : Thread) :
    (verifyTagKernel device frame plaintextLen roundKeys root authOk t).Within
      ((Kernel.verifyTag frame plaintextLen roundKeys root authOk).threadReads
        device t)
      ((Kernel.verifyTag frame plaintextLen roundKeys root authOk).threadWrites
        t) := by
  have header : span (advance frame 1) 12 ⊆ span frame 13 :=
    span_advance_subset (by decide)
  unfold verifyTagKernel
  split
  · exact .pure _
  · refine Within.bind (expectedTag_within
      (header.trans fun cell inside => Or.inl (Or.inl inside))
      Set.subset_union_right) fun expected => ?_
    refine Within.bind ?_ fun tag => ?_
    · exact readBytes_within fun cell inside => Or.inl (Or.inr inside)
    refine Within.bind (Within.load
      (Or.inl (Or.inl (mem_span (by decide))))) fun version => ?_
    exact Within.store rfl

/-- Every thread of every kernel stays inside its footprint. -/
theorem Kernel.body_within (device : Int) (k : Kernel) (t : Thread) :
    (k.body device t).Within (k.threadReads device t) (k.threadWrites t) := by
  cases k with
  | initHashKey => exact initHashKeyKernel_within ..
  | writeFrameHeader => exact writeFrameHeaderKernel_within ..
  | ctrCrypt => exact ctrCryptKernel_within ..
  | ghashSegment => exact ghashSegmentKernel_within ..
  | ghashCombine => exact ghashCombineKernel_within ..
  | finalizeTag => exact finalizeTagKernel_within ..
  | verifyTag => exact verifyTagKernel_within ..

/-! ## Footprints of a launch -/

/-- The cells the threads of a launch may read. -/
def Launch.reads (l : Launch) : Set Cell :=
  {cell | ∃ i < l.threadCount, cell ∈ l.kernel.threadReads l.device (l.thread i)}

/-- The cells the threads of a launch may write. -/
def Launch.writes (l : Launch) : Set Cell :=
  {cell | ∃ i < l.threadCount, cell ∈ l.kernel.threadWrites (l.thread i)}

theorem Launch.mem_order (schedule : Schedule) (l : Launch) (memory : Memory)
    {i : Nat} : i ∈ schedule.order l memory ↔ i < l.threadCount := by
  rw [(schedule.complete l memory).mem_iff, List.mem_range]

theorem Launch.program_within (schedule : Schedule) (l : Launch)
    (memory : Memory) :
    (l.program schedule memory).Within l.reads l.writes := by
  refine Within.forEach fun i member => ?_
  have inside := (l.mem_order schedule memory).mp member
  exact (l.kernel.body_within l.device (l.thread i)).mono
    (fun cell hcell => ⟨i, inside, hcell⟩) fun cell hcell => ⟨i, inside, hcell⟩

/-- A launch leaves every cell outside its footprint as it was. -/
theorem Launch.run_frame (schedule : Schedule) (l : Launch) (memory : Memory)
    {cell : Cell} (outside : cell ∉ l.writes) :
    l.run schedule memory cell = memory cell :=
  (l.program_within schedule memory).exec_frame memory outside

/-- The global index of a thread is its number in the launch. -/
theorem Launch.thread_index (l : Launch) (i : Nat) :
    (l.thread i).index = i := by
  show i / l.threads * l.threads + i % l.threads = i
  rw [Nat.mul_comm]
  exact Nat.div_add_mod i l.threads

/-- A launch of one thread is the program of that thread. -/
theorem Launch.run_single (schedule : Schedule) (l : Launch) (memory : Memory)
    (single : l.threadCount = 1) :
    l.run schedule memory =
      (l.kernel.body l.device ⟨0, 0, l.threads⟩).exec memory := by
  have first : l.thread 0 = ⟨0, 0, l.threads⟩ := by
    rw [Launch.thread, Nat.zero_div, Nat.zero_mod]
  have order : schedule.order l memory = [0] := by
    have complete := schedule.complete l memory
    rw [single] at complete
    exact List.perm_singleton.mp complete
  rw [Launch.run, Launch.program, order, ← first]
  simp [Launch.body]

/-- A cell that exactly one thread writes ends with what that thread leaves
there when it runs alone. -/
theorem Launch.run_owned (schedule : Schedule) (l : Launch) (memory : Memory)
    (apart : ∀ i j, i ≠ j → Disjoint (l.kernel.threadWrites (l.thread i))
      (l.kernel.threadReads l.device (l.thread j) ∪
        l.kernel.threadWrites (l.thread j)))
    {i : Nat} (inside : i < l.threadCount) {cell : Cell}
    (owned : cell ∈ l.kernel.threadWrites (l.thread i)) :
    l.run schedule memory cell = (l.body i).exec memory cell := by
  have independent : Independent
      (fun i => l.kernel.threadReads l.device (l.thread i))
      (fun i => l.kernel.threadWrites (l.thread i)) l.body :=
    ⟨fun i => l.kernel.body_within l.device (l.thread i), apart⟩
  have distinct : (schedule.order l memory).Nodup :=
    (schedule.complete l memory).nodup_iff.mpr List.nodup_range
  exact independent.exec_owned distinct memory
    ((l.mem_order schedule memory).mpr inside) owned

end GpuKvSeal.Device
