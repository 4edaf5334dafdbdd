import GpuKvSeal.Device.Races
import GpuKvSeal.Refinement.AesFips
import GpuKvSeal.Standard.GcmBytes

/-!
# The header and the counter kernel

The counter kernel gives every byte of its range the source byte masked with
the keystream byte of that position, or zero when the tag check failed.  One
thread owns the sixteen bytes of a block, so the order of threads is
irrelevant.
-/

namespace GpuKvSeal.Refinement

open BigEndian (Byte)
open CellProgram (Program)
open CellProgram.Program (Independent Within)
open Device

/-! ## Reading bytes -/

/-- The `n` bytes behind a pointer. -/
def bytesAt (memory : Memory) (p : Ptr) (n : Nat) : Vector Byte n :=
  Vector.ofFn fun i => memory (.byte (advance p i.val))

@[simp]
theorem getElem_bytesAt (memory : Memory) (p : Ptr) (n i : Nat) (inside : i < n) :
    (bytesAt memory p n)[i] = memory (.byte (advance p i)) := by
  simp [bytesAt]

@[simp]
theorem value_readBytes (memory : Memory) (p : Ptr) (n : Nat) :
    (readBytes p n).value memory = bytesAt memory p n :=
  CellProgram.Program.value_collect memory fun _ => rfl

@[simp]
theorem exec_readBytes (memory : Memory) (p : Ptr) (n : Nat) :
    (readBytes p n).exec memory = memory :=
  CellProgram.Program.exec_collect memory fun _ => rfl

theorem bytesAt_congr {first second : Memory} {p : Ptr} {n : Nat}
    (same : ∀ k < n, first (.byte (advance p k)) = second (.byte (advance p k))) :
    bytesAt first p n = bytesAt second p n := by
  ext1 i inside
  rw [getElem_bytesAt, getElem_bytesAt, same i inside]

/-! ## Writing a row of bytes -/

/-- Threads of a loop that each store one byte at their own position. -/
theorem exec_storeRow {n : Nat} (p : Ptr) (position : Fin n → Nat)
    (small : ∀ i, position i < 2 ^ 64) (distinct : Function.Injective position)
    (bytes : Fin n → Byte) (memory : Memory) (i : Fin n) :
    (Program.forEach (List.finRange n) fun i =>
      storeByte (advance p (position i)) (bytes i)).exec memory
        (.byte (advance p (position i))) = bytes i := by
  have independent : Independent (fun _ => ∅)
      (fun i => {.byte (advance p (position i))})
      (fun i => storeByte (advance p (position i)) (bytes i)) := by
    refine ⟨fun i => Within.store rfl, fun i j different => ?_⟩
    rw [Set.empty_union, Set.disjoint_singleton]
    intro same
    exact different (distinct
      (advance_inj (small i) (small j) (Cell.byte.inj same)))
  rw [independent.exec_owned (List.nodup_finRange n) memory
    (List.mem_finRange i) (Set.mem_singleton _)]
  simp

/-- The header kernel stores the version and the IV. -/
theorem writeFrameHeader_run (schedule : Schedule) (device : Int) (frame : Ptr)
    (iv : Vector Byte 12) (memory : Memory) :
    let after := (Launch.mk device (.writeFrameHeader frame iv) 1 1).run
      schedule memory
    after (.byte (advance frame 0)) = VERSION ∧
      ∀ i : Fin 12, after (.byte (advance frame (1 + i.val))) = iv.get i := by
  intro after
  have single : after = (writeFrameHeaderKernel frame iv ⟨0, 0, 1⟩).exec memory :=
    (Launch.mk device (.writeFrameHeader frame iv) 1 1).run_single schedule
      memory rfl
  have row : (Program.forEach (List.finRange 12) fun i =>
      storeByte (advance frame (1 + i.val)) (iv.get i)).Within ∅
        (bytesBetween frame 1 13) := by
    refine Within.forEach fun i _ => Within.store (mem_bytesBetween ?_ ?_)
    · omega
    · omega
  constructor
  · have outside : Cell.byte (advance frame 0) ∉ bytesBetween frame 1 13 := by
      rintro ⟨k, lower, upper, same⟩
      have zero := advance_inj (by decide) (by omega) (Cell.byte.inj same)
      omega
    rw [single, writeFrameHeaderKernel, if_neg (by simp)]
    simp only [CellProgram.Program.exec_bind, CellProgram.Program.exec_store]
    rw [row.exec_frame _ outside, CellProgram.Store.update_self]
  · intro i
    rw [single, writeFrameHeaderKernel, if_neg (by simp)]
    simp only [CellProgram.Program.exec_bind, CellProgram.Program.exec_store]
    exact exec_storeRow frame (fun i : Fin 12 => 1 + i.val) (by omega)
      (fun i j same => Fin.ext (by simpa using same)) (fun i => iv.get i) _ i

/-! ## The counter kernel -/

/-- The keystream byte the device computes for a position. -/
def streamByte (memory : Memory) (device : Int) (iv roundKeys : Ptr)
    (pos : Nat) : Byte :=
  (aes128EncryptBlock (memory (.sbox device))
    (makeCounterBlock (bytesAt memory iv 12) (BitVec.ofNat 32 (pos / 16 + 2)))
    (memory (.roundKeys roundKeys))).get (Fin.ofNat 16 pos)

/-- What the counter kernel leaves at a position of its range. -/
def ctrResult (memory : Memory) (device : Int) (src dst iv roundKeys : Ptr)
    (authOk : Option Ptr) (pos : Nat) : Byte :=
  if (authFailed authOk).value memory then 0#8
  else if pos / 16 + 2 > 0xffffffff then memory (.byte (advance dst pos))
  else memory (.byte (advance src pos)) ^^^
    streamByte memory device iv roundKeys pos

theorem exec_authFailed (authOk : Option Ptr) (memory : Memory) :
    (authFailed authOk).exec memory = memory := by
  cases authOk <;> rfl

/-- The byte cell of position `i` of a block, while it is below the length. -/
def blockCell (p : Ptr) (blockIndex len : Nat) (i : Fin 16) : Set Cell :=
  {cell | blockIndex * 16 + i.val < len ∧
    cell = .byte (advance p (blockIndex * 16 + i.val))}

/-- A loop over the positions of one block stores each byte on its own. -/
theorem exec_blockRow {src dst : Ptr} (blockIndex : Nat) {len : Nat}
    (small : len ≤ 2 ^ 64) (apart : Disjoint (span dst len) (span src len))
    (body : Fin 16 → DeviceProgram Unit)
    (within : ∀ i, (body i).Within (blockCell src blockIndex len i)
      (blockCell dst blockIndex len i))
    (memory : Memory) (j : Fin 16) (below : blockIndex * 16 + j.val < len) :
    (Program.forEach (List.finRange 16) body).exec memory
        (.byte (advance dst (blockIndex * 16 + j.val))) =
      (body j).exec memory
        (.byte (advance dst (blockIndex * 16 + j.val))) := by
  have independent : Independent (blockCell src blockIndex len)
      (blockCell dst blockIndex len) body := by
    refine ⟨within, fun i i' different => Set.disjoint_left.mpr ?_⟩
    rintro cell ⟨bound, rfl⟩ (⟨bound', same⟩ | ⟨bound', same⟩)
    · refine Set.disjoint_left.mp apart (mem_span bound) ?_
      rw [same]
      exact mem_span bound'
    · have equal := advance_inj (by omega) (by omega) (Cell.byte.inj same)
      exact different (Fin.ext (by omega))
  exact independent.exec_owned (List.nodup_finRange 16) memory
    (List.mem_finRange j) ⟨below, rfl⟩

/-- One thread of the counter kernel, at a position of its block. -/
theorem ctrCryptKernel_exec (device : Int) (src dst : Ptr) {len : Nat}
    (iv roundKeys : Ptr) (authOk : Option Ptr) (t : Thread) (memory : Memory)
    (small : len ≤ 2 ^ 64) (inside : t.index < blockCount len)
    (apart : Disjoint (span dst len) (span src len))
    {pos : Nat} (owned : pos / 16 = t.index) (below : pos < len) :
    (ctrCryptKernel device src dst len iv roundKeys authOk t).exec memory
      (.byte (advance dst pos)) =
        ctrResult memory device src dst iv roundKeys authOk pos := by
  let j : Fin 16 := ⟨pos % 16, Nat.mod_lt _ (by decide)⟩
  have home : t.index * 16 + j.val = pos := by
    show t.index * 16 + pos % 16 = pos
    omega
  have bound : t.index * 16 + j.val < len := by omega
  have notBeyond : ¬ t.index ≥ blockCount len := by omega
  unfold ctrCryptKernel ctrResult
  simp only [if_neg notBeyond, CellProgram.Program.exec_bind, exec_authFailed]
  cases (authFailed authOk).value memory with
  | true =>
      have row := exec_blockRow t.index small apart (fun i : Fin 16 =>
        if t.index * 16 + i.val < len then
          storeByte (advance dst (t.index * 16 + i.val)) 0#8
        else pure ()) ?_ memory j bound
      · rw [if_pos bound, home] at row
        simpa using row
      · intro i
        split
        · rename_i bound
          exact Within.store ⟨bound, rfl⟩
        · exact .pure _
  | false =>
      simp only [Bool.false_eq_true, if_false, owned]
      split
      · rfl
      simp only [CellProgram.Program.exec_bind, exec_readBytes, value_readBytes,
        CellProgram.Program.exec_load, CellProgram.Program.value_load]
      have row := exec_blockRow t.index small apart (fun i : Fin 16 =>
        if t.index * 16 + i.val < len then do
          let byte ← loadByte (advance src (t.index * 16 + i.val))
          storeByte (advance dst (t.index * 16 + i.val))
            (byte ^^^ (aes128EncryptBlock (memory (.sbox device))
              (makeCounterBlock (bytesAt memory iv 12)
                (BitVec.ofNat 32 (t.index + 2)))
              (memory (.roundKeys roundKeys))).get i)
        else pure ()) ?_ memory j bound
      · rw [if_pos bound, home] at row
        have byte : Fin.ofNat 16 pos = j := rfl
        rw [row, streamByte, byte, owned]
        simp
      · intro i
        split
        · rename_i bound
          exact Within.bind (Within.load ⟨bound, rfl⟩) fun _ =>
            Within.store ⟨bound, rfl⟩
        · exact .pure _

/-! ### A closed gate -/

/-- Clearing one position keeps what is already zero. -/
theorem clear_keeps {dst : Ptr} {pos len : Nat} {q : Ptr} {memory : Memory}
    (zero : memory (.byte q) = 0#8) :
    (if pos < len then storeByte (advance dst pos) 0#8
      else pure () : DeviceProgram Unit).exec memory (.byte q) = 0#8 := by
  split
  · by_cases same : q = advance dst pos
    · subst same
      exact CellProgram.Store.update_self ..
    · have other : Cell.byte q ≠ .byte (advance dst pos) := by simpa using same
      exact (CellProgram.Store.update_of_ne _ _ other).trans zero
  · exact zero

/-- The row of a thread that finds the gate closed. -/
def clearRow (dst : Ptr) (blockIndex len : Nat) : DeviceProgram Unit :=
  Program.forEach (List.finRange 16) fun j =>
    if blockIndex * 16 + j.val < len then
      storeByte (advance dst (blockIndex * 16 + j.val)) 0#8
    else pure ()

theorem clearRow_keeps {dst : Ptr} {blockIndex len : Nat} {q : Ptr}
    {memory : Memory} (zero : memory (.byte q) = 0#8) :
    (clearRow dst blockIndex len).exec memory (.byte q) = 0#8 := by
  unfold clearRow
  induction List.finRange 16 generalizing memory with
  | nil => exact zero
  | cons j rest ih =>
      rw [CellProgram.Program.exec_forEach_cons]
      exact ih (clear_keeps zero)

theorem clearRow_clears (dst : Ptr) {blockIndex len pos : Nat}
    (owned : pos / 16 = blockIndex) (below : pos < len) (memory : Memory) :
    (clearRow dst blockIndex len).exec memory (.byte (advance dst pos)) = 0#8 := by
  let j : Fin 16 := ⟨pos % 16, Nat.mod_lt _ (by decide)⟩
  have home : blockIndex * 16 + j.val = pos := by
    show blockIndex * 16 + pos % 16 = pos
    omega
  refine CellProgram.Program.exec_forEach_establishes
    (fun _ => True) (fun m : Memory => m (.byte (advance dst pos)) = 0#8)
    (fun _ _ _ _ => trivial) (fun i _ m _ zero => clear_keeps zero)
    (List.mem_finRange j) (fun m _ => ?_) trivial
  rw [home, if_pos below]
  exact CellProgram.Store.update_self ..

/-- A thread that finds the gate closed clears its row and does nothing else. -/
theorem ctrCryptKernel_closed (device : Int) (src dst : Ptr) (len : Nat)
    (iv roundKeys : Ptr) {authOk : Option Ptr} (t : Thread) {memory : Memory}
    (closed : (authFailed authOk).value memory = true) :
    (ctrCryptKernel device src dst len iv roundKeys authOk t).exec memory =
      if t.index ≥ blockCount len then memory
      else (clearRow dst t.index len).exec memory := by
  unfold ctrCryptKernel
  by_cases beyond : t.index ≥ blockCount len
  · rw [if_pos beyond, if_pos beyond]
    rfl
  · rw [if_neg beyond, if_neg beyond]
    simp only [CellProgram.Program.exec_bind, exec_authFailed, closed, if_true]
    rfl

/-- Threads of the counter kernel write bytes only, so none of them moves the gate. -/
theorem ctrCrypt_gate (device : Int) (src dst : Ptr) (len : Nat) (iv roundKeys : Ptr)
    (authOk : Option Ptr) (grid : Int) (i : Nat) (memory : Memory) :
    (authFailed authOk).value ((Launch.mk device
        (.ctrCrypt src dst len iv roundKeys authOk) grid 256).body i |>.exec memory) =
      (authFailed authOk).value memory := by
  let l := Launch.mk device (.ctrCrypt src dst len iv roundKeys authOk) grid 256
  cases authOk with
  | none => rfl
  | some flag =>
      have kept : (l.body i).exec memory (.flag flag) = memory (.flag flag) := by
        refine (l.kernel.body_within l.device (l.thread i)).exec_frame memory ?_
        rintro ⟨k, -, -, same⟩
        cases same
      show ((l.body i).exec memory (.flag flag) == 0) = (memory (.flag flag) == 0)
      rw [kept]

/-- With the gate closed the counter kernel clears its range, whatever the
range overlaps. -/
theorem ctrCrypt_closed (schedule : Schedule) (device : Int) (src dst : Ptr)
    {len : Nat} (iv roundKeys : Ptr) {authOk : Option Ptr} (grid : Int)
    {memory : Memory} (closed : (authFailed authOk).value memory = true)
    (covers : blockCount len ≤ grid.toNat * 256) {pos : Nat} (below : pos < len)
    (block : pos / 16 < blockCount len) :
    (Launch.mk device (.ctrCrypt src dst len iv roundKeys authOk) grid 256).run
        schedule memory (.byte (advance dst pos)) = 0#8 := by
  let l := Launch.mk device (.ctrCrypt src dst len iv roundKeys authOk) grid 256
  have thread : pos / 16 < l.threadCount := block.trans_le covers
  have keeps : ∀ i ∈ schedule.order l memory, ∀ m : Memory,
      (authFailed authOk).value m = true →
      (authFailed authOk).value ((l.body i).exec m) = true := fun i _ m failed =>
    (ctrCrypt_gate device src dst len iv roundKeys authOk grid i m).trans failed
  refine CellProgram.Program.exec_forEach_establishes
    (fun m => (authFailed authOk).value m = true)
    (fun m : Memory => m (.byte (advance dst pos)) = 0#8) keeps
    (fun i _ m failed zero => ?_) ((l.mem_order schedule memory).mpr thread)
    (fun m failed => ?_) closed
  · refine (congrArg (fun after : Memory => after (.byte (advance dst pos)))
      (ctrCryptKernel_closed device src dst len iv roundKeys (l.thread i)
        failed)).trans ?_
    split
    · exact zero
    · exact clearRow_keeps zero
  · refine (congrArg (fun after : Memory => after (.byte (advance dst pos)))
      (ctrCryptKernel_closed device src dst len iv roundKeys
        (l.thread (pos / 16)) failed)).trans ?_
    rw [l.thread_index, if_neg (by omega)]
    exact clearRow_clears dst rfl below m

/-! ### A whole launch -/

/-- The counter kernel over a whole launch. -/
theorem ctrCrypt_run (schedule : Schedule) (device : Int) (src dst : Ptr)
    {len : Nat} (iv roundKeys : Ptr) (authOk : Option Ptr) (grid : Int)
    (memory : Memory) (small : len ≤ 2 ^ 64)
    (covers : blockCount len ≤ grid.toNat * 256)
    (apart : Disjoint (span dst len) (span src len ∪ span iv 12))
    {pos : Nat} (below : pos < len) (block : pos / 16 < blockCount len) :
    (Launch.mk device (.ctrCrypt src dst len iv roundKeys authOk) grid 256).run
        schedule memory (.byte (advance dst pos)) =
      ctrResult memory device src dst iv roundKeys authOk pos := by
  let l := Launch.mk device (.ctrCrypt src dst len iv roundKeys authOk) grid 256
  have independent : l.ThreadsApart :=
    ctrCrypt_apart device src dst iv roundKeys authOk grid 256 small apart
  have thread : pos / 16 < l.threadCount := block.trans_le covers
  have owned : Cell.byte (advance dst pos) ∈
      l.kernel.threadWrites (l.thread (pos / 16)) := by
    refine ⟨pos, ?_, ?_, rfl⟩ <;> rw [l.thread_index] <;> omega
  have whole := l.run_owned schedule memory independent thread owned
  rw [whole]
  refine ctrCryptKernel_exec device src dst iv roundKeys authOk _ memory small
    ?_ (apart.mono_right Set.subset_union_left) ?_ below
  · rw [l.thread_index]
    exact block
  · rw [l.thread_index]

end GpuKvSeal.Refinement
