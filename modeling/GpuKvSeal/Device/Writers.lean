import GpuKvSeal.Device.Threads
import GpuKvSeal.Foundations.SoleWriter

/-!
# How often a kernel writes a cell

No thread of a kernel writes a cell twice.  So a launch without races writes every
cell at most once altogether.
-/

namespace GpuKvSeal.Device

open BigEndian (Byte)
open CellProgram.Program (Within forEach)
open ThreadPool (AtMostOnce SoleWriter Unwritten)

variable {cell : Cell}

/-- A loop over consecutive bytes. -/
theorem bytes_once {p : Ptr} {n : Nat} (small : n ≤ 2 ^ 64)
    {body : Fin n → DeviceProgram Unit}
    (each : ∀ i, AtMostOnce cell (body i))
    (own : ∀ i, (body i).Within Set.univ {.byte (advance p i.val)}) :
    AtMostOnce cell (forEach (List.finRange n) body) := by
  refine AtMostOnce.forEach (fun i _ => each i) ?_
  refine (List.nodup_finRange n).imp fun {i j} different => ?_
  by_cases here : cell = .byte (advance p i.val)
  · refine Or.inr (.of_within (own j) fun there => different (Fin.ext ?_))
    have same := Cell.byte.inj (here.symm.trans there)
    exact advance_inj (by omega) (by omega) same
  · exact Or.inl (.of_within (own i) here)

theorem squareTable_unwritten {hPow2 : Ptr} {i : Nat}
    (before : ∀ k, i < k → cell ≠ .hPow2 hPow2 k) (n : Nat) :
    Unwritten cell (squareTable hPow2 i n) := by
  induction n generalizing i with
  | zero => exact Within.pure ()
  | succ n ih =>
      refine Within.bind (Within.load (Set.mem_univ _)) fun power => ?_
      refine Within.bind (Within.store fun same => before (i + 1) (by omega) same.symm)
        fun _ => ih fun k later => before k (by omega)

theorem squareTable_once (hPow2 : Ptr) (i n : Nat) :
    AtMostOnce cell (squareTable hPow2 i n) := by
  induction n generalizing i with
  | zero => exact .done ()
  | succ n ih =>
      refine .read fun power => AtMostOnce.store_bind (fun same => ?_) (ih (i + 1))
      refine squareTable_unwritten (fun k later here => ?_) n
      have place := (Cell.hPow2.inj (same.trans here)).2
      omega

theorem expectedTag_unwritten (device : Int) (frame roundKeys root : Ptr) :
    Unwritten cell (expectedTag device frame roundKeys root) :=
  expectedTag_within (Set.subset_univ _) (Set.subset_univ _)

theorem readBytes_unwritten (p : Ptr) (n : Nat) : Unwritten cell (readBytes p n) :=
  readBytes_within (Set.subset_univ _)

theorem load_unwritten (other : Cell) :
    Unwritten cell (CellProgram.Program.load other : DeviceProgram (Cell.Val other)) :=
  Within.load (Set.mem_univ _)

theorem writeFrameHeaderKernel_once (frame : Ptr) (iv : Vector Byte 12) (t : Thread) :
    AtMostOnce cell (writeFrameHeaderKernel frame iv t) := by
  have own : ∀ i : Fin 12, (storeByte (advance frame (1 + i.val)) (iv.get i)).Within
      Set.univ {.byte (advance (advance frame 1) i.val)} := by
    intro i
    rw [advance_advance]
    exact Within.store rfl
  unfold writeFrameHeaderKernel
  split
  · exact .done ()
  · refine AtMostOnce.store_bind (fun same => ?_) ?_
    · refine Within.forEach fun i _ => Within.store fun other => ?_
      have place := advance_inj (by omega) (by omega)
        (Cell.byte.inj (other.trans same.symm))
      omega
    · exact bytes_once (by decide) (fun i => .store _ _) own

theorem ctrCryptKernel_once (device : Int) (src dst : Ptr) (len : Nat) (iv roundKeys : Ptr)
    (authOk : Option Ptr) (t : Thread) :
    AtMostOnce cell (ctrCryptKernel device src dst len iv roundKeys authOk t) := by
  have place : ∀ j : Fin 16, advance dst (t.index * 16 + j.val) =
      advance (advance dst (t.index * 16)) j.val := fun j => (advance_advance ..).symm
  unfold ctrCryptKernel
  dsimp only
  split
  · exact .done ()
  refine Unwritten.bind_atMostOnce ?_ fun failed => ?_
  · cases authOk with
    | none => exact Within.pure _
    | some flag => exact (load_unwritten _).bind fun _ => .pure _
  split
  · refine bytes_once (p := advance dst (t.index * 16)) (by decide) (fun j => ?_)
      fun j => ?_
    · split
      · exact .store _ _
      · exact .done ()
    · split
      · exact Within.store (congrArg Cell.byte (place j))
      · exact .pure _
  split
  · exact .done ()
  refine (readBytes_unwritten iv 12).bind_atMostOnce fun ivBytes => ?_
  refine (load_unwritten _).bind_atMostOnce fun rk => ?_
  refine (load_unwritten _).bind_atMostOnce fun sbox => ?_
  refine bytes_once (p := advance dst (t.index * 16)) (by decide) (fun j => ?_)
    fun j => ?_
  · split
    · exact (load_unwritten _).bind_atMostOnce fun byte => .store _ _
    · exact .done ()
  · split
    · exact (Within.load (Set.mem_univ _)).bind fun byte =>
        Within.store (congrArg Cell.byte (place j))
    · exact .pure _

theorem ghashSegmentKernel_once (ciphertext : Ptr) (ciphertextLen : Nat)
    (hPow2 nodes : Ptr) (t : Thread) :
    AtMostOnce cell (ghashSegmentKernel ciphertext ciphertextLen hPow2 nodes t) := by
  unfold ghashSegmentKernel
  dsimp only
  split
  · exact .done ()
  · refine (load_unwritten _).bind_atMostOnce fun h => ?_
    refine Unwritten.bind_atMostOnce ?_ fun y => .store _ _
    exact ghashLoop_within (Set.subset_univ _) h _ _ _ (by omega)

theorem ghashCombineKernel_once (input output : Ptr) (count : Nat) (hPow2 : Ptr)
    (t : Thread) : AtMostOnce cell (ghashCombineKernel input output count hPow2 t) := by
  unfold ghashCombineKernel
  dsimp only
  split
  · exact .done ()
  · refine (load_unwritten _).bind_atMostOnce fun a => ?_
    split
    · exact .store _ _
    · refine (load_unwritten _).bind_atMostOnce fun b => ?_
      refine Unwritten.bind_atMostOnce ?_ fun power => .store _ _
      exact gfPowFromTable_within (Set.subset_univ _) _

theorem initHashKeyKernel_once (device : Int) (roundKeys hPow2 : Ptr) (t : Thread) :
    AtMostOnce cell (initHashKeyKernel device roundKeys hPow2 t) := by
  unfold initHashKeyKernel
  split
  · exact .done ()
  · refine (load_unwritten _).bind_atMostOnce fun rk => ?_
    refine (load_unwritten _).bind_atMostOnce fun sbox => ?_
    refine AtMostOnce.store_bind (fun same => ?_) (squareTable_once hPow2 0 63)
    refine squareTable_unwritten (fun k later here => ?_) 63
    have place := (Cell.hPow2.inj (same.trans here)).2
    omega

theorem finalizeTagKernel_once (device : Int) (frame : Ptr) (plaintextLen : Nat)
    (roundKeys root : Ptr) (t : Thread) :
    AtMostOnce cell (finalizeTagKernel device frame plaintextLen roundKeys root t) := by
  unfold finalizeTagKernel
  split
  · exact .done ()
  · refine (expectedTag_unwritten ..).bind_atMostOnce fun expected => ?_
    exact bytes_once (by decide) (fun i => .store _ _) fun i => Within.store rfl

theorem verifyTagKernel_once (device : Int) (frame : Ptr) (plaintextLen : Nat)
    (roundKeys root authOk : Ptr) (t : Thread) :
    AtMostOnce cell
      (verifyTagKernel device frame plaintextLen roundKeys root authOk t) := by
  unfold verifyTagKernel
  split
  · exact .done ()
  · refine (expectedTag_unwritten ..).bind_atMostOnce fun expected => ?_
    refine (readBytes_unwritten _ 16).bind_atMostOnce fun tag => ?_
    exact (load_unwritten _).bind_atMostOnce fun version => .store _ _

/-- A thread writes a cell at most once, whatever it reads. -/
theorem Kernel.body_once (device : Int) (k : Kernel) (t : Thread) :
    AtMostOnce cell (k.body device t) := by
  cases k with
  | initHashKey => exact initHashKeyKernel_once ..
  | writeFrameHeader => exact writeFrameHeaderKernel_once ..
  | ctrCrypt => exact ctrCryptKernel_once ..
  | ghashSegment => exact ghashSegmentKernel_once ..
  | ghashCombine => exact ghashCombineKernel_once ..
  | finalizeTag => exact finalizeTagKernel_once ..
  | verifyTag => exact verifyTagKernel_once ..

/-- A launch without races writes every cell at most once. -/
theorem Launch.RaceFree.soleWriter {l : Launch} (raceFree : l.RaceFree) (cell : Cell) :
    SoleWriter cell l.bodies where
  once := by
    intro thread member
    obtain ⟨i, -, rfl⟩ := Launch.mem_bodies.mp member
    exact l.kernel.body_once l.device (l.thread i)
  alone := raceFree.bodies_apart.imp fun apart => apart.unwritten cell

theorem Launch.bodies_unwritten {l : Launch} (outside : cell ∉ l.writes) :
    ∀ thread ∈ l.bodies, Unwritten cell thread :=
  fun _ member => .of_within (Launch.bodies_within member) outside

end GpuKvSeal.Device
