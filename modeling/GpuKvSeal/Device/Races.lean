import GpuKvSeal.Device.Footprints

/-!
# Launches without races

A launch has no race if it has one thread, or if its threads write apart from
what the others touch.  Such a launch has one outcome, whatever order the device
chooses for its threads, and two of them that touch different cells commute.
-/

namespace GpuKvSeal.Device

open BigEndian (Byte)
open CellProgram.Program (forEach Within Independent)

/-- No thread writes what another thread touches. -/
def Launch.ThreadsApart (l : Launch) : Prop :=
  ∀ i j, i ≠ j → Disjoint (l.kernel.threadWrites (l.thread i))
    (l.kernel.threadReads l.device (l.thread j) ∪
      l.kernel.threadWrites (l.thread j))

def Launch.RaceFree (l : Launch) : Prop := l.threadCount = 1 ∨ l.ThreadsApart

theorem Launch.ThreadsApart.independent {l : Launch} (apart : l.ThreadsApart) :
    Independent (fun i => l.kernel.threadReads l.device (l.thread i))
      (fun i => l.kernel.threadWrites (l.thread i)) l.body :=
  ⟨fun i => l.kernel.body_within l.device (l.thread i), apart⟩

/-- Without races a launch runs as if its threads ran in the order of their
numbers. -/
theorem Launch.RaceFree.run_eq {l : Launch} (raceFree : l.RaceFree)
    (schedule : Schedule) (memory : Memory) :
    l.run schedule memory =
      (forEach (List.range l.threadCount) l.body).exec memory := by
  have complete := schedule.complete l memory
  rcases raceFree with single | apart
  · rw [single] at complete
    have order : schedule.order l memory = [0] := List.perm_singleton.mp complete
    rw [Launch.run, Launch.program, order, single]
    rfl
  · exact apart.independent.exec_perm
      (complete.nodup_iff.mpr List.nodup_range) complete memory

theorem Launch.range_within (l : Launch) :
    (forEach (List.range l.threadCount) l.body).Within l.reads l.writes := by
  refine Within.forEach fun i member => ?_
  have inside := List.mem_range.mp member
  exact (l.kernel.body_within l.device (l.thread i)).mono
    (fun cell hcell => ⟨i, inside, hcell⟩) fun cell hcell => ⟨i, inside, hcell⟩

/-- Launches without races commute if neither writes what the other touches. -/
theorem Launch.RaceFree.run_comm {l l' : Launch} (raceFree : l.RaceFree)
    (raceFree' : l'.RaceFree) (apart : Disjoint l.writes (l'.reads ∪ l'.writes))
    (apart' : Disjoint l'.writes l.reads) (schedule : Schedule) (memory : Memory) :
    l'.run schedule (l.run schedule memory) =
      l.run schedule (l'.run schedule memory) := by
  simp only [raceFree.run_eq, raceFree'.run_eq]
  exact l.range_within.exec_comm l'.range_within apart apart' memory

/-! ## The kernels -/

theorem ctrCrypt_apart (device : Int) (src dst : Ptr) {len : Nat}
    (iv roundKeys : Ptr) (authOk : Option Ptr) (grid : Int) (threads : Nat)
    (small : len ≤ 2 ^ 64)
    (apart : Disjoint (span dst len) (span src len ∪ span iv 12)) :
    (Launch.mk device (.ctrCrypt src dst len iv roundKeys authOk) grid
      threads).ThreadsApart := by
  intro i j different
  refine Set.disjoint_left.mpr ?_
  rintro cell ⟨k, lower, upper, rfl⟩ touched
  rw [Launch.thread_index] at lower upper
  have written : Cell.byte (advance dst k) ∈ span dst len := mem_span (by omega)
  rcases touched with (((⟨flag, -, same⟩ | fromSrc) | fromIv) | table) | other
  · cases same
  · exact Set.disjoint_left.mp apart written (Or.inl
      (bytesBetween_mono (Nat.zero_le _) (by omega) fromSrc))
  · exact Set.disjoint_left.mp apart written (Or.inr fromIv)
  · rcases table with same | same
    · cases same
    · cases same
  · obtain ⟨k', lower', upper', same⟩ := other
    rw [Launch.thread_index] at lower' upper'
    have equal := advance_inj (by omega) (by omega) (Cell.byte.inj same)
    omega

theorem ghashSegment_apart (device : Int) (ciphertext : Ptr) (ciphertextLen : Nat)
    (hPow2 nodes : Ptr) (grid : Int) (threads : Nat) :
    (Launch.mk device (.ghashSegment ciphertext ciphertextLen hPow2 nodes) grid
      threads).ThreadsApart := by
  intro i j different
  refine Set.disjoint_left.mpr ?_
  rintro cell ⟨-, rfl⟩ ((⟨k, -, -, same⟩ | ⟨k, -, same⟩) | ⟨-, same⟩)
  · cases same
  · cases same
  · rw [Launch.thread_index, Launch.thread_index] at same
    exact different (Cell.node.inj same).2

theorem ghashCombine_apart (device : Int) {input output : Ptr} (count : Nat)
    (hPow2 : Ptr) (grid : Int) (threads : Nat) (distinct : input ≠ output) :
    (Launch.mk device (.ghashCombine input output count hPow2) grid
      threads).ThreadsApart := by
  intro i j different
  refine Set.disjoint_left.mpr ?_
  rintro cell ⟨-, rfl⟩ ((⟨k, -, -, same⟩ | ⟨k, -, same⟩) | ⟨-, same⟩)
  · exact distinct (Cell.node.inj same).1.symm
  · cases same
  · rw [Launch.thread_index, Launch.thread_index] at same
    exact different (Cell.node.inj same).2

end GpuKvSeal.Device
