import GpuKvSeal.Device.Races
import GpuKvSeal.Foundations.ThreadPool

/-!
# The threads of a launch, access by access

A launch hands all its threads to a stream at once.  If the launch has no race,
its threads are apart, and running them one after another is running the launch
in any order.
-/

namespace GpuKvSeal.Device

open CellProgram.Program (forEach exec_forEach_cons)
open ThreadPool (Apart execAll execAll_cons)

/-- The threads of a launch in the order of their numbers. -/
def Launch.bodies (l : Launch) : List (DeviceProgram Unit) :=
  (List.range l.threadCount).map l.body

theorem Launch.mem_bodies {l : Launch} {thread : DeviceProgram Unit} :
    thread ∈ l.bodies ↔ ∃ i < l.threadCount, l.body i = thread := by
  simp [Launch.bodies]

theorem execAll_map {ι : Type} (indices : List ι) (body : ι → DeviceProgram Unit)
    (memory : Memory) :
    execAll (indices.map body) memory = (forEach indices body).exec memory := by
  induction indices generalizing memory with
  | nil => rfl
  | cons i rest ih =>
      rw [List.map_cons, execAll_cons, ih, exec_forEach_cons]

/-- The threads one after another leave what the launch leaves. -/
theorem Launch.RaceFree.execAll_bodies {l : Launch} (raceFree : l.RaceFree)
    (schedule : Schedule) (memory : Memory) :
    execAll l.bodies memory = l.run schedule memory := by
  rw [Launch.bodies, execAll_map, raceFree.run_eq]

/-- A thread touches what its launch touches. -/
theorem Launch.bodies_within {l : Launch} {thread : DeviceProgram Unit}
    (member : thread ∈ l.bodies) : thread.Within l.reads l.writes := by
  obtain ⟨i, inside, rfl⟩ := Launch.mem_bodies.mp member
  exact (l.kernel.body_within l.device (l.thread i)).mono
    (fun cell read => ⟨i, inside, read⟩) fun cell write => ⟨i, inside, write⟩

/-- The threads of a launch without races are apart from each other. -/
theorem Launch.RaceFree.bodies_apart {l : Launch} (raceFree : l.RaceFree) :
    l.bodies.Pairwise Apart := by
  rcases raceFree with single | apart
  · rw [Launch.bodies, single]
    exact List.pairwise_singleton ..
  · refine List.pairwise_map.mpr (List.nodup_range.imp fun different => ?_)
    rename_i i j
    have other := Set.disjoint_union_right.mp (apart j i (Ne.symm different))
    exact ⟨_, _, _, _, l.kernel.body_within l.device (l.thread i),
      l.kernel.body_within l.device (l.thread j), apart i j different, other.1⟩

/-- The threads of launches that touch different cells are apart. -/
theorem Launch.bodies_separate {first second : Launch}
    (apart : Disjoint first.writes (second.reads ∪ second.writes))
    (apart' : Disjoint second.writes first.reads) :
    ∀ t ∈ first.bodies, ∀ u ∈ second.bodies, Apart t u :=
  fun _ left _ right => ⟨_, _, _, _, Launch.bodies_within left,
    Launch.bodies_within right, apart, apart'⟩

end GpuKvSeal.Device
