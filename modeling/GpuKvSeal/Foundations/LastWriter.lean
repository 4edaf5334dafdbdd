import GpuKvSeal.Foundations.StreamQueue

/-!
# Who wrote a cell last

Jobs belong to owners.  A ledger keeps for every cell the job that wrote it last
and whether every job so far found the cells it needs last written by its own
owner.  Recording commutes for jobs that touch different cells, so the verdict
does not depend on the order of such jobs.
-/

namespace GpuKvSeal.LastWriter

open StreamQueue (runJobs runJobs_cons runJobs_append)

variable {Cell Job Owner : Type} (writes needs : Job → Set Cell)
  (owner : Job → Owner)

/-- Whenever a job runs, the job that last wrote a cell it needs has the same
owner. -/
def OwnCells (order : List Job) : Prop :=
  ∀ before job after, order = before ++ job :: after → ∀ cell ∈ needs job,
    ∃ earlier writer later, before = earlier ++ writer :: later ∧
      owner writer = owner job ∧ cell ∈ writes writer ∧
      ∀ other ∈ later, cell ∉ writes other

/-- The last writer of every cell, and whether all was in order so far. -/
@[ext]
structure Ledger (Cell Job : Type) where
  writer : Cell → Option Job
  sound : Prop

/-- Nothing has been written. -/
def Ledger.blank : Ledger Cell Job := ⟨fun _ => none, True⟩

open Classical in
/-- A job checks the cells it needs and writes its own. -/
noncomputable def record (job : Job) (ledger : Ledger Cell Job) :
    Ledger Cell Job where
  writer cell := if cell ∈ writes job then some job else ledger.writer cell
  sound := ledger.sound ∧ ∀ cell ∈ needs job,
    ∃ writer, ledger.writer cell = some writer ∧ owner writer = owner job

variable {writes needs owner}

theorem writer_record_of_mem {job : Job} {cell : Cell} (write : cell ∈ writes job)
    (ledger : Ledger Cell Job) :
    (record writes needs owner job ledger).writer cell = some job := if_pos write

theorem writer_record_of_notMem {job : Job} {cell : Cell}
    (other : cell ∉ writes job) (ledger : Ledger Cell Job) :
    (record writes needs owner job ledger).writer cell = ledger.writer cell :=
  if_neg other

/-- The verdict on a job does not change when a job that writes other cells runs
first. -/
theorem sound_record_record {first second : Job}
    (apart : Disjoint (writes first) (needs second)) (ledger : Ledger Cell Job) :
    (record writes needs owner second
        (record writes needs owner first ledger)).sound ↔
      (record writes needs owner first ledger).sound ∧
        ∀ cell ∈ needs second, ∃ writer, ledger.writer cell = some writer ∧
          owner writer = owner second := by
  refine and_congr_right fun _ => forall₂_congr fun cell needed => ?_
  rw [writer_record_of_notMem fun written =>
    Set.disjoint_left.mp apart written needed]

theorem record_comm {first second : Job}
    (apart : Disjoint (writes first) (needs second ∪ writes second))
    (apart' : Disjoint (writes second) (needs first)) (ledger : Ledger Cell Job) :
    record writes needs owner second (record writes needs owner first ledger) =
      record writes needs owner first
        (record writes needs owner second ledger) := by
  obtain ⟨needsApart, writesApart⟩ := Set.disjoint_union_right.mp apart
  refine Ledger.ext (funext fun cell => ?_) (propext ?_)
  · by_cases inFirst : cell ∈ writes first
    · have notSecond := Set.disjoint_left.mp writesApart inFirst
      rw [writer_record_of_notMem notSecond, writer_record_of_mem inFirst,
        writer_record_of_mem inFirst]
    · rw [writer_record_of_notMem inFirst]
      by_cases inSecond : cell ∈ writes second
      · rw [writer_record_of_mem inSecond, writer_record_of_mem inSecond]
      · rw [writer_record_of_notMem inSecond, writer_record_of_notMem inSecond,
          writer_record_of_notMem inFirst]
  · rw [sound_record_record needsApart, sound_record_record apart']
    exact and_right_comm

/-! ## Reading a ledger back -/

theorem sound_runJobs {order : List Job} {ledger : Ledger Cell Job}
    (sound : (runJobs (record writes needs owner) order ledger).sound) :
    ledger.sound := by
  induction order generalizing ledger with
  | nil => exact sound
  | cons job rest ih => exact (ih sound).1

/-- The ledger names the last job that wrote a cell. -/
theorem writer_runJobs {order : List Job} {ledger : Ledger Cell Job} {cell : Cell}
    {writer : Job}
    (last : (runJobs (record writes needs owner) order ledger).writer cell =
      some writer) :
    (∃ earlier later, order = earlier ++ writer :: later ∧
        cell ∈ writes writer ∧ ∀ other ∈ later, cell ∉ writes other) ∨
      (ledger.writer cell = some writer ∧ ∀ other ∈ order, cell ∉ writes other) := by
  induction order generalizing ledger with
  | nil => exact Or.inr ⟨last, nofun⟩
  | cons job rest ih =>
      rcases ih last with ⟨earlier, later, rfl, written⟩ | ⟨before, unwritten⟩
      · exact Or.inl ⟨job :: earlier, later, rfl, written⟩
      · by_cases here : cell ∈ writes job
        · rw [writer_record_of_mem here] at before
          obtain rfl := Option.some.inj before
          exact Or.inl ⟨[], rest, rfl, here, unwritten⟩
        · rw [writer_record_of_notMem here] at before
          exact Or.inr ⟨before, List.forall_mem_cons.mpr ⟨here, unwritten⟩⟩

/-- A sound ledger means that every job found its cells written by its owner. -/
theorem ownCells_of_sound {order : List Job}
    (sound : (runJobs (record writes needs owner) order .blank).sound) :
    OwnCells writes needs owner order := by
  rintro before job after rfl cell needed
  rw [runJobs_append, runJobs_cons] at sound
  obtain ⟨writer, last, same⟩ := (sound_runJobs sound).2 cell needed
  rcases writer_runJobs last with ⟨earlier, later, split, written⟩ | ⟨none, -⟩
  · exact ⟨earlier, writer, later, split, same, written⟩
  · cases none

/-! ## Jobs of one owner -/

variable (writes needs) in
/-- Every job needs only cells that were written before: those of `done`, and
those that earlier jobs of the list write. -/
def SelfContained : Set Cell → List Job → Prop
  | _, [] => True
  | done, job :: rest => needs job ⊆ done ∧ SelfContained (done ∪ writes job) rest

theorem SelfContained.mono {done done' : Set Cell} {order : List Job}
    (contained : SelfContained writes needs done order) (subset : done ⊆ done') :
    SelfContained writes needs done' order := by
  induction order generalizing done done' with
  | nil => trivial
  | cons job rest ih =>
      obtain ⟨here, later⟩ := contained
      exact ⟨here.trans subset, ih later (Set.union_subset_union_left _ subset)⟩

theorem SelfContained.append {done written : Set Cell} {first second : List Job}
    (left : SelfContained writes needs done first)
    (covered : ∀ cell ∈ written, cell ∈ done ∨ ∃ job ∈ first, cell ∈ writes job)
    (right : SelfContained writes needs written second) :
    SelfContained writes needs done (first ++ second) := by
  induction first generalizing done with
  | nil =>
      refine right.mono fun cell inside => ?_
      rcases covered cell inside with before | ⟨job, none, -⟩
      · exact before
      · cases none
  | cons job rest ih =>
      obtain ⟨here, later⟩ := left
      refine ⟨here, ih later fun cell inside => ?_⟩
      rcases covered cell inside with before | ⟨other, member, write⟩
      · exact Or.inl (Or.inl before)
      · rcases List.mem_cons.mp member with rfl | inRest
        · exact Or.inl (Or.inr write)
        · exact Or.inr ⟨other, inRest, write⟩

/-- A self-contained list of jobs of one owner is in order whatever was written
before. -/
theorem SelfContained.sound {done : Set Cell} {order : List Job} {mine : Owner}
    (contained : SelfContained writes needs done order)
    (owned : ∀ job ∈ order, owner job = mine) {ledger : Ledger Cell Job}
    (before : ∀ cell ∈ done, ∃ writer, ledger.writer cell = some writer ∧
      owner writer = mine) (sound : ledger.sound) :
    (runJobs (record writes needs owner) order ledger).sound := by
  induction order generalizing done ledger with
  | nil => exact sound
  | cons job rest ih =>
      obtain ⟨here, later⟩ := contained
      obtain ⟨jobOwned, restOwned⟩ := List.forall_mem_cons.mp owned
      refine ih later restOwned (fun cell inside => ?_) ⟨sound, fun cell needed => ?_⟩
      · by_cases write : cell ∈ writes job
        · exact ⟨job, writer_record_of_mem write ledger, jobOwned⟩
        · rw [writer_record_of_notMem write]
          exact before cell (inside.resolve_right write)
      · rw [jobOwned]
        exact before cell (here needed)

end GpuKvSeal.LastWriter
