import GpuKvSeal.Foundations.SoleWriter

/-!
# Workers over one store

Workers carry out jobs, each worker its own one after another, while the accesses of
different workers interleave in any way.  If the jobs of different workers are apart
then every worker leaves what it would have left alone.
-/

namespace GpuKvSeal.Workers

open CellProgram CellProgram.Program
open ThreadPool

/-- What a worker has to do, with the cells it may touch. -/
structure Job (Worker : Type) {Cell : Type} (Val : Cell → Type) where
  worker : Worker
  reads : Set Cell
  writes : Set Cell
  program : Program Val Unit
  within : program.Within reads writes

variable {Worker Cell : Type} {Val : Cell → Type}

namespace Job

/-- The cells a job may touch. -/
def cells (job : Job Worker Val) : Set Cell := job.reads ∪ job.writes

/-- Neither job writes what the other one touches. -/
def Separate (first second : Job Worker Val) : Prop :=
  Disjoint first.writes second.cells ∧ Disjoint second.writes first.cells

theorem Separate.apart {first second : Job Worker Val}
    (separate : first.Separate second) : Apart first.program second.program :=
  ⟨first.reads, first.writes, second.reads, second.writes, first.within, second.within,
    separate.1, separate.2.mono_right Set.subset_union_left⟩

end Job

/-- Jobs of different workers are apart. -/
def Separated (jobs : List (Job Worker Val)) : Prop :=
  jobs.Pairwise fun first second => first.worker ≠ second.worker → first.Separate second

/-- Every job is handed to the queue of its worker. -/
def requests (jobs : List (Job Worker Val)) : List (Request Worker Val) :=
  jobs.map fun job => .enqueue job.worker [job.program]

/-- The cells that other workers do not write. -/
def unshared (jobs : List (Job Worker Val)) (worker : Worker) : Set Cell :=
  {cell | ∀ job ∈ jobs, job.worker ≠ worker → cell ∉ job.writes}

/-- What a worker touches no other one writes. -/
theorem Separated.unshared {jobs : List (Job Worker Val)} (separated : Separated jobs)
    {job : Job Worker Val} (member : job ∈ jobs) :
    job.cells ⊆ unshared jobs job.worker := by
  have symmetric : Std.Symm fun first second : Job Worker Val =>
      first.worker ≠ second.worker → first.Separate second :=
    ⟨fun first second apart different => (apart different.symm).symm⟩
  intro cell touched next listed other written
  have distinct : next ≠ job := fun equal => other (equal ▸ rfl)
  have apart := separated.forall listed member distinct other
  exact Set.disjoint_left.mp apart.1 written touched

variable [DecidableEq Cell]

/-- The jobs one after another. -/
def perform (jobs : List (Job Worker Val)) (memory : Store Val) : Store Val :=
  jobs.foldl (fun current job => job.program.exec current) memory

@[simp]
theorem perform_nil (memory : Store Val) :
    perform ([] : List (Job Worker Val)) memory = memory := rfl

@[simp]
theorem perform_cons (job : Job Worker Val) (rest : List (Job Worker Val))
    (memory : Store Val) :
    perform (job :: rest) memory = perform rest (job.program.exec memory) := rfl

theorem outcome_requests (jobs : List (Job Worker Val)) (memory : Store Val) :
    outcome (requests jobs) memory = perform jobs memory := by
  induction jobs generalizing memory with
  | nil => rfl
  | cons job rest ih => exact ih (job.program.exec memory)

/-- Queues of separated jobs are in order. -/
theorem requests_orderly {jobs : List (Job Worker Val)} (separated : Separated jobs)
    {recent : List (Worker × List (Program Val Unit))}
    (before : ∀ entry ∈ recent, ∀ job ∈ jobs,
      Unordered entry (job.worker, [job.program])) (memory : Store Val) :
    Orderly recent memory (requests jobs) := by
  induction jobs generalizing recent memory with
  | nil => trivial
  | cons job rest ih =>
      obtain ⟨later, separated'⟩ := List.pairwise_cons.mp separated
      refine ⟨List.pairwise_singleton _ _,
        fun entry member => before entry member job (List.mem_cons_self ..),
        ih separated' ?_ _⟩
      intro entry member next listed
      rcases List.mem_append.mp member with old | new
      · exact before entry old next (List.mem_cons_of_mem _ listed)
      · rw [List.mem_singleton.mp new]
        intro different t here u there
        rw [List.mem_singleton.mp here, List.mem_singleton.mp there]
        exact (later next listed different).apart

/-- The jobs of other workers do not show where they do not write. -/
theorem perform_agree [DecidableEq Worker] {worker : Worker} {cells : Set Cell}
    {jobs : List (Job Worker Val)}
    (own : ∀ job ∈ jobs, job.worker = worker → job.cells ⊆ cells)
    (others : cells ⊆ unshared jobs worker) {first second : Store Val}
    (agree : Agree cells first second) :
    Agree cells (perform jobs first)
      (perform (jobs.filter fun job => job.worker = worker) second) := by
  induction jobs generalizing first second with
  | nil => exact agree
  | cons job rest ih =>
      obtain ⟨here, later⟩ := List.forall_mem_cons.mp own
      have others' : cells ⊆ unshared rest worker := fun cell inside next listed =>
        others inside next (List.mem_cons_of_mem _ listed)
      by_cases same : job.worker = worker
      · rw [List.filter_cons_of_pos (by simpa using same)]
        have reads : job.reads ⊆ cells := Set.subset_union_left.trans (here same)
        exact ih later others' (job.within.run_agree reads agree).2
      · rw [List.filter_cons_of_neg (by simpa using same)]
        refine ih later others' fun cell inside => ?_
        have outside := others inside job (List.mem_cons_self ..) same
        exact (job.within.exec_frame first outside).trans (agree cell inside)

section Runs

variable {jobs : List (Job Worker Val)} (separated : Separated jobs) {memory : Store Val}
  {n : Nat} {config : Config Worker Val}
  (steps : Steps n ⟨requests jobs, [], memory⟩ config)

include separated steps

/-- However the workers interleave they never get stuck. -/
theorem completes : ∃ m final, Steps m config ⟨[], [], final⟩ :=
  (Steps.kept (requests_orderly separated (List.forall_mem_nil _) memory)
    steps).1.completes

/-- No two workers ever have a race. -/
theorem no_race [DecidableEq Worker] {worker worker' : Worker} {i j : Nat}
    {job job' : Program Val Unit}
    (here : (inFlight config.pending worker)[i]? = some job)
    (there : (inFlight config.pending worker')[j]? = some job')
    (different : (worker, i) ≠ (worker', j)) : ¬ Race job job' :=
  (Steps.kept (requests_orderly separated (List.forall_mem_nil _) memory)
    steps).1.no_race here there different

/-- Every worker leaves what it would have left alone, wherever no other one writes. -/
theorem alone [DecidableEq Worker] {m : Nat} {final : Store Val}
    (onward : Steps m config ⟨[], [], final⟩) (worker : Worker) :
    Agree (unshared jobs worker) final
      (perform (jobs.filter fun job => job.worker = worker) memory) := by
  have orderly := requests_orderly separated (List.forall_mem_nil _) memory
  have settled : final = perform jobs memory := by
    rw [← outcome_requests]
    exact Steps.memory_eq orderly (steps.trans onward)
  rw [settled]
  refine perform_agree (fun job member same => ?_) (fun _ => id) fun _ _ => rfl
  exact same ▸ separated.unshared member

end Runs

end GpuKvSeal.Workers
