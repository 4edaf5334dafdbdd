import GpuKvSeal.Foundations.ThreadPool

/-!
# Cells that are written once

A cell that one thread of a pool writes, and that thread at most once, has only two
values in all interleavings: the one it had before and the one it has in the end.
Nobody who looks at the memory meanwhile sees anything else there.
-/

namespace GpuKvSeal.ThreadPool

open CellProgram (Store Program)
open CellProgram.Program (Within store forEach bind_eq)

variable {Stream Cell : Type} {Val : Cell → Type} {α β : Type}

/-! ## Programs -/

/-- The program never writes the cell. -/
def Unwritten (cell : Cell) (program : Program Val α) : Prop :=
  program.Within Set.univ {other | other ≠ cell}

/-- However it runs, the program writes the cell at most once. -/
inductive AtMostOnce (cell : Cell) : Program Val α → Prop
  | done (result : α) : AtMostOnce cell (.done result)
  | read {other : Cell} {next : Val other → Program Val α}
      (rest : ∀ value, AtMostOnce cell (next value)) :
      AtMostOnce cell (.read other next)
  | elsewhere {other : Cell} {value : Val other} {next : Program Val α}
      (different : other ≠ cell) (rest : AtMostOnce cell next) :
      AtMostOnce cell (.write other value next)
  | last {value : Val cell} {next : Program Val α} (rest : Unwritten cell next) :
      AtMostOnce cell (.write cell value next)

section Programs

variable {cell : Cell}

theorem Unwritten.of_within {program : Program Val α} {reads writes : Set Cell}
    (within : program.Within reads writes) (outside : cell ∉ writes) :
    Unwritten cell program :=
  within.mono (Set.subset_univ _) fun _ inside same => outside (same ▸ inside)

theorem Unwritten.residual {thread rest : Program Val Unit}
    (unwritten : Unwritten cell thread) (residual : Residual thread rest) :
    Unwritten cell rest := residual _ _ unwritten

theorem Unwritten.atMostOnce {program : Program Val α}
    (unwritten : Unwritten cell program) : AtMostOnce cell program := by
  induction unwritten with
  | done result => exact .done result
  | read inside rest ih => exact .read ih
  | write inside rest ih => exact .elsewhere inside ih

theorem not_unwritten_write {value : Val cell} {next : Program Val α} :
    ¬ Unwritten cell (.write cell value next) := by
  intro unwritten
  cases unwritten with
  | write inside rest => exact inside rfl

/-- Only the second part may write the cell. -/
theorem Unwritten.bind_atMostOnce {first : Program Val α} {second : α → Program Val β}
    (before : Unwritten cell first) (after : ∀ result, AtMostOnce cell (second result)) :
    AtMostOnce cell (first >>= second) := by
  rw [bind_eq]
  induction before with
  | done result => exact after result
  | read inside rest ih => exact .read ih
  | write inside rest ih => exact .elsewhere inside ih

/-- Only the first part may write the cell. -/
theorem AtMostOnce.bind {first : Program Val α} {second : α → Program Val β}
    (before : AtMostOnce cell first) (after : ∀ result, Unwritten cell (second result)) :
    AtMostOnce cell (first >>= second) := by
  rw [bind_eq]
  induction before with
  | done result => exact (after result).atMostOnce
  | read rest ih => exact .read ih
  | elsewhere different rest ih => exact .elsewhere different ih
  | last rest => exact .last (rest.bind after)

theorem AtMostOnce.store (other : Cell) (value : Val other) :
    AtMostOnce cell (store other value) := by
  by_cases same : other = cell
  · subst same
    exact .last (Within.pure ())
  · exact .elsewhere same (.done ())

/-- A write first. -/
theorem AtMostOnce.store_bind {other : Cell} {value : Val other}
    {next : Unit → Program Val α} (again : other = cell → Unwritten cell (next ()))
    (rest : AtMostOnce cell (next ())) :
    AtMostOnce cell (Program.store other value >>= next) := by
  by_cases same : other = cell
  · subst same
    exact .last (again rfl)
  · exact .elsewhere same rest

/-- A loop of which one turn may write the cell. -/
theorem AtMostOnce.forEach {ι : Type} {indices : List ι} {body : ι → Program Val Unit}
    (each : ∀ i ∈ indices, AtMostOnce cell (body i))
    (alone : indices.Pairwise fun i j => Unwritten cell (body i) ∨ Unwritten cell (body j)) :
    AtMostOnce cell (forEach indices body) := by
  induction indices with
  | nil => exact .done ()
  | cons i rest ih =>
      obtain ⟨here, later⟩ := List.forall_mem_cons.mp each
      obtain ⟨others, alone'⟩ := List.pairwise_cons.mp alone
      by_cases unwritten : Unwritten cell (body i)
      · exact unwritten.bind_atMostOnce fun _ => ih later alone'
      · refine here.bind fun _ => Within.forEach fun j member => ?_
        exact (others j member).resolve_left unwritten

end Programs

/-! ## Threads -/

/-- At most one of the threads writes the cell, and that one at most once. -/
structure SoleWriter (cell : Cell) (threads : List (Program Val Unit)) : Prop where
  once : ∀ thread ∈ threads, AtMostOnce cell thread
  alone : threads.Pairwise fun t u => Unwritten cell t ∨ Unwritten cell u

section Threads

variable {cell : Cell}

theorem SoleWriter.of_unwritten {threads : List (Program Val Unit)}
    (unwritten : ∀ thread ∈ threads, Unwritten cell thread) : SoleWriter cell threads where
  once := fun thread member => (unwritten thread member).atMostOnce
  alone := List.pairwise_of_forall_mem_list fun t member _ _ => Or.inl (unwritten t member)

theorem SoleWriter.sublist {threads fewer : List (Program Val Unit)}
    (sole : SoleWriter cell threads) (part : fewer.Sublist threads) :
    SoleWriter cell fewer where
  once := fun thread member => sole.once thread (part.subset member)
  alone := sole.alone.sublist part

theorem SoleWriter.append_left {first second : List (Program Val Unit)}
    (sole : SoleWriter cell first) (others : ∀ thread ∈ second, Unwritten cell thread) :
    SoleWriter cell (first ++ second) where
  once := List.forall_mem_append.mpr
    ⟨sole.once, fun thread member => (others thread member).atMostOnce⟩
  alone := List.pairwise_append.mpr ⟨sole.alone, (SoleWriter.of_unwritten others).alone,
    fun _ _ u member => Or.inr (others u member)⟩

theorem SoleWriter.append_right {first second : List (Program Val Unit)}
    (others : ∀ thread ∈ first, Unwritten cell thread) (sole : SoleWriter cell second) :
    SoleWriter cell (first ++ second) where
  once := List.forall_mem_append.mpr
    ⟨fun thread member => (others thread member).atMostOnce, sole.once⟩
  alone := List.pairwise_append.mpr ⟨(SoleWriter.of_unwritten others).alone, sole.alone,
    fun t member _ _ => Or.inl (others t member)⟩

theorem SoleWriter.middle {before after : List (Program Val Unit)}
    {thread : Program Val Unit} :
    SoleWriter cell (before ++ thread :: after) ↔
      SoleWriter cell (thread :: (before ++ after)) := by
  have symm : ∀ {t u : Program Val Unit}, Unwritten cell t ∨ Unwritten cell u →
      Unwritten cell u ∨ Unwritten cell t := Or.symm
  constructor
  · rintro ⟨once, alone⟩
    exact ⟨fun t member => once t (List.perm_middle.mem_iff.mpr member),
      (List.pairwise_middle symm).mp alone⟩
  · rintro ⟨once, alone⟩
    exact ⟨fun t member => once t (List.perm_middle.mem_iff.mp member),
      (List.pairwise_middle symm).mpr alone⟩

/-- Of two threads that are apart one does not write the cell. -/
theorem Apart.unwritten {first second : Program Val Unit} (apart : Apart first second)
    (cell : Cell) : Unwritten cell first ∨ Unwritten cell second := by
  obtain ⟨reads, writes, reads', writes', within, within', one, -⟩ := apart
  by_cases inside : cell ∈ writes
  · exact Or.inr (.of_within within' fun other =>
      Set.disjoint_left.mp one inside (Or.inr other))
  · exact Or.inl (.of_within within inside)

/-- An access of a thread that does not write the cell. -/
theorem Access.frame [DecidableEq Cell] {thread rest : Program Val Unit}
    {memory memory' : Store Val} (access : Access thread memory rest memory')
    (unwritten : Unwritten cell thread) : memory' cell = memory cell := by
  cases access with
  | read other next memory => rfl
  | write other value next memory =>
      refine memory.update_of_ne value ?_
      rintro rfl
      exact not_unwritten_write unwritten

/-- When the writer goes on, it has not written the cell yet, or it never will
again. -/
theorem Access.sole [DecidableEq Cell] {thread rest : Program Val Unit}
    {memory memory' : Store Val} (access : Access thread memory rest memory')
    {others : List (Program Val Unit)} (sole : SoleWriter cell (thread :: others)) :
    (memory' cell = memory cell ∧ SoleWriter cell (rest :: others)) ∨
      ∀ t ∈ rest :: others, Unwritten cell t := by
  obtain ⟨once, alone⟩ := sole
  obtain ⟨here, later⟩ := List.forall_mem_cons.mp once
  obtain ⟨apart, others_alone⟩ := List.pairwise_cons.mp alone
  have residual := access.residual
  have kept : AtMostOnce cell rest → SoleWriter cell (rest :: others) := fun left =>
    ⟨List.forall_mem_cons.mpr ⟨left, later⟩, List.pairwise_cons.mpr
      ⟨fun t member => (apart t member).imp_left (·.residual residual), others_alone⟩⟩
  cases access with
  | read other next memory =>
      cases here with
      | read left => exact Or.inl ⟨rfl, kept (left _)⟩
  | write other value next memory =>
      cases here with
      | elsewhere different left =>
          exact Or.inl ⟨memory.update_of_ne value (Ne.symm different), kept left⟩
      | last left =>
          refine Or.inr (List.forall_mem_cons.mpr ⟨left, fun t member => ?_⟩)
          exact (apart t member).resolve_left not_unwritten_write

end Threads

/-! ## Runs -/

/-- The threads of a request; a write of the host is a thread of its own. -/
def Request.threads : Request Stream Val → List (Program Val Unit)
  | .enqueue _ threads => threads
  | .write cell value => [store cell value]
  | .wait => []

/-- All that is still to run. -/
def Config.threads (config : Config Stream Val) : List (Program Val Unit) :=
  threadsOf config.pending ++ config.requests.flatMap Request.threads

variable [DecidableEq Cell] {cell : Cell}

/-- What a step does to the threads: some of them are gone and the memory is the same,
or one of them has made an access. -/
theorem Step.threads {config next : Config Stream Val} (step : Step config next) :
    (next.memory = config.memory ∧ next.threads.Sublist config.threads) ∨
      ∃ before thread rest after, Access thread config.memory rest next.memory ∧
        config.threads = before ++ thread :: after ∧
        next.threads.Sublist (before ++ rest :: after) := by
  cases step with
  | enqueue stream threads rest pending memory =>
      refine Or.inl ⟨rfl, ?_⟩
      simp [Config.threads, Request.threads, threadsOf_append]
  | write other written rest pending memory =>
      refine Or.inr ⟨threadsOf pending, _, _, rest.flatMap Request.threads,
        .write other written (.done ()) memory, rfl, ?_⟩
      exact (List.Sublist.refl _).append (List.sublist_cons_self _ _)
  | wait rest memory => exact Or.inl ⟨rfl, List.Sublist.refl _⟩
  | @access before stream oldest thread rest memory memory' access requests ahead behind
      after =>
      have threads : ∀ (current : Program Val Unit) (memory : Store Val),
          Config.threads ⟨requests, before ++ (stream, ahead ++ current :: behind) :: after,
              memory⟩ = (threadsOf before ++ ahead) ++ current ::
            (behind ++ (threadsOf after ++ requests.flatMap Request.threads)) := by
        intro current memory
        simp [Config.threads, threadsOf_append]
      refine Or.inr ⟨_, _, _, _, access, threads thread memory, ?_⟩
      rw [threads rest memory']
  | retire oldest finished requests after memory =>
      refine Or.inl ⟨rfl, ?_⟩
      simp only [Config.threads, threadsOf_append, threadsOf_cons, List.append_assoc]
      exact (List.Sublist.refl _).append (List.sublist_append_right _ _)

/-- What nobody writes does not change. -/
theorem Step.frame {config next : Config Stream Val} (step : Step config next)
    (unwritten : ∀ thread ∈ config.threads, Unwritten cell thread) :
    next.memory cell = config.memory cell ∧
      ∀ thread ∈ next.threads, Unwritten cell thread := by
  rcases step.threads with ⟨same, part⟩ | ⟨before, thread, rest, after, access, threads, part⟩
  · exact ⟨congrFun (congrArg Store.get same) cell, fun t member =>
      unwritten t (part.subset member)⟩
  · rw [threads] at unwritten
    have going := unwritten thread (by simp)
    refine ⟨access.frame going, fun t member => ?_⟩
    have listed := List.perm_middle.mem_iff.mp (part.subset member)
    rcases List.mem_cons.mp listed with rfl | other
    · exact going.residual access.residual
    · exact unwritten t (List.perm_middle.mem_iff.mpr (List.mem_cons_of_mem _ other))

theorem Steps.frame {n : Nat} {start config : Config Stream Val}
    (steps : Steps n start config)
    (unwritten : ∀ thread ∈ start.threads, Unwritten cell thread) :
    config.memory cell = start.memory cell ∧
      ∀ thread ∈ config.threads, Unwritten cell thread := by
  induction steps with
  | refl start => exact ⟨rfl, unwritten⟩
  | tail steps step ih =>
      obtain ⟨same, unwritten'⟩ := ih unwritten
      obtain ⟨same', unwritten''⟩ := step.frame unwritten'
      exact ⟨same'.trans same, unwritten''⟩

/-- The cell has the value of the beginning, or nobody will write it any more. -/
def Untorn (cell : Cell) (value : Val cell) (config : Config Stream Val) : Prop :=
  (config.memory cell = value ∧ SoleWriter cell config.threads) ∨
    ∀ thread ∈ config.threads, Unwritten cell thread

theorem Untorn.step {value : Val cell} {config next : Config Stream Val}
    (untorn : Untorn cell value config) (step : Step config next) :
    Untorn cell value next := by
  rcases untorn with ⟨here, sole⟩ | unwritten
  · rcases step.threads with
      ⟨same, part⟩ | ⟨before, thread, rest, after, access, threads, part⟩
    · exact Or.inl ⟨(congrFun (congrArg Store.get same) cell).trans here,
        sole.sublist part⟩
    · rw [threads, SoleWriter.middle] at sole
      rcases access.sole sole with ⟨same, left⟩ | unwritten
      · exact Or.inl ⟨same.trans here, (SoleWriter.middle.mpr left).sublist part⟩
      · exact Or.inr fun t member =>
          unwritten t (List.perm_middle.mem_iff.mp (part.subset member))
  · exact Or.inr (step.frame unwritten).2

theorem Steps.untorn {n : Nat} {start config : Config Stream Val}
    (steps : Steps n start config) {value : Val cell} (untorn : Untorn cell value start) :
    Untorn cell value config := by
  induction steps with
  | refl start => exact untorn
  | tail steps step ih => exact (ih untorn).step step

/-- What nobody writes is as the requests leave it. -/
theorem outcome_unwritten {requests : List (Request Stream Val)}
    (unwritten : ∀ thread ∈ requests.flatMap Request.threads, Unwritten cell thread)
    (memory : Store Val) : outcome requests memory cell = memory cell := by
  induction requests generalizing memory with
  | nil => rfl
  | cons request rest ih =>
      rw [List.flatMap_cons] at unwritten
      obtain ⟨here, later⟩ := List.forall_mem_append.mp unwritten
      cases request with
      | enqueue stream threads =>
          rw [outcome, ih later]
          exact execAll_frame (fun t member => ⟨_, _, here t member, fun same => same rfl⟩)
            memory
      | write other value =>
          rw [outcome, ih later]
          refine memory.update_of_ne value ?_
          rintro rfl
          exact not_unwritten_write (here _ (List.mem_singleton_self _))
      | wait => exact ih later memory

theorem Steps.trans {m n : Nat} {first second third : Config Stream Val}
    (before : Steps m first second) (after : Steps n second third) :
    Steps (m + n) first third := by
  induction after with
  | refl second => exact before
  | tail steps step ih => exact .tail (ih before) step

section Runs

variable {requests : List (Request Stream Val)} {memory : Store Val}
  (orderly : Orderly [] memory requests)
  (sole : SoleWriter cell (requests.flatMap Request.threads)) {n : Nat}
  {config : Config Stream Val} (steps : Steps n ⟨requests, [], memory⟩ config)

include orderly steps

/-- What nobody will write any more has the value it has in the end. -/
theorem Steps.last_value (unwritten : ∀ thread ∈ config.threads, Unwritten cell thread) :
    config.memory cell = outcome requests memory cell := by
  obtain ⟨pending, requested⟩ := List.forall_mem_append.mp unwritten
  have frame : config.settled cell = config.memory cell :=
    execAll_frame (fun t member => ⟨_, _, pending t member, fun same => same rfl⟩) _
  have final := congrArg (fun memory : Store Val => memory cell)
    (Steps.kept orderly steps).2.1
  exact frame.symm.trans ((outcome_unwritten requested _).symm.trans final)

include sole

/-- In all interleavings of orderly requests a cell that is written once changes at
most once, and then to the value it has in the end. -/
theorem Steps.changes_once {m : Nat} {later : Config Stream Val}
    (onward : Steps m config later) :
    later.memory cell = config.memory cell ∨
      (config.memory cell = memory cell ∧
        later.memory cell = outcome requests memory cell) := by
  rcases steps.untorn (Or.inl ⟨rfl, sole⟩) with ⟨same, left⟩ | unwritten
  · rcases onward.untorn (Or.inl ⟨same, left⟩) with ⟨same', -⟩ | unwritten
    · exact Or.inl (same'.trans same.symm)
    · exact Or.inr ⟨same, (steps.trans onward).last_value orderly unwritten⟩
  · exact Or.inl (onward.frame unwritten).1

end Runs

end GpuKvSeal.ThreadPool
