import Mathlib

/-!
# Programs over typed memory cells

A program reads and writes cells of a store whose values depend on the cell.
It is a free monad, so one definition has two readings: its effect on a store
and the cells it touches.  A footprint bounds the cells for every value a read
may return; frame, agreement and commutation follow from footprints alone.
-/

namespace GpuKvSeal.CellProgram

/-- A store gives every cell a value of that cell's type. -/
@[ext]
structure Store {Cell : Type} (Val : Cell → Type) where
  get : (cell : Cell) → Val cell

namespace Store

variable {Cell : Type} {Val : Cell → Type}

instance : CoeFun (Store Val) fun _ => (cell : Cell) → Val cell := ⟨get⟩

/-- Replace the value of one cell. -/
def update [DecidableEq Cell] (memory : Store Val) (cell : Cell)
    (value : Val cell) : Store Val := ⟨Function.update memory.get cell value⟩

@[simp]
theorem update_self [DecidableEq Cell] (memory : Store Val) (cell : Cell)
    (value : Val cell) : memory.update cell value cell = value :=
  Function.update_self ..

theorem update_of_ne [DecidableEq Cell] (memory : Store Val)
    {cell other : Cell} (value : Val cell) (distinct : other ≠ cell) :
    memory.update cell value other = memory other :=
  Function.update_of_ne distinct ..

end Store

/-- A sequential program over the cells. -/
inductive Program {Cell : Type} (Val : Cell → Type) (α : Type) where
  | done (value : α)
  | read (cell : Cell) (next : Val cell → Program Val α)
  | write (cell : Cell) (value : Val cell) (next : Program Val α)

namespace Program

variable {Cell : Type} {Val : Cell → Type} {α β : Type}

/-- Run `first`, then the program its result selects. -/
def andThen (first : Program Val α) (second : α → Program Val β) :
    Program Val β :=
  match first with
  | .done value => second value
  | .read cell next => .read cell fun value => (next value).andThen second
  | .write cell value next => .write cell value (next.andThen second)

instance : Monad (Program Val) where
  pure := .done
  bind := andThen

theorem bind_eq (first : Program Val α) (second : α → Program Val β) :
    first >>= second = first.andThen second := rfl

theorem andThen_done (program : Program Val α) :
    program.andThen .done = program := by
  induction program with
  | done value => rfl
  | read cell next ih => simp [andThen, ih]
  | write cell value next ih => simp [andThen, ih]

theorem andThen_assoc {γ : Type} (first : Program Val α)
    (second : α → Program Val β) (third : β → Program Val γ) :
    (first.andThen second).andThen third =
      first.andThen fun value => (second value).andThen third := by
  induction first with
  | done value => rfl
  | read cell next ih => simp [andThen, ih]
  | write cell value next ih => simp [andThen, ih]

instance : LawfulMonad (Program Val) := LawfulMonad.mk' _
  (fun program => andThen_done program)
  (fun _ _ => rfl)
  (fun first second third => andThen_assoc first second third)

/-- Read one cell. -/
def load (cell : Cell) : Program Val (Val cell) := .read cell .done

/-- Write one cell. -/
def store (cell : Cell) (value : Val cell) : Program Val Unit :=
  .write cell value (.done ())

/-- Run the body once for every index, in list order. -/
def forEach {ι : Type} : List ι → (ι → Program Val Unit) → Program Val Unit
  | [], _ => pure ()
  | index :: rest, body => do
      body index
      forEach rest body

/-- Run one program for every position and gather the results in a vector. -/
def collect : (n : Nat) → (Fin n → Program Val α) → Program Val (Vector α n)
  | 0, _ => pure #v[]
  | n + 1, body => do
      let values ← collect n fun index => body index.castSucc
      let last ← body (Fin.last n)
      pure (values.push last)

/-! ## Footprints -/

/-- Whatever values its reads return, the program reads only `Reads` and
writes only `Writes`. -/
inductive Within (Reads Writes : Set Cell) : Program Val α → Prop
  | done (result : α) : (Program.done result).Within Reads Writes
  | read {cell : Cell} {next : Val cell → Program Val α}
      (inside : cell ∈ Reads)
      (rest : ∀ value, (next value).Within Reads Writes) :
      (Program.read cell next).Within Reads Writes
  | write {cell : Cell} {value : Val cell} {next : Program Val α}
      (inside : cell ∈ Writes) (rest : next.Within Reads Writes) :
      (Program.write cell value next).Within Reads Writes

theorem Within.pure {Reads Writes : Set Cell} (result : α) :
    (Pure.pure result : Program Val α).Within Reads Writes := .done result

theorem Within.load {Reads Writes : Set Cell} {cell : Cell}
    (inside : cell ∈ Reads) :
    (Program.load cell : Program Val (Val cell)).Within Reads Writes :=
  .read inside fun value => .done value

theorem Within.store {Reads Writes : Set Cell} {cell : Cell} {value : Val cell}
    (inside : cell ∈ Writes) :
    (Program.store cell value : Program Val Unit).Within Reads Writes :=
  .write inside (.done ())

theorem Within.bind {Reads Writes : Set Cell} {first : Program Val α}
    {second : α → Program Val β} (hfirst : first.Within Reads Writes)
    (hsecond : ∀ result, (second result).Within Reads Writes) :
    (first >>= second).Within Reads Writes := by
  induction hfirst with
  | done result => exact hsecond result
  | read inside _ ih => exact .read inside fun value => ih value
  | write inside _ ih => exact .write inside ih

theorem Within.mono {Reads Writes Reads' Writes' : Set Cell}
    {program : Program Val α} (within : program.Within Reads Writes)
    (hreads : Reads ⊆ Reads') (hwrites : Writes ⊆ Writes') :
    program.Within Reads' Writes' := by
  induction within with
  | done result => exact .done result
  | read inside _ ih => exact .read (hreads inside) ih
  | write inside _ ih => exact .write (hwrites inside) ih

theorem Within.forEach {ι : Type} {Reads Writes : Set Cell}
    {indices : List ι} {body : ι → Program Val Unit}
    (within : ∀ index ∈ indices, (body index).Within Reads Writes) :
    (Program.forEach indices body).Within Reads Writes := by
  induction indices with
  | nil => exact .pure ()
  | cons index rest ih =>
      exact (within index (List.mem_cons_self ..)).bind fun _ =>
        ih fun other hother => within other (List.mem_cons_of_mem _ hother)

theorem Within.collect {n : Nat} {Reads Writes : Set Cell}
    {body : Fin n → Program Val α}
    (within : ∀ index, (body index).Within Reads Writes) :
    (Program.collect n body).Within Reads Writes := by
  induction n with
  | zero => exact .pure _
  | succ n ih =>
      refine Within.bind (ih fun index => within index.castSucc) fun values => ?_
      exact (within (Fin.last n)).bind fun _ => .pure _

section Semantics

variable [DecidableEq Cell]

/-- The result of a program and the store it leaves. -/
def run : Program Val α → Store Val → α × Store Val
  | .done value, memory => (value, memory)
  | .read cell next, memory => (next (memory cell)).run memory
  | .write cell value next, memory =>
      next.run (memory.update cell value)

/-- The result of a program started in `memory`. -/
def value (program : Program Val α) (memory : Store Val) : α :=
  (program.run memory).1

/-- The store a program leaves when started in `memory`. -/
def exec (program : Program Val α) (memory : Store Val) : Store Val :=
  (program.run memory).2

/-- The cells a program reads when started in `memory`, in order. -/
def reads : Program Val α → Store Val → List Cell
  | .done _, _ => []
  | .read cell next, memory => cell :: (next (memory cell)).reads memory
  | .write cell value next, memory =>
      next.reads (memory.update cell value)

/-- The cells a program writes when started in `memory`, in order. -/
def writes : Program Val α → Store Val → List Cell
  | .done _, _ => []
  | .read cell next, memory => (next (memory cell)).writes memory
  | .write cell value next, memory =>
      cell :: next.writes (memory.update cell value)

@[simp]
theorem value_pure (result : α) (memory : Store Val) :
    (pure result : Program Val α).value memory = result := rfl

@[simp]
theorem exec_pure (result : α) (memory : Store Val) :
    (pure result : Program Val α).exec memory = memory := rfl

@[simp]
theorem value_load (cell : Cell) (memory : Store Val) :
    (load cell : Program Val (Val cell)).value memory = memory cell := rfl

@[simp]
theorem exec_load (cell : Cell) (memory : Store Val) :
    (load cell : Program Val (Val cell)).exec memory = memory := rfl

@[simp]
theorem exec_store (cell : Cell) (value : Val cell) (memory : Store Val) :
    (store cell value : Program Val Unit).exec memory =
      memory.update cell value := rfl

theorem run_bind (first : Program Val α) (second : α → Program Val β)
    (memory : Store Val) :
    (first >>= second).run memory =
      (second (first.value memory)).run (first.exec memory) := by
  induction first generalizing memory with
  | done result => rfl
  | read cell next ih => exact ih (memory cell) memory
  | write cell value next ih => exact ih (memory.update cell value)

@[simp]
theorem value_bind (first : Program Val α) (second : α → Program Val β)
    (memory : Store Val) :
    (first >>= second).value memory =
      (second (first.value memory)).value (first.exec memory) := by
  unfold value
  rw [run_bind]
  rfl

@[simp]
theorem exec_bind (first : Program Val α) (second : α → Program Val β)
    (memory : Store Val) :
    (first >>= second).exec memory =
      (second (first.value memory)).exec (first.exec memory) := by
  unfold exec
  rw [run_bind]
  rfl

@[simp]
theorem value_map (f : α → β) (program : Program Val α)
    (memory : Store Val) :
    (f <$> program).value memory = f (program.value memory) := by
  rw [map_eq_pure_bind, value_bind, value_pure]

@[simp]
theorem exec_map (f : α → β) (program : Program Val α)
    (memory : Store Val) :
    (f <$> program).exec memory = program.exec memory := by
  rw [map_eq_pure_bind, exec_bind, exec_pure]

@[simp]
theorem value_ite (test : Prop) [Decidable test]
    (yes no : Program Val α) (memory : Store Val) :
    (if test then yes else no).value memory =
      if test then yes.value memory else no.value memory := by
  split <;> rfl

@[simp]
theorem exec_ite (test : Prop) [Decidable test]
    (yes no : Program Val α) (memory : Store Val) :
    (if test then yes else no).exec memory =
      if test then yes.exec memory else no.exec memory := by
  split <;> rfl

@[simp]
theorem exec_forEach_nil {ι : Type} (body : ι → Program Val Unit)
    (memory : Store Val) : (forEach [] body).exec memory = memory := rfl

@[simp]
theorem exec_forEach_cons {ι : Type} (index : ι) (rest : List ι)
    (body : ι → Program Val Unit) (memory : Store Val) :
    (forEach (index :: rest) body).exec memory =
      (forEach rest body).exec ((body index).exec memory) := by
  simp [forEach]

/-- What one round of a loop establishes and the other rounds keep holds at the
end. -/
theorem exec_forEach_establishes {ι : Type} {indices : List ι}
    {body : ι → Program Val Unit} (keep goal : Store Val → Prop)
    (keeps : ∀ i ∈ indices, ∀ memory, keep memory → keep ((body i).exec memory))
    (stable : ∀ i ∈ indices, ∀ memory, keep memory → goal memory →
      goal ((body i).exec memory))
    {index : ι} (member : index ∈ indices)
    (establishes : ∀ memory, keep memory → goal ((body index).exec memory))
    {memory : Store Val} (start : keep memory) :
    goal ((forEach indices body).exec memory) := by
  have done : ∀ (rest : List ι), rest ⊆ indices → ∀ memory, keep memory →
      goal memory → goal ((forEach rest body).exec memory) := by
    intro rest inside
    induction rest with
    | nil => exact fun _ _ reached => reached
    | cons first rest ih =>
        intro memory kept reached
        obtain ⟨here, later⟩ := List.cons_subset.mp inside
        rw [exec_forEach_cons]
        exact ih later _ (keeps first here memory kept)
          (stable first here memory kept reached)
  induction indices generalizing memory with
  | nil => cases member
  | cons first rest ih =>
      rw [exec_forEach_cons]
      have kept := keeps first (List.mem_cons_self ..) memory start
      by_cases same : index = first
      · subst same
        exact done rest (List.subset_cons_self ..) _ kept (establishes _ start)
      · have later := (List.mem_cons.mp member).resolve_left same
        exact ih (fun i inside => keeps i (List.mem_cons_of_mem _ inside))
          (fun i inside => stable i (List.mem_cons_of_mem _ inside)) later kept
          fun other inside =>
            done other fun i here => List.mem_cons_of_mem _ (inside here)

/-- Collecting programs that only read leaves the store as it was. -/
theorem exec_collect {n : Nat} {body : Fin n → Program Val α}
    (memory : Store Val)
    (pureBody : ∀ index, (body index).exec memory = memory) :
    (collect n body).exec memory = memory := by
  induction n with
  | zero => rfl
  | succ n ih =>
      have init : (collect n fun index => body index.castSucc).exec memory =
          memory := ih fun index => pureBody index.castSucc
      simp [collect, init, pureBody]

/-- Collecting programs that only read gathers their separate results. -/
theorem value_collect {n : Nat} {body : Fin n → Program Val α}
    (memory : Store Val)
    (pureBody : ∀ index, (body index).exec memory = memory) :
    (collect n body).value memory =
      Vector.ofFn fun index => (body index).value memory := by
  induction n with
  | zero => rfl
  | succ n ih =>
      have init : (collect n fun index => body index.castSucc).exec memory =
          memory := exec_collect memory fun index => pureBody index.castSucc
      have values : (collect n fun index => body index.castSucc).value memory =
          Vector.ofFn fun index => (body index.castSucc).value memory :=
        ih fun index => pureBody index.castSucc
      rw [Vector.ofFn_succ]
      simp [collect, init, values, Fin.last]

/-! ## The cells a run touches -/

@[simp]
theorem writes_pure (result : α) (memory : Store Val) :
    (pure result : Program Val α).writes memory = [] := rfl

@[simp]
theorem writes_load (cell : Cell) (memory : Store Val) :
    (load cell : Program Val (Val cell)).writes memory = [] := rfl

@[simp]
theorem writes_store (cell : Cell) (value : Val cell) (memory : Store Val) :
    (store cell value : Program Val Unit).writes memory = [cell] := rfl

@[simp]
theorem writes_bind (first : Program Val α) (second : α → Program Val β)
    (memory : Store Val) :
    (first >>= second).writes memory = first.writes memory ++
      (second (first.value memory)).writes (first.exec memory) := by
  induction first generalizing memory with
  | done result => rfl
  | read cell next ih => exact ih (memory cell) memory
  | write cell value next ih =>
      exact congrArg (cell :: ·) (ih (memory.update cell value))

@[simp]
theorem reads_bind (first : Program Val α) (second : α → Program Val β)
    (memory : Store Val) :
    (first >>= second).reads memory = first.reads memory ++
      (second (first.value memory)).reads (first.exec memory) := by
  induction first generalizing memory with
  | done result => rfl
  | read cell next ih => exact congrArg (cell :: ·) (ih (memory cell) memory)
  | write cell value next ih => exact ih (memory.update cell value)

/-- A position that reads a cell from any store reads it when all are gathered. -/
theorem mem_reads_collect {n : Nat} {body : Fin n → Program Val α} (index : Fin n)
    {cell : Cell} (read : ∀ memory, cell ∈ (body index).reads memory)
    (memory : Store Val) : cell ∈ (collect n body).reads memory := by
  induction n with
  | zero => exact index.elim0
  | succ n ih =>
      rw [collect, reads_bind]
      cases index using Fin.lastCases with
      | last =>
          rw [reads_bind]
          exact List.mem_append_right _ (List.mem_append_left _ (read _))
      | cast index =>
          have earlier : cell ∈ (collect n fun i => body i.castSucc).reads memory :=
            ih index read
          exact List.mem_append_left _ earlier

/-- A round of a loop that writes a cell from any store with a property that the
rounds keep writes it in the loop. -/
theorem mem_writes_forEach_keeping {ι : Type} {indices : List ι}
    {body : ι → Program Val Unit} (keep : Store Val → Prop)
    (keeps : ∀ i ∈ indices, ∀ memory, keep memory → keep ((body i).exec memory))
    {index : ι} (member : index ∈ indices) {cell : Cell}
    (write : ∀ memory, keep memory → cell ∈ (body index).writes memory)
    {memory : Store Val} (start : keep memory) :
    cell ∈ (forEach indices body).writes memory := by
  induction indices generalizing memory with
  | nil => cases member
  | cons first rest ih =>
      rw [forEach, writes_bind]
      cases member with
      | head => exact List.mem_append_left _ (write memory start)
      | tail _ later =>
          refine List.mem_append_right _ (ih
            (fun i inside => keeps i (List.mem_cons_of_mem _ inside)) later ?_)
          exact keeps first (List.mem_cons_self ..) memory start

/-- A round of a loop that writes a cell from any store writes it in the
loop. -/
theorem mem_writes_forEach {ι : Type} {indices : List ι}
    {body : ι → Program Val Unit} {index : ι} (member : index ∈ indices)
    {cell : Cell} (write : ∀ memory, cell ∈ (body index).writes memory)
    (memory : Store Val) : cell ∈ (forEach indices body).writes memory :=
  mem_writes_forEach_keeping (fun _ => True) (fun _ _ _ _ => trivial) member
    (fun memory _ => write memory) trivial

/-- What a loop writes some round writes, from a store with any property that
the rounds keep. -/
theorem exists_writes_forEach {ι : Type} {indices : List ι}
    {body : ι → Program Val Unit} (keep : Store Val → Prop)
    (keeps : ∀ i ∈ indices, ∀ memory, keep memory → keep ((body i).exec memory))
    {memory : Store Val} (start : keep memory) {cell : Cell}
    (write : cell ∈ (forEach indices body).writes memory) :
    ∃ i ∈ indices, ∃ current, keep current ∧
      cell ∈ (body i).writes current := by
  induction indices generalizing memory with
  | nil => cases write
  | cons first rest ih =>
      have here := List.mem_cons_self (a := first) (l := rest)
      rw [forEach, writes_bind] at write
      rcases List.mem_append.mp write with now | later
      · exact ⟨first, here, memory, start, now⟩
      · obtain ⟨i, member, round⟩ := ih
          (fun i inside => keeps i (List.mem_cons_of_mem _ inside))
          (keeps first here memory start) later
        exact ⟨i, List.mem_cons_of_mem _ member, round⟩

/-! ## Frame, agreement and commutation -/

/-- Every cell a run reads lies in the read footprint. -/
theorem Within.reads_mem {Reads Writes : Set Cell} {program : Program Val α}
    (within : program.Within Reads Writes) (memory : Store Val) {cell : Cell}
    (hcell : cell ∈ program.reads memory) : cell ∈ Reads := by
  induction within generalizing memory with
  | done result => cases hcell
  | read inside _ ih =>
      rcases List.mem_cons.mp hcell with rfl | hrest
      · exact inside
      · exact ih _ memory hrest
  | write _ _ ih => exact ih _ hcell

/-- Every cell a run writes lies in the write footprint. -/
theorem Within.writes_mem {Reads Writes : Set Cell} {program : Program Val α}
    (within : program.Within Reads Writes) (memory : Store Val) {cell : Cell}
    (hcell : cell ∈ program.writes memory) : cell ∈ Writes := by
  induction within generalizing memory with
  | done result => cases hcell
  | read _ _ ih => exact ih _ memory hcell
  | write inside _ ih =>
      rcases List.mem_cons.mp hcell with rfl | hrest
      · exact inside
      · exact ih _ hrest

/-- A cell outside the write footprint keeps its value. -/
theorem Within.exec_frame {Reads Writes : Set Cell} {program : Program Val α}
    (within : program.Within Reads Writes) (memory : Store Val) {cell : Cell}
    (outside : cell ∉ Writes) : program.exec memory cell = memory cell := by
  induction within generalizing memory with
  | done result => rfl
  | read _ _ ih => exact ih _ memory
  | @write first value next inside _ ih =>
      have distinct : cell ≠ first := fun same => outside (same ▸ inside)
      calc
        next.exec (memory.update first value) cell =
            memory.update first value cell := ih _
        _ = memory cell := memory.update_of_ne value distinct

/-- Two stores that agree on a set of cells. -/
def Agree (cells : Set Cell) (first second : Store Val) : Prop :=
  ∀ cell ∈ cells, first cell = second cell

theorem Agree.update {cells : Set Cell} {first second : Store Val}
    (agree : Agree cells first second) (cell : Cell) (value : Val cell) :
    Agree cells (first.update cell value) (second.update cell value) := by
  intro other hother
  by_cases same : other = cell
  · subst same
    simp
  · simp [Store.update_of_ne _ _ same, agree other hother]

/-- Stores that agree on all cells a program reads give the same result and
go on agreeing. -/
theorem Within.run_agree {Reads Writes cells : Set Cell}
    {program : Program Val α} (within : program.Within Reads Writes)
    (hreads : Reads ⊆ cells) {first second : Store Val}
    (agree : Agree cells first second) :
    program.value first = program.value second ∧
      Agree cells (program.exec first) (program.exec second) := by
  induction within generalizing first second with
  | done result => exact ⟨rfl, agree⟩
  | @read cell next inside _ ih =>
      have same : first cell = second cell := agree cell (hreads inside)
      have rest := ih (second cell) agree
      unfold Program.value Program.exec at rest ⊢
      simpa only [run, same] using rest
  | @write cell value next _ _ ih => exact ih (agree.update cell value)

/-- A program whose reads and writes avoid another's writes, and conversely,
commutes with it. -/
theorem Within.exec_comm {Reads₁ Writes₁ Reads₂ Writes₂ : Set Cell}
    {first : Program Val α} {second : Program Val β}
    (within₁ : first.Within Reads₁ Writes₁)
    (within₂ : second.Within Reads₂ Writes₂)
    (apart₁ : Disjoint Writes₁ (Reads₂ ∪ Writes₂))
    (apart₂ : Disjoint Writes₂ Reads₁) (memory : Store Val) :
    second.exec (first.exec memory) = first.exec (second.exec memory) := by
  have agree₁ : Agree (Reads₁ ∪ Writes₁) memory (second.exec memory) := by
    intro cell hcell
    refine (within₂.exec_frame memory fun written => ?_).symm
    rcases hcell with hread | hwrite
    · exact Set.disjoint_left.mp apart₂ written hread
    · exact Set.disjoint_left.mp apart₁ hwrite (Or.inr written)
  have agree₂ : Agree (Reads₂ ∪ Writes₂) memory (first.exec memory) := by
    intro cell hcell
    exact (within₁.exec_frame memory fun written =>
      Set.disjoint_left.mp apart₁ written hcell).symm
  have run₁ := (within₁.run_agree Set.subset_union_left agree₁).2
  have run₂ := (within₂.run_agree Set.subset_union_left agree₂).2
  refine Store.ext (funext fun cell => ?_)
  show second.exec (first.exec memory) cell = first.exec (second.exec memory) cell
  by_cases hfirst : cell ∈ Writes₁
  · have notSecond : cell ∉ Writes₂ := fun hsecond =>
      Set.disjoint_left.mp apart₁ hfirst (Or.inr hsecond)
    rw [within₂.exec_frame _ notSecond]
    exact run₁ cell (Or.inr hfirst)
  · rw [within₁.exec_frame _ hfirst]
    by_cases hsecond : cell ∈ Writes₂
    · exact (run₂ cell (Or.inr hsecond)).symm
    · rw [within₂.exec_frame _ hsecond, within₂.exec_frame _ hsecond,
        within₁.exec_frame _ hfirst]

/-! ## Independent threads -/

/-- Threads that write disjoint sets of cells and do not read what another
thread writes. -/
structure Independent {ι : Type} (Reads Writes : ι → Set Cell)
    (body : ι → Program Val Unit) : Prop where
  within : ∀ index, (body index).Within (Reads index) (Writes index)
  apart : ∀ first second, first ≠ second →
    Disjoint (Writes first) (Reads second ∪ Writes second)

namespace Independent

variable {ι : Type} {Reads Writes : ι → Set Cell}
  {body : ι → Program Val Unit}

/-- A cell no listed thread owns keeps its value. -/
theorem exec_unowned (independent : Independent Reads Writes body)
    (indices : List ι) (memory : Store Val) {cell : Cell}
    (unowned : ∀ index ∈ indices, cell ∉ Writes index) :
    (Program.forEach indices body).exec memory cell = memory cell := by
  induction indices generalizing memory with
  | nil => rfl
  | cons index rest ih =>
      rw [exec_forEach_cons,
        ih _ fun other hother => unowned other (List.mem_cons_of_mem _ hother)]
      exact (independent.within index).exec_frame memory
        (unowned index (List.mem_cons_self ..))

/-- In any order without repetition, every thread writes what it would write
alone from the initial store. -/
theorem exec_owned (independent : Independent Reads Writes body)
    {indices : List ι} (distinct : indices.Nodup) (memory : Store Val)
    {index : ι} (member : index ∈ indices) {cell : Cell}
    (owned : cell ∈ Writes index) :
    (Program.forEach indices body).exec memory cell =
      (body index).exec memory cell := by
  induction indices generalizing memory with
  | nil => cases member
  | cons head rest ih =>
      obtain ⟨hhead, hrest⟩ := List.nodup_cons.mp distinct
      rw [exec_forEach_cons]
      by_cases same : index = head
      · subst same
        refine independent.exec_unowned rest _ fun other hother howned => ?_
        have different : index ≠ other := fun equal => hhead (equal ▸ hother)
        exact Set.disjoint_left.mp (independent.apart index other different)
          owned (Or.inr howned)
      · have inRest : index ∈ rest :=
          (List.mem_cons.mp member).resolve_left same
        rw [ih hrest _ inRest]
        have agree : Agree (Reads index ∪ Writes index)
            ((body head).exec memory) memory := by
          intro other hother
          exact (independent.within head).exec_frame memory fun written =>
            Set.disjoint_left.mp (independent.apart head index (Ne.symm same))
              written hother
        exact ((independent.within index).run_agree Set.subset_union_left
          agree).2 cell (Or.inr owned)

/-- The order of the threads makes no difference. -/
theorem exec_perm (independent : Independent Reads Writes body)
    {first second : List ι} (distinct : first.Nodup) (same : first.Perm second)
    (memory : Store Val) :
    (Program.forEach first body).exec memory =
      (Program.forEach second body).exec memory := by
  refine Store.ext (funext fun cell => ?_)
  by_cases owned : ∃ index ∈ first, cell ∈ Writes index
  · obtain ⟨index, member, write⟩ := owned
    exact (independent.exec_owned distinct memory member write).trans
      (independent.exec_owned (same.nodup_iff.mp distinct) memory
        (same.mem_iff.mp member) write).symm
  · have unowned : ∀ index ∈ first, cell ∉ Writes index :=
      fun index member write => owned ⟨index, member, write⟩
    exact (independent.exec_unowned first memory unowned).trans
      (independent.exec_unowned second memory fun index member =>
        unowned index (same.mem_iff.mpr member)).symm

end Independent

end Semantics

end Program

end GpuKvSeal.CellProgram
