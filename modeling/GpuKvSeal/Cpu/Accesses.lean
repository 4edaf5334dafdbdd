import GpuKvSeal.Cpu.Api

/-!
# The CPU backend access by access

The threads of a process share its bytes, and each of them has a context of its own.
Every function of the backend is a program over this memory: it reads and writes its
buffers and the context of its thread, and nothing else.
-/

namespace GpuKvSeal.Cpu

open BigEndian (Byte)
open CellProgram (Store Program)
open Device (Ptr u64 advance advance_advance advance_inj VERSION_LEN IV_LEN TAG_LEN
  HEADER_LEN FRAME_OVERHEAD)

variable {Thread : Type}

/-! ## Shared memory -/

/-- What the threads of a process can touch: bytes, the contexts and the return values
they have had so far. -/
inductive SharedCell (Thread : Type) where
  | byte (p : Ptr)
  | context (thread : Thread)
  | returned (thread : Thread)
  deriving DecidableEq

/-- The context of a thread: the calls of the library so far, and whether it could be
allocated. -/
structure ThreadCtx where
  history : List Answered
  allocated : Bool

def SharedCell.Val : SharedCell Thread → Type
  | .byte _ => Byte
  | .context _ => ThreadCtx
  | .returned _ => List Int

abbrev SharedMemory (Thread : Type) := Store (@SharedCell.Val Thread)

abbrev SharedProgram (Thread : Type) := Program (@SharedCell.Val Thread)

/-- The process as a thread sees it. -/
def view (thread : Thread) (memory : SharedMemory Thread) : ProcessState where
  memory p := memory (.byte p)
  history := (memory (.context thread)).history
  hasContext := (memory (.context thread)).allocated

/-- The shared memory after a thread has changed the process as it sees it. -/
def settle [DecidableEq Thread] (thread : Thread) (s : ProcessState)
    (memory : SharedMemory Thread) : SharedMemory Thread where
  get
    | .byte p => s.memory p
    | .context other =>
        if other = thread then ⟨s.history, s.hasContext⟩ else memory (.context other)
    | .returned other => memory (.returned other)

/-- The bytes at some addresses. -/
def bytes (addresses : Set Ptr) : Set (SharedCell Thread) :=
  {cell | ∃ p ∈ addresses, cell = .byte p}

theorem mem_bytes {addresses : Set Ptr} {p : Ptr} (inside : p ∈ addresses) :
    SharedCell.byte p ∈ (bytes addresses : Set (SharedCell Thread)) := ⟨p, inside, rfl⟩

/-! ## Programs over it -/

/-- Read a byte of the process. -/
def readByte (p : Ptr) : SharedProgram Thread Byte :=
  Program.load (SharedCell.byte p)

/-- Write a byte of the process. -/
def writeByte (p : Ptr) (value : Byte) : SharedProgram Thread Unit :=
  Program.store (SharedCell.byte p) value

/-- Read the context of a thread. -/
def readContext (thread : Thread) : SharedProgram Thread ThreadCtx :=
  Program.load (SharedCell.context thread)

def writeContext (thread : Thread) (context : ThreadCtx) : SharedProgram Thread Unit :=
  Program.store (SharedCell.context thread) context

/-- Read a buffer. -/
def readVector (p : Ptr) (n : Nat) : SharedProgram Thread (Vector Byte n) :=
  Program.collect n fun i => readByte (advance p i)

/-- Write some bytes of a buffer. -/
def deposit (p : Ptr) (output : Nat → Option Byte) : Nat → SharedProgram Thread Unit
  | 0 => Pure.pure ()
  | n + 1 => do
      deposit p output n
      match output n with
      | none => Pure.pure ()
      | some value => writeByte (advance p n) value

/-- Read what a request passes on. -/
def gather : Request → SharedProgram Thread Call
  | .reset => Pure.pure .reset
  | .initCipher direction => Pure.pure (.initCipher direction)
  | .setIvLen n => Pure.pure (.setIvLen n)
  | .initKey direction key iv => do
      let secret ← readVector key 16
      let nonce ← readVector iv 12
      Pure.pure (.initKey direction secret nonce)
  | .setTag n tag => do
      let input ← readVector tag n
      Pure.pure (.setTag input.toList)
  | .update direction _ src n => do
      let input ← readVector src n
      Pure.pure (.update direction input.toList)
  | .final direction _ => Pure.pure (.final direction)
  | .getTag n _ => Pure.pure (.getTag n)
  | .randBytes _ n => Pure.pure (.randBytes n)

/-- Make a call of the library: read the input, write the output, and keep in mind what
was answered. -/
def askProgram (library : Library) (thread : Thread) (r : Request) :
    SharedProgram Thread Reply := do
  let call ← gather r
  let context ← readContext thread
  let reply := library context.history call
  deposit r.buffer.1 reply.output (min r.buffer.2 (2 ^ 64))
  writeContext thread ⟨context.history ++ [⟨call, reply.rc⟩], context.allocated⟩
  Pure.pure reply

section Within

variable {thread : Thread} {reads writes : Set Ptr}

theorem readByte_within {p : Ptr} (inside : p ∈ reads) :
    (readByte p : SharedProgram Thread Byte).Within (bytes reads ∪ {.context thread})
      (bytes writes ∪ {.context thread}) :=
  .read (Or.inl (mem_bytes inside)) fun value => .done value

theorem writeByte_within {p : Ptr} {value : Byte} (inside : p ∈ writes) :
    (writeByte p value : SharedProgram Thread Unit).Within
      (bytes reads ∪ {.context thread}) (bytes writes ∪ {.context thread}) :=
  .write (Or.inl (mem_bytes inside)) (.done ())

theorem readContext_within :
    (readContext thread).Within (bytes reads ∪ {.context thread})
      (bytes writes ∪ {.context thread}) :=
  .read (Or.inr rfl) fun value => .done value

theorem writeContext_within {context : ThreadCtx} :
    (writeContext thread context).Within (bytes reads ∪ {.context thread})
      (bytes writes ∪ {.context thread}) :=
  .write (Or.inr rfl) (.done ())

theorem readVector_within {p : Ptr} {n : Nat} (inside : region p n ⊆ reads) :
    (readVector p n : SharedProgram Thread (Vector Byte n)).Within
      (bytes reads ∪ {.context thread}) (bytes writes ∪ {.context thread}) :=
  .collect fun i => readByte_within (inside (mem_region i.isLt))

theorem deposit_within {p : Ptr} {n m : Nat} (output : Nat → Option Byte)
    (inside : region p n ⊆ writes) (part : m ≤ n) :
    (deposit p output m : SharedProgram Thread Unit).Within
      (bytes reads ∪ {.context thread}) (bytes writes ∪ {.context thread}) := by
  induction m with
  | zero => exact .pure ()
  | succ m ih =>
      refine (ih (by omega)).bind fun _ => ?_
      cases output m with
      | none => exact .pure ()
      | some value =>
          exact writeByte_within (inside (mem_region (by omega)))

theorem gather_within {r : Request} (inside : r.reads ⊆ reads) :
    (gather r : SharedProgram Thread Call).Within (bytes reads ∪ {.context thread})
      (bytes writes ∪ {.context thread}) := by
  cases r with
  | initKey direction key iv =>
      obtain ⟨secret, nonce⟩ := Set.union_subset_iff.mp inside
      exact (readVector_within secret).bind fun _ =>
        (readVector_within nonce).bind fun _ => .pure _
  | setTag | update => exact (readVector_within inside).bind fun _ => .pure _
  | reset | initCipher | setIvLen | final | getTag | randBytes => exact .pure _

end Within

variable [DecidableEq Thread]

@[simp]
theorem view_settle (thread : Thread) (s : ProcessState) (memory : SharedMemory Thread) :
    view thread (settle thread s memory) = s := by
  simp [view, settle]

@[simp]
theorem settle_settle (thread : Thread) (s s' : ProcessState)
    (memory : SharedMemory Thread) :
    settle thread s (settle thread s' memory) = settle thread s memory := by
  refine Store.ext (funext fun cell => ?_)
  cases cell with
  | byte p => rfl
  | context other =>
      by_cases same : other = thread
      · subst same
        exact (if_pos rfl).trans (if_pos rfl).symm
      · exact (if_neg same).trans ((if_neg same).trans (if_neg same).symm)
  | returned other => rfl

@[simp]
theorem settle_view (thread : Thread) (memory : SharedMemory Thread) :
    settle thread (view thread memory) memory = memory := by
  refine Store.ext (funext fun cell => ?_)
  cases cell with
  | byte p => rfl
  | context other =>
      by_cases same : other = thread
      · subst same
        exact if_pos rfl
      · exact if_neg same
  | returned other => rfl

/-! ## What they do -/

@[simp]
theorem readContext_value (memory : SharedMemory Thread) :
    (readContext thread).value memory =
      ⟨(view thread memory).history, (view thread memory).hasContext⟩ := rfl

@[simp]
theorem readContext_exec (memory : SharedMemory Thread) :
    (readContext thread).exec memory = memory := rfl

theorem writeContext_exec (thread : Thread) (context : ThreadCtx)
    (memory : SharedMemory Thread) :
    (writeContext thread context).exec memory = settle thread
      ⟨(view thread memory).memory, context.history, context.allocated⟩ memory := by
  have within : (writeContext thread context).Within ∅ {.context thread} :=
    .write rfl (.done ())
  refine Store.ext (funext fun cell => ?_)
  cases cell with
  | byte q => exact within.exec_frame memory (by simp)
  | context other =>
      by_cases same : other = thread
      · subst same
        refine Eq.trans ?_ (if_pos rfl).symm
        exact Store.update_self memory (SharedCell.context other) context
      · refine Eq.trans ?_ (if_neg same).symm
        exact within.exec_frame memory fun equal => same (SharedCell.context.inj equal)
  | returned other => exact within.exec_frame memory (by simp)

theorem writeByte_exec (thread : Thread) (p : Ptr) (value : Byte)
    (memory : SharedMemory Thread) :
    (writeByte p value).exec memory = settle thread
      { view thread memory with
        memory := Function.update (view thread memory).memory p value } memory := by
  have within : (writeByte p value : SharedProgram Thread Unit).Within ∅ {.byte p} :=
    .write rfl (.done ())
  refine Store.ext (funext fun cell => ?_)
  cases cell with
  | byte q =>
      show _ = Function.update (view thread memory).memory p value q
      by_cases same : q = p
      · subst same
        rw [Function.update_self]
        exact Store.update_self memory (SharedCell.byte q) value
      · rw [Function.update_of_ne same]
        exact within.exec_frame memory fun equal => same (SharedCell.byte.inj equal)
  | context other =>
      refine (within.exec_frame memory (by simp)).trans ?_
      exact (congrArg (Store.get · (.context other)) (settle_view thread memory)).symm
  | returned other => exact within.exec_frame memory (by simp)

theorem readVector_value (thread : Thread) (p : Ptr) (n : Nat)
    (memory : SharedMemory Thread) :
    (readVector p n).value memory = vectorAt (view thread memory).memory p n :=
  Program.value_collect memory fun _ => rfl

theorem readVector_exec (p : Ptr) (n : Nat) (memory : SharedMemory Thread) :
    (readVector p n).exec memory = memory :=
  Program.exec_collect memory fun _ => rfl

theorem gather_value (thread : Thread) (r : Request) (memory : SharedMemory Thread) :
    (gather r).value memory = r.call (view thread memory).memory := by
  cases r with
  | initKey direction key iv =>
      simp only [gather, Program.value_bind, readVector_exec, Program.value_pure,
        readVector_value thread, Request.call]
  | setTag n tag =>
      simp only [gather, Program.value_bind, Program.value_pure, readVector_value thread,
        Request.call, toList_vectorAt]
  | update direction out src n =>
      simp only [gather, Program.value_bind, Program.value_pure, readVector_value thread,
        Request.call, toList_vectorAt]
  | reset | initCipher | setIvLen | final | getTag | randBytes => rfl

theorem gather_exec (r : Request) (memory : SharedMemory Thread) :
    (gather r).exec memory = memory := by
  cases r with
  | initKey direction key iv =>
      simp only [gather, Program.exec_bind, readVector_exec, Program.exec_pure]
  | setTag | update =>
      simp only [gather, Program.exec_bind, readVector_exec, Program.exec_pure]
  | reset | initCipher | setIvLen | final | getTag | randBytes => rfl

theorem fill_succ (memory : Memory) (p : Ptr) {n : Nat} (small : n < 2 ^ 64)
    (output : Nat → Option Byte) :
    fill memory p (n + 1) output = Function.update (fill memory p n output) (advance p n)
      ((output n).getD (fill memory p n output (advance p n))) := by
  funext q
  by_cases last : q = advance p n
  · subst last
    have outside : advance p n ∉ region p n := by
      rintro ⟨i, below, same⟩
      have equal := advance_inj small (by omega) same
      omega
    rw [Function.update_self, fill_inside memory p (by omega) (Nat.lt_succ_self n),
      fill_outside outside]
  · rw [Function.update_of_ne last]
    by_cases inside : q ∈ region p n
    · obtain ⟨i, below, rfl⟩ := inside
      rw [fill_inside memory p (by omega) below, fill_inside memory p (by omega) (by omega)]
    · have outside : q ∉ region p (n + 1) := by
        rintro ⟨i, below, rfl⟩
        by_cases here : i = n
        · exact last (here ▸ rfl)
        · exact inside (mem_region (by omega))
      rw [fill_outside inside, fill_outside outside]

/-- A buffer that is longer than the address space covers it once. -/
theorem fill_min (memory : Memory) (p : Ptr) (n : Nat) (output : Nat → Option Byte) :
    fill memory p (min n (2 ^ 64)) output = fill memory p n output := by
  funext q
  have bounded : offset p q < 2 ^ 64 := Nat.mod_lt _ (by decide)
  have same : (q < 2 ^ 64 ∧ offset p q < min n (2 ^ 64)) ↔
      (q < 2 ^ 64 ∧ offset p q < n) := and_congr_right fun _ => by omega
  simp only [fill, same]

theorem deposit_exec (thread : Thread) (p : Ptr) (output : Nat → Option Byte) {n : Nat}
    (small : n ≤ 2 ^ 64) (memory : SharedMemory Thread) :
    (deposit p output n).exec memory = settle thread
      { view thread memory with memory := fill (view thread memory).memory p n output }
      memory := by
  induction n with
  | zero =>
      rw [fill_zero]
      exact (settle_view thread memory).symm
  | succ n ih =>
      rw [deposit, Program.exec_bind, ih (by omega), fill_succ _ p (by omega)]
      cases output n with
      | none =>
          rw [Option.getD_none, Function.update_eq_self]
          rfl
      | some value =>
          refine (writeByte_exec thread (advance p n) value _).trans ?_
          rw [settle_settle, view_settle]
          rfl

/-! ## Processes access by access -/

/-- A program over the shared memory does for a thread what a process does, and touches
no more than these addresses and the context of the thread. -/
structure Realizes (library : Library) (thread : Thread) (reads writes : Set Ptr)
    {α : Type} (process : Process α) (program : SharedProgram Thread α) : Prop where
  within : program.Within (bytes reads ∪ {.context thread})
    (bytes writes ∪ {.context thread})
  value : ∀ memory, program.value memory = (process library (view thread memory)).value
  exec : ∀ memory, program.exec memory =
    settle thread (process library (view thread memory)).state memory
  allocated : ∀ s, (process library s).state.hasContext = s.hasContext

/-- Some program does what a process does. -/
def Realizable (library : Library) (thread : Thread) (reads writes : Set Ptr) {α : Type}
    (process : Process α) : Prop :=
  ∃ program, Realizes library thread reads writes process program

section Rules

variable {library : Library} {thread : Thread} {reads writes : Set Ptr} {α β : Type}

theorem Realizable.pure (value : α) :
    Realizable library thread reads writes (Pure.pure value : Process α) :=
  ⟨Pure.pure value, .pure value, fun _ => rfl,
    fun memory => (settle_view thread memory).symm, fun _ => rfl⟩

theorem Realizable.bind {first : Process α} {second : α → Process β}
    (before : Realizable library thread reads writes first)
    (after : ∀ value, Realizable library thread reads writes (second value)) :
    Realizable library thread reads writes (first >>= second) := by
  obtain ⟨program, within, value, exec, allocated⟩ := before
  choose next realizes using after
  refine ⟨program >>= next, within.bind fun result => (realizes result).within,
    fun memory => ?_, fun memory => ?_,
    fun s => ((realizes _).allocated _).trans (allocated s)⟩
  · rw [Program.value_bind, (realizes _).value, exec, view_settle, value]
    rfl
  · rw [Program.exec_bind, (realizes _).exec, exec, view_settle, settle_settle, value]
    rfl

theorem Realizable.ite {test : Prop} [Decidable test] {yes no : Process α}
    (holds : test → Realizable library thread reads writes yes)
    (fails : ¬ test → Realizable library thread reads writes no) :
    Realizable library thread reads writes (if test then yes else no) := by
  by_cases decided : test
  · rw [if_pos decided]
    exact holds decided
  · rw [if_neg decided]
    exact fails decided

theorem realizable_loadByte {p : Ptr} (inside : p ∈ reads) :
    Realizable library thread reads writes (loadByte p) :=
  ⟨readByte p, readByte_within inside, fun _ => rfl,
    fun memory => (settle_view thread memory).symm, fun _ => rfl⟩

theorem realizable_storeByte {p : Ptr} {value : Byte} (inside : p ∈ writes) :
    Realizable library thread reads writes (storeByte p value) :=
  ⟨writeByte p value, writeByte_within inside, fun _ => rfl, writeByte_exec thread p value,
    fun _ => rfl⟩

theorem realizable_hasContext : Realizable library thread reads writes hasContext := by
  refine ⟨readContext thread >>= fun context => Pure.pure context.allocated,
    readContext_within.bind fun _ => .pure _, fun _ => rfl,
    fun memory => (settle_view thread memory).symm, fun _ => rfl⟩

theorem realizable_ask {r : Request} (input : r.reads ⊆ reads)
    (output : r.writes ⊆ writes) :
    Realizable library thread reads writes (ask r) := by
  refine ⟨askProgram library thread r, ?_, fun memory => ?_, fun memory => ?_, fun _ => rfl⟩
  · exact (gather_within input).bind fun call => readContext_within.bind fun context =>
      (deposit_within _ output (Nat.min_le_left ..)).bind fun _ =>
        writeContext_within.bind fun _ => .pure _
  · simp only [askProgram, Program.value_bind, gather_exec, gather_value thread,
      Program.value_pure, readContext_value]
    rfl
  · have stored := deposit_exec thread r.buffer.1 (library (view thread memory).history
      (r.call (view thread memory).memory)).output
      (Nat.min_le_right r.buffer.2 (2 ^ 64)) memory
    rw [fill_min] at stored
    simp only [askProgram, Program.exec_bind, gather_exec, gather_value thread,
      Program.exec_pure, readContext_value, readContext_exec]
    rw [stored, writeContext_exec, view_settle, settle_settle]
    rfl

theorem realizable_cleanse {p : Ptr} {n : Nat} (inside : region p n ⊆ writes) :
    Realizable library thread reads writes (cleanse p n) := by
  refine ⟨deposit p (fun _ => some 0#8) (min n (2 ^ 64)),
    deposit_within _ inside (Nat.min_le_left ..), fun _ => rfl, fun memory => ?_,
    fun _ => rfl⟩
  rw [deposit_exec thread p _ (Nat.min_le_right ..), fill_min]
  rfl

theorem realizable_require {r : Request} {err : Int} {rest : Process Int}
    (input : r.reads ⊆ reads) (output : r.writes ⊆ writes)
    (continues : Realizable library thread reads writes rest) :
    Realizable library thread reads writes (require r err rest) :=
  (realizable_ask input output).bind fun _ => .ite (fun _ => .pure _) fun _ => continues

/-! ## The functions of the backend -/

theorem realizable_updateAll (direction : Direction) (errUpdate errProduced : Int)
    {src dst : Ptr} {len : Nat} (input : region src len ⊆ reads)
    (output : region dst len ⊆ writes) (done : Nat) :
    Realizable library thread reads writes
      (updateAll direction errUpdate errProduced src len dst done) := by
  induction remaining : len - done using Nat.strongRecOn generalizing done with
  | ind remaining ih =>
      have size : INT_MAX = 2147483647 := rfl
      rw [updateAll]
      refine .ite (fun more => ?_) fun _ => .pure _
      have inside : done + min (len - done) INT_MAX ≤ len := by omega
      refine (realizable_ask ((region_advance inside).trans input)
        ((region_advance inside).trans output)).bind fun reply => ?_
      refine .ite (fun _ => .pure _) fun _ => .ite (fun _ => .pure _) fun _ => ?_
      exact ih _ (by omega) _ rfl

end Rules

/-- A buffer without room. -/
theorem region_zero (p : Ptr) : region p 0 = ∅ := by
  simp [region]

/-- What a thread asks of the backend. -/
inductive NativeCall where
  | aes128gcmSeal (key src : Ptr) (srcLen : Nat) (dst : Ptr) (dstLen : Nat)
  | aes128gcmOpen (key frame : Ptr) (frameLen : Nat) (dst : Ptr) (dstLen : Nat)
  deriving DecidableEq, Repr

namespace NativeCall

def perform : NativeCall → Process Int
  | .aes128gcmSeal key src srcLen dst dstLen =>
      lmcacheAes128gcmSeal key src srcLen dst dstLen
  | .aes128gcmOpen key frame frameLen dst dstLen =>
      lmcacheAes128gcmOpen key frame frameLen dst dstLen

/-- The bytes a call may read.  A seal reads the IV it has drawn from its frame. -/
def reads : NativeCall → Set Ptr
  | .aes128gcmSeal key src srcLen dst _ =>
      region key 16 ∪ region src srcLen ∪ region dst (srcLen + FRAME_OVERHEAD)
  | .aes128gcmOpen key frame frameLen _ _ => region key 16 ∪ region frame frameLen

/-- The bytes a call may write. -/
def writes : NativeCall → Set Ptr
  | .aes128gcmSeal _ _ srcLen dst _ => region dst (srcLen + FRAME_OVERHEAD)
  | .aes128gcmOpen _ _ frameLen dst _ => region dst (frameLen - FRAME_OVERHEAD)

variable (library : Library) (thread : Thread)

theorem realizable_seal (key src : Ptr) (srcLen : Nat) (dst : Ptr) (dstLen : Nat) :
    Realizable library thread (aes128gcmSeal key src srcLen dst dstLen).reads
      (aes128gcmSeal key src srcLen dst dstLen).writes
      (lmcacheAes128gcmSeal key src srcLen dst dstLen) := by
  have version : VERSION_LEN = 1 := rfl
  have ivLen : IV_LEN = 12 := rfl
  have tagLen : TAG_LEN = 16 := rfl
  have header : HEADER_LEN = 13 := rfl
  have overhead : FRAME_OVERHEAD = 29 := rfl
  have silent : region 0 0 ⊆ region dst (srcLen + FRAME_OVERHEAD) := by
    rw [region_zero]
    exact Set.empty_subset _
  have text : region (advance dst HEADER_LEN) srcLen ⊆
      region dst (srcLen + FRAME_OVERHEAD) := region_advance (by omega)
  have tag : region (advance (advance dst HEADER_LEN) srcLen) TAG_LEN ⊆
      region dst (srcLen + FRAME_OVERHEAD) := by
    rw [advance_advance]
    exact region_advance (by omega)
  have nonce : region (advance dst VERSION_LEN) IV_LEN ⊆
      region dst (srcLen + FRAME_OVERHEAD) := region_advance (by omega)
  refine .ite (fun _ => .pure _) fun _ => .ite (fun _ => .pure _) fun _ => ?_
  refine realizable_hasContext.bind fun _ => .ite (fun _ => .pure _) fun _ => ?_
  refine realizable_require (Set.empty_subset _) silent ?_
  refine (realizable_storeByte (mem_region (by omega))).bind fun _ => ?_
  refine realizable_require (Set.empty_subset _) nonce ?_
  refine realizable_require (Set.empty_subset _) silent ?_
  refine realizable_require (Set.empty_subset _) silent ?_
  refine realizable_require ?_ silent ?_
  · exact Set.union_subset (fun q inside => Or.inl (Or.inl inside))
      (nonce.trans Set.subset_union_right)
  refine (realizable_updateAll _ _ _ (fun q inside => Or.inl (Or.inr inside)) text 0).bind
    fun rc => .ite (fun _ => .pure _) fun _ => ?_
  refine (realizable_ask (Set.empty_subset _) ?_).bind fun final => ?_
  · exact (region_mono (Nat.zero_le _)).trans tag
  refine .ite (fun _ => .pure _) fun _ => .ite (fun _ => .pure _) fun _ => ?_
  exact realizable_require (Set.empty_subset _) tag (.pure _)

theorem realizable_open (key frame : Ptr) (frameLen : Nat) (dst : Ptr) (dstLen : Nat) :
    Realizable library thread (aes128gcmOpen key frame frameLen dst dstLen).reads
      (aes128gcmOpen key frame frameLen dst dstLen).writes
      (lmcacheAes128gcmOpen key frame frameLen dst dstLen) := by
  have version : VERSION_LEN = 1 := rfl
  have ivLen : IV_LEN = 12 := rfl
  have tagLen : TAG_LEN = 16 := rfl
  have header : HEADER_LEN = 13 := rfl
  have overhead : FRAME_OVERHEAD = 29 := rfl
  refine .ite (fun _ => .pure _) fun _ => .ite (fun _ => .pure _) fun long => ?_
  have silent : region 0 0 ⊆ region dst (frameLen - FRAME_OVERHEAD) := by
    rw [region_zero]
    exact Set.empty_subset _
  have part : ∀ {start n : Nat}, start + n ≤ frameLen → region (advance frame start) n ⊆
      region key 16 ∪ region frame frameLen := fun inside =>
    (region_advance inside).trans Set.subset_union_right
  refine (realizable_loadByte (Or.inr (mem_region (by omega)))).bind fun _ => ?_
  refine .ite (fun _ => .pure _) fun _ => .ite (fun _ => .pure _) fun _ => ?_
  refine realizable_hasContext.bind fun _ => .ite (fun _ => .pure _) fun _ => ?_
  refine realizable_require (Set.empty_subset _) silent ?_
  refine realizable_require (Set.empty_subset _) silent ?_
  refine realizable_require (Set.empty_subset _) silent ?_
  refine realizable_require ?_ silent ?_
  · exact Set.union_subset Set.subset_union_left (part (by omega))
  refine realizable_require ?_ silent ?_
  · rw [advance_advance]
    exact part (by omega)
  refine (realizable_updateAll _ _ _ (part (by omega)) subset_rfl 0).bind fun rc => ?_
  refine .ite (fun _ => ?_) fun _ => ?_
  · exact (realizable_cleanse subset_rfl).bind fun _ => .pure _
  · refine (realizable_ask (Set.empty_subset _) ?_).bind fun final => ?_
    · rw [Request.writes, Request.buffer, region_zero]
      exact Set.empty_subset _
    · refine .ite (fun _ => ?_) fun _ => .pure _
      exact (realizable_cleanse subset_rfl).bind fun _ => .pure _

/-- Every call can be made access by access, inside its buffers. -/
theorem realizable (call : NativeCall) :
    Realizable library thread call.reads call.writes call.perform := by
  cases call with
  | aes128gcmSeal key src srcLen dst dstLen => exact realizable_seal library thread ..
  | aes128gcmOpen key frame frameLen dst dstLen => exact realizable_open library thread ..

end NativeCall

end GpuKvSeal.Cpu
