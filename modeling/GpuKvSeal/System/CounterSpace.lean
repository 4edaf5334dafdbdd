import GpuKvSeal.System.Completion

/-!
# The counters of a text

A thread of the counter kernel stops where its counter would need more than 32
bits.  The block check of a seal admits the lengths whose counter launch has no
such thread and a grid that the cast to `int` leaves as it is.  For these
lengths every offset has one thread, and every block its own counter.
-/

namespace GpuKvSeal.System

open BigEndian (Byte)
open CellProgram (Program)
open Device
open Host
open Refinement

/-! ## One thread -/

/-- The thread has a block, and its counter does not fit into 32 bits. -/
def StopsAtCounter (len : Nat) (t : Thread) : Prop :=
  t.index < blockCount len ∧ t.index + 2 > 0xffffffff

theorem writes_authFailed (authOk : Option Ptr) (memory : Memory) :
    (authFailed authOk).writes memory = [] := by
  cases authOk <;> rfl

section Thread

variable (device : Int) (src dst : Ptr) (len : Nat) (iv roundKeys : Ptr)
  (authOk : Option Ptr) (t : Thread)

/-- A thread beyond the last block writes nothing. -/
theorem ctrCryptKernel_idle (beyond : blockCount len ≤ t.index)
    (memory : Memory) :
    (ctrCryptKernel device src dst len iv roundKeys authOk t).writes memory =
      [] := by
  rw [ctrCryptKernel, if_pos beyond]
  rfl

/-- A thread that stops at its counter writes nothing, unless the tag check has
failed. -/
theorem ctrCryptKernel_stops (stops : StopsAtCounter len t) {memory : Memory}
    (opened : (authFailed authOk).value memory = false) :
    (ctrCryptKernel device src dst len iv roundKeys authOk t).writes memory =
      [] := by
  have inside : ¬ t.index ≥ blockCount len := by
    have := stops.1
    omega
  rw [ctrCryptKernel, if_neg inside]
  simp only [CellProgram.Program.writes_bind, writes_authFailed, exec_authFailed,
    opened, if_pos stops.2]
  rfl

/-- A thread that does not stop there writes all positions of its block, and so does
every thread when the tag check has failed. -/
theorem ctrCryptKernel_writes (inside : t.index < blockCount len) {memory : Memory}
    (runs : (authFailed authOk).value memory = false → ¬ StopsAtCounter len t) {pos : Nat}
    (owned : pos / 16 = t.index) (below : pos < len) :
    Cell.byte (advance dst pos) ∈
      (ctrCryptKernel device src dst len iv roundKeys authOk t).writes memory := by
  have notBeyond : ¬ t.index ≥ blockCount len := by omega
  let j : Fin 16 := ⟨pos % 16, Nat.mod_lt _ (by decide)⟩
  have place : t.index * 16 + j.val = pos := by
    show t.index * 16 + pos % 16 = pos
    omega
  have listed : j ∈ List.finRange 16 := List.mem_finRange j
  rw [ctrCryptKernel, if_neg notBeyond, CellProgram.Program.writes_bind]
  refine List.mem_append_right _ ?_
  cases gate : (authFailed authOk).value memory with
  | true =>
      rw [if_pos rfl]
      refine CellProgram.Program.mem_writes_forEach listed (fun current => ?_) _
      rw [place, if_pos below]
      exact List.mem_singleton_self _
  | false =>
      have fits : ¬ t.index + 2 > 0xffffffff := fun wide => runs gate ⟨inside, wide⟩
      rw [if_neg (by simp), if_neg fits]
      simp only [CellProgram.Program.writes_bind]
      refine List.mem_append_right _ (List.mem_append_right _
        (List.mem_append_right _ ?_))
      refine CellProgram.Program.mem_writes_forEach listed (fun current => ?_) _
      rw [place, if_pos below]
      exact List.mem_singleton_self _

/-- A thread writes a position of the text only if it lies in its block. -/
theorem ctrCryptKernel_owns (word : len ≤ 2 ^ 64) {memory : Memory} {pos : Nat}
    (below : pos < len)
    (write : Cell.byte (advance dst pos) ∈
      (ctrCryptKernel device src dst len iv roundKeys authOk t).writes memory) :
    t.index = pos / 16 := by
  obtain ⟨k, lower, upper, same⟩ := (ctrCryptKernel_within device src dst len iv
    roundKeys authOk t).writes_mem memory write
  have equal : pos = k := advance_inj (by omega) (by omega) (Cell.byte.inj same)
  omega

end Thread

/-! ## One launch -/

/-- The cast has left the grid of a counter launch as it was. -/
def GridExact (len : Nat) (l : Launch) : Prop :=
  l.grid = ((blockCount len + 256 - 1) / 256 : Nat)

/-- The launch has one thread for every offset of the text. -/
structure WritesOnce (l : Launch) (dst : Ptr) (len : Nat) : Prop where
  once : ∀ pos < len, ∀ memory, ∃ i < l.threadCount,
    Cell.byte (advance dst pos) ∈ (l.body i).writes memory ∧
    ∀ j, Cell.byte (advance dst pos) ∈ (l.body j).writes memory → j = i
  idle : ∀ i, blockCount len ≤ i → ∀ memory, (l.body i).writes memory = []

theorem ctrLaunch_writesOnce (device : Int) (src dst : Ptr) {len : Nat}
    (word : len + 15 < 2 ^ 64) (iv roundKeys : Ptr) (authOk : Option Ptr)
    {grid : Int} (covers : blockCount len ≤ grid.toNat * 256)
    (runs : ∀ i < blockCount len, i + 2 ≤ 0xffffffff) :
    WritesOnce ⟨device, .ctrCrypt src dst len iv roundKeys authOk, grid, 256⟩ dst
      len := by
  have blocks : blockCount len = (len + 15) / 16 := blockCount_eq word
  let l := Launch.mk device (.ctrCrypt src dst len iv roundKeys authOk) grid 256
  constructor
  · intro pos below memory
    have inside : pos / 16 < blockCount len := by omega
    refine ⟨pos / 16, inside.trans_le covers, ?_, fun j write => ?_⟩
    · refine ctrCryptKernel_writes device src dst len iv roundKeys authOk _ ?_
        (fun _ stops => ?_) ?_ below
      · rw [l.thread_index]
        exact inside
      · have wide := stops.2
        rw [l.thread_index] at wide
        have := runs _ inside
        omega
      · rw [l.thread_index]
    · have owned := ctrCryptKernel_owns device src dst len iv roundKeys authOk
        (l.thread j) (by omega) below write
      rwa [l.thread_index] at owned
  · intro i beyond memory
    refine ctrCryptKernel_idle device src dst len iv roundKeys authOk _ ?_ memory
    rw [l.thread_index]
    exact beyond

/-- The counter of a block. -/
def blockCounter (block : Nat) : BitVec 32 := BitVec.ofNat 32 (block + 2)

/-- The blocks of a text have counters of their own, and none is zero or the
counter of the tag. -/
structure CountersDistinct (blocks : Nat) : Prop where
  range : ∀ block < blocks,
    2 ≤ (blockCounter block).toNat ∧ (blockCounter block).toNat ≤ 2 ^ 32 - 1
  distinct : ∀ first < blocks, ∀ second < blocks,
    blockCounter first = blockCounter second → first = second
  reserved : ∀ block < blocks, blockCounter block ≠ 0#32 ∧
    blockCounter block ≠ 1#32

theorem blockCounter_toNat {block : Nat} (fits : block + 2 ≤ 0xffffffff) :
    (blockCounter block).toNat = block + 2 := by
  rw [blockCounter, BitVec.toNat_ofNat]
  exact Nat.mod_eq_of_lt (by omega)

theorem countersDistinct {blocks : Nat} (fits : blocks ≤ 0xfffffffe) :
    CountersDistinct blocks := by
  have value : ∀ block < blocks, (blockCounter block).toNat = block + 2 :=
    fun block below => blockCounter_toNat (by omega)
  constructor
  · intro block below
    rw [value block below]
    omega
  · intro first firstBelow second secondBelow same
    have numbers := congrArg BitVec.toNat same
    rw [value first firstBelow, value second secondBelow] at numbers
    omega
  · intro block below
    have number := value block below
    constructor
    · intro zero
      rw [zero] at number
      exact absurd number (by simp)
    · intro one
      rw [one] at number
      exact absurd number (by simp)

/-! ## The limit of a seal -/

/-- The counter launch of a seal, if there is one. -/
def sealCtrLaunches (device : Int) (h : KeyHandle) (src : Ptr)
    (plaintextLen : Nat) (dst : Ptr) : List Launch :=
  ctrLaunches device src (advance dst HEADER_LEN) plaintextLen (advance dst 1)
    h.dRoundKeys none

/-- Whether a kernel is the counter kernel. -/
def isCtr : Kernel → Bool
  | .ctrCrypt .. => true
  | _ => false

/-- What an event launches. -/
def launchOf : Event → Option Launch
  | .launch _ l => some l
  | _ => none

/-- The counter launches among events, in order. -/
def ctrLaunchesOf (events : List Event) : List Launch :=
  (events.filterMap launchOf).filter fun l => isCtr l.kernel

theorem ctrLaunchesOf_append (first second : List Event) :
    ctrLaunchesOf (first ++ second) = ctrLaunchesOf first ++ ctrLaunchesOf second := by
  rw [ctrLaunchesOf, List.filterMap_append, List.filter_append]
  rfl

theorem ctrLaunchesOf_bookkeeping {events : List Event}
    (bookkeeping : Bookkeeping events) : ctrLaunchesOf events = [] := by
  have none : events.filterMap launchOf = [] := by
    refine List.filterMap_eq_nil_iff.mpr fun event member => ?_
    rcases bookkeeping event member with ⟨p, rfl⟩ | ⟨p, rfl⟩
    · rfl
    · rfl
  rw [ctrLaunchesOf, none, List.filter_nil]

theorem ctrLaunchesOf_launchEvents (stream : Ptr) (launches : List Launch) :
    ctrLaunchesOf (launchEvents stream launches) =
      launches.filter fun l => isCtr l.kernel := by
  have all : (launchEvents stream launches).filterMap launchOf = launches := by
    rw [launchEvents, List.filterMap_map]
    exact List.filterMap_some
  rw [ctrLaunchesOf, all]

/-- The counter launches of a seal are those that its counter step makes. -/
theorem sealLaunches_ctr (device : Int) (h : KeyHandle) (src : Ptr)
    (plaintextLen : Nat) (dst : Ptr) (iv : Vector Byte 12) :
    ((sealLaunches device h src plaintextLen dst iv).filter fun l => isCtr l.kernel) =
      sealCtrLaunches device h src plaintextLen dst := by
  have counter : ((sealCtrLaunches device h src plaintextLen dst).filter fun l =>
      isCtr l.kernel) = sealCtrLaunches device h src plaintextLen dst := by
    unfold sealCtrLaunches ctrLaunches
    split
    · rfl
    · rfl
  have hash : ((ghashLaunches device h (advance dst HEADER_LEN) plaintextLen).filter
      fun l => isCtr l.kernel) = [] := by
    refine List.filter_eq_nil_iff.mpr fun l member => ?_
    rcases List.mem_cons.mp member with rfl | later
    · exact Bool.false_ne_true
    · obtain ⟨a, b, n, -, -, -, rfl⟩ := mem_reduceLaunches later
      exact Bool.false_ne_true
  rw [sealLaunches, List.filter_cons_of_neg Bool.false_ne_true, List.filter_append,
    List.filter_append, hash]
  exact (List.append_nil _).trans counter

/-- The byte a thread of the counter kernel produces at a position. -/
def sealedByte (memory : Memory) (device : Int) (src iv roundKeys : Ptr)
    (pos : Nat) : Byte :=
  memory (.byte (advance src pos)) ^^^
    (aes128EncryptBlock (memory (.sbox device))
      (makeCounterBlock (bytesAt memory iv 12) (blockCounter (pos / 16)))
      (memory (.roundKeys roundKeys))).get (Fin.ofNat 16 pos)

/-- The counter launch of a seal produces every byte of the ciphertext once,
under its own part of the key stream. -/
structure CtrSound (device : Int) (roundKeys src : Ptr) (plaintextLen : Nat)
    (dst : Ptr) (l : Launch) : Prop where
  positive : 1 ≤ l.grid
  whole : GridExact plaintextLen l
  once : WritesOnce l (advance dst HEADER_LEN) plaintextLen
  bytes : Disjoint (span (advance dst HEADER_LEN) plaintextLen)
      (span src plaintextLen ∪ span (advance dst 1) 12) →
    ∀ schedule memory, ∀ pos < plaintextLen,
      l.run schedule memory (.byte (advance (advance dst HEADER_LEN) pos)) =
        sealedByte memory device src (advance dst 1) roundKeys pos

section Limit

variable (device : Int) (h : KeyHandle) (src : Ptr) {plaintextLen : Nat}
  (dst : Ptr)

theorem sealCtrLaunches_single (some : 0 < blockCount plaintextLen) :
    ∃ l, sealCtrLaunches device h src plaintextLen dst = [l] ∧
      l.threads = 256 :=
  ⟨_, if_pos some, rfl⟩

theorem sealCtrLaunches_device :
    ∀ l ∈ sealCtrLaunches device h src plaintextLen dst, l.device = device := by
  intro l member
  unfold sealCtrLaunches ctrLaunches at member
  split at member
  · rw [List.mem_singleton.mp member]
  · cases member

/-- With few enough blocks the launch is as the text needs it. -/
theorem sealCtrLaunches_sound (word : plaintextLen + 15 < 2 ^ 64)
    (fits : blockCount plaintextLen ≤ 0xfffffffe) :
    ∀ l ∈ sealCtrLaunches device h src plaintextLen dst,
      CtrSound device h.dRoundKeys src plaintextLen dst l := by
  intro l member
  unfold sealCtrLaunches ctrLaunches at member
  split at member
  case isFalse => cases member
  case isTrue some =>
    generalize cast : castInt _ = grid at member
    obtain rfl := List.mem_singleton.mp member
    have blocks : blockCount plaintextLen = (plaintextLen + 15) / 16 :=
      blockCount_eq word
    have small : (blockCount plaintextLen + 256 - 1) / 256 < 2 ^ 31 := by omega
    have covers : blockCount plaintextLen ≤ grid.toNat * 256 := by
      rw [← cast]
      exact castInt_covers (by decide) small
    constructor
    · show 1 ≤ grid
      rw [← cast]
      exact castInt_valid some (by decide) small
    · show grid = _
      rw [← cast]
      exact castInt_small small
    · exact ctrLaunch_writesOnce device src (advance dst HEADER_LEN) word
        (advance dst 1) h.dRoundKeys none covers fun i below => by omega
    · intro apart schedule memory pos below
      rw [ctrCrypt_run schedule device src _ _ _ none _ memory (by omega) covers
        apart below (by omega), ctrResult, if_neg (by simp [authFailed]),
        if_neg (by omega)]
      rfl

/-- A launch whose grid is exact and in which no thread stops has few enough
blocks. -/
theorem blocks_of_running
    (running : ∀ l ∈ sealCtrLaunches device h src plaintextLen dst,
      GridExact plaintextLen l ∧
        ∀ i < l.threadCount, ¬ StopsAtCounter plaintextLen (l.thread i)) :
    blockCount plaintextLen ≤ 0xfffffffe := by
  refine Nat.le_of_not_lt fun many => ?_
  obtain ⟨l, single, threads⟩ := sealCtrLaunches_single device h src dst
    (by omega : 0 < blockCount plaintextLen)
  obtain ⟨whole, runs⟩ := running l (by
    rw [single]
    exact List.mem_singleton_self l)
  -- The first thread whose counter is too large has a block.
  refine runs 0xfffffffe ?_ ⟨?_, ?_⟩
  · rw [Launch.threadCount, whole, Int.toNat_natCast, threads]
    omega
  · rwa [Launch.thread_index]
  · rw [Launch.thread_index]
    decide

/-- What a seal past its checks enqueues of counter launches, whatever fails. -/
theorem GuardedEffect.ctrLaunches {driver : Driver} {s s' : HostState} {key : Ptr}
    {leaked : List Block} {iv : Vector Byte 12} {stream : Ptr} {rc : ReturnCode}
    {events : List Event}
    (effect : GuardedEffect driver s s' key h leaked (requiredNodes plaintextLen)
      (SealBody driver stream src plaintextLen dst iv) rc events) :
    rc ≠ .errArgument ∧
    (∃ current, (ctrLaunchesOf events).Sublist
      (sealCtrLaunches current h src plaintextLen dst)) ∧
    (rc = .ok → ctrLaunchesOf events =
      sealCtrLaunches h.device h src plaintextLen dst) := by
  have kept : ∀ {h' : KeyHandle}, Extends h h' → ∀ current,
      sealCtrLaunches current h' src plaintextLen dst =
        sealCtrLaunches current h src plaintextLen dst := by
    intro h' extends_ current
    rw [sealCtrLaunches, sealCtrLaunches, extends_.roundKeys]
  refine ⟨?_, ?_, fun ok => ?_⟩
  · cases effect.result with
    | refused => simp
    | ran s₁ s₂ h' before after extends_ fits unchanged updated live bookkeeping done =>
        rcases cudaRc_cases s₂.lastError with code | code
        · simp [done.2, code]
        · simp [done.2, code]
  · cases effect.result with
    | refused small handles error cause bookkeeping =>
        rw [ctrLaunchesOf_bookkeeping bookkeeping]
        exact ⟨0, List.nil_sublist _⟩
    | ran s₁ s₂ h' before after extends_ fits unchanged updated live bookkeeping done =>
        obtain ⟨part, inside, rfl⟩ := done.1.part
        refine ⟨s₁.device, ?_⟩
        rw [ctrLaunchesOf_append, ctrLaunchesOf_bookkeeping bookkeeping,
          ctrLaunchesOf_launchEvents, ← kept extends_,
          ← sealLaunches_ctr s₁.device h' src plaintextLen dst iv]
        exact inside.filter _
  · obtain ⟨h', before, extends_, -, -, bookkeeping, rfl⟩ := completed stream
      (fun device h => sealLaunches device h src plaintextLen dst iv) effect
      (fun _ _ _ _ _ done => ⟨done.1, done.2.1⟩) ok
    rw [ctrLaunchesOf_append, ctrLaunchesOf_bookkeeping bookkeeping,
      ctrLaunchesOf_launchEvents, sealLaunches_ctr, kept extends_]
    rfl

/-- The block check of a seal admits exactly the lengths for which the cast
leaves the grid of the counter launch as it is and no thread of it stops at its
counter.  For these lengths every byte of the ciphertext is produced once, and
no two blocks share a counter.  The call refuses its arguments exactly when the check
does, and these launches are the counter launches it enqueues. -/
theorem seal_admits_iff_counters_fit {key : Ptr} {src dst : Ptr}
    {dstCapacity : Nat} (word : plaintextLen + 29 < 2 ^ 64)
    (keyNonnull : key ≠ 0) (srcNonnull : src ≠ 0) (dstNonnull : dst ≠ 0)
    (room : plaintextLen + 29 ≤ dstCapacity) :
    (SealAdmits key src plaintextLen dst dstCapacity ↔
      ∀ l ∈ sealCtrLaunches device h src plaintextLen dst,
        GridExact plaintextLen l ∧
          ∀ i < l.threadCount, ¬ StopsAtCounter plaintextLen (l.thread i)) ∧
    (SealAdmits key src plaintextLen dst dstCapacity →
      (plaintextLen = 0 ∧ sealCtrLaunches device h src plaintextLen dst = [] ∨
        0 < plaintextLen ∧
          ∃ l, sealCtrLaunches device h src plaintextLen dst = [l] ∧
            CtrSound device h.dRoundKeys src plaintextLen dst l) ∧
      CountersDistinct (blockCount plaintextLen)) ∧
    (∀ s leaked, Accounted s leaked → s.handles.lookup key = some h →
      ∀ iv stream driver,
      let o := lmcacheGpuAes128gcmSealAsync key src plaintextLen dst dstCapacity
        (some iv) stream driver s
      (o.value ≠ .errArgument ↔ SealAdmits key src plaintextLen dst dstCapacity) ∧
      (∀ l ∈ ctrLaunchesOf o.events,
        CtrSound l.device h.dRoundKeys src plaintextLen dst l) ∧
      (o.value = .ok → ctrLaunchesOf o.events =
        sealCtrLaunches h.device h src plaintextLen dst)) := by
  have blocks : blockCount plaintextLen = (plaintextLen + 15) / 16 :=
    blockCount_eq (by omega)
  refine ⟨⟨fun admits l member => ?_, fun running => ?_⟩, fun admits => ?_, ?_⟩
  · refine ⟨(sealCtrLaunches_sound device h src dst (by omega) admits.blocks l
      member).whole, fun i _ stops => ?_⟩
    have few := admits.blocks
    obtain ⟨below, wide⟩ := stops
    omega
  · exact ⟨keyNonnull, srcNonnull, dstNonnull, (Nat.mod_le _ _).trans room,
      blocks_of_running device h src dst running⟩
  · have sound := sealCtrLaunches_sound device h src dst (by omega) admits.blocks
    refine ⟨?_, countersDistinct admits.blocks⟩
    by_cases empty : plaintextLen = 0
    · refine Or.inl ⟨empty, ?_⟩
      rw [sealCtrLaunches, ctrLaunches, if_neg (by omega)]
    · obtain ⟨l, single, -⟩ := sealCtrLaunches_single device h src dst
        (by omega : 0 < blockCount plaintextLen)
      refine Or.inr ⟨by omega, l, single, sound l ?_⟩
      rw [single]
      exact List.mem_singleton_self l
  · intro s leaked accounted live iv stream driver o
    by_cases admits : SealAdmits key src plaintextLen dst dstCapacity
    · have effect := lmcacheGpuAes128gcmSealAsync_spec driver accounted live admits iv
        stream
      obtain ⟨passed, ⟨current, inside⟩, whole⟩ :=
        GuardedEffect.ctrLaunches h src dst effect
      refine ⟨iff_of_true passed admits, fun l member => ?_, whole⟩
      have listed := inside.subset member
      rw [sealCtrLaunches_device current h src dst l listed]
      exact sealCtrLaunches_sound current h src dst (by omega) admits.blocks l listed
    · have refused : o = ⟨.errArgument, s, []⟩ := by
        show lmcacheGpuAes128gcmSealAsync _ _ _ _ _ _ _ driver s = _
        rw [lmcacheGpuAes128gcmSealAsync_refused admits]
        rfl
      rw [refused]
      refine ⟨iff_of_false (fun other => other rfl) admits, fun l member => ?_, nofun⟩
      cases member

end Limit

/-- The longest text: the check admits it, and the call enqueues one counter launch. -/
theorem seal_admits_iff_counters_fit_example :
    let n := 2 ^ 36 - 32
    let h : KeyHandle := ⟨0, 1, 2, 0, 0, 0⟩
    let o := lmcacheGpuAes128gcmSealAsync 1 16 n (2 ^ 40) (n + 29)
      (some (Vector.replicate 12 0#8)) 0 .steady .oneKey
    (∀ l ∈ sealCtrLaunches 0 h 16 n (2 ^ 40), GridExact n l ∧
      ∀ i < l.threadCount, ¬ StopsAtCounter n (l.thread i)) ∧
    o.value = .ok ∧ ∃ l, ctrLaunchesOf o.events = [l] ∧ CtrSound 0 1 16 n (2 ^ 40) l := by
  intro n h o
  have live : HostState.oneKey.handles.lookup 1 = some h := by decide
  obtain ⟨leaked, accounted⟩ := (@HostState.oneKey_run (fun _ => True)
    trivial).accounted ⟨[], HostState.blank_fresh.accounted⟩
  obtain ⟨limit, admitted, call⟩ := seal_admits_iff_counters_fit 0 h
    (by decide : n + 29 < 2 ^ 64) (by decide : (1 : Ptr) ≠ 0)
    (by decide : (16 : Ptr) ≠ 0) (by decide : (2 ^ 40 : Ptr) ≠ 0) (le_refl (n + 29))
  have admits : SealAdmits 1 16 n (2 ^ 40) (n + 29) :=
    ⟨by decide, by decide, by decide, by decide, by decide⟩
  obtain ⟨-, sound, whole⟩ := call .oneKey leaked accounted live
    (Vector.replicate 12 0#8) 0 .steady
  have ok : o.value = .ok := succeeds 0
    (fun device h => sealLaunches device h 16 n (2 ^ 40) (Vector.replicate 12 0#8))
    (lmcacheGpuAes128gcmSealAsync_spec .steady accounted live admits _ 0)
    (fun _ _ _ _ _ done => ⟨done.1, done.2.1⟩) (Driver.steady_succeeds _) (by decide)
    fun device h' => sealLaunches_valid (by decide) device h' 16 (2 ^ 40) _
  refine ⟨limit.mp admits, ok, ?_⟩
  rcases (admitted admits).1 with ⟨empty, -⟩ | ⟨-, l, single, correct⟩
  · exact absurd empty (by decide)
  · exact ⟨l, (whole ok).trans single, correct⟩

/-- For a text of 2 ^ 44 bytes the cast makes the grid zero: the check refuses
the length although no thread of the launch stops. -/
theorem truncated_grid :
    ¬ ∀ plaintextLen, plaintextLen + 29 < 2 ^ 64 →
      (SealAdmits 8 16 plaintextLen 64 (plaintextLen + 29) ↔
        ∀ l ∈ sealCtrLaunches 0 {} 16 plaintextLen 64,
          ∀ i < l.threadCount, ¬ StopsAtCounter plaintextLen (l.thread i)) := by
  intro limit
  have blocks : blockCount (2 ^ 44) = 2 ^ 40 := by decide
  have admits := (limit (2 ^ 44) (by decide)).mpr ?_
  · have few := admits.blocks
    rw [blocks] at few
    exact absurd few (by decide)
  · intro l member i below
    rw [sealCtrLaunches, ctrLaunches, if_pos (by rw [blocks]; decide), blocks]
      at member
    have none : l.threadCount = 0 := by
      rw [List.mem_singleton.mp member]
      decide
    omega

end GpuKvSeal.System
