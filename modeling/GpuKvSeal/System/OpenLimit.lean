import GpuKvSeal.Host.Grids
import GpuKvSeal.System.CounterSpace
import GpuKvSeal.System.Open

/-!
# The bytes an open leaves unwritten

An open has no block check.  While its counters fit into 32 bits every byte of
the text is written, with zero or with the byte of its own key stream.  Beyond
that an accepted frame leaves a block as it was, unless a grid is cast to an
invalid one and the open fails.
-/

namespace GpuKvSeal.System

open BigEndian (Byte)
open CellProgram (Program)
open Device
open Host
open Refinement
open Standard (openFrame sealFrame)
open Standard.Gcm (aes counterBlock)

/-! ## The cells a call writes -/

/-- The cells that are written when an event takes effect, in order. -/
def eventWrites (schedule : Schedule) (event : Event) (memory : Memory) :
    List Cell :=
  match event with
  | .memcpyToSymbol device _ => [.sbox device]
  | .memcpy dst _ => [.roundKeys dst]
  | .launch _ l => (l.program schedule memory).writes memory
  | .synchronize | .malloc _ | .free _ => []

/-- The cells that are written while the events of a stream take effect. -/
def drainWrites (schedule : Schedule) : List Event → Memory → List Cell
  | [], _ => []
  | event :: rest, memory => eventWrites schedule event memory ++
      drainWrites schedule rest (event.apply schedule memory)

theorem drainWrites_append (schedule : Schedule) (first second : List Event)
    (memory : Memory) :
    drainWrites schedule (first ++ second) memory =
      drainWrites schedule first memory ++
        drainWrites schedule second (drain schedule first memory) := by
  induction first generalizing memory with
  | nil => rfl
  | cons event rest ih =>
      simp only [List.cons_append, drainWrites, ih, drain_cons, List.append_assoc]

theorem drainWrites_bookkeeping (schedule : Schedule) {events : List Event}
    (bookkeeping : Bookkeeping events) (memory : Memory) :
    drainWrites schedule events memory = [] := by
  induction events generalizing memory with
  | nil => rfl
  | cons event rest ih =>
      have rest' : Bookkeeping rest := fun other member =>
        bookkeeping other (List.mem_cons_of_mem _ member)
      rw [drainWrites, ih rest', List.append_nil]
      rcases bookkeeping event (List.mem_cons_self ..) with ⟨p, rfl⟩ | ⟨p, rfl⟩
      · rfl
      · rfl

/-- What launches write lies in their footprints. -/
theorem drainWrites_inside (schedule : Schedule) (stream : Ptr)
    (launches : List Launch) {memory : Memory} {cell : Cell}
    (write : cell ∈ drainWrites schedule (launchEvents stream launches) memory) :
    ∃ l ∈ launches, cell ∈ l.writes := by
  induction launches generalizing memory with
  | nil => cases write
  | cons l rest ih =>
      rcases List.mem_append.mp write with now | later
      · exact ⟨l, List.mem_cons_self ..,
          (l.program_within schedule memory).writes_mem memory now⟩
      · obtain ⟨l', member, inside⟩ := ih later
        exact ⟨l', List.mem_cons_of_mem _ member, inside⟩

/-! ## A complete text -/

/-- The byte of AES on the IV and a counter that masks a position. -/
def maskByte (secret : Vector Byte 16) (iv : Vector Byte 12)
    (counter : BitVec 32) (position : Nat) : Byte :=
  (BigEndian.toBytes 16 (aes secret (counterBlock iv counter))).get
    (Fin.ofNat 16 position)

/-- The text at an address is the ciphertext under counters that are different
for different blocks and never that of the tag. -/
def Unmasked (secret : Vector Byte 16) (iv : Vector Byte 12)
    (cipher text : Nat → Byte) (plaintextLen : Nat) : Prop :=
  ∃ counter : Nat → BitVec 32,
    (∀ first < blockCount plaintextLen, ∀ second < blockCount plaintextLen,
      counter first = counter second → first = second) ∧
    (∀ block < blockCount plaintextLen, counter block ≠ 1#32) ∧
    ∀ i < plaintextLen,
      text i = cipher i ^^^ maskByte secret iv (counter (i / 16)) i

/-- A drained open has left no stale byte in the text. -/
structure Complete (schedule : Schedule) (secret : Vector Byte 16)
    (events : List Event) (memory : Memory) (src dst : Ptr) (plaintextLen : Nat)
    (authOk : Ptr) : Prop where
  written : ∀ i < plaintextLen,
    Cell.byte (advance dst i) ∈ drainWrites schedule events memory
  refused : Disjoint (span dst plaintextLen) (span src (plaintextLen + 29)) →
    drain schedule events memory (.flag authOk) = 0 →
    ∀ i < plaintextLen,
      drain schedule events memory (.byte (advance dst i)) = 0#8
  accepted : Disjoint (span dst plaintextLen) (span src (plaintextLen + 29)) →
    drain schedule events memory (.flag authOk) = 1 →
    Unmasked secret (bytesAt memory (advance src 1) 12)
      (fun i => memory (.byte (advance (advance src HEADER_LEN) i)))
      (fun i => drain schedule events memory (.byte (advance dst i))) plaintextLen

/-- Whatever the driver does, an open with these arguments that succeeds leaves no
stale byte. -/
def NoStaleByte (schedule : Schedule) (secret : Vector Byte 16) (p : Ptr) (s : HostState)
    (memory : Memory) (src : Ptr) (frameLen : Nat) (dst : Ptr) (plaintextLen : Nat)
    (authOk stream : Ptr) : Prop :=
  ∀ driver,
    let o := lmcacheGpuAes128gcmOpenAsync p src frameLen dst plaintextLen authOk
      stream driver s
    o.value = .ok →
      Complete schedule secret o.events memory src dst plaintextLen authOk

/-! ## A successful open -/

/-- The launches of an open before the text is decrypted. -/
def openFront (device : Int) (h : KeyHandle) (src : Ptr) (plaintextLen : Nat)
    (authOk : Ptr) : List Launch :=
  ghashLaunches device h (advance src HEADER_LEN) plaintextLen ++
    [verifyLaunch device h src plaintextLen authOk]

theorem openLaunches_split (device : Int) (h : KeyHandle) (src dst : Ptr)
    (plaintextLen : Nat) (authOk : Ptr) :
    openLaunches device h src dst plaintextLen authOk =
      openFront device h src plaintextLen authOk ++
        openCtrLaunches device h src dst plaintextLen authOk := by
  simp [openLaunches, openFront]

/-- These launches write no byte. -/
theorem openFront_unwritten (schedule : Schedule) (stream : Ptr) (device : Int)
    (h : KeyHandle) (src : Ptr) (plaintextLen : Nat) (authOk : Ptr) (memory : Memory)
    (q : Ptr) : Cell.byte q ∉ drainWrites schedule (launchEvents stream
      (openFront device h src plaintextLen authOk)) memory := by
  intro write
  obtain ⟨l, member, inside⟩ := drainWrites_inside schedule stream _ write
  rcases List.mem_append.mp member with hash | check
  · obtain ⟨i, -, same | same⟩ :=
      (ghashLaunches_inside device h _ plaintextLen l hash).2 inside
    · cases same
    · cases same
  · rw [List.mem_singleton.mp check] at inside
    obtain ⟨_, _, same⟩ := inside
    cases same

/-- What a successful open of any length has done. -/
structure Opened (schedule : Schedule) (secret : Vector Byte 16) (events : List Event)
    (memory : Memory) (src dst : Ptr) (plaintextLen : Nat) (authOk stream : Ptr)
    (device : Int) (h : KeyHandle) : Prop where
  valid : GridsValid (openLaunches device h src dst plaintextLen authOk)
  ready : Ready secret memory device h.dRoundKeys h.dHPow2
  distinct : h.dNodesA ≠ h.dNodesB
  writes : ∀ q, Cell.byte q ∈ drainWrites schedule events memory ↔
    Cell.byte q ∈ drainWrites schedule (launchEvents stream
      (openCtrLaunches device h src dst plaintextLen authOk))
        (runAll schedule (openFront device h src plaintextLen authOk) memory)
  drained : drain schedule events memory = runAll schedule
    (openCtrLaunches device h src dst plaintextLen authOk)
      (runAll schedule (openFront device h src plaintextLen authOk) memory)

section Open

variable {schedule : Schedule} {secret : Vector Byte 16} {p : Ptr} {s : HostState}
  {memory : Memory} (live : Live schedule secret p s memory)
  {src dst authOk stream : Ptr} {plaintextLen frameLen : Nat}

include live

/-- A successful open of any length has enqueued all its launches. -/
theorem open_trace {driver : Driver}
    (ok : (lmcacheGpuAes128gcmOpenAsync p src frameLen dst plaintextLen authOk
      stream driver s).value = .ok) :
    OpenAdmits p src frameLen dst plaintextLen authOk ∧ s.lastError = cudaSuccess ∧
      ∃ device h', Opened schedule secret (lmcacheGpuAes128gcmOpenAsync p src frameLen
        dst plaintextLen authOk stream driver s).events memory src dst plaintextLen
          authOk stream device h' := by
  let launches := fun device h' => openLaunches device h' src dst plaintextLen authOk
  have admits : OpenAdmits p src frameLen dst plaintextLen authOk := by
    by_contra refused
    rw [lmcacheGpuAes128gcmOpenAsync_refused refused] at ok
    cases ok
  obtain ⟨leaked, h, usable⟩ := live.usable
  have effect := lmcacheGpuAes128gcmOpenAsync_spec driver usable.accounted
    usable.live admits stream
  have clear := clear_of_ok stream launches effect
    (fun _ _ _ _ _ done => ⟨done.1, done.2.1⟩) ok
  obtain ⟨h', before, extends_, fits, found, bookkeeping, trace⟩ := completed stream
    launches effect (fun _ _ _ _ _ done => ⟨done.1, done.2.1⟩) ok
  have configured := lmcacheGpuAes128gcmOpenAsync_configured p src frameLen dst
    plaintextLen authOk stream driver s
  obtain ⟨lost, accounted', -⟩ := effect.accounted
  have ready := usable.ready
  rw [← extends_.roundKeys, ← extends_.hPow2] at ready
  refine ⟨admits, clear, h.device, h', ?_, ready, ?_, fun q => ?_, ?_⟩
  · intro l launched
    refine configured (Event.launch stream l) ?_
    rw [trace]
    exact List.mem_append_right _ (List.mem_map_of_mem launched)
  · exact accounted'.node_distinct found (by
      have positive := requiredNodes_pos plaintextLen
      omega)
  · rw [trace, drainWrites_append, drainWrites_bookkeeping schedule bookkeeping,
      List.nil_append, drain_bookkeeping schedule bookkeeping]
    show _ ∈ drainWrites schedule (launchEvents stream (openLaunches ..)) memory ↔ _
    rw [openLaunches_split, launchEvents_append, drainWrites_append,
      drain_launchEvents, List.mem_append]
    exact or_iff_right (openFront_unwritten schedule stream _ _ _ _ _ memory q)
  · rw [trace, drain_append, drain_bookkeeping schedule bookkeeping,
      drain_launchEvents]
    show runAll schedule (openLaunches ..) memory = _
    rw [openLaunches_split, runAll_append]

end Open

/-! ## The counter launch -/

/-- The counter launch writes every byte of the text, if the cast leaves its grid as it
is and no counter is too large, or the tag check has failed. -/
theorem ctrLaunches_writes (schedule : Schedule) (stream : Ptr) (device : Int)
    (src dst : Ptr) {len : Nat} (short : len ≤ 2 ^ 43 - 4096) (iv roundKeys : Ptr)
    (authOk : Option Ptr) {memory : Memory}
    (runs : (authFailed authOk).value memory = false → len ≤ 2 ^ 36 - 32) {i : Nat}
    (below : i < len) :
    Cell.byte (advance dst i) ∈ drainWrites schedule (launchEvents stream
      (ctrLaunches device src dst len iv roundKeys authOk)) memory := by
  have blocks : blockCount len = (len + 15) / 16 := blockCount_eq (by omega)
  have some : blockCount len > 0 := by omega
  have covers : blockCount len ≤
      (castInt ((blockCount len + 256 - 1) / 256)).toNat * 256 :=
    castInt_covers (by decide) (by omega)
  rw [ctrLaunches, if_pos some]
  generalize castInt ((blockCount len + 256 - 1) / 256) = grid at covers
  let l := Launch.mk device (.ctrCrypt src dst len iv roundKeys authOk) grid 256
  have inside : i / 16 < blockCount len := by omega
  have thread : i / 16 < l.threadCount := inside.trans_le covers
  have index := l.thread_index (i / 16)
  refine List.mem_append_left _ (Program.mem_writes_forEach_keeping
    (fun m => (authFailed authOk).value m = (authFailed authOk).value memory)
    (fun k _ m same => (ctrCrypt_gate device src dst len iv roundKeys authOk grid k
      m).trans same)
    ((l.mem_order schedule memory).mpr thread) (fun current same => ?_) rfl)
  refine ctrCryptKernel_writes device src dst len iv roundKeys authOk _ ?_
    (fun opened stops => ?_) index.symm below
  · rw [index]
    exact inside
  · have admissible := runs (same.symm.trans opened)
    have wide := stops.2
    rw [index] at wide
    omega

/-- The position at which the counter would first need more than 32 bits. -/
abbrev firstStale : Nat := 2 ^ 36 - 32

/-- While the frame counts as accepted, the counter launch writes nothing at the
position whose counter does not fit. -/
theorem ctrLaunches_skips (schedule : Schedule) (stream : Ptr) (device : Int)
    (src dst : Ptr) {len : Nat} (word : len + 15 < 2 ^ 64)
    (beyond : firstStale < len) (iv roundKeys flag : Ptr) {memory : Memory}
    (opened : memory (.flag flag) ≠ 0) :
    Cell.byte (advance dst firstStale) ∉ drainWrites schedule
      (launchEvents stream
        (ctrLaunches device src dst len iv roundKeys (some flag))) memory := by
  have blocks : blockCount len = (len + 15) / 16 := blockCount_eq word
  have start : (authFailed (some flag)).value memory = false := by
    simpa [authFailed] using opened
  intro write
  rw [ctrLaunches, if_pos (by omega)] at write
  generalize castInt ((blockCount len + 256 - 1) / 256) = grid at write
  let l := Launch.mk device (.ctrCrypt src dst len iv roundKeys (some flag)) grid
    256
  rcases List.mem_append.mp write with now | later
  · obtain ⟨i, -, current, gate, byThread⟩ := Program.exists_writes_forEach
      (fun m => (authFailed (some flag)).value m = false)
      (fun k _ m same => (ctrCrypt_gate device src dst len iv roundKeys (some flag) grid
        k m).trans same) start now
    have owner := ctrCryptKernel_owns device src dst len iv roundKeys (some flag)
      (l.thread i) (by omega) beyond byThread
    have place : firstStale = 2 ^ 36 - 32 := rfl
    have stops : StopsAtCounter len (l.thread i) := by
      constructor
      · omega
      · omega
    rw [show (l.body i).writes current = [] from ctrCryptKernel_stops device src
      dst len iv roundKeys (some flag) (l.thread i) stops gate] at byThread
    cases byThread
  · cases later

/-- A grid that the cast makes smaller has no thread for the block behind it. -/
theorem ctrLaunches_truncated (schedule : Schedule) (stream : Ptr) (device : Int)
    (src dst : Ptr) {len : Nat} (word : len + 15 < 2 ^ 64) (long : 2 ^ 43 - 4096 < len)
    (iv roundKeys : Ptr) (authOk : Option Ptr) (memory : Memory) :
    ∃ pos < len, Cell.byte (advance dst pos) ∉ drainWrites schedule
      (launchEvents stream (ctrLaunches device src dst len iv roundKeys authOk))
        memory := by
  have blocks : blockCount len = (len + 15) / 16 := blockCount_eq word
  have small : castInt ((blockCount len + 256 - 1) / 256) < 2 ^ 31 := by
    have bound : castInt ((blockCount len + 256 - 1) / 256) < ((2 ^ 32 : Nat) + 1) / 2 :=
      Int.bmod_lt (by decide)
    omega
  rw [ctrLaunches, if_pos (by omega)]
  generalize castInt ((blockCount len + 256 - 1) / 256) = grid at small
  let l := Launch.mk device (.ctrCrypt src dst len iv roundKeys authOk) grid 256
  refine ⟨grid.toNat * 4096, by omega, fun write => ?_⟩
  rcases List.mem_append.mp write with now | later
  · obtain ⟨i, member, current, -, byThread⟩ := Program.exists_writes_forEach
      (fun _ => True) (fun _ _ _ _ => trivial) trivial now
    have thread : i < grid.toNat * 256 := (l.mem_order schedule memory).mp member
    have owner := ctrCryptKernel_owns device src dst len iv roundKeys authOk
      (l.thread i) (by omega) (by omega) byThread
    rw [l.thread_index] at owner
    omega
  · cases later

/-- Where a text beyond the limit stays as it was: behind the last thread, or at the
first counter that does not fit. -/
theorem ctrLaunches_stale (schedule : Schedule) (stream : Ptr) (device : Int)
    (src dst : Ptr) {len : Nat} (word : len + 15 < 2 ^ 64)
    (beyond : firstStale < len) (iv roundKeys flag : Ptr) {memory : Memory}
    (opened : len ≤ 2 ^ 43 - 4096 → memory (.flag flag) ≠ 0) :
    ∃ pos < len, Cell.byte (advance dst pos) ∉ drainWrites schedule
      (launchEvents stream
        (ctrLaunches device src dst len iv roundKeys (some flag))) memory := by
  by_cases short : len ≤ 2 ^ 43 - 4096
  · exact ⟨firstStale, beyond, ctrLaunches_skips schedule stream device src dst word
      beyond iv roundKeys flag (opened short)⟩
  · exact ctrLaunches_truncated schedule stream device src dst word (by omega) iv
      roundKeys (some flag) memory

/-! ## Opens without a stale byte -/

/-- The text of an accepted frame. -/
theorem unmasked_gctr (secret : Vector Byte 16) (iv : Vector Byte 12)
    {cipher text : Nat → Byte} {plaintextLen : Nat}
    (fits : blockCount plaintextLen ≤ 0xfffffffe)
    (bytes : ∀ i < plaintextLen, text i =
      cipher i ^^^ Standard.Gcm.keystream (aes secret) iv 2 i) :
    Unmasked secret iv cipher text plaintextLen := by
  have counters := countersDistinct fits
  refine ⟨blockCounter, counters.distinct,
    fun block below => (counters.reserved block below).2, fun i below => ?_⟩
  rw [bytes i below, Standard.Gcm.keystream, maskByte, blockCounter,
    Nat.add_comm 2]

section Open

variable {schedule : Schedule} {secret : Vector Byte 16} {p : Ptr} {s : HostState}
  {memory : Memory} (live : Live schedule secret p s memory)
  {src dst authOk stream : Ptr} {plaintextLen frameLen : Nat}

include live

theorem noStaleByte_of_admissible (room : plaintextLen + 29 ≤ frameLen)
    (admissible : plaintextLen ≤ 2 ^ 36 - 32) :
    NoStaleByte schedule secret p s memory src frameLen dst plaintextLen authOk
      stream := by
  intro driver o ok
  obtain ⟨admits, -, device, h', opened⟩ := open_trace live ok
  have blocks : blockCount plaintextLen = (plaintextLen + 15) / 16 :=
    blockCount_eq (by omega)
  have result := fun apart => (open_result live admits.src admits.dst
    admits.authOk admissible room apart stream driver).2 ok
  let f := framePartsAt memory src plaintextLen
  have length : f.cipher.length = plaintextLen := Vector.length_toList
  constructor
  · intro i below
    rw [opened.writes]
    exact ctrLaunches_writes schedule stream device _ dst
      (admissible.trans (by decide)) _ _ _ (fun _ => admissible) below
  · intro apart refused i below
    obtain ⟨flag, text, -⟩ := result apart
    rw [flag] at refused
    rw [openedText_eq, if_pos refused, length] at text
    have byte := congrArg (·[i]?) text
    simpa [List.getElem?_replicate, below] using byte
  · intro apart accepted
    obtain ⟨flag, text, -⟩ := result apart
    rw [flag] at accepted
    rw [openedText_eq, if_neg (by rw [accepted]; exact one_ne_zero),
      Standard.Gcm.inc32_preCounter] at text
    refine unmasked_gctr secret _ (by omega) fun i below => ?_
    have byte := congrArg (·[i]?) text
    have inCipher : i < f.cipher.length := by omega
    rw [List.getElem?_eq_getElem (by simpa using below),
      List.getElem?_eq_getElem (by simpa using inCipher),
      Option.some_inj, Standard.Gcm.getElem_gctr _ _ 2 _ _ inCipher,
      Vector.getElem_toList, getElem_bytesAt] at byte
    refine byte.trans (congrArg (· ^^^ _) ?_)
    exact (Vector.getElem_toList ..).trans (getElem_bytesAt ..)

/-- While the cast leaves the counter grid as it is, a frame that does not verify is
cleared completely, however long it is. -/
theorem noStaleByte_of_refused (short : plaintextLen ≤ 2 ^ 43 - 4096)
    (refused : openFrame (aes secret) (framePartsAt memory src plaintextLen) = none) :
    NoStaleByte schedule secret p s memory src frameLen dst plaintextLen authOk
      stream := by
  intro driver o ok
  obtain ⟨-, -, device, h', opened⟩ := open_trace live ok
  obtain ⟨flag, -⟩ := verify_stage schedule opened.ready opened.distinct
    (short.trans (by decide)) src authOk
  rw [← openedFlag_eq, openedFlag_eq_zero.mpr refused] at flag
  have closed : runAll schedule (openFront device h' src plaintextLen authOk) memory
      (.flag authOk) = 0 := flag
  have failed : (authFailed (some authOk)).value (runAll schedule
      (openFront device h' src plaintextLen authOk) memory) ≠ false := by
    simp [authFailed, closed]
  constructor
  · intro i below
    rw [opened.writes]
    exact ctrLaunches_writes schedule stream device _ dst short _ _ _
      (fun running => absurd running failed) below
  · intro _ _ i below
    have cleared := counter_closed schedule device (advance src HEADER_LEN) dst short
      (advance src 1) h'.dRoundKeys closed
    rw [opened.drained, ← getElem_bytesAt _ dst plaintextLen i below]
    exact (Vector.ext_iff.mp cleared i below).trans (Vector.getElem_replicate below)
  · intro _ accepted
    rw [opened.drained] at accepted
    have outside : Cell.flag authOk ∉ span dst plaintextLen := by
      rintro ⟨k, -, -, same⟩
      cases same
    have kept := ctrLaunches_frame schedule device (advance src HEADER_LEN) dst
      (by omega) (advance src 1) h'.dRoundKeys (some authOk)
      (runAll schedule (openFront device h' src plaintextLen authOk) memory) outside
    exact absurd (accepted.symm.trans (kept.trans closed)) one_ne_zero

variable (stream) in
/-- Otherwise a call that nothing makes fail leaves a byte as it was. -/
theorem staleByte_of_beyond (clear : s.lastError = cudaSuccess) (srcNonnull : src ≠ 0)
    (dstNonnull : dst ≠ 0) (flagNonnull : authOk ≠ 0)
    (room : plaintextLen + 29 ≤ frameLen) (word : frameLen < 2 ^ 64)
    (beyond : firstStale < plaintextLen) (fit : GridsFit plaintextLen)
    (verifies : plaintextLen ≤ 2 ^ 43 - 4096 →
      openFrame (aes secret) (framePartsAt memory src plaintextLen) ≠ none) :
    let o := lmcacheGpuAes128gcmOpenAsync p src frameLen dst plaintextLen authOk
      stream .steady s
    o.value = .ok ∧ ∃ pos < plaintextLen,
      Cell.byte (advance dst pos) ∉ drainWrites schedule o.events memory := by
  intro o
  obtain ⟨leaked, h, usable⟩ := live.usable
  have admits := openAdmits live.nonnull srcNonnull dstNonnull flagNonnull room
  have effect := lmcacheGpuAes128gcmOpenAsync_spec .steady usable.accounted
    usable.live admits stream
  have ok : o.value = .ok := succeeds stream
    (fun device h' => openLaunches device h' src dst plaintextLen authOk) effect
    (fun _ _ _ _ _ done => ⟨done.1, done.2.1⟩) (Driver.steady_succeeds _) clear
    fun device h' =>
      (openLaunches_valid_iff device h' src dst authOk (by omega) (by omega)).mpr fit
  obtain ⟨-, -, device, h', opened⟩ := open_trace live ok
  have gate : plaintextLen ≤ 2 ^ 43 - 4096 → runAll schedule
      (openFront device h' src plaintextLen authOk) memory (.flag authOk) ≠ 0 := by
    intro short closed
    obtain ⟨flag, -⟩ := verify_stage schedule opened.ready opened.distinct
      (short.trans (by decide)) src authOk
    rw [← openedFlag_eq] at flag
    exact verifies short (openedFlag_eq_zero.mp (flag.symm.trans closed))
  obtain ⟨pos, below, unwritten⟩ := ctrLaunches_stale schedule stream device
    (advance src HEADER_LEN) dst (by omega) beyond (advance src 1) h'.dRoundKeys authOk
    gate
  exact ⟨ok, pos, below, (opened.writes _).not.mpr unwritten⟩

/-- An open leaves no stale byte exactly when the counters of the text fit into 32
bits, or the frame does not verify and the cast leaves the counter grid as it is, or
the call cannot succeed: because a grid is not positive after the cast, a pointer is
null or an error is pending. -/
theorem noStaleByte_iff (room : plaintextLen + 29 ≤ frameLen)
    (word : frameLen < 2 ^ 64) :
    NoStaleByte schedule secret p s memory src frameLen dst plaintextLen authOk stream ↔
      plaintextLen ≤ 2 ^ 36 - 32 ∨
      (plaintextLen ≤ 2 ^ 43 - 4096 ∧
        openFrame (aes secret) (framePartsAt memory src plaintextLen) = none) ∨
      ¬ GridsFit plaintextLen ∨ src = 0 ∨ dst = 0 ∨ authOk = 0 ∨
      s.lastError ≠ cudaSuccess := by
  constructor
  · intro complete
    by_contra outside
    simp only [not_or, not_not] at outside
    obtain ⟨beyond, verifies, fit, srcNonnull, dstNonnull, flagNonnull, clear⟩ := outside
    obtain ⟨ok, pos, below, unwritten⟩ := staleByte_of_beyond live stream clear srcNonnull
      dstNonnull flagNonnull room word (Nat.lt_of_not_le beyond) fit
      fun short refused => verifies ⟨short, refused⟩
    exact unwritten ((complete .steady ok).written pos below)
  · intro condition
    by_cases admissible : plaintextLen ≤ 2 ^ 36 - 32
    · exact noStaleByte_of_admissible live room admissible
    rcases condition with fits | ⟨short, refused⟩ | impossible
    · exact absurd fits admissible
    · exact noStaleByte_of_refused live short refused
    · intro driver o ok
      obtain ⟨admits, clear, device, h', opened⟩ := open_trace live ok
      have fit := (openLaunches_valid_iff device h' src dst authOk (by omega)
        (by omega)).mp opened.valid
      rcases impossible with invalid | null | null | null | pending
      · exact absurd fit invalid
      · exact absurd null admits.src
      · exact absurd null admits.dst
      · exact absurd null admits.authOk
      · exact absurd clear pending

end Open

/-- One byte more than the largest text, in thirty zeros and more: no version. -/
theorem noStaleByte_iff_example :
    NoStaleByte inOrder (Vector.replicate 16 0#8) 1 .oneKey (holding oneKeyMemory [])
      1 (2 ^ 36 - 2) (2 ^ 40) (2 ^ 36 - 31) 8 0 := by
  refine (noStaleByte_iff (oneKey_live.holding []) (by decide) (by decide)).mpr
    (Or.inr (Or.inl ⟨by decide, if_neg ?_⟩))
  decide

/-- The frame of a text of this length, at address one of a device. -/
def longFrame (n : Nat) : Memory :=
  holding oneKeyMemory (sealFrame (aes (Vector.replicate 16 0#8))
    (Vector.replicate 12 0#8) (List.replicate n 7#8))

theorem longFrame_verifies {n : Nat} (small : n + 30 < 2 ^ 64) :
    openFrame (aes (Vector.replicate 16 0#8)) (framePartsAt (longFrame n) 1 n) =
      some (List.replicate n 7#8) := by
  have length : (sealFrame (aes (Vector.replicate 16 0#8)) (Vector.replicate 12 0#8)
      (List.replicate n 7#8)).length = n + 29 := by
    rw [Standard.length_sealFrame, List.length_replicate]
  have cipher : (framePartsAt (longFrame n) 1 n).cipher.length = n :=
    Vector.length_toList
  have bytes : (framePartsAt (longFrame n) 1 n).bytes = sealFrame
      (aes (Vector.replicate 16 0#8)) (Vector.replicate 12 0#8)
        (List.replicate n 7#8) := by
    rw [framePartsAt_bytes]
    exact bytesAt_holding oneKeyMemory length small
  exact Standard.openFrame_of_bytes (List.length_replicate.trans cipher.symm) bytes

/-- One byte more than the largest text, in a frame that verifies: the call succeeds
and leaves a byte as it was. -/
theorem stale_byte :
    let o := lmcacheGpuAes128gcmOpenAsync 1 1 (2 ^ 36 - 2) (2 ^ 40) (2 ^ 36 - 31) 8 0
      .steady .oneKey
    o.value = .ok ∧ ¬ Complete inOrder (Vector.replicate 16 0#8) o.events
      (longFrame (2 ^ 36 - 31)) 1 (2 ^ 40) (2 ^ 36 - 31) 8 := by
  have fit : GridsFit (2 ^ 36 - 31) := (openLaunches_valid_iff 0 {} 0 0 0 (by decide)
    (by decide)).mp (openLaunches_valid (by decide) 0 {} 0 0 0)
  have live : Live inOrder (Vector.replicate 16 0#8) 1 .oneKey (longFrame (2 ^ 36 - 31)) :=
    oneKey_live.holding _
  obtain ⟨ok, pos, below, unwritten⟩ := staleByte_of_beyond live 0
    (by decide) (by decide : (1 : Ptr) ≠ 0) (by decide : (2 ^ 40 : Ptr) ≠ 0)
    (by decide : (8 : Ptr) ≠ 0) (by decide : 2 ^ 36 - 31 + 29 ≤ 2 ^ 36 - 2) (by decide)
    (by decide) fit fun _ => by
      rw [longFrame_verifies (by decide)]
      exact Option.some_ne_none _
  exact ⟨ok, fun complete => unwritten (complete.written pos below)⟩

end GpuKvSeal.System
