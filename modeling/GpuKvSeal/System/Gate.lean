import GpuKvSeal.Host.Rejections
import GpuKvSeal.System.Open

/-!
# The gate of an open under rejected launches

The counter launch of an open decrypts unless the status word is zero when it
runs.  If the runtime rejects the check of the tag but accepts the counter
launch after it, the status word is the one the caller left there.
-/

namespace GpuKvSeal.System

open BigEndian (Byte)
open Device
open Host
open Refinement
open Standard (FrameParts openFrame)
open Standard.Gcm (aes gctr inc32 preCounter)

/-! ## Decryption while events take effect -/

/-- The event is a counter launch of an open that finds its gate open. -/
def opensGate (memory : Memory) : Event → Prop
  | .launch _ ⟨_, .ctrCrypt _ _ _ _ _ (some authOk), _, _⟩ =>
      memory (.flag authOk) ≠ 0
  | _ => False

/-- While the events take effect, some open writes ciphertext masked with
keystream. -/
def Publishes (schedule : Schedule) : List Event → Memory → Prop
  | [], _ => False
  | event :: rest, memory =>
      opensGate memory event ∨
        Publishes schedule rest (event.apply schedule memory)

theorem publishes_append (schedule : Schedule) (first second : List Event)
    (memory : Memory) :
    Publishes schedule (first ++ second) memory ↔
      Publishes schedule first memory ∨
        Publishes schedule second (drain schedule first memory) := by
  induction first generalizing memory with
  | nil => exact (or_iff_right id).symm
  | cons event rest ih =>
      rw [List.cons_append, Publishes, Publishes, ih, drain_cons, or_assoc]

theorem not_publishes (schedule : Schedule) {events : List Event}
    (closed : ∀ event ∈ events, ∀ memory, ¬ opensGate memory event)
    (memory : Memory) : ¬ Publishes schedule events memory := by
  induction events generalizing memory with
  | nil => exact id
  | cons event rest ih =>
      rintro (opened | later)
      · exact closed event (List.mem_cons_self ..) memory opened
      · exact ih (fun other member => closed other
          (List.mem_cons_of_mem _ member)) _ later

theorem bookkeeping_closed {events : List Event}
    (bookkeeping : Bookkeeping events) :
    ∀ event ∈ events, ∀ memory, ¬ opensGate memory event := by
  intro event member memory
  rcases bookkeeping event member with ⟨p, rfl⟩ | ⟨p, rfl⟩
  · exact id
  · exact id

theorem reduceLaunches_closed (device : Int) (hPow2 : Ptr) (stream : Ptr)
    (count : Nat) : ∀ input output,
      ∀ l ∈ reduceLaunches device hPow2 input output count, ∀ memory,
        ¬ opensGate memory (.launch stream l) := by
  intro input output l member memory
  obtain ⟨a, b, n, -, -, -, rfl⟩ := mem_reduceLaunches member
  exact id

theorem ghashLaunches_closed (device : Int) (h : KeyHandle) (ciphertext : Ptr)
    (len : Nat) (stream : Ptr) :
    ∀ l ∈ ghashLaunches device h ciphertext len, ∀ memory,
      ¬ opensGate memory (.launch stream l) := by
  intro l member memory
  rcases List.mem_cons.mp member with rfl | later
  · exact id
  · exact reduceLaunches_closed device _ stream _ _ _ l later memory

theorem launchEvents_closed {stream : Ptr} {launches : List Launch}
    (closed : ∀ l ∈ launches, ∀ memory, ¬ opensGate memory (.launch stream l)) :
    ∀ event ∈ launchEvents stream launches, ∀ memory,
      ¬ opensGate memory event := by
  intro event member memory
  obtain ⟨l, listed, rfl⟩ := List.mem_map.mp member
  exact closed l listed memory

/-! ## The stages of an open -/

/-- Part of a hash decrypts nothing and writes nodes only. -/
theorem hashPart_effect (schedule : Schedule) {before : List Event}
    (bookkeeping : Bookkeeping before) {device : Int} {h : KeyHandle}
    {ciphertext : Ptr} {len : Nat} {part : List Launch}
    (inside : part.Sublist (ghashLaunches device h ciphertext len))
    (stream : Ptr) (memory : Memory) :
    let events := before ++ launchEvents stream part
    ¬ Publishes schedule events memory ∧
      ∀ cell, (∀ q i, cell ≠ .node q i) →
        drain schedule events memory cell = memory cell := by
  intro events
  constructor
  · refine not_publishes schedule (fun event member => ?_) memory
    rcases List.mem_append.mp member with early | late
    · exact bookkeeping_closed bookkeeping event early
    · exact launchEvents_closed (fun l listed =>
        ghashLaunches_closed device h ciphertext len stream l
          (inside.subset listed)) event late
  · intro cell other
    show drain schedule (before ++ _) memory cell = _
    rw [drain_append, drain_bookkeeping schedule bookkeeping,
      drain_launchEvents]
    refine runAll_frame schedule (fun l member write => ?_) memory
    obtain ⟨i, -, same | same⟩ := (ghashLaunches_inside device h ciphertext len
      l (inside.subset member)).2 write
    · exact other _ _ same
    · exact other _ _ same

/-- The counter launch decrypts exactly if the status word is not zero. -/
theorem openCtr_publishes (schedule : Schedule) (device : Int) (h : KeyHandle)
    (src dst : Ptr) {len : Nat} (positive : 0 < len) (small : len + 15 < 2 ^ 64)
    (authOk stream : Ptr) (memory : Memory) :
    Publishes schedule (launchEvents stream
      (openCtrLaunches device h src dst len authOk)) memory ↔
        memory (.flag authOk) ≠ 0 := by
  have blocks : blockCount len = (len + 15) / 16 := blockCount_eq small
  have some : blockCount len > 0 := by omega
  rw [openCtrLaunches, ctrLaunches, if_pos some]
  exact or_iff_left id

/-! ## The whole call -/

/-- The runtime rejects the check of the tag and nothing else, and the status
word was not zero before. -/
structure CheckSkipped (driver : Driver) (s : HostState) (h : KeyHandle)
    (plaintextLen : Nat) (memory : Memory) (authOk : Ptr) : Prop where
  clear : s.lastError = cudaSuccess
  hashed : ∀ k < hashLaunchCount plaintextLen,
    driver.Accepts (firstLaunch s h (requiredNodes plaintextLen) + k)
  unchecked : ¬ driver.Accepts (firstLaunch s h (requiredNodes plaintextLen) +
    hashLaunchCount plaintextLen)
  counter : driver.Accepts (firstLaunch s h (requiredNodes plaintextLen) +
    hashLaunchCount plaintextLen + 1)
  stale : memory (.flag authOk) ≠ 0

/-- What an open may leave of a frame that does not verify. -/
structure Withheld (schedule : Schedule) (events : List Event) (memory : Memory)
    (dst : Ptr) (n : Nat) : Prop where
  unpublished : ¬ Publishes schedule events memory
  content : bytesAt (drain schedule events memory) dst n = bytesAt memory dst n ∨
    bytesAt (drain schedule events memory) dst n = Vector.replicate n 0#8

theorem Withheld.of_kept {schedule : Schedule} {events : List Event}
    {memory : Memory} {dst : Ptr} {n : Nat}
    (unpublished : ¬ Publishes schedule events memory)
    (kept : ∀ q, drain schedule events memory (.byte q) = memory (.byte q)) :
    Withheld schedule events memory dst n :=
  ⟨unpublished, Or.inl (bytesAt_congr fun _ _ => kept _)⟩

/-- Launches that decrypt nothing and keep all bytes. -/
structure Front (schedule : Schedule) (front : List Launch) (memory : Memory) :
    Prop where
  closed : ∀ l ∈ front, ∀ stream memory, ¬ opensGate memory (.launch stream l)
  bytes : ∀ q, runAll schedule front memory (.byte q) = memory (.byte q)

section Front

variable {schedule : Schedule} {before : List Event} {front : List Launch}
  {memory : Memory} (bookkeeping : Bookkeeping before)
  (inFront : Front schedule front memory) (stream : Ptr)

include bookkeeping inFront

theorem front_unpublished :
    ¬ Publishes schedule (before ++ launchEvents stream front) memory := by
  refine not_publishes schedule (fun event member => ?_) memory
  rcases List.mem_append.mp member with early | late
  · exact bookkeeping_closed bookkeeping event early
  · exact launchEvents_closed (fun l listed =>
      inFront.closed l listed stream) event late

/-- Without a counter launch nothing is published. -/
theorem front_withheld (dst : Ptr) (n : Nat) :
    Withheld schedule (before ++ launchEvents stream front) memory dst n := by
  refine .of_kept (front_unpublished bookkeeping inFront stream) fun q => ?_
  rw [drain_append, drain_bookkeeping schedule bookkeeping, drain_launchEvents]
  exact inFront.bytes q

/-- The counter launch publishes unless the gate is closed. -/
theorem counter_withheld_iff (device : Int) (h : KeyHandle) (src dst : Ptr)
    {n : Nat} (positive : 0 < n) (admissible : n ≤ 2 ^ 36 - 32) (authOk : Ptr) :
    Withheld schedule (before ++ launchEvents stream
      (front ++ openCtrLaunches device h src dst n authOk)) memory dst n ↔
        runAll schedule front memory (.flag authOk) = 0 := by
  have drained : drain schedule (before ++ launchEvents stream front) memory =
      runAll schedule front memory := by
    rw [drain_append, drain_bookkeeping schedule bookkeeping, drain_launchEvents]
  have gate : Publishes schedule (before ++ launchEvents stream
      (front ++ openCtrLaunches device h src dst n authOk)) memory ↔
        runAll schedule front memory (.flag authOk) ≠ 0 := by
    rw [launchEvents_append, ← List.append_assoc, publishes_append, drained,
      openCtr_publishes schedule device h src dst positive (by omega)]
    exact or_iff_right (front_unpublished bookkeeping inFront stream)
  constructor
  · intro withheld
    exact Decidable.not_not.mp fun opened => withheld.unpublished (gate.mpr opened)
  · intro closed
    refine ⟨gate.not.mpr (not_not.mpr closed), Or.inr ?_⟩
    rw [launchEvents_append, ← List.append_assoc, drain_append, drained,
      drain_launchEvents]
    exact counter_closed schedule device _ dst (admissible.trans (by decide)) _ _ closed

end Front

/-- The hash is such a front. -/
theorem hash_front (schedule : Schedule) (device : Int) (h : KeyHandle)
    (ciphertext : Ptr) (len : Nat) (memory : Memory) :
    Front schedule (ghashLaunches device h ciphertext len) memory :=
  ⟨fun l member stream => ghashLaunches_closed device h ciphertext len stream l
    member, fun _ => ghashLaunches_frame schedule device h ciphertext len memory
      fun _ _ => by simp⟩

/-- The counter launch is enqueued if it is accepted. -/
theorem accepted_openCtr (driver : Driver) (i : Nat) (device : Int)
    (h : KeyHandle) (src dst : Ptr) (len : Nat) (authOk : Ptr) :
    accepted driver i (openCtrLaunches device h src dst len authOk) =
      if driver.Accepts i then openCtrLaunches device h src dst len authOk
      else [] := by
  rw [openCtrLaunches, ctrLaunches]
  by_cases some : blockCount len > 0
  · rw [if_pos some]
    rfl
  · rw [if_neg some, ite_self]
    rfl

/-- The events of an open in which only launches fail. -/
structure Attempted (driver : Driver) (secret : Vector Byte 16) (s : HostState)
    (h : KeyHandle) (memory : Memory) (src dst : Ptr) (plaintextLen : Nat)
    (authOk stream : Ptr) (h' : KeyHandle) (before events : List Event) :
    Prop where
  distinct : h'.dNodesA ≠ h'.dNodesB
  ready : Ready secret memory h.device h'.dRoundKeys h'.dHPow2
  bookkeeping : Bookkeeping before
  attempt : s.lastError = cudaSuccess →
    OpenAttempt driver (firstLaunch s h (requiredNodes plaintextLen)) stream
      h.device h' src dst plaintextLen authOk events
  pending : s.lastError ≠ cudaSuccess → ∃ part,
    part.Sublist (ghashLaunches h.device h' (advance src HEADER_LEN)
      plaintextLen) ∧ events = launchEvents stream part

theorem GuardedEffect.attempted {driver : Driver} {secret : Vector Byte 16}
    {s s' : HostState} {p : Ptr} {h : KeyHandle} {leaked : List Host.Block}
    {memory : Memory} (usable : Usable secret p s memory leaked h)
    {src dst authOk stream : Ptr} {plaintextLen : Nat}
    (admissible : plaintextLen ≤ 2 ^ 36 - 32)
    (reliable : driver.Succeeds {.getDevice, .setDevice, .malloc, .free})
    {rc : ReturnCode} {events : List Event}
    (effect : GuardedEffect driver s s' p h leaked (requiredNodes plaintextLen)
      (OpenAttempted driver stream src dst plaintextLen authOk) rc events) :
    ∃ h' before rest, events = before ++ rest ∧
      Attempted driver secret s h memory src dst plaintextLen authOk stream h'
        before rest := by
  obtain ⟨lost, accounted', -⟩ := effect.accounted
  have needed := requiredNodes_pos plaintextLen
  cases effect.result with
  | refused small handles error cause =>
      refine absurd (fun kind member => ?_) cause
      rw [Set.mem_singleton_iff.mp member]
      exact reliable .malloc (by simp)
  | ran s₁ s₂ h' before rest extends_ fits unchanged updated live₁ bookkeeping
      done sticky₁ sticky₂ placed clean counted =>
      have narrow : driver.Succeeds {.getDevice, .setDevice, .free} := by
        rintro kind (rfl | rfl | rfl)
        · exact reliable .getDevice (by simp)
        · exact reliable .setDevice (by simp)
        · exact reliable .free (by simp)
      obtain ⟨error₁, device₁, -⟩ := clean narrow
      have calls₁ := counted fun kind member => narrow kind (Or.inl member)
      have ready := usable.ready
      rw [← extends_.roundKeys, ← extends_.hPow2] at ready
      obtain ⟨⟨-, -, shape⟩, attempt⟩ := done
      rw [device₁] at shape attempt
      rw [calls₁, error₁] at attempt
      refine ⟨h', before, rest, rfl,
        accounted'.node_distinct updated.live (by omega), ready, bookkeeping,
        attempt (openLaunches_valid (by omega) _ _ _ _ _), fun pending => ?_⟩
      rcases shape with ⟨part, inside, same, -⟩ | ⟨clear, -⟩
      · exact ⟨part, inside, same⟩
      · exact absurd (error₁.symm.trans clear) pending

section Call

variable {schedule : Schedule} {secret : Vector Byte 16} {p : Ptr}
  {s : HostState} {memory : Memory} (live : Live schedule secret p s memory)
  {h : KeyHandle} (found : s.handles.lookup p = some h) {src dst authOk : Ptr}
  {plaintextLen frameLen : Nat} (srcNonnull : src ≠ 0) (dstNonnull : dst ≠ 0)
  (flagNonnull : authOk ≠ 0) (admissible : plaintextLen ≤ 2 ^ 36 - 32)
  (room : plaintextLen + 29 ≤ frameLen) (stream : Ptr) {driver : Driver}
  (reliable : driver.Succeeds {.getDevice, .setDevice, .malloc, .free})

include live found srcNonnull dstNonnull flagNonnull admissible room reliable

theorem open_attempted :
    ∃ h' before rest,
      (lmcacheGpuAes128gcmOpenAsync p src frameLen dst plaintextLen authOk stream
        driver s).events = before ++ rest ∧
      Attempted driver secret s h memory src dst plaintextLen authOk stream h'
        before rest := by
  obtain ⟨leaked, g, usable⟩ := live.usable
  obtain rfl : g = h := Option.some.inj (usable.live.symm.trans found)
  have admits := openAdmits live.nonnull srcNonnull dstNonnull flagNonnull room
  exact GuardedEffect.attempted usable admissible reliable
    (lmcacheGpuAes128gcmOpenAsync_attempted driver usable.accounted usable.live
      admits stream)

/-- The whole trace when the check is skipped: the hash and the counter
launch. -/
theorem CheckSkipped.text
    (skipped : CheckSkipped driver s h plaintextLen memory authOk)
    (apart : Disjoint (span dst plaintextLen) (span src (plaintextLen + 29))) :
    let o := lmcacheGpuAes128gcmOpenAsync p src frameLen dst plaintextLen authOk
      stream driver s
    let f := framePartsAt memory src plaintextLen
    (bytesAt (drain schedule o.events memory) dst plaintextLen).toList =
      gctr (aes secret) (inc32 (preCounter f.iv)) f.cipher := by
  intro o f
  obtain ⟨h', before, events, trace, attempted⟩ := open_attempted live found
    srcNonnull dstNonnull flagNonnull admissible room stream reliable
  have whole := (attempted.attempt skipped.clear).hashed skipped.hashed
  let body := advance src HEADER_LEN
  let hash := ghashLaunches h.device h' body plaintextLen
  let hashed := runAll schedule hash memory
  have kept : ∀ {cell}, (∀ q i, cell ≠ .node q i) → hashed cell = memory cell :=
    fun other => ghashLaunches_frame schedule h.device h' body plaintextLen memory
      other
  have bytes : ∀ q, hashed (.byte q) = memory (.byte q) :=
    fun q => kept fun _ _ => by simp
  have ready' : Ready secret hashed h.device h'.dRoundKeys h'.dHPow2 :=
    ready_runAll (ghashLaunches_operational _ _ _ _) schedule attempted.ready
  have apart' : Disjoint (span dst plaintextLen)
      (span body plaintextLen ∪ span (advance src 1) 12) := by
    refine Set.disjoint_union_right.mpr ⟨apart.mono_right
      (span_advance_subset (by show 13 + plaintextLen ≤ _; omega)),
      apart.mono_right (span_advance_subset (by omega))⟩
  have text := counter_stage schedule ready' body dst admissible (advance src 1)
    (some authOk) apart'
  have opened : ¬ (authFailed (some authOk)).value hashed = true := by
    show ¬ (hashed (.flag authOk) == 0) = true
    rw [kept fun _ _ => by simp, beq_iff_eq]
    exact skipped.stale
  have iv : bytesAt hashed (advance src 1) 12 = f.iv :=
    bytesAt_congr fun k _ => bytes _
  have cipher : (bytesAt hashed body plaintextLen).toList = f.cipher :=
    congrArg Vector.toList (bytesAt_congr fun k _ => bytes _)
  rw [if_neg opened, iv, cipher] at text
  refine Eq.trans ?_ text
  have last : accepted driver (firstLaunch s h (requiredNodes plaintextLen) +
      hashLaunchCount plaintextLen)
      (verifyLaunch h.device h' src plaintextLen authOk ::
        openCtrLaunches h.device h' src dst plaintextLen authOk) =
      ctrLaunches h.device body dst plaintextLen (advance src 1) h'.dRoundKeys
        (some authOk) := by
    rw [accepted, if_neg skipped.unchecked, openCtrLaunches, ctrLaunches]
    split
    · rw [accepted, if_pos skipped.counter, accepted]
    · rfl
  rw [show o.events = _ from trace, drain_append,
    drain_bookkeeping schedule attempted.bookkeeping, whole, drain_launchEvents, last,
    runAll_append]

/-- Skipping the check is the only way in which an open publishes anything of
a frame that does not verify. -/
theorem withheld_iff_not_skipped
    (invalid : openFrame (aes secret)
      (framePartsAt memory src plaintextLen) = none) (positive : 0 < plaintextLen) :
    Withheld schedule (lmcacheGpuAes128gcmOpenAsync p src frameLen dst plaintextLen
      authOk stream driver s).events memory dst plaintextLen ↔
        ¬ CheckSkipped driver s h plaintextLen memory authOk := by
  obtain ⟨h', before, events, trace, attempted⟩ := open_attempted live found
    srcNonnull dstNonnull flagNonnull admissible room stream reliable
  rw [trace]
  let first := firstLaunch s h (requiredNodes plaintextLen)
  -- A call that stops in the hash has not touched the destination.
  have stopped : (∃ part, part.Sublist (ghashLaunches h.device h'
      (advance src HEADER_LEN) plaintextLen) ∧
        events = launchEvents stream part) →
      Withheld schedule (before ++ events) memory dst plaintextLen := by
    rintro ⟨part, inside, rfl⟩
    obtain ⟨unpublished, kept⟩ :=
      hashPart_effect schedule attempted.bookkeeping inside stream memory
    exact .of_kept unpublished fun q => kept _ fun _ _ => by simp
  by_cases clear : s.lastError = cudaSuccess
  swap
  · exact iff_of_true (stopped (attempted.pending clear))
      fun skipped => clear skipped.clear
  by_cases all : ∀ k < hashLaunchCount plaintextLen, driver.Accepts (first + k)
  swap
  · exact iff_of_true (stopped ((attempted.attempt clear).stopped all))
      fun skipped => all skipped.hashed
  have whole := (attempted.attempt clear).hashed all
  let hash := ghashLaunches h.device h' (advance src HEADER_LEN) plaintextLen
  let verify := verifyLaunch h.device h' src plaintextLen authOk
  let counter := openCtrLaunches h.device h' src dst plaintextLen authOk
  let i := first + hashLaunchCount plaintextLen
  have hashed : Front schedule hash memory := hash_front schedule _ _ _ _ memory
  by_cases checked : driver.Accepts i
  · -- The check clears the status word.
    obtain ⟨flag, bytes⟩ := verify_stage schedule attempted.ready
      attempted.distinct (admissible.trans (by decide)) src authOk
    rw [← openedFlag_eq, openedFlag_eq_zero.mpr invalid] at flag
    have front : Front schedule (hash ++ [verify]) memory := by
      refine ⟨fun l member stream => ?_, bytes⟩
      rcases List.mem_append.mp member with inHash | last
      · exact hashed.closed l inHash stream
      · rw [List.mem_singleton.mp last]
        exact fun _ => id
    have trace' : events = launchEvents stream ((hash ++ [verify]) ++
        if driver.Accepts (i + 1) then counter else []) := by
      rw [whole, accepted, if_pos checked, accepted_openCtr, List.append_assoc]
      rfl
    refine iff_of_true ?_ fun skipped => skipped.unchecked checked
    rw [trace']
    split
    · exact (counter_withheld_iff attempted.bookkeeping front stream _ _ _ _
        positive admissible authOk).mpr flag
    · rw [List.append_nil]
      exact front_withheld attempted.bookkeeping front stream dst plaintextLen
  · have kept : runAll schedule hash memory (.flag authOk) =
        memory (.flag authOk) :=
      ghashLaunches_frame schedule _ _ _ _ memory fun _ _ => by simp
    have trace' : events = launchEvents stream (hash ++
        if driver.Accepts (i + 1) then counter else []) := by
      rw [whole, accepted, if_neg checked, accepted_openCtr]
    rw [trace']
    by_cases last : driver.Accepts (i + 1)
    · rw [if_pos last, counter_withheld_iff attempted.bookkeeping hashed stream _ _
        _ _ positive admissible authOk, kept]
      exact ⟨fun closed skipped => skipped.stale closed, fun free =>
        Decidable.not_not.mp fun stale => free ⟨clear, all, checked, last, stale⟩⟩
    · rw [if_neg last, List.append_nil]
      exact iff_of_true
        (front_withheld attempted.bookkeeping hashed stream dst plaintextLen)
        fun skipped => last skipped.counter

end Call

/-! ## A stale status word -/

/-- A frame with version zero whose ciphertext decrypts to the byte one. -/
def forged : FrameParts :=
  ⟨0#8, Vector.replicate 12 0#8,
    gctr (aes (Vector.replicate 16 0#8))
      (inc32 (preCounter (Vector.replicate 12 0#8))) [1#8],
    List.replicate 16 0#8⟩

/-- The forged frame at address one, with a status word left at one. -/
def staleMemory : Memory :=
  (holding oneKeyMemory forged.bytes).update (.flag 8) (1 : Int)

theorem staleMemory_live :
    Live inOrder (Vector.replicate 16 0#8) 1 .oneKey staleMemory := by
  refine .outside (oneKey_live.holding forged.bytes) fun cell table => ?_
  refine CellProgram.Store.update_of_ne _ _ ?_
  rintro rfl
  exact table

theorem length_forged : forged.bytes.length = 30 := by
  simp [FrameParts.bytes, forged]

theorem forged_text : gctr (aes (Vector.replicate 16 0#8))
    (inc32 (preCounter forged.iv)) forged.cipher = [1#8] := by
  show gctr _ (inc32 (preCounter (Vector.replicate 12 0#8))) (gctr _ _ _) = _
  rw [Standard.Gcm.inc32_preCounter, Standard.Gcm.gctr_gctr]

theorem framePartsAt_staleMemory : framePartsAt staleMemory 1 1 = forged := by
  have cipher : forged.cipher.length = 1 := Standard.Gcm.length_gctr ..
  refine FrameParts.bytes_inj ?_ ?_
  · rw [cipher]
    exact Vector.length_toList
  · rw [framePartsAt_bytes]
    have same : bytesAt staleMemory 1 (1 + 29) =
        bytesAt (holding oneKeyMemory forged.bytes) 1 30 :=
      bytesAt_congr fun k _ => CellProgram.Store.update_of_ne _ _ (by simp)
    rw [same]
    exact bytesAt_holding oneKeyMemory length_forged (by decide)

theorem forged_refused :
    openFrame (aes (Vector.replicate 16 0#8)) (framePartsAt staleMemory 1 1) =
      none := by
  rw [framePartsAt_staleMemory]
  exact if_neg (by decide)

theorem forged_skipped : CheckSkipped (.rejecting 12) .oneKey ⟨0, 1, 2, 0, 0, 0⟩ 1
    staleMemory 8 := by
  have nodes : requiredNodes 1 = 1 := by decide
  have hashed : hashLaunchCount 1 = 1 := by
    rw [hashLaunchCount, nodes, reductions]
    rfl
  have first : firstLaunch .oneKey ⟨0, 1, 2, 0, 0, 0⟩ (requiredNodes 1) = 11 := by
    decide
  refine ⟨by decide, ?_, ?_, ?_, ?_⟩
  · intro k below
    obtain rfl : k = 0 := by omega
    rw [first]
    decide
  · rw [first, hashed]
    decide
  · rw [first, hashed]
    decide
  · show staleMemory (.flag 8) ≠ 0
    rw [staleMemory, CellProgram.Store.update_self]
    decide

/-- With the check rejected and a status word of one, the byte that an
unauthenticated frame decrypts to reaches the destination. -/
theorem stale_gate_publishes :
    Live inOrder (Vector.replicate 16 0#8) 1 .oneKey staleMemory ∧
    openFrame (aes (Vector.replicate 16 0#8)) (framePartsAt staleMemory 1 1) =
      none ∧
    (Driver.rejecting 12).Succeeds {.getDevice, .setDevice, .malloc, .free} ∧
    let after := drain inOrder (lmcacheGpuAes128gcmOpenAsync 1 1 30 128 1 8 0
      (.rejecting 12) .oneKey).events staleMemory
    bytesAt after 128 1 ≠ bytesAt staleMemory 128 1 ∧
      bytesAt after 128 1 ≠ Vector.replicate 1 0#8 := by
  have reliable : (Driver.rejecting 12).Succeeds
      {.getDevice, .setDevice, .malloc, .free} :=
    Driver.rejecting_succeeds 12 (by simp)
  have apart : Disjoint (span 128 1) (span 1 (1 + 29)) :=
    (span_disjoint (by decide) (by decide)).symm
  have text := CheckSkipped.text staleMemory_live
    (by decide : HostState.oneKey.handles.lookup 1 = some ⟨0, 1, 2, 0, 0, 0⟩)
    (by decide : (1 : Ptr) ≠ 0) (by decide : (128 : Ptr) ≠ 0)
    (by decide : (8 : Ptr) ≠ 0) (by decide : 1 ≤ 2 ^ 36 - 32) (le_refl 30) 0
    reliable forged_skipped apart
  dsimp only at text
  rw [framePartsAt_staleMemory, forged_text] at text
  refine ⟨staleMemory_live, forged_refused, reliable, fun old => ?_, fun zero => ?_⟩
  · have blank : bytesAt staleMemory 128 1 = Vector.replicate 1 0#8 := by
      refine Vector.ext fun i below => ?_
      obtain rfl : i = 0 := by omega
      have beyond : forged.bytes.length ≤ 127 := by
        rw [length_forged]
        decide
      rw [getElem_bytesAt, staleMemory,
        CellProgram.Store.update_of_ne _ _ (by simp), Vector.getElem_replicate]
      show forged.bytes.getD 127 0#8 = 0#8
      rw [List.getD_eq_getElem?_getD, List.getElem?_eq_none beyond,
        Option.getD_none]
    rw [old, blank] at text
    exact absurd text (by decide)
  · rw [zero] at text
    exact absurd text (by decide)

/-- An open of a frame that does not verify, in which any launches may be
rejected, leaves the old content or zeros and decrypts nothing, exactly if not
the check alone is rejected with a stale status word; in that case the
destination holds the decrypted ciphertext. -/
theorem open_withholds_iff {schedule : Schedule} {secret : Vector Byte 16}
    {p : Ptr} {s : HostState} {memory : Memory}
    (live : Live schedule secret p s memory) {h : KeyHandle}
    (found : s.handles.lookup p = some h) {src dst authOk : Ptr}
    {plaintextLen frameLen : Nat} (srcNonnull : src ≠ 0) (dstNonnull : dst ≠ 0)
    (flagNonnull : authOk ≠ 0) (positive : 0 < plaintextLen)
    (admissible : plaintextLen ≤ 2 ^ 36 - 32)
    (room : plaintextLen + 29 ≤ frameLen) (stream : Ptr) {driver : Driver}
    (reliable : driver.Succeeds {.getDevice, .setDevice, .malloc, .free})
    (invalid : openFrame (aes secret)
      (framePartsAt memory src plaintextLen) = none) :
    let o := lmcacheGpuAes128gcmOpenAsync p src frameLen dst plaintextLen authOk
      stream driver s
    let f := framePartsAt memory src plaintextLen
    (Withheld schedule o.events memory dst plaintextLen ↔
      ¬ CheckSkipped driver s h plaintextLen memory authOk) ∧
    (CheckSkipped driver s h plaintextLen memory authOk →
      Disjoint (span dst plaintextLen) (span src (plaintextLen + 29)) →
      (bytesAt (drain schedule o.events memory) dst plaintextLen).toList =
        gctr (aes secret) (inc32 (preCounter f.iv)) f.cipher) :=
  ⟨withheld_iff_not_skipped live found srcNonnull dstNonnull flagNonnull admissible
      room stream reliable invalid positive,
    fun skipped apart => skipped.text live found srcNonnull dstNonnull flagNonnull
      admissible room stream reliable apart⟩

/-- An all-zero frame on a driver that rejects nothing. -/
theorem open_withholds_iff_example :
    Withheld inOrder (lmcacheGpuAes128gcmOpenAsync 1 16 30 128 1 8 0 .steady
      .oneKey).events (holding oneKeyMemory []) 128 1 := by
  have invalid : openFrame (aes (Vector.replicate 16 0#8))
      (framePartsAt (holding oneKeyMemory []) 16 1) = none := by
    refine if_neg ?_
    show ¬ ([] : List Byte).getD (advance 16 0 - 1) 0#8 = 0x01#8
    decide
  have withheld := open_withholds_iff (oneKey_live.holding [])
    (by decide : HostState.oneKey.handles.lookup 1 = some ⟨0, 1, 2, 0, 0, 0⟩)
    (by decide : (16 : Ptr) ≠ 0) (by decide : (128 : Ptr) ≠ 0)
    (by decide : (8 : Ptr) ≠ 0) (by decide : 0 < 1)
    (by decide : 1 ≤ 2 ^ 36 - 32) (le_refl 30) 0
    (Driver.steady_succeeds _) invalid
  exact withheld.1.mpr fun skipped => skipped.unchecked rfl

end GpuKvSeal.System
