import GpuKvSeal.System.FreshNodes
import GpuKvSeal.System.Open

/-!
# Operations do not disturb one another

A program of operations leaves the same memory in every order in which the device
may run its launches, namely that of the calls made one after another.  There a
call finds its source as it will be at the end, and no later call touches what it
leaves behind.  The result of a call depends on nothing else, so it is the result
of the same call made alone.
-/

namespace GpuKvSeal.System

open BigEndian (Byte)
open CellProgram.Program (Agree)
open Device
open Host
open Refinement
open Relation (ReflTransGen)
open StreamQueue (Config Drains Orderly Step completes drains_jobs jobs runJobs
  runJobs_append)

/-- A call with its return code and its results is like the call made alone, on
any handle with the same key, over the same source.  What a refused call leaves
is what was there at the start. -/
def SameAlone (secret : Vector Byte 16) (c : ApiCall) (rc : ReturnCode)
    (start final : Memory) : Prop :=
  ∀ (schedule : Schedule) (p : Ptr) (s : HostState) (memory : Memory)
    (driver : Driver), Live schedule secret p s memory →
    driver.Succeeds operationCalls → s.lastError = cudaSuccess →
    Agree c.inputs memory final → (rc = .ok ∨ Agree c.outputs memory start) →
    let alone := (c.on p).perform driver s
    alone.value = rc ∧
      Agree c.outputs final (drain schedule alone.events memory)

/-! ## One call -/

theorem agree_span {first second : Memory} {p : Ptr} {n : Nat}
    (same : (bytesAt first p n).toList = (bytesAt second p n).toList) :
    Agree (span p n) first second := by
  rintro cell ⟨k, -, below, rfl⟩
  rw [← getElem_bytesAt first p n k below, ← getElem_bytesAt second p n k below]
  exact congrArg (fun bytes : Vector Byte n => bytes[k]) (Vector.toList_inj.mp same)

theorem bytesAt_of_agree {first second : Memory} {p : Ptr} {n : Nat}
    (agree : Agree (span p n) first second) :
    bytesAt first p n = bytesAt second p n :=
  bytesAt_congr fun _ below => agree _ (mem_span below)

/-- The parts of a frame are bytes of the frame. -/
theorem framePartsAt_of_agree {first second : Memory} {frame : Ptr}
    {plaintextLen : Nat} (small : plaintextLen + 29 < 2 ^ 64)
    (agree : Agree (span frame (plaintextLen + 29)) first second) :
    framePartsAt first frame plaintextLen =
      framePartsAt second frame plaintextLen := by
  rw [← frameBytes_eq frame (by omega)] at agree
  exact framePartsAt_congr small agree

/-- A workspace that can grow is reserved. -/
theorem reserve_ok {driver : Driver} (reliable : driver.Succeeds operationCalls)
    {s : HostState} {key : Ptr} {h : KeyHandle} {leaked : List Block}
    (accounted : Accounted s leaked) (live : s.handles.lookup key = some h)
    (nonnull : key ≠ 0) (maxPlaintextLen : Nat) :
    (lmcacheGpuAes128gcmReserve key maxPlaintextLen driver s).value = .ok := by
  have effect := lmcacheGpuAes128gcmReserve_spec driver accounted live nonnull
    maxPlaintextLen
  unfold TracedState.Traced.Ensures at effect
  generalize lmcacheGpuAes128gcmReserve key maxPlaintextLen driver s = o at effect
  obtain ⟨rc, s', events⟩ := o
  cases effect.result with
  | refused small handles error cause =>
      exact absurd (fun kind member => reliable kind (by rw [member]; simp)) cause
  | ran s₁ s₂ h' before after extends_ fits unchanged updated live bookkeeping
      done => exact done.1

section Twice

variable {schedule schedule' : Schedule} {secret : Vector Byte 16} {p p' : Ptr}
  {s s' : HostState} {memory memory' : Memory} {driver driver' : Driver}
  (live : Live schedule secret p s memory)
  (live' : Live schedule' secret p' s' memory')
  (reliable : driver.Succeeds operationCalls)
  (reliable' : driver'.Succeeds operationCalls)
  (clear : s.lastError = cudaSuccess) (clear' : s'.lastError = cudaSuccess)

theorem frame_room {plaintextLen capacity : Nat}
    (admissible : plaintextLen ≤ 2 ^ 36 - 32)
    (frame : lmcacheGpuAesgcmFrameSize plaintextLen ≤ capacity) :
    plaintextLen + 29 ≤ capacity := by
  have size : lmcacheGpuAesgcmFrameSize plaintextLen = plaintextLen + 29 :=
    Nat.mod_eq_of_lt (by show plaintextLen + 29 < _; omega)
  rwa [size] at frame

include live live' reliable reliable' clear clear'

/-- A seal of one text, made twice with one key. -/
theorem seals_agree {src dst : Ptr} {plaintextLen : Nat}
    (admissible : plaintextLen ≤ 2 ^ 36 - 32)
    (apart : Disjoint (span dst (plaintextLen + 29)) (span src plaintextLen))
    (dstCapacity : Nat) (iv : Option (Vector Byte 12)) (stream : Ptr)
    (source : Agree (span src plaintextLen) memory memory')
    (unwritten : (lmcacheGpuAes128gcmSealAsync p src plaintextLen dst dstCapacity iv
        stream driver s).value = .ok ∨
      Agree (span dst (plaintextLen + 29)) memory memory') :
    let o := lmcacheGpuAes128gcmSealAsync p src plaintextLen dst dstCapacity iv
      stream driver s
    let o' := lmcacheGpuAes128gcmSealAsync p' src plaintextLen dst dstCapacity iv
      stream driver' s'
    o'.value = o.value ∧ Agree (span dst (plaintextLen + 29))
      (drain schedule o.events memory) (drain schedule' o'.events memory') := by
  intro o o'
  by_cases admits : iv.isSome ∧ SealAdmits p src plaintextLen dst dstCapacity
  · obtain ⟨given, admits⟩ := admits
    obtain ⟨iv, rfl⟩ := Option.isSome_iff_exists.mp given
    have room := frame_room admissible admits.frame
    have returned := seal_succeeds live admits.src admits.dst admissible room iv stream
      driver reliable clear
    have returned' := seal_succeeds live' admits.src admits.dst admissible room iv stream
      driver' reliable' clear'
    have frame := (seal_result live admits.src admits.dst admissible room apart iv stream
      driver returned).1
    have frame' := (seal_result live' admits.src admits.dst admissible room apart iv
      stream driver' returned').1
    rw [bytesAt_of_agree source, ← frame'] at frame
    exact ⟨returned'.trans returned.symm, agree_span frame⟩
  · have admits' : ¬ (iv.isSome ∧ SealAdmits p' src plaintextLen dst dstCapacity) :=
      fun ⟨given, fine⟩ => admits
        ⟨given, live.nonnull, fine.src, fine.dst, fine.frame, fine.blocks⟩
    have refused : o = ⟨.errArgument, s, []⟩ :=
      congrFun (congrFun (lmcacheGpuAes128gcmSealAsync_unadmitted admits) driver) s
    have refused' : o' = ⟨.errArgument, s', []⟩ :=
      congrFun (congrFun (lmcacheGpuAes128gcmSealAsync_unadmitted admits') driver') s'
    rw [refused, refused']
    refine ⟨rfl, unwritten.resolve_left fun ok => ?_⟩
    rw [show lmcacheGpuAes128gcmSealAsync p src plaintextLen dst dstCapacity iv
      stream driver s = _ from refused] at ok
    cases ok

/-- An open of one frame, made twice with one key. -/
theorem opens_agree {src dst : Ptr} {plaintextLen : Nat}
    (admissible : plaintextLen ≤ 2 ^ 36 - 32)
    (apart : Disjoint (span dst plaintextLen) (span src (plaintextLen + 29)))
    (frameLen : Nat) (authOk stream : Ptr)
    (source : Agree (span src (plaintextLen + 29)) memory memory')
    (unwritten : (lmcacheGpuAes128gcmOpenAsync p src frameLen dst plaintextLen authOk
        stream driver s).value = .ok ∨
      Agree (span dst plaintextLen ∪ {.flag authOk}) memory memory') :
    let o := lmcacheGpuAes128gcmOpenAsync p src frameLen dst plaintextLen authOk
      stream driver s
    let o' := lmcacheGpuAes128gcmOpenAsync p' src frameLen dst plaintextLen authOk
      stream driver' s'
    o'.value = o.value ∧ Agree (span dst plaintextLen ∪ {.flag authOk})
      (drain schedule o.events memory) (drain schedule' o'.events memory') := by
  intro o o'
  by_cases admits : OpenAdmits p src frameLen dst plaintextLen authOk
  · have room := frame_room admissible admits.frame
    obtain ⟨ok, result⟩ := open_result live admits.src admits.dst admits.authOk
      admissible room apart stream driver
    obtain ⟨ok', result'⟩ := open_result live' admits.src admits.dst admits.authOk
      admissible room apart stream driver'
    have returned := ok reliable clear
    have returned' := ok' reliable' clear'
    obtain ⟨flag, text, -⟩ := result returned
    obtain ⟨flag', text', -⟩ := result' returned'
    rw [framePartsAt_of_agree (by omega) source] at flag text
    refine ⟨returned'.trans returned.symm, ?_⟩
    rintro cell (inText | rfl)
    · exact agree_span (text.trans text'.symm) cell inText
    · exact flag.trans flag'.symm
  · have admits' : ¬ OpenAdmits p' src frameLen dst plaintextLen authOk :=
      fun fine => admits ⟨live.nonnull, fine.src, fine.dst, fine.authOk, fine.frame⟩
    have refused : o = ⟨.errArgument, s, []⟩ :=
      congrFun (congrFun (lmcacheGpuAes128gcmOpenAsync_refused admits stream) driver) s
    have refused' : o' = ⟨.errArgument, s', []⟩ :=
      congrFun (congrFun (lmcacheGpuAes128gcmOpenAsync_refused admits' stream)
        driver') s'
    rw [refused, refused']
    refine ⟨rfl, unwritten.resolve_left fun ok => ?_⟩
    rw [show lmcacheGpuAes128gcmOpenAsync p src frameLen dst plaintextLen authOk
      stream driver s = _ from refused] at ok
    cases ok

/-- A call over the same source, made twice with one key: the return codes are
the same, and so are the results unless the call is refused. -/
theorem results_agree {c : ApiCall} (operation : c.Operation) (handle : c.handle = p)
    (source : Agree c.inputs memory memory')
    (unwritten : (c.perform driver s).value = .ok ∨ Agree c.outputs memory memory') :
    let o := c.perform driver s
    let o' := (c.on p').perform driver' s'
    o'.value = o.value ∧ Agree c.outputs (drain schedule o.events memory)
      (drain schedule' o'.events memory') := by
  subst handle
  cases operation with
  | reserve key maxPlaintextLen =>
      obtain ⟨leaked, h, usable⟩ := live.usable
      obtain ⟨leaked', h', usable'⟩ := live'.usable
      have ok := reserve_ok reliable usable.accounted usable.live live.nonnull
        maxPlaintextLen
      have ok' := reserve_ok reliable' usable'.accounted usable'.live live'.nonnull
        maxPlaintextLen
      exact ⟨ok'.trans ok.symm, nofun⟩
  | sealAsync key admissible apart dstCapacity iv stream =>
      exact seals_agree live live' reliable reliable' clear clear' admissible apart
        dstCapacity iv stream source unwritten
  | openAsync key admissible apart frameLen authOk stream =>
      exact opens_agree live live' reliable reliable' clear clear' admissible apart
        frameLen authOk stream source unwritten

end Twice

/-! ## What a call leaves alone -/

theorem caller_notNode {c : ApiCall} {cell : Cell}
    (caller : cell ∈ c.inputs ∪ c.outputs) : ¬ isNode cell := by
  intro node
  cases cell with
  | node buffer i =>
      have own : Cell.node buffer i ∈ nodesOf { dNodesA := buffer } :=
        ⟨i, Or.inl rfl⟩
      exact Set.disjoint_left.mp (caller_apart c _) caller (Or.inl own)
  | byte | flag | sbox | roundKeys | hPow2 => exact node

/-- Status words are not bytes. -/
theorem flag_apart (authOk p : Ptr) (n : Nat) :
    Disjoint {Cell.flag authOk} (span p n) := by
  refine Set.disjoint_singleton_left.mpr ?_
  rintro ⟨k, -, -, same⟩
  cases same

/-- An operation does not write its source. -/
theorem outputs_apart {c : ApiCall} (operation : c.Operation) :
    Disjoint c.outputs c.inputs := by
  cases operation with
  | reserve => exact Set.disjoint_empty _
  | sealAsync _ _ apart => exact apart
  | openAsync _ _ apart =>
      exact Set.disjoint_union_left.mpr ⟨apart, flag_apart ..⟩

theorem runJobs_works (schedule : Schedule) (call : Nat) (launches : List Launch)
    (memory : Memory) :
    runJobs (Work.run schedule) (launches.map (Work.mk call)) memory =
      runAll schedule launches memory := by
  induction launches generalizing memory with
  | nil => rfl
  | cons l rest ih => exact ih (l.run schedule memory)

/-- The launches of an operation write its results and nodes. -/
theorem Issued.frame {s s' : HostState} {c : ApiCall} {h h' : KeyHandle}
    {before : List Event} {launched : List Launch}
    (issued : Issued s s' c h h' before launched) (operation : c.Operation)
    (schedule : Schedule) (memory : Memory) {cell : Cell} (other : ¬ isNode cell)
    (outside : cell ∉ c.outputs) :
    runAll schedule launched memory cell = memory cell := by
  refine runAll_frame schedule (fun l member write => ?_) memory
  rcases issued.launched with rfl | ⟨rfl, -⟩
  · cases member
  · rcases (launches_inside operation h.device h' l member).2 write with
      result | ⟨i, rfl | rfl⟩
    · exact outside result
    · exact other trivial
    · exact other trivial

/-! ## Programs -/

/-- A call that nothing disturbs later on is like the call made alone. -/
theorem sameAlone_of_kept {schedule : Schedule} {secret : Vector Byte 16}
    {s : HostState} {memory start final : Memory} {c : ApiCall}
    (live : Live schedule secret c.handle s memory) {driver : Driver}
    (reliable : driver.Succeeds operationCalls) (clear : s.lastError = cudaSuccess)
    (operation : c.Operation) (untouched : Agree c.outputs memory start)
    (kept : Agree (c.inputs ∪ c.outputs) final
      (drain schedule (c.perform driver s).events memory))
    (frame : ∀ cell, ¬ isNode cell → cell ∉ c.outputs →
      drain schedule (c.perform driver s).events memory cell = memory cell) :
    SameAlone secret c (c.perform driver s).value start final := by
  intro schedule' p' s' memory' driver' live' reliable' clear' source unwritten
  have source' : Agree c.inputs memory memory' := by
    intro cell inside
    have outside : cell ∉ c.outputs := fun result =>
      Set.disjoint_left.mp (outputs_apart operation) result inside
    calc
      memory cell = drain schedule (c.perform driver s).events memory cell :=
        (frame cell (caller_notNode (Or.inl inside)) outside).symm
      _ = final cell := (kept cell (Or.inl inside)).symm
      _ = memory' cell := (source cell inside).symm
  obtain ⟨code, results⟩ := results_agree live live' reliable reliable' clear clear'
    operation rfl source' (unwritten.imp_right fun same cell inside =>
      (untouched cell inside).trans (same cell inside).symm)
  exact ⟨code, fun cell inside =>
    (kept cell (Or.inr inside)).trans (results cell inside)⟩

/-- The calls of a program, made one after another and each drained before the
next, are like the calls made alone. -/
theorem calls_in_order {schedule : Schedule} {secret : Ptr → Vector Byte 16}
    {streams : Ptr → Ptr} {driver : Driver}
    (reliable : driver.Succeeds operationCalls) (start : Memory)
    {leaked : List Block} {calls : List ApiCall} {s : HostState}
    (accounted : Accounted s leaked) (clear : s.lastError = cudaSuccess)
    (disciplined : Disciplined streams calls)
    (handles : ∀ c ∈ calls, c.handle ∈ s.handles) :
    ∀ (call : Nat) {memory : Memory},
      (∀ c ∈ calls, Live schedule (secret c.handle) c.handle s memory) →
      (∀ c ∈ calls, Agree c.outputs memory start) →
      let final := runJobs (Work.run schedule)
        (jobs (requests driver s call calls)) memory
      (∀ cell, ¬ isNode cell → (∀ c ∈ calls, cell ∉ c.outputs) →
        final cell = memory cell) ∧
      List.Forall₂ (fun c rc => SameAlone (secret c.handle) c rc start final) calls
        (returns driver s calls) := by
  refine Disciplined.induction reliable
    (fun _ _ _ _ _ => ⟨fun _ _ _ => rfl, .nil⟩) ?_ accounted clear disciplined
    handles
  intro s c rest h h' before launched disciplined clear found accounted' issued trace
    ih call memory live untouched final
  have here := List.mem_cons_self (a := c) (l := rest)
  have operation := disciplined.operations c here
  have buffers := (List.pairwise_cons.mp disciplined.apart).1
  let next := drain schedule (c.perform driver s).events memory
  have drained : next = runAll schedule launched memory := by
    show drain schedule (c.perform driver s).events memory = _
    rw [trace, drain_append, drain_bookkeeping schedule issued.bookkeeping,
      drain_launchEvents]
  have frame : ∀ cell, ¬ isNode cell → cell ∉ c.outputs →
      next cell = memory cell := fun cell other outside => by
    rw [drained]
    exact issued.frame operation schedule memory other outside
  have live' : ∀ d ∈ rest, Live schedule (secret d.handle) d.handle
      (c.perform driver s).state next := by
    intro d member
    refine (live d (List.mem_cons_of_mem _ member)).call driver c
      (Or.inr (AList.lookup_isSome.mp (by rw [found]; rfl))) ?_
    rintro rfl
    cases operation
  have untouched' : ∀ d ∈ rest, Agree d.outputs next start := by
    intro d member cell inside
    refine (frame cell (caller_notNode (Or.inr inside)) fun mine => ?_).trans
      (untouched d (List.mem_cons_of_mem _ member) cell inside)
    exact Set.disjoint_left.mp (buffers d member).outputs inside (Or.inr mine)
  obtain ⟨later, alike⟩ := ih (call + 1) live' untouched'
  have rests : final = runJobs (Work.run schedule)
      (jobs (requests driver (c.perform driver s).state (call + 1) rest)) next := by
    rw [drained, ← runJobs_works schedule call, ← runJobs_append,
      ← jobs_requests_cons issued.bookkeeping trace]
  rw [← rests] at later alike
  refine ⟨fun cell other outside => ?_, .cons ?_ alike⟩
  · obtain ⟨notHere, notLater⟩ := List.forall_mem_cons.mp outside
    exact (later cell other notLater).trans (frame cell other notHere)
  -- Nobody touches the source and the results of the call afterwards.
  · have kept : Agree (c.inputs ∪ c.outputs) final next := by
      intro cell inside
      exact later cell (caller_notNode inside) fun d member theirs =>
        Set.disjoint_left.mp (buffers d member).outputs theirs inside
    exact sameAlone_of_kept (live c here) reliable clear operation
      (untouched c here) kept frame

/-- The creation of a key with all bytes one. -/
def createOnes : ApiCall := .keyCreate (some (Vector.replicate 16 1#8)) 16 0 9

/-- A thread that has created two keys, at addresses one and two. -/
def twoKeys : HostState := (createOnes.perform .steady .oneKey).state

/-- The memory of that thread. -/
def twoKeysMemory : Memory :=
  drain inOrder (createOnes.perform .steady .oneKey).events oneKeyMemory

/-- The keys of the two handles. -/
def twoSecrets (p : Ptr) : Vector Byte 16 :=
  if p = 1 then Vector.replicate 16 0#8 else Vector.replicate 16 1#8

def zeroIv : Option (Vector Byte 12) := some (Vector.replicate 12 0#8)

/-- A byte is sealed under each key, and the first frame is opened again once the
first workspace has grown. -/
def twoStreams : List ApiCall :=
  [.sealAsync 1 16 1 64 30 zeroIv 5,
    .sealAsync 2 256 1 512 30 zeroIv 6,
    .reserve 1 4096,
    .openAsync 1 64 30 128 1 8 5]

theorem twoStreams_disciplined :
    Disciplined (fun p => if p = 1 then 5 else 6) twoStreams where
  operations := by
    refine List.forall_mem_cons.mpr ⟨?_, List.forall_mem_cons.mpr ⟨?_,
      List.forall_mem_cons.mpr ⟨.reserve 1 4096, List.forall_mem_singleton.mpr ?_⟩⟩⟩
    · exact .sealAsync 1 (by decide)
        (span_disjoint (by decide) (by decide)).symm 30 _ 5
    · exact .sealAsync 2 (by decide)
        (span_disjoint (by decide) (by decide)).symm 30 _ 6
    · exact .openAsync 1 (by decide)
        (span_disjoint (by decide) (by decide)).symm 30 8 5
  streams := by
    simp [twoStreams, ApiCall.stream, ApiCall.handle]
  apart := by
    have first : BuffersApart (.sealAsync 1 16 1 64 30 zeroIv 5)
        (.sealAsync 2 256 1 512 30 zeroIv 6) :=
      ⟨Set.disjoint_union_right.mpr ⟨(span_disjoint (by decide) (by decide)).symm,
        (span_disjoint (by decide) (by decide)).symm⟩,
        Or.inr (span_disjoint (by decide) (by decide))⟩
    have again : BuffersApart (.sealAsync 1 16 1 64 30 zeroIv 5)
        (.openAsync 1 64 30 128 1 8 5) :=
      ⟨Set.disjoint_union_left.mpr ⟨Set.disjoint_union_right.mpr
        ⟨(span_disjoint (by decide) (by decide)).symm,
          (span_disjoint (by decide) (by decide)).symm⟩,
        Set.disjoint_union_right.mpr ⟨flag_apart .., flag_apart ..⟩⟩, Or.inl rfl⟩
    have second : BuffersApart (.sealAsync 2 256 1 512 30 zeroIv 6)
        (.openAsync 1 64 30 128 1 8 5) :=
      ⟨Set.disjoint_union_left.mpr ⟨Set.disjoint_union_right.mpr
        ⟨span_disjoint (by decide) (by decide),
          span_disjoint (by decide) (by decide)⟩,
        Set.disjoint_union_right.mpr ⟨flag_apart .., flag_apart ..⟩⟩,
        Or.inr (span_disjoint (by decide) (by decide)).symm⟩
    have before (c : ApiCall) : BuffersApart c (.reserve 1 4096) :=
      ⟨Set.empty_disjoint _, Or.inr (Set.disjoint_empty _)⟩
    have after (c : ApiCall) : BuffersApart (.reserve 1 4096) c :=
      ⟨by simp [ApiCall.inputs, ApiCall.outputs], Or.inr (Set.empty_disjoint _)⟩
    simp [twoStreams, first, again, second, before, after]

theorem twoKeys_live : ∀ c ∈ twoStreams,
    Live inOrder (twoSecrets c.handle) c.handle twoKeys twoKeysMemory := by
  have first : Live inOrder (twoSecrets 1) 1 twoKeys twoKeysMemory :=
    .call oneKey_live .steady createOnes (Or.inl rfl) nofun
  have second : Live inOrder (twoSecrets 2) 2 twoKeys twoKeysMemory :=
    .created HostState.blank_fresh (HostState.oneKey_run trivial) oneKeyMemory
      (Driver.steady_succeeds _) 0 9 (by decide) (by decide)
  exact List.forall_mem_cons.mpr ⟨first, List.forall_mem_cons.mpr ⟨second,
    List.forall_mem_cons.mpr ⟨first, List.forall_mem_singleton.mpr first⟩⟩⟩

end GpuKvSeal.System
