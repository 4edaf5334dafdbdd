import GpuKvSeal.Cpu.Works
import GpuKvSeal.System.Open

/-!
# The two backends

The device library and the CPU backend are written apart and never run together
in the repository.  Both agree with the standard, so they agree with each other:
on every frame they write, and on every frame, valid or not, they are given.
-/

namespace GpuKvSeal.System

open BigEndian (Byte)
open Device
open Host
open Refinement
open Standard (FrameParts sealFrame openFrame)
open Standard.Gcm (aes)

/-! ## One key on both sides -/

/-- A live handle on the device, and a process whose thread has a context and
which holds the same key. -/
structure Backends where
  schedule : Schedule
  secret : Vector Byte 16
  handle : Ptr
  host : HostState
  memory : Memory
  live : Live schedule secret handle host memory
  stream : Ptr
  driver : Driver
  key : Ptr
  process : Cpu.ProcessState
  held : Cpu.vectorAt process.memory key 16 = secret
  context : process.hasContext = true

/-- Device buffers of a seal. -/
structure SealBuffers (src : Ptr) (plaintextLen : Nat) (dst : Ptr)
    (dstCapacity : Nat) : Prop where
  srcNonnull : src ≠ 0
  dstNonnull : dst ≠ 0
  room : plaintextLen + 29 ≤ dstCapacity
  apart : Disjoint (span dst (plaintextLen + 29)) (span src plaintextLen)

/-- Device buffers of an open. -/
structure OpenBuffers (src : Ptr) (frameLen : Nat) (dst : Ptr) (plaintextLen : Nat)
    (authOk : Ptr) : Prop where
  srcNonnull : src ≠ 0
  dstNonnull : dst ≠ 0
  flagNonnull : authOk ≠ 0
  room : plaintextLen + 29 ≤ frameLen
  apart : Disjoint (span dst plaintextLen) (span src (plaintextLen + 29))

namespace Backends

/-- Nothing fails on the device, and no error is pending. -/
def Reliable (b : Backends) : Prop :=
  b.driver.Succeeds operationCalls ∧ b.host.lastError = cudaSuccess

def gpuSeal (b : Backends) (src : Ptr) (plaintextLen : Nat) (dst : Ptr)
    (dstCapacity : Nat) (iv : Vector Byte 12) :=
  lmcacheGpuAes128gcmSealAsync b.handle src plaintextLen dst dstCapacity (some iv)
    b.stream b.driver b.host

def gpuOpen (b : Backends) (src : Ptr) (frameLen : Nat) (dst : Ptr)
    (plaintextLen : Nat) (authOk : Ptr) :=
  lmcacheGpuAes128gcmOpenAsync b.handle src frameLen dst plaintextLen authOk b.stream
    b.driver b.host

/-- The device memory after everything a call enqueued has run. -/
def drained (b : Backends) (o : TracedState.Outcome HostState Event ReturnCode) :
    Memory :=
  drain b.schedule o.events b.memory

def cpuSeal (b : Backends) (library : Cpu.Library) (src : Ptr) (srcLen : Nat)
    (dst : Ptr) (dstLen : Nat) :=
  Cpu.lmcacheAes128gcmSeal b.key src srcLen dst dstLen library b.process

def cpuOpen (b : Backends) (library : Cpu.Library) (frame : Ptr) (frameLen : Nat)
    (dst : Ptr) (dstLen : Nat) :=
  Cpu.lmcacheAes128gcmOpen b.key frame frameLen dst dstLen library b.process

variable (b : Backends) {library : Cpu.Library} {plaintextLen : Nat}

/-- Every seal of one text with one IV leaves one frame. -/
def SealsAgree (library : Cpu.Library) (plaintextLen : Nat) : Prop :=
  ∀ iv, Cpu.Yields library b.process.history iv →
  ∀ src dst dstCapacity, SealBuffers src plaintextLen dst dstCapacity →
  ∀ src' dst' dstLen, Cpu.SealBuffers b.key src' plaintextLen dst' dstLen →
  (bytesAt b.memory src plaintextLen).toList =
    Cpu.bytesAt b.process.memory src' plaintextLen →
  let gpu := b.gpuSeal src plaintextLen dst dstCapacity iv
  let cpu := b.cpuSeal library src' plaintextLen dst' dstLen
  (b.Reliable → gpu.value = .ok) ∧ cpu.value = 0 ∧
  (gpu.value = .ok →
    (bytesAt (b.drained gpu) dst (plaintextLen + 29)).toList =
      Cpu.bytesAt cpu.state.memory dst' (plaintextLen + 29))

/-- Every open of one frame accepts it on both sides or on neither, and an
accepted frame has one text. -/
def OpensAgree (library : Cpu.Library) (plaintextLen : Nat) : Prop :=
  ∀ src frameLen dst authOk, OpenBuffers src frameLen dst plaintextLen authOk →
  ∀ frame dst' dstLen, Cpu.OpenBuffers b.key frame plaintextLen dst' dstLen →
  (bytesAt b.memory src (plaintextLen + 29)).toList =
    Cpu.bytesAt b.process.memory frame (plaintextLen + 29) →
  let gpu := b.gpuOpen src frameLen dst plaintextLen authOk
  let cpu := b.cpuOpen library frame (plaintextLen + 29) dst' dstLen
  (b.Reliable → gpu.value = .ok) ∧
  (gpu.value = .ok →
    (cpu.value = 0 ↔ b.drained gpu (.flag authOk) = 1) ∧
    (cpu.value = 0 → (bytesAt (b.drained gpu) dst plaintextLen).toList =
      Cpu.bytesAt cpu.state.memory dst' plaintextLen))

theorem seals_agree (gcm : Cpu.ImplementsGcm library (2 ^ 36 - 32))
    (admissible : plaintextLen ≤ 2 ^ 36 - 32) : b.SealsAgree library plaintextLen := by
  intro iv yields src dst dstCapacity buffers src' dst' dstLen buffers' sameText gpu cpu
  have succeeds := seal_succeeds b.live buffers.srcNonnull buffers.dstNonnull admissible
    buffers.room iv b.stream b.driver
  have result := seal_result b.live buffers.srcNonnull buffers.dstNonnull admissible
    buffers.room buffers.apart iv b.stream b.driver
  obtain ⟨code, ⟨iv', yielded, frame⟩, -⟩ :=
    Cpu.seal_works gcm buffers' (by omega) admissible b.context
  rw [b.held, ← sameText, yielded iv yields] at frame
  refine ⟨fun reliable => succeeds reliable.1 reliable.2, code, fun ok => ?_⟩
  exact (result ok).1.trans frame.symm

/-- Equal bytes are the bytes of one frame. -/
theorem framePartsAt_cpu {memory : Memory} {process : Cpu.Memory} {src frame : Ptr}
    (same : (bytesAt memory src (plaintextLen + 29)).toList =
      Cpu.bytesAt process frame (plaintextLen + 29)) :
    Cpu.framePartsAt process frame plaintextLen =
      framePartsAt memory src plaintextLen := by
  have length : (framePartsAt memory src plaintextLen).cipher.length = plaintextLen :=
    Vector.length_toList
  refine FrameParts.bytes_inj ((Cpu.length_framePartsAt ..).trans length.symm) ?_
  rw [Cpu.framePartsAt_bytes, framePartsAt_bytes, same]

theorem opens_agree (gcm : Cpu.ImplementsGcm library (2 ^ 36 - 32))
    (admissible : plaintextLen ≤ 2 ^ 36 - 32) : b.OpensAgree library plaintextLen := by
  intro src frameLen dst authOk buffers frame dst' dstLen buffers' same gpu cpu
  obtain ⟨succeeds, result⟩ := open_result b.live buffers.srcNonnull buffers.dstNonnull
    buffers.flagNonnull admissible buffers.room buffers.apart b.stream b.driver
  have works := Cpu.open_works gcm buffers' (by omega) admissible b.context
  rw [b.held, framePartsAt_cpu same] at works
  let f := framePartsAt b.memory src plaintextLen
  have length : f.cipher.length = plaintextLen := Vector.length_toList
  refine ⟨fun reliable => succeeds reliable.1 reliable.2, fun ok => ?_⟩
  obtain ⟨flag, text, -⟩ := result ok
  cases opened : openFrame (aes b.secret) f with
  | some p =>
      obtain ⟨code, written⟩ := works.accepted p opened
      have one : openedFlag b.secret f = 1 := by
        rw [openedFlag_eq_one, opened]
        rfl
      refine ⟨iff_of_true code (flag.trans one), fun _ => text.trans ?_⟩
      rw [length] at written
      rw [openedText, opened]
      exact written.symm
  | none =>
      have zero : openedFlag b.secret f = 0 := openedFlag_eq_zero.mpr opened
      have nonzero : cpu.value ≠ 0 := by
        by_cases version : f.version = 1#8
        · exact fun code => absurd ((works.refused version opened).1.symm.trans code)
            (by decide)
        · exact fun code => absurd ((works.version version).1.symm.trans code)
            (by decide)
      refine ⟨iff_of_false nonzero fun one => ?_, fun code => absurd code nonzero⟩
      exact absurd (one.symm.trans (flag.trans zero)) one_ne_zero

end Backends

/-- The backends read and write one format, for every key, text, IV and frame,
also where the chunks of the CPU backend end within a block. -/
theorem backends_agree (b : Backends) {library : Cpu.Library}
    (gcm : Cpu.ImplementsGcm library (2 ^ 36 - 32)) {plaintextLen : Nat}
    (admissible : plaintextLen ≤ 2 ^ 36 - 32) :
    b.SealsAgree library plaintextLen ∧ b.OpensAgree library plaintextLen :=
  ⟨b.seals_agree gcm admissible, b.opens_agree gcm admissible⟩

/-- A handle with the zero key and a process whose memory is zero. -/
def zeroBackends : Backends where
  schedule := inOrder
  secret := Vector.replicate 16 0#8
  handle := 1
  host := .oneKey
  memory := holding oneKeyMemory []
  live := oneKey_live.holding []
  stream := 0
  driver := .steady
  key := 8
  process := ⟨fun _ => 0#8, [], true⟩
  held := by
    refine Vector.ext fun i inside => ?_
    simp [Cpu.vectorAt]
  context := rfl

/-- The zero key on the device and in a process, and the same bytes in both from
address one on. -/
def sharedBackends (bytes : List Byte) : Backends where
  schedule := inOrder
  secret := Vector.replicate 16 0#8
  handle := 1
  host := .oneKey
  memory := holding oneKeyMemory bytes
  live := oneKey_live.holding bytes
  stream := 0
  driver := .steady
  key := 2 ^ 40
  process := ⟨fun q => if q < 2 ^ 40 then bytes.getD (q - 1) 0#8 else 0#8, [], true⟩
  held := by
    refine Vector.ext fun i inside => ?_
    have address : advance (2 ^ 40) i = 2 ^ 40 + i := Nat.mod_eq_of_lt (by omega)
    have behind : ¬ advance (2 ^ 40) i < 2 ^ 40 := by
      rw [address]
      exact Nat.not_lt.mpr (Nat.le_add_right _ _)
    rw [Cpu.vectorAt, Vector.getElem_ofFn, Vector.getElem_replicate]
    exact if_neg behind
  context := rfl

theorem sharedBackends_reliable (bytes : List Byte) :
    (sharedBackends bytes).Reliable :=
  ⟨Driver.steady_succeeds _, (by decide : HostState.oneKey.lastError = cudaSuccess)⟩

theorem sharedBackends_bytes (bytes : List Byte) {n : Nat} (inside : n < 2 ^ 40) :
    (bytesAt (sharedBackends bytes).memory 1 n).toList =
      Cpu.bytesAt (sharedBackends bytes).process.memory 1 n := by
  refine List.ext_getElem (by simp) fun i below _ => ?_
  have less : i < n := by simpa using below
  have address : advance 1 i = 1 + i := Nat.mod_eq_of_lt (by omega)
  have low : 1 + i < 2 ^ 40 := by omega
  rw [Vector.getElem_toList, getElem_bytesAt, address]
  simp only [Cpu.bytesAt, List.getElem_map, List.getElem_range, address, sharedBackends,
    if_pos low]
  rfl

/-- More than one chunk of the CPU backend: the frames of one text, and the texts of
one frame, which both accept. -/
theorem backends_agree_example :
    let n := 2 ^ 32
    let library := Cpu.gcmLibrary (Vector.replicate 12 0#8)
    let text : List Byte := List.replicate n 7#8
    let b := sharedBackends text
    let gpu := b.gpuSeal 1 n (2 ^ 34) (n + 29) (Vector.replicate 12 0#8)
    let cpu := b.cpuSeal library 1 n (2 ^ 34) (n + 29)
    let b' := sharedBackends (sealFrame (aes b.secret) (Vector.replicate 12 0#8) text)
    let gpu' := b'.gpuOpen 1 (n + 29) (2 ^ 34) n 8
    let cpu' := b'.cpuOpen library 1 (n + 29) (2 ^ 34) n
    (gpu.value = .ok ∧ cpu.value = 0 ∧
      (bytesAt (b.drained gpu) (2 ^ 34) (n + 29)).toList =
        Cpu.bytesAt cpu.state.memory (2 ^ 34) (n + 29)) ∧
    gpu'.value = .ok ∧ cpu'.value = 0 ∧ b'.drained gpu' (.flag 8) = 1 ∧
      (bytesAt (b'.drained gpu') (2 ^ 34) n).toList =
        Cpu.bytesAt cpu'.state.memory (2 ^ 34) n := by
  obtain ⟨n, size⟩ : ∃ n : Nat, n = 2 ^ 32 := ⟨_, rfl⟩
  rw [← size]
  intro n library text b gpu cpu b' gpu' cpu'
  have admissible : n ≤ 2 ^ 36 - 32 := by omega
  have gcm := Cpu.gcmLibrary_implements (Vector.replicate 12 0#8) (2 ^ 36 - 32)
  have length : (sealFrame (aes b.secret) (Vector.replicate 12 0#8) text).length =
      n + 29 := by
    rw [Standard.length_sealFrame, List.length_replicate]
  have nonnull : (2 ^ 40 : Ptr) ≠ 0 := by decide
  have sealing : SealBuffers 1 n (2 ^ 34) (n + 29) :=
    ⟨by decide, by decide, le_rfl, (span_disjoint (by omega) (by omega)).symm⟩
  have regions : ∀ p q m k : Nat, p + m ≤ q → q + k < 2 ^ 64 →
      Disjoint (Cpu.region p m) (Cpu.region q k) := by
    intro p q m k order small
    have first : advance 0 p = p := (Nat.mod_eq_of_lt (by omega)).trans (Nat.zero_add p)
    have second : advance 0 q = q := (Nat.mod_eq_of_lt (by omega)).trans (Nat.zero_add q)
    rw [← first, ← second]
    exact Cpu.region_disjoint order (by omega)
  have sealing' : Cpu.SealBuffers b.key 1 n (2 ^ 34) (n + 29) :=
    ⟨nonnull, by decide, by decide, le_rfl, (regions _ _ _ _ (by omega) (by omega)).symm,
      regions _ _ _ _ (by show _ ≤ 2 ^ 40; omega) (by show 2 ^ 40 + _ < _; omega)⟩
  have opening : OpenBuffers 1 (n + 29) (2 ^ 34) n 8 :=
    ⟨by decide, by decide, by decide, le_rfl, (span_disjoint (by omega) (by omega)).symm⟩
  have opening' : Cpu.OpenBuffers b'.key 1 n (2 ^ 34) n :=
    ⟨nonnull, by decide, by decide, le_rfl, (regions _ _ _ _ (by omega) (by omega)).symm⟩
  obtain ⟨ok, zero, same⟩ := (backends_agree b gcm admissible).1 _
    (Cpu.gcmLibrary_yields _ _) 1 (2 ^ 34) (n + 29) sealing 1 (2 ^ 34) (n + 29) sealing'
    (sharedBackends_bytes text (by omega))
  obtain ⟨ok', result⟩ := (backends_agree b' gcm admissible).2 1 (n + 29) (2 ^ 34) 8
    opening 1 (2 ^ 34) n opening' (sharedBackends_bytes _ (by omega))
  have reliable := ok (sharedBackends_reliable _)
  have reliable' := ok' (sharedBackends_reliable _)
  obtain ⟨flag, texts⟩ := result reliable'
  -- Both accept, because the bytes are those of a frame of the standard.
  have frame : (Cpu.framePartsAt b'.process.memory 1 n).bytes =
      sealFrame (aes b.secret) (Vector.replicate 12 0#8) text := by
    rw [Cpu.framePartsAt_bytes, ← sharedBackends_bytes _ (by omega)]
    exact bytesAt_holding oneKeyMemory length (by omega)
  have opened := Standard.openFrame_of_bytes
    (List.length_replicate.trans (Cpu.length_framePartsAt ..).symm) frame
  have accepted := (Cpu.open_works gcm opening' (by omega) admissible b'.context).accepted
  rw [b'.held] at accepted
  have zero' := (accepted text opened).1
  exact ⟨⟨reliable, zero, same reliable⟩, reliable', zero', flag.mp zero', texts zero'⟩

/-! ## Rejected frames -/

namespace Backends

variable (b : Backends) {library : Cpu.Library} {plaintextLen : Nat}

/-- What holds of both backends when both are given one frame that is not valid. -/
def OnRejection (library : Cpu.Library) (plaintextLen : Nat)
    (holds : FrameParts → TracedState.Outcome HostState Event ReturnCode → Ptr → Ptr →
      TracedState.Outcome Cpu.ProcessState Cpu.Step Int → Ptr → Prop) : Prop :=
  ∀ src frameLen dst authOk, OpenBuffers src frameLen dst plaintextLen authOk →
  ∀ frame dst' dstLen, Cpu.OpenBuffers b.key frame plaintextLen dst' dstLen →
  (bytesAt b.memory src (plaintextLen + 29)).toList =
    Cpu.bytesAt b.process.memory frame (plaintextLen + 29) →
  openFrame (aes b.secret) (framePartsAt b.memory src plaintextLen) = none →
  holds (framePartsAt b.memory src plaintextLen)
    (b.gpuOpen src frameLen dst plaintextLen authOk) dst authOk
    (b.cpuOpen library frame (plaintextLen + 29) dst' dstLen) dst'

/-- The device reports the rejection and leaves zeros. -/
def GpuZeroizes (plaintextLen : Nat)
    (gpu : TracedState.Outcome HostState Event ReturnCode) (dst authOk : Ptr) : Prop :=
  (b.Reliable → gpu.value = .ok) ∧
  (gpu.value = .ok → b.drained gpu (.flag authOk) = 0 ∧
    bytesAt (b.drained gpu) dst plaintextLen = Vector.replicate plaintextLen 0#8)

/-- Both backends zeroize whatever the reason of the rejection is. -/
def AllZeroize (library : Cpu.Library) (plaintextLen : Nat) : Prop :=
  b.OnRejection library plaintextLen fun _ gpu dst authOk cpu dst' =>
    b.GpuZeroizes plaintextLen gpu dst authOk ∧
    cpu.value ≠ 0 ∧ ∀ q ∈ Cpu.region dst' plaintextLen, cpu.state.memory q = 0#8

/-- The device zeroizes for every reason.  The CPU backend zeroizes when the tag
does not match; a frame of another version it refuses before it touches the
destination. -/
def RejectionsSafe (library : Cpu.Library) (plaintextLen : Nat) : Prop :=
  b.OnRejection library plaintextLen fun f gpu dst authOk cpu dst' =>
    b.GpuZeroizes plaintextLen gpu dst authOk ∧
    (f.version = 1#8 → cpu.value = -11 ∧
      ∀ q ∈ Cpu.region dst' plaintextLen, cpu.state.memory q = 0#8) ∧
    (f.version ≠ 1#8 → cpu.value = -3 ∧ cpu.state.memory = b.process.memory)

end Backends

/-- A frame that is not valid is rejected by both backends, and the text of
either destination is gone or was never there. -/
theorem rejections_safe (b : Backends) {library : Cpu.Library}
    (gcm : Cpu.ImplementsGcm library (2 ^ 36 - 32)) {plaintextLen : Nat}
    (admissible : plaintextLen ≤ 2 ^ 36 - 32) :
    b.RejectionsSafe library plaintextLen := by
  intro src frameLen dst authOk buffers frame dst' dstLen buffers' same refused
  obtain ⟨succeeds, result⟩ := open_result b.live buffers.srcNonnull buffers.dstNonnull
    buffers.flagNonnull admissible buffers.room buffers.apart b.stream b.driver
  have works := Cpu.open_works gcm buffers' (by omega) admissible b.context
  rw [b.held, Backends.framePartsAt_cpu same] at works
  have length : (framePartsAt b.memory src plaintextLen).cipher.length =
      plaintextLen := Vector.length_toList
  refine ⟨⟨fun reliable => succeeds reliable.1 reliable.2, fun ok => ?_⟩,
    fun version => ?_, works.version⟩
  · obtain ⟨flag, text, -⟩ := result ok
    refine ⟨flag.trans (openedFlag_eq_zero.mpr refused),
      Vector.toList_inj.mp (text.trans ?_)⟩
    rw [openedText, refused, Option.getD_none, length, Vector.toList_replicate]
  · have wiped := works.refused version refused
    rw [length] at wiped
    exact wiped

/-- Thirty zeros are no frame: the device leaves a zero, and the process nothing. -/
theorem rejections_safe_example :
    let b := sharedBackends []
    let gpu := b.gpuOpen 1 30 128 1 8
    let cpu := b.cpuOpen (Cpu.gcmLibrary (Vector.replicate 12 0#8)) 1 30 128 1
    (gpu.value = .ok ∧ b.drained gpu (.flag 8) = 0 ∧
      bytesAt (b.drained gpu) 128 1 = Vector.replicate 1 0#8) ∧
    cpu.value = -3 ∧ cpu.state.memory = b.process.memory := by
  intro b gpu cpu
  have opening : OpenBuffers 1 30 128 1 8 :=
    ⟨by decide, by decide, by decide, by decide,
      (span_disjoint (by decide) (by decide)).symm⟩
  have opening' : Cpu.OpenBuffers b.key 1 1 128 1 := by
    refine ⟨(by decide : (2 ^ 40 : Ptr) ≠ 0), by decide, by decide, by decide, ?_⟩
    exact (Cpu.region_disjoint (by decide) (by decide) :
      Disjoint (Cpu.region (advance 0 1) 30) (Cpu.region (advance 0 128) 1)).symm
  have version : (framePartsAt b.memory 1 1).version ≠ 1#8 := by decide
  obtain ⟨⟨ok, result⟩, -, kept⟩ := rejections_safe b
    (Cpu.gcmLibrary_implements (Vector.replicate 12 0#8) _)
    (by decide : 1 ≤ 2 ^ 36 - 32) 1 30 128 8 opening 1 128 1 opening'
    (sharedBackends_bytes [] (by decide)) (if_neg version)
  have reliable := ok (sharedBackends_reliable [])
  obtain ⟨flag, zeros⟩ := result reliable
  obtain ⟨code, same⟩ := kept version
  exact ⟨⟨reliable, flag, zeros⟩, code, same⟩

/-- The zero frame has version zero, and address 256 of the process is not zero. -/
def staleBackends : Backends :=
  { zeroBackends with
    process := ⟨fun q => if q = 256 then 0xcc#8 else 0#8, [], true⟩
    held := by decide
    context := rfl }

/-- The CPU backend leaves the destination of a frame of another version as it is. -/
theorem version_kept : ¬ ∀ (b : Backends) (library : Cpu.Library),
    Cpu.ImplementsGcm library (2 ^ 36 - 32) → ∀ plaintextLen : Nat, 0 < plaintextLen →
      plaintextLen ≤ 2 ^ 36 - 32 → b.AllZeroize library plaintextLen := by
  intro zeroize
  let library := Cpu.gcmLibrary (Vector.replicate 12 0#8)
  have gpuBuffers : OpenBuffers 16 30 128 1 8 := by
    refine ⟨by decide, by decide, by decide, by decide, ?_⟩
    exact (span_disjoint (by decide) (by decide)).symm
  have cpuBuffers : Cpu.OpenBuffers staleBackends.key 64 1 256 1 := by
    refine ⟨by decide, by decide, by decide, by decide, ?_⟩
    exact (Cpu.region_disjoint (by decide) (by decide) :
      Disjoint (Cpu.region (advance 0 64) 30) (Cpu.region (advance 0 256) 1)).symm
  have same : (bytesAt staleBackends.memory 16 30).toList =
      Cpu.bytesAt staleBackends.process.memory 64 30 := rfl
  have refused : openFrame (aes staleBackends.secret)
      (framePartsAt staleBackends.memory 16 1) = none := if_neg (by decide)
  have wiped := (zeroize staleBackends library (Cpu.gcmLibrary_implements _ _) 1
    (by decide) (by decide) 16 30 128 8 gpuBuffers 64 256 1 cpuBuffers same refused).2.2
    256 ⟨0, by decide, by decide⟩
  have kept := Cpu.open_works (Cpu.gcmLibrary_implements (Vector.replicate 12 0#8) 1)
    cpuBuffers (by decide) (by decide) staleBackends.context
  have version : (Cpu.framePartsAt staleBackends.process.memory 64 1).version ≠ 1#8 := by
    decide
  have stale : staleBackends.process.memory 256 = 0#8 :=
    (congrFun (kept.version version).2 256).symm.trans wiped
  exact absurd stale (by decide)

end GpuKvSeal.System
