import GpuKvSeal.System.Completion
import GpuKvSeal.System.Sessions

/-!
# Sealing with a live key
-/

namespace GpuKvSeal.System

open BigEndian (Byte)
open Device
open Host
open Refinement
open Standard (FrameParts sealFrame)
open Standard.Gcm (aes)

/-- The arguments of a seal that the library admits without any wrap. -/
theorem sealAdmits {key src dst : Ptr} {plaintextLen dstCapacity : Nat}
    (keyNonnull : key ≠ 0) (srcNonnull : src ≠ 0) (dstNonnull : dst ≠ 0)
    (admissible : plaintextLen ≤ 2 ^ 36 - 32)
    (room : plaintextLen + 29 ≤ dstCapacity) :
    SealAdmits key src plaintextLen dst dstCapacity where
  key := keyNonnull
  src := srcNonnull
  dst := dstNonnull
  frame := (Nat.mod_le _ _).trans room
  blocks := by
    rw [blockCount_eq (by omega)]
    omega

/-- What the launches of a seal do to memory in which a key is usable. -/
theorem sealLaunches_effect (schedule : Schedule) {secret : Vector Byte 16}
    {memory : Memory} {device : Int} {handle : KeyHandle}
    (ready : Ready secret memory device handle.dRoundKeys handle.dHPow2)
    (distinct : handle.dNodesA ≠ handle.dNodesB) {plaintextLen : Nat}
    (admissible : plaintextLen ≤ 2 ^ 36 - 32) {src dst : Ptr}
    (apart : Disjoint (span dst (plaintextLen + 29)) (span src plaintextLen))
    (iv : Vector Byte 12) :
    let after := runAll schedule
      (sealLaunches device handle src plaintextLen dst iv) memory
    (bytesAt after dst (plaintextLen + 29)).toList =
        sealFrame (aes secret) iv (bytesAt memory src plaintextLen).toList ∧
      ∀ q, Cell.byte q ∉ span dst (plaintextLen + 29) →
        after (.byte q) = memory (.byte q) := by
  intro after
  constructor
  · rw [← framePartsAt_bytes, sealLaunches_frame schedule ready distinct admissible
      iv apart, sealedParts_bytes]
  · intro q outside
    refine runAll_frame schedule (fun l member write => ?_) memory
    rcases (sealLaunches_inside device handle src (by omega) dst iv l member).2
      write with bytes | ⟨i, -, same | same⟩
    · rw [frameBytes_eq dst (by omega)] at bytes
      exact outside bytes
    · cases same
    · cases same

section Seal

variable {schedule : Schedule} {secret : Vector Byte 16} {p : Ptr} {s : HostState}
  {memory : Memory} (live : Live schedule secret p s memory) {src dst : Ptr}
  {plaintextLen dstCapacity : Nat} (srcNonnull : src ≠ 0) (dstNonnull : dst ≠ 0)
  (admissible : plaintextLen ≤ 2 ^ 36 - 32) (room : plaintextLen + 29 ≤ dstCapacity)

include live srcNonnull dstNonnull admissible room

/-- A seal succeeds if no runtime call fails and no error is pending. -/
theorem seal_succeeds (iv : Vector Byte 12) (stream : Ptr) (driver : Driver)
    (reliable : driver.Succeeds operationCalls) (clear : s.lastError = cudaSuccess) :
    (lmcacheGpuAes128gcmSealAsync p src plaintextLen dst dstCapacity (some iv) stream
      driver s).value = .ok := by
  obtain ⟨leaked, h, usable⟩ := live.usable
  have admits := sealAdmits live.nonnull srcNonnull dstNonnull admissible room
  have effect := lmcacheGpuAes128gcmSealAsync_spec driver usable.accounted
    usable.live admits iv stream
  exact succeeds stream (fun device h' => sealLaunches device h' src plaintextLen dst iv)
    effect (fun _ _ _ _ _ done => ⟨done.1, done.2.1⟩) reliable clear
    fun device h' => sealLaunches_valid (by omega) device h' src dst iv

/-- A seal that has succeeded leaves the frame of the text and no other byte. -/
theorem seal_result
    (apart : Disjoint (span dst (plaintextLen + 29)) (span src plaintextLen))
    (iv : Vector Byte 12) (stream : Ptr) (driver : Driver) :
    let o := lmcacheGpuAes128gcmSealAsync p src plaintextLen dst dstCapacity
      (some iv) stream driver s
    let after := drain schedule o.events memory
    o.value = .ok →
      (bytesAt after dst (plaintextLen + 29)).toList =
          sealFrame (aes secret) iv (bytesAt memory src plaintextLen).toList ∧
        ∀ q, Cell.byte q ∉ span dst (plaintextLen + 29) →
          after (.byte q) = memory (.byte q) := by
  intro o after ok
  obtain ⟨leaked, h, usable⟩ := live.usable
  have admits := sealAdmits live.nonnull srcNonnull dstNonnull admissible room
  have effect := lmcacheGpuAes128gcmSealAsync_spec driver usable.accounted
    usable.live admits iv stream
  let launches := fun device h' => sealLaunches device h' src plaintextLen dst iv
  obtain ⟨h', before, extends_, fits, found, bookkeeping, trace⟩ :=
    completed stream launches effect
      (fun _ _ _ _ _ done => ⟨done.1, done.2.1⟩) ok
  obtain ⟨lost, accounted', -⟩ := effect.accounted
  have positive := requiredNodes_pos plaintextLen
  have distinct := accounted'.node_distinct found (by omega)
  have drained : after = runAll schedule (launches h.device h') memory := by
    show drain schedule o.events memory = _
    rw [show o.events = _ from trace, drain_append,
      drain_bookkeeping schedule bookkeeping, drain_launchEvents]
  have ready := usable.ready
  rw [← extends_.roundKeys, ← extends_.hPow2] at ready
  rw [drained]
  exact sealLaunches_effect schedule ready distinct admissible apart iv

end Seal

/-- Sealing with a live key leaves exactly the frame of the text at the
destination and changes no other byte.  The call succeeds if no runtime call
fails and no error is pending. -/
theorem seal_frame {schedule : Schedule} {secret : Vector Byte 16} {p : Ptr}
    {s : HostState} {memory : Memory} (live : Live schedule secret p s memory)
    {src dst : Ptr} {plaintextLen dstCapacity : Nat} (srcNonnull : src ≠ 0)
    (dstNonnull : dst ≠ 0) (admissible : plaintextLen ≤ 2 ^ 36 - 32)
    (room : plaintextLen + 29 ≤ dstCapacity)
    (apart : Disjoint (span dst (plaintextLen + 29)) (span src plaintextLen))
    (iv : Vector Byte 12) (stream : Ptr) (driver : Driver) :
    let o := lmcacheGpuAes128gcmSealAsync p src plaintextLen dst dstCapacity
      (some iv) stream driver s
    let after := drain schedule o.events memory
    (driver.Succeeds operationCalls → s.lastError = cudaSuccess →
      o.value = .ok) ∧
    (o.value = .ok →
      (bytesAt after dst (plaintextLen + 29)).toList =
          sealFrame (aes secret) iv (bytesAt memory src plaintextLen).toList ∧
        ∀ q, Cell.byte q ∉ span dst (plaintextLen + 29) →
          after (.byte q) = memory (.byte q)) := by
  intro o after
  constructor
  · exact seal_succeeds live srcNonnull dstNonnull admissible room iv stream driver
  · exact seal_result live srcNonnull dstNonnull admissible room apart iv stream driver

/-- One byte, sealed with a new key. -/
theorem seal_frame_example :
    (bytesAt (drain inOrder (lmcacheGpuAes128gcmSealAsync 1 16 1 64 30
        (some (Vector.replicate 12 0#8)) 0 .steady .oneKey).events
          oneKeyMemory) 64 30).toList =
      sealFrame (aes (Vector.replicate 16 0#8)) (Vector.replicate 12 0#8)
        (bytesAt oneKeyMemory 16 1).toList := by
  have apart : Disjoint (span 64 (1 + 29)) (span 16 1) :=
    (span_disjoint (by decide) (by decide)).symm
  have sealed := seal_frame oneKey_live (by decide : (16 : Ptr) ≠ 0)
    (by decide : (64 : Ptr) ≠ 0) (by decide : 1 ≤ 2 ^ 36 - 32)
    (le_refl 30) apart (Vector.replicate 12 0#8) 0 .steady
  exact (sealed.2 (sealed.1 (Driver.steady_succeeds _) (by decide))).1

end GpuKvSeal.System
