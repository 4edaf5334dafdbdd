import GpuKvSeal.Refinement.AesPermutation
import GpuKvSeal.Standard.GcmTamper
import GpuKvSeal.System.Open

/-!
# Opening a tampered frame
-/

namespace GpuKvSeal.System

open BigEndian (Byte)
open Device
open Host
open Refinement
open Standard (FrameParts Region DifferWithin sealFrame openFrame)
open Standard.Gcm (aes)

theorem aes_injective (key : Vector Byte 16) : Function.Injective (aes key) := by
  intro a b same
  have bytes := congrArg (BigEndian.toBytes 16) same
  rw [aes, aes, BigEndian.toBytes_ofBytes rfl, BigEndian.toBytes_ofBytes rfl]
    at bytes
  have inputs := congrArg (fun v => BigEndian.ofBytes 128 v.toList)
    (cipher_injective key bytes)
  simpa only [BigEndian.ofBytes_toBytes (n := 16) rfl] using inputs

/-- A frame that differs from a sealed one only inside its version, its IV,
one block of its ciphertext or its tag is always refused. -/
theorem tampered_refused {schedule : Schedule} {secret : Vector Byte 16}
    {p : Ptr} {s : HostState} {memory : Memory}
    (live : Live schedule secret p s memory) (hashKey : aes secret 0#128 ≠ 0#128)
    {iv : Vector Byte 12} {text frame : List Byte}
    (admissible : text.length ≤ 2 ^ 36 - 32)
    (sealed : SealProduces secret iv text frame) {start stop : Nat}
    (region : Region text.length start stop) {src dst authOk : Ptr}
    {frameLen : Nat} (srcNonnull : src ≠ 0) (dstNonnull : dst ≠ 0)
    (flagNonnull : authOk ≠ 0) (room : text.length + 29 ≤ frameLen)
    (apart : Disjoint (span dst text.length) (span src (text.length + 29)))
    (tampered : DifferWithin start stop frame
      (bytesAt memory src (text.length + 29)).toList)
    (stream : Ptr) (driver : Driver) :
    let o := lmcacheGpuAes128gcmOpenAsync p src frameLen dst text.length authOk
      stream driver s
    let after := drain schedule o.events memory
    (driver.Succeeds operationCalls → s.lastError = cudaSuccess →
      o.value = .ok) ∧
    (o.value = .ok →
      after (.flag authOk) = 0 ∧
        bytesAt after dst text.length = Vector.replicate text.length 0#8) := by
  intro o after
  obtain ⟨success, result⟩ := open_result live srcNonnull dstNonnull flagNonnull
    admissible room apart stream driver
  refine ⟨success, fun ok => ?_⟩
  obtain ⟨flag, opened, -⟩ := result ok
  let f := framePartsAt memory src text.length
  have cipher : f.cipher.length = text.length := Vector.length_toList
  have tag : f.tag.length = 16 := Vector.length_toList
  rw [(sealProduces_iff admissible).mp sealed, ← framePartsAt_bytes] at tampered
  have refused : openFrame (aes secret) f = none :=
    Standard.openFrame_tampered (aes_injective secret) hashKey cipher tag region
      tampered
  refine ⟨flag.trans (openedFlag_eq_zero.mpr refused), ?_⟩
  refine Vector.toList_inj.mp (opened.trans ?_)
  show (openFrame (aes secret) f).getD (List.replicate f.cipher.length 0#8) = _
  rw [refused, Option.getD_none, cipher, Vector.toList_replicate]

set_option maxRecDepth 2000 in
/-- The hash key of the zero key starts with `0x66`. -/
theorem zeroKey_hashKey : aes (Vector.replicate 16 0#8) 0#128 ≠ 0#128 := by
  intro zero
  have first : (aes128EncryptBlock HOST_SBOX (Vector.replicate 16 0#8)
      (expandAes128Key (Vector.replicate 16 0#8)))[0] = 0x66#8 := by
    decide +kernel
  have bytes := congrArg (fun v => (BigEndian.toBytes 16 v)[0]) zero
  have blank : BigEndian.toBytes 16 0#128 = Vector.replicate 16 0#8 := by decide
  have entry : (Vector.replicate 16 0#8)[0] = 0#8 := rfl
  simp only [aes, BigEndian.toBytes_ofBytes, blank,
    ← aes128EncryptBlock_eq_cipher, first, entry] at bytes
  exact absurd bytes (by decide)

/-- A bit of the second block of a text is flipped after it was sealed with a new key. -/
theorem tampered_refused_example :
    let frame := sealFrame (aes (Vector.replicate 16 0#8)) (Vector.replicate 12 0#8)
      (List.replicate 40 7#8)
    let o := lmcacheGpuAes128gcmOpenAsync 1 1 69 128 40 8 0 .steady .oneKey
    let after := drain inOrder o.events
      (holding oneKeyMemory (frame.modify 30 (· ^^^ 1#8)))
    after (.flag 8) = 0 ∧ bytesAt after 128 40 = Vector.replicate 40 0#8 := by
  intro frame
  have size : (List.replicate 40 7#8).length = 40 := List.length_replicate
  have admissible : (List.replicate 40 7#8).length ≤ 2 ^ 36 - 32 := by
    rw [size]
    decide
  have sealed := (sealProduces_iff admissible).mpr
    (rfl : frame = sealFrame (aes (Vector.replicate 16 0#8)) (Vector.replicate 12 0#8) _)
  have length : frame.length = 69 := by
    rw [Standard.length_sealFrame, size]
  have inside : 30 < frame.length := by omega
  have flipped : ∀ b : Byte, b ^^^ 1#8 ≠ b := by decide
  have tampered : DifferWithin 29 45 frame (frame.modify 30 (· ^^^ 1#8)) :=
    .modify inside (by decide) (by decide) (flipped _)
  rw [← bytesAt_holding oneKeyMemory (tampered.length.trans length) (by decide)]
    at tampered
  have room : (List.replicate 40 7#8).length + 29 ≤ 69 := by rw [size]
  have apart : Disjoint (span 128 (List.replicate 40 7#8).length)
      (span 1 ((List.replicate 40 7#8).length + 29)) := by
    rw [size]
    exact (span_disjoint (by decide) (by decide)).symm
  have refused := tampered_refused (oneKey_live.holding _) zeroKey_hashKey admissible
    sealed (.block 1) (by decide : (1 : Ptr) ≠ 0) (by decide : (128 : Ptr) ≠ 0)
    (by decide : (8 : Ptr) ≠ 0) room apart tampered 0 .steady
  rw [size] at refused
  exact refused.2 (refused.1 (Driver.steady_succeeds _) (by decide))

end GpuKvSeal.System
