import GpuKvSeal.Standard.Forgery
import GpuKvSeal.System.Tamper

/-!
# Opening a frame under masks

Masks on the ciphertext and the tag of a sealed frame pass the GPU exactly for the few
hash keys at which the polynomial of the masks vanishes.
-/

namespace GpuKvSeal.System

open BigEndian (Byte)
open Device
open Host
open Refinement
open Standard (FrameParts sealFrame sealedFrame openFrame)
open Standard.Gcm (aes element forgeryPolynomial xorBytes length_xorBytes)

/-- The parts of a frame under masks. -/
def masked (f : FrameParts) (cipherMask tagMask : List Byte) : FrameParts :=
  ⟨f.version, f.iv, xorBytes f.cipher cipherMask, xorBytes f.tag tagMask⟩

theorem xorBytes_zeros (x : List Byte) :
    xorBytes x (List.replicate x.length 0#8) = x := by
  refine List.ext_getElem (length_xorBytes List.length_replicate) fun k _ _ => ?_
  simp [xorBytes]

/-- Masks on the parts are one mask on the bytes, which leaves the header alone. -/
theorem masked_bytes {f : FrameParts} {cipherMask tagMask : List Byte}
    (cipher : cipherMask.length = f.cipher.length) :
    (masked f cipherMask tagMask).bytes =
      xorBytes f.bytes (List.replicate 13 0#8 ++ (cipherMask ++ tagMask)) := by
  have header : ([f.version] ++ f.iv.toList).length = 13 := by simp
  have untouched := xorBytes_zeros ([f.version] ++ f.iv.toList)
  rw [header] at untouched
  have split : ∀ g : FrameParts,
      g.bytes = ([g.version] ++ g.iv.toList) ++ (g.cipher ++ g.tag) := fun g => by
    rw [FrameParts.bytes, List.append_assoc]
  rw [split, split, xorBytes, List.zipWith_append (by rw [header, List.length_replicate]),
    List.zipWith_append cipher.symm]
  exact congrArg (· ++ _) untouched.symm

/-- The bytes of a sealed frame under masks. -/
theorem masked_sealedFrame (ciph : Standard.Gcm.Block → Standard.Gcm.Block)
    (iv : Vector Byte 12) {text cipherMask tagMask : List Byte}
    (cipher : cipherMask.length = text.length) (size : tagMask.length = 16) :
    let bytes := (masked (sealedFrame ciph iv text) cipherMask tagMask).bytes
    bytes = xorBytes (sealFrame ciph iv text)
      (List.replicate 13 0#8 ++ (cipherMask ++ tagMask)) ∧
    bytes.length = text.length + 29 := by
  intro bytes
  have length : cipherMask.length = (sealedFrame ciph iv text).cipher.length :=
    cipher.trans (Standard.Gcm.length_gctr ..).symm
  have parts : bytes = _ := masked_bytes length
  rw [Standard.sealedFrame_bytes] at parts
  have sealed := Standard.length_sealFrame ciph iv text
  have same : (List.replicate 13 0#8 ++ (cipherMask ++ tagMask)).length =
      (sealFrame ciph iv text).length := by
    rw [sealed, List.length_append, List.length_append, List.length_replicate, cipher,
      size]
    omega
  exact ⟨parts, by rw [parts, length_xorBytes same, sealed]⟩

/-- A sealed frame under masks is accepted exactly at the zeros of the polynomial. -/
theorem openFrame_masked (ciph : Standard.Gcm.Block → Standard.Gcm.Block)
    (iv : Vector Byte 12) {text : List Byte}
    {cipherMask tagMask : List Byte} (cipher : cipherMask.length = text.length)
    (size : tagMask.length = 16) :
    (openFrame ciph (masked (sealedFrame ciph iv text) cipherMask tagMask)).isSome = true ↔
      (forgeryPolynomial cipherMask tagMask).eval (element (ciph 0#128)) = 0 := by
  let c := (sealedFrame ciph iv text).cipher
  have length : cipherMask.length = c.length :=
    cipher.trans (Standard.Gcm.length_gctr ..).symm
  rw [← Standard.Gcm.tag_xorBytes_iff ciph iv length size]
  show (if 0x01#8 = 0x01#8 then Standard.Gcm.authDecrypt ciph iv (xorBytes c cipherMask) []
    (xorBytes (Standard.Gcm.tag ciph iv [] c) tagMask) else none).isSome = true ↔ _
  rw [if_pos rfl, Standard.Gcm.authDecrypt]
  split
  · simp [*]
  · simp [*]

/-- Masks on the ciphertext and the tag of a sealed frame, not all zero, are accepted
exactly if the hash key is a zero of a polynomial that the masks determine.  At most one
hash key for each block of the text and one more are. -/
theorem forgery_accepted_iff {schedule : Schedule} {secret : Vector Byte 16} {p : Ptr}
    {s : HostState} {memory : Memory} (live : Live schedule secret p s memory)
    {iv : Vector Byte 12} {text frame : List Byte}
    (admissible : text.length ≤ 2 ^ 36 - 32)
    (sealed : SealProduces secret iv text frame) {cipherMask tagMask : List Byte}
    (cipher : cipherMask.length = text.length) (size : tagMask.length = 16)
    (changed : ∃ b ∈ cipherMask ++ tagMask, b ≠ 0#8) {src dst authOk : Ptr}
    {frameLen : Nat} (srcNonnull : src ≠ 0) (dstNonnull : dst ≠ 0)
    (flagNonnull : authOk ≠ 0) (room : text.length + 29 ≤ frameLen)
    (apart : Disjoint (span dst text.length) (span src (text.length + 29)))
    (tampered : (bytesAt memory src (text.length + 29)).toList =
      xorBytes frame (List.replicate 13 0#8 ++ (cipherMask ++ tagMask)))
    (stream : Ptr) (driver : Driver) :
    let o := lmcacheGpuAes128gcmOpenAsync p src frameLen dst text.length authOk
      stream driver s
    let after := drain schedule o.events memory
    let P := forgeryPolynomial cipherMask tagMask
    (o.value = .ok →
      (after (.flag authOk) = 1 ↔ P.eval (element (aes secret 0#128)) = 0)) ∧
    P ≠ 0 ∧
    Set.ncard {hashKey : Standard.Gcm.Block | P.eval (element hashKey) = 0} ≤
      (text.length + 15) / 16 + 1 := by
  intro o after P
  refine ⟨fun ok => ?_, Standard.Gcm.forgeryPolynomial_ne_zero size changed, ?_⟩
  · obtain ⟨flag, -⟩ := (open_result live srcNonnull dstNonnull flagNonnull admissible
      room apart stream driver).2 ok
    let f := sealedFrame (aes secret) iv text
    have bytes : (framePartsAt memory src text.length).bytes =
        (masked f cipherMask tagMask).bytes := by
      rw [framePartsAt_bytes, tampered, (sealProduces_iff admissible).mp sealed,
        (masked_sealedFrame (aes secret) iv cipher size).1]
    have parts : framePartsAt memory src text.length = masked f cipherMask tagMask := by
      refine FrameParts.bytes_inj ?_ bytes
      have cipherLength : cipherMask.length = f.cipher.length :=
        cipher.trans (Standard.Gcm.length_gctr ..).symm
      show (bytesAt memory _ text.length).toList.length =
        (xorBytes f.cipher cipherMask).length
      rw [Vector.length_toList, length_xorBytes cipherLength, ← cipherLength, cipher]
    rw [flag, parts, openedFlag_eq_one]
    exact openFrame_masked (aes secret) iv cipher size
  · have few := Standard.Gcm.ncard_forgeryPolynomial size changed
    rwa [cipher] at few

/-- One zero byte is sealed with a new key, and its ciphertext flipped in one bit. -/
theorem forgery_accepted_iff_example :
    let f := sealedFrame (aes (Vector.replicate 16 0#8)) (Vector.replicate 12 0#8) [0#8]
    let o := lmcacheGpuAes128gcmOpenAsync 1 1 30 128 1 8 0 .steady .oneKey
    let memory := holding oneKeyMemory (masked f [1#8] (List.replicate 16 0#8)).bytes
    drain inOrder o.events memory (.flag 8) = 1 ↔
      (forgeryPolynomial [1#8] (List.replicate 16 0#8)).eval
        (element (aes (Vector.replicate 16 0#8) 0#128)) = 0 := by
  have admissible : [0#8].length ≤ 2 ^ 36 - 32 := by decide
  have sealed := (sealProduces_iff admissible).mpr
    (rfl : sealFrame (aes (Vector.replicate 16 0#8)) (Vector.replicate 12 0#8)
      [0#8] = _)
  have cipher : [1#8].length = [0#8].length := rfl
  have size : (List.replicate 16 0#8).length = 16 := List.length_replicate
  obtain ⟨bytes, length⟩ := masked_sealedFrame (aes (Vector.replicate 16 0#8))
    (Vector.replicate 12 0#8) cipher size
  have held := (bytesAt_holding oneKeyMemory length (by decide)).trans bytes
  have apart : Disjoint (span 128 1) (span 1 30) :=
    (span_disjoint (by decide) (by decide)).symm
  have changed : ∃ b ∈ [1#8] ++ List.replicate 16 0#8, b ≠ 0#8 := by
    exact ⟨1#8, by simp, by decide⟩
  have accepted := forgery_accepted_iff (oneKey_live.holding _) admissible sealed
    cipher size changed (by decide : (1 : Ptr) ≠ 0) (by decide : (128 : Ptr) ≠ 0)
    (by decide : (8 : Ptr) ≠ 0) (le_refl 30) apart held 0 .steady
  have opened := open_result (oneKey_live.holding
    (masked (sealedFrame (aes (Vector.replicate 16 0#8)) (Vector.replicate 12 0#8) [0#8])
      [1#8] (List.replicate 16 0#8)).bytes) (by decide : (1 : Ptr) ≠ 0)
    (by decide : (128 : Ptr) ≠ 0) (by decide : (8 : Ptr) ≠ 0) admissible (le_refl 30)
    apart 0 .steady
  exact accepted.1 (opened.1 (Driver.steady_succeeds _) (by decide))

end GpuKvSeal.System
