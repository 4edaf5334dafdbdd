import GpuKvSeal.Standard.GcmBytes

/-!
# The frame format

A frame is a version byte, the IV, the ciphertext and the tag, without further
authenticated data.  Opening a frame inverts sealing, and accepts nothing that
sealing does not produce.
-/

namespace GpuKvSeal.Standard

open BigEndian (Byte)
open Gcm (Block authEncrypt authDecrypt)

/-- The frame of a plaintext: `0x01 || IV || C || T`. -/
def sealFrame (ciph : Block → Block) (iv : Vector Byte 12) (p : List Byte) :
    List Byte :=
  [0x01#8] ++ (iv.toList ++
    ((authEncrypt ciph iv p []).1 ++ (authEncrypt ciph iv p []).2))

/-- The parts of a frame, in order. -/
@[ext]
structure FrameParts where
  version : Byte
  iv : Vector Byte 12
  cipher : List Byte
  tag : List Byte

/-- The bytes of a frame with the given parts. -/
def FrameParts.bytes (f : FrameParts) : List Byte :=
  [f.version] ++ (f.iv.toList ++ (f.cipher ++ f.tag))

/-- Open a frame: only this version, and only with the right tag. -/
def openFrame (ciph : Block → Block) (f : FrameParts) : Option (List Byte) :=
  if f.version = 0x01#8 then authDecrypt ciph f.iv f.cipher [] f.tag else none

theorem length_sealFrame (ciph : Block → Block) (iv : Vector Byte 12)
    (p : List Byte) : (sealFrame ciph iv p).length = p.length + 29 := by
  simp only [sealFrame, authEncrypt, List.length_append, List.length_singleton,
    Vector.length_toList, Gcm.length_gctr, Gcm.length_tag]
  omega

/-- Two splittings of one frame into parts of the same sizes agree. -/
theorem FrameParts.bytes_inj {f g : FrameParts}
    (cipher : f.cipher.length = g.cipher.length) (same : f.bytes = g.bytes) :
    f = g := by
  obtain ⟨version, rest⟩ := List.append_inj same rfl
  obtain ⟨iv, rest⟩ := List.append_inj rest (by simp)
  obtain ⟨cipher, tag⟩ := List.append_inj rest cipher
  exact FrameParts.ext (List.singleton_inj.mp version) (Vector.toList_inj.mp iv)
    cipher tag

/-- The frame of a text opens to it. -/
theorem openFrame_of_bytes {ciph : Block → Block} {f : FrameParts}
    {iv : Vector Byte 12} {p : List Byte} (length : p.length = f.cipher.length)
    (same : f.bytes = sealFrame ciph iv p) : openFrame ciph f = some p := by
  let g : FrameParts := ⟨0x01#8, iv, (authEncrypt ciph iv p []).1,
    (authEncrypt ciph iv p []).2⟩
  have cipher : f.cipher.length = g.cipher.length := by
    show f.cipher.length = (Gcm.gctr _ _ p).length
    rw [Gcm.length_gctr, length]
  have parts : f = g := FrameParts.bytes_inj cipher same
  rw [parts, openFrame, if_pos rfl]
  exact Gcm.authDecrypt_authEncrypt ciph iv p []

/-- A frame opens to a text exactly when it is the frame of that text under
its own IV. -/
theorem openFrame_eq_some_iff (ciph : Block → Block) (f : FrameParts)
    (p : List Byte) :
    openFrame ciph f = some p ↔
      p.length = f.cipher.length ∧ f.bytes = sealFrame ciph f.iv p := by
  constructor
  · intro opened
    unfold openFrame at opened
    split at opened
    · rename_i version
      unfold authDecrypt at opened
      split at opened
      · rename_i tag
        cases opened
        refine ⟨Gcm.length_gctr .., ?_⟩
        simp only [FrameParts.bytes, sealFrame, authEncrypt, version,
          Gcm.inc32_preCounter, Gcm.gctr_gctr, tag]
      · cases opened
    · cases opened
  · rintro ⟨length, same⟩
    exact openFrame_of_bytes length same

/-- The text of an accepted frame is as long as its ciphertext. -/
theorem length_openFrame {ciph : Block → Block} {f : FrameParts}
    {p : List Byte} (opened : openFrame ciph f = some p) :
    p.length = f.cipher.length :=
  ((openFrame_eq_some_iff ciph f p).mp opened).1

end GpuKvSeal.Standard
