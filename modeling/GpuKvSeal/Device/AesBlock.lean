import GpuKvSeal.Foundations.BigEndian

/-!
# The table-based AES-128 of the device code

Key expansion runs on the host and the block function on the device.  The
substitution table is a parameter of the block function, because the device
reads its own constant copy and not the host array.
-/

namespace GpuKvSeal.Device

open BigEndian (Byte)

set_option maxRecDepth 2000 in
/-- The substitution table stored on the host. -/
def HOST_SBOX : Vector Byte 256 := #v[
    0x63, 0x7c, 0x77, 0x7b, 0xf2, 0x6b, 0x6f, 0xc5,
    0x30, 0x01, 0x67, 0x2b, 0xfe, 0xd7, 0xab, 0x76,
    0xca, 0x82, 0xc9, 0x7d, 0xfa, 0x59, 0x47, 0xf0,
    0xad, 0xd4, 0xa2, 0xaf, 0x9c, 0xa4, 0x72, 0xc0,
    0xb7, 0xfd, 0x93, 0x26, 0x36, 0x3f, 0xf7, 0xcc,
    0x34, 0xa5, 0xe5, 0xf1, 0x71, 0xd8, 0x31, 0x15,
    0x04, 0xc7, 0x23, 0xc3, 0x18, 0x96, 0x05, 0x9a,
    0x07, 0x12, 0x80, 0xe2, 0xeb, 0x27, 0xb2, 0x75,
    0x09, 0x83, 0x2c, 0x1a, 0x1b, 0x6e, 0x5a, 0xa0,
    0x52, 0x3b, 0xd6, 0xb3, 0x29, 0xe3, 0x2f, 0x84,
    0x53, 0xd1, 0x00, 0xed, 0x20, 0xfc, 0xb1, 0x5b,
    0x6a, 0xcb, 0xbe, 0x39, 0x4a, 0x4c, 0x58, 0xcf,
    0xd0, 0xef, 0xaa, 0xfb, 0x43, 0x4d, 0x33, 0x85,
    0x45, 0xf9, 0x02, 0x7f, 0x50, 0x3c, 0x9f, 0xa8,
    0x51, 0xa3, 0x40, 0x8f, 0x92, 0x9d, 0x38, 0xf5,
    0xbc, 0xb6, 0xda, 0x21, 0x10, 0xff, 0xf3, 0xd2,
    0xcd, 0x0c, 0x13, 0xec, 0x5f, 0x97, 0x44, 0x17,
    0xc4, 0xa7, 0x7e, 0x3d, 0x64, 0x5d, 0x19, 0x73,
    0x60, 0x81, 0x4f, 0xdc, 0x22, 0x2a, 0x90, 0x88,
    0x46, 0xee, 0xb8, 0x14, 0xde, 0x5e, 0x0b, 0xdb,
    0xe0, 0x32, 0x3a, 0x0a, 0x49, 0x06, 0x24, 0x5c,
    0xc2, 0xd3, 0xac, 0x62, 0x91, 0x95, 0xe4, 0x79,
    0xe7, 0xc8, 0x37, 0x6d, 0x8d, 0xd5, 0x4e, 0xa9,
    0x6c, 0x56, 0xf4, 0xea, 0x65, 0x7a, 0xae, 0x08,
    0xba, 0x78, 0x25, 0x2e, 0x1c, 0xa6, 0xb4, 0xc6,
    0xe8, 0xdd, 0x74, 0x1f, 0x4b, 0xbd, 0x8b, 0x8a,
    0x70, 0x3e, 0xb5, 0x66, 0x48, 0x03, 0xf6, 0x0e,
    0x61, 0x35, 0x57, 0xb9, 0x86, 0xc1, 0x1d, 0x9e,
    0xe1, 0xf8, 0x98, 0x11, 0x69, 0xd9, 0x8e, 0x94,
    0x9b, 0x1e, 0x87, 0xe9, 0xce, 0x55, 0x28, 0xdf,
    0x8c, 0xa1, 0x89, 0x0d, 0xbf, 0xe6, 0x42, 0x68,
    0x41, 0x99, 0x2d, 0x0f, 0xb0, 0x54, 0xbb, 0x16]

/-- Look a byte up in a table of 256 entries. -/
def lookup (sbox : Vector Byte 256) (x : Byte) : Byte := sbox.get x.toFin

/-- Doubling in the AES field, on the host. -/
def hostXtime (x : Byte) : Byte :=
  (x <<< 1) ^^^ (if x &&& 0x80#8 ≠ 0#8 then 0x1b#8 else 0#8)

/-- The device copy, which is the same. -/
def xtime (x : Byte) : Byte := hostXtime x

/-- The variables of the key expansion loop. -/
structure KeySchedule where
  generated : Nat
  rcon : Byte
  roundKeys : Vector Byte 176

/-- The array entry, with the bounds of the array. -/
def KeySchedule.entry (s : KeySchedule) (index : Nat) : Byte :=
  s.roundKeys[index]?.getD 0#8

/-- The previous word, rotated and substituted at every fourth word. -/
def expandTemp (s : KeySchedule) : Vector Byte 4 :=
  let temp : Vector Byte 4 := Vector.ofFn fun i => s.entry (s.generated - 4 + i.val)
  if s.generated % 16 = 0 then
    #v[lookup HOST_SBOX temp[1] ^^^ s.rcon, lookup HOST_SBOX temp[2],
      lookup HOST_SBOX temp[3], lookup HOST_SBOX temp[0]]
  else temp

/-- One pass of the loop: the next four bytes. -/
def expandWord (s : KeySchedule) : KeySchedule where
  generated := s.generated + 4
  rcon := if s.generated % 16 = 0 then hostXtime s.rcon else s.rcon
  -- Each byte depends on the byte 16 places back, never on this word.
  roundKeys := (List.finRange 4).foldl
    (fun keys i =>
      keys.setIfInBounds (s.generated + i.val)
        (s.entry (s.generated + i.val - 16) ^^^ (expandTemp s).get i))
    s.roundKeys

/-- Generate words until all 176 bytes are there. -/
def expandLoop (s : KeySchedule) : Vector Byte 176 :=
  if s.generated < 176 then expandLoop (expandWord s)
  else s.roundKeys
termination_by 176 - s.generated
decreasing_by
  show 176 - (s.generated + 4) < 176 - s.generated
  omega

/-- The 176 bytes of round keys of a 16-byte key. -/
def expandAes128Key (key : Vector Byte 16) :
    Vector Byte 176 :=
  expandLoop
    ⟨16, 1#8, Vector.ofFn fun i => if h : i.val < 16 then key[i.val] else 0#8⟩

def addRoundKey (s : Vector Byte 16) (rk : Vector Byte 176)
    (round : Fin 11) : Vector Byte 16 :=
  Vector.ofFn fun i => s[i] ^^^ rk[round.val * 16 + i.val]

def subBytes (sbox : Vector Byte 256) (s : Vector Byte 16) : Vector Byte 16 :=
  Vector.ofFn fun i => lookup sbox s[i]

def shiftRows (s : Vector Byte 16) : Vector Byte 16 :=
  -- Row 1 rotates left by one.
  let t := s[1]
  let s := s.set 1 s[5]
  let s := s.set 5 s[9]
  let s := s.set 9 s[13]
  let s := s.set 13 t
  -- Row 2 rotates left by two.
  let t := s[2]
  let s := s.set 2 s[10]
  let s := s.set 10 t
  let t := s[6]
  let s := s.set 6 s[14]
  let s := s.set 14 t
  -- Row 3 rotates left by three.
  let t := s[15]
  let s := s.set 15 s[11]
  let s := s.set 11 s[7]
  let s := s.set 7 s[3]
  s.set 3 t

/-- One column of the column mixing, in place. -/
def mixColumn (s : Vector Byte 16) (c : Fin 4) : Vector Byte 16 :=
  let i := c.val * 4
  let a0 := s[i + 0]
  let a1 := s[i + 1]
  let a2 := s[i + 2]
  let a3 := s[i + 3]
  let all := a0 ^^^ a1 ^^^ a2 ^^^ a3
  let s := s.set (i + 0) (a0 ^^^ (all ^^^ xtime (a0 ^^^ a1)))
  let s := s.set (i + 1) (a1 ^^^ (all ^^^ xtime (a1 ^^^ a2)))
  let s := s.set (i + 2) (a2 ^^^ (all ^^^ xtime (a2 ^^^ a3)))
  s.set (i + 3) (a3 ^^^ (all ^^^ xtime (a3 ^^^ a0)))

def mixColumns (s : Vector Byte 16) : Vector Byte 16 :=
  mixColumn (mixColumn (mixColumn (mixColumn s 0) 1) 2) 3

/-- The rounds `1 .. n` of the block function, `n` at most nine. -/
def aesRounds (sbox : Vector Byte 256) (rk : Vector Byte 176)
    (s : Vector Byte 16) : Nat → Vector Byte 16
  | 0 => addRoundKey s rk 0
  | n + 1 =>
      addRoundKey (mixColumns (shiftRows (subBytes sbox (aesRounds sbox rk s n))))
        rk (Fin.ofNat 11 (n + 1))

/-- Encrypt one block under 176 bytes of round keys. -/
def aes128EncryptBlock (sbox : Vector Byte 256) (input : Vector Byte 16)
    (rk : Vector Byte 176) : Vector Byte 16 :=
  addRoundKey (shiftRows (subBytes sbox (aesRounds sbox rk input 9))) rk 10

end GpuKvSeal.Device
