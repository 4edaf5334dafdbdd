import GpuKvSeal.System.Seal

/-!
# Opening with a live key

An open accepts exactly the frames that a seal with the same key produces, and
gives back their text; anything else leaves zeros.
-/

namespace GpuKvSeal.System

open BigEndian (Byte)
open Device
open Host
open Refinement
open Standard (FrameParts sealFrame openFrame)
open Standard.Gcm (aes)

/-- The arguments of an open that the library admits without any wrap. -/
theorem openAdmits {key src dst authOk : Ptr} {plaintextLen frameLen : Nat}
    (keyNonnull : key ≠ 0) (srcNonnull : src ≠ 0) (dstNonnull : dst ≠ 0)
    (flagNonnull : authOk ≠ 0) (room : plaintextLen + 29 ≤ frameLen) :
    OpenAdmits key src frameLen dst plaintextLen authOk where
  key := keyNonnull
  src := srcNonnull
  dst := dstNonnull
  authOk := flagNonnull
  frame := (Nat.mod_le _ _).trans room

/-- An open of an admissible length with a live key: it succeeds if nothing
fails, and then leaves the status and the text of the frame in memory. -/
theorem open_result {schedule : Schedule} {secret : Vector Byte 16} {p : Ptr}
    {s : HostState} {memory : Memory} (live : Live schedule secret p s memory)
    {src dst authOk : Ptr} {plaintextLen frameLen : Nat} (srcNonnull : src ≠ 0)
    (dstNonnull : dst ≠ 0) (flagNonnull : authOk ≠ 0)
    (admissible : plaintextLen ≤ 2 ^ 36 - 32)
    (room : plaintextLen + 29 ≤ frameLen)
    (apart : Disjoint (span dst plaintextLen) (span src (plaintextLen + 29)))
    (stream : Ptr) (driver : Driver) :
    let o := lmcacheGpuAes128gcmOpenAsync p src frameLen dst plaintextLen authOk
      stream driver s
    let after := drain schedule o.events memory
    let f := framePartsAt memory src plaintextLen
    (driver.Succeeds operationCalls → s.lastError = cudaSuccess →
      o.value = .ok) ∧
    (o.value = .ok →
      after (.flag authOk) = openedFlag secret f ∧
      (bytesAt after dst plaintextLen).toList = openedText secret f ∧
      ∀ q, Cell.byte q ∉ span dst plaintextLen →
        after (.byte q) = memory (.byte q)) := by
  intro o after f
  obtain ⟨leaked, h, usable⟩ := live.usable
  have admits := openAdmits live.nonnull srcNonnull dstNonnull flagNonnull room
  have effect := lmcacheGpuAes128gcmOpenAsync_spec driver usable.accounted
    usable.live admits stream
  let launches := fun device h' => openLaunches device h' src dst plaintextLen
    authOk
  constructor
  · intro reliable clear
    exact succeeds stream launches effect
      (fun _ _ _ _ _ done => ⟨done.1, done.2.1⟩) reliable clear
      fun device h' => openLaunches_valid (by omega) device h' src dst authOk
  · intro ok
    obtain ⟨h', before, extends_, fits, found, bookkeeping, trace⟩ :=
      completed stream launches effect
        (fun _ _ _ _ _ done => ⟨done.1, done.2.1⟩) ok
    obtain ⟨lost, accounted', -⟩ := effect.accounted
    have positive := requiredNodes_pos plaintextLen
    have distinct := accounted'.node_distinct found (by omega)
    have drained : after = runAll schedule (launches h.device h') memory := by
      show drain schedule o.events memory = _
      rw [show o.events = _ from trace, drain_append,
        drain_bookkeeping schedule bookkeeping, drain_launchEvents]
    have ready := usable.ready
    rw [← extends_.roundKeys, ← extends_.hPow2] at ready
    rw [drained]
    obtain ⟨flag, text⟩ := openLaunches_result schedule ready distinct admissible
      authOk apart
    refine ⟨flag, text, fun q outside => ?_⟩
    refine runAll_frame schedule (fun l member write => ?_) memory
    rcases (openLaunches_inside h.device h' src dst (by omega) authOk l member).2
      write with (bytes | same) | ⟨i, -, same | same⟩
    · rw [coveredLen_eq (by omega)] at bytes
      exact outside bytes
    · cases same
    · cases same
    · cases same

/-! ## The frames a seal produces -/

/-- Some successful seal with the key, the IV and the text leaves the frame. -/
def SealProduces (secret : Vector Byte 16) (iv : Vector Byte 12)
    (text frame : List Byte) : Prop :=
  ∃ schedule p s memory src dst dstCapacity stream driver,
    Live schedule secret p s memory ∧ src ≠ 0 ∧ dst ≠ 0 ∧
    text.length + 29 ≤ dstCapacity ∧
    Disjoint (span dst (text.length + 29)) (span src text.length) ∧
    (bytesAt memory src text.length).toList = text ∧
    let o := lmcacheGpuAes128gcmSealAsync p src text.length dst dstCapacity
      (some iv) stream driver s
    o.value = .ok ∧ (bytesAt (drain schedule o.events memory) dst
      (text.length + 29)).toList = frame

/-- The frame a seal produces is the frame of the standard, and nothing else. -/
theorem sealProduces_iff {secret : Vector Byte 16} {iv : Vector Byte 12}
    {text frame : List Byte} (admissible : text.length ≤ 2 ^ 36 - 32) :
    SealProduces secret iv text frame ↔ frame = sealFrame (aes secret) iv text := by
  constructor
  · rintro ⟨schedule, p, s, memory, src, dst, dstCapacity, stream, driver, live,
      srcNonnull, dstNonnull, room, apart, holds, ok, rfl⟩
    have sealed := (seal_result live srcNonnull dstNonnull admissible room apart iv
      stream driver ok).1
    rw [holds] at sealed
    exact sealed
  · rintro rfl
    let o := lmcacheGpuAes128gcmKeyCreate (some secret) 16 0 8 .steady .blank
    have live : Live inOrder secret 1 o.state
        (holding (drain inOrder o.events blankMemory) text) :=
      .holding (.created HostState.blank_fresh .nil blankMemory
        (Driver.steady_succeeds _) 0 8 rfl rfl) text
    have apart : Disjoint (span (2 ^ 40) (text.length + 29))
        (span 1 text.length) :=
      (span_disjoint (by omega) (by omega)).symm
    have holds := bytesAt_holding (drain inOrder o.events blankMemory)
      (rfl : text.length = _) (by omega)
    have ok := seal_succeeds live (by decide : (1 : Ptr) ≠ 0)
      (by decide : (2 ^ 40 : Ptr) ≠ 0) admissible (le_refl _) iv 0 .steady
      (Driver.steady_succeeds _) rfl
    have sealed := seal_result live (by decide : (1 : Ptr) ≠ 0)
      (by decide : (2 ^ 40 : Ptr) ≠ 0) admissible (le_refl _) apart iv 0 .steady ok
    refine ⟨inOrder, 1, _, _, 1, 2 ^ 40, text.length + 29, 0, .steady, live,
      by decide, by decide, le_refl _, apart, holds, ok, ?_⟩
    rw [sealed.1, holds]

/-- An open leaves one in the status word exactly when the frame is one that a
seal with the same key and the IV of the frame produces; then the destination
holds the text, and otherwise zeros.  No other byte changes. -/
theorem open_accepts_iff_sealed {schedule : Schedule} {secret : Vector Byte 16}
    {p : Ptr} {s : HostState} {memory : Memory}
    (live : Live schedule secret p s memory) {src dst authOk : Ptr}
    {plaintextLen frameLen : Nat} (srcNonnull : src ≠ 0) (dstNonnull : dst ≠ 0)
    (flagNonnull : authOk ≠ 0) (admissible : plaintextLen ≤ 2 ^ 36 - 32)
    (room : plaintextLen + 29 ≤ frameLen)
    (apart : Disjoint (span dst plaintextLen) (span src (plaintextLen + 29)))
    (stream : Ptr) (driver : Driver) :
    let o := lmcacheGpuAes128gcmOpenAsync p src frameLen dst plaintextLen authOk
      stream driver s
    let after := drain schedule o.events memory
    let frame := (bytesAt memory src (plaintextLen + 29)).toList
    let iv := bytesAt memory (advance src 1) 12
    (driver.Succeeds operationCalls → s.lastError = cudaSuccess →
      o.value = .ok) ∧
    (o.value = .ok →
      (after (.flag authOk) = 1 ↔
        ∃ text, text.length = plaintextLen ∧
          SealProduces secret iv text frame) ∧
      (∀ text, text.length = plaintextLen → SealProduces secret iv text frame →
        (bytesAt after dst plaintextLen).toList = text) ∧
      ((¬ ∃ text, text.length = plaintextLen ∧
          SealProduces secret iv text frame) →
        after (.flag authOk) = 0 ∧
          bytesAt after dst plaintextLen = Vector.replicate plaintextLen 0#8) ∧
      ∀ q, Cell.byte q ∉ span dst plaintextLen →
        after (.byte q) = memory (.byte q)) := by
  intro o after frame iv
  obtain ⟨success, result⟩ := open_result live srcNonnull dstNonnull flagNonnull
    admissible room apart stream driver
  refine ⟨success, fun ok => ?_⟩
  obtain ⟨flag, text, rest⟩ := result ok
  let f := framePartsAt memory src plaintextLen
  have length : f.cipher.length = plaintextLen := Vector.length_toList
  have produced : ∀ text, text.length = plaintextLen →
      (SealProduces secret iv text frame ↔ openFrame (aes secret) f = some text) := by
    intro text size
    rw [sealProduces_iff (by omega), Standard.openFrame_eq_some_iff, length,
      framePartsAt_bytes]
    exact (and_iff_right size).symm
  have accepted : (∃ text, text.length = plaintextLen ∧
      SealProduces secret iv text frame) ↔
        (openFrame (aes secret) f).isSome = true := by
    rw [Option.isSome_iff_exists]
    constructor
    · rintro ⟨text, size, sealed⟩
      exact ⟨text, (produced text size).mp sealed⟩
    · rintro ⟨text, opened⟩
      have size := (Standard.length_openFrame opened).trans length
      exact ⟨text, size, (produced text size).mpr opened⟩
  have nothing : (¬ ∃ text, text.length = plaintextLen ∧
      SealProduces secret iv text frame) → openFrame (aes secret) f = none :=
    fun refused => Option.not_isSome_iff_eq_none.mp (accepted.not.mp refused)
  refine ⟨?_, fun text' size sealed => ?_, fun none => ⟨?_, ?_⟩, rest⟩
  · rw [accepted, flag]
    exact openedFlag_eq_one
  · refine text.trans ?_
    show (openFrame (aes secret) f).getD _ = _
    rw [(produced text' size).mp sealed, Option.getD_some]
  · rw [flag]
    exact openedFlag_eq_zero.mpr (nothing none)
  · refine Vector.toList_inj.mp (text.trans ?_)
    show (openFrame (aes secret) f).getD (List.replicate f.cipher.length 0#8) = _
    rw [nothing none, Option.getD_none, length, Vector.toList_replicate]

/-- An all-zero frame is refused or accepted as the one-byte text says. -/
theorem open_accepts_iff_sealed_example :
    drain inOrder (lmcacheGpuAes128gcmOpenAsync 1 16 30 128 1 8 0 .steady
        .oneKey).events oneKeyMemory (.flag 8) = 1 ↔
      ∃ text, text.length = 1 ∧ SealProduces (Vector.replicate 16 0#8)
        (bytesAt oneKeyMemory 17 12) text (bytesAt oneKeyMemory 16 30).toList := by
  have apart : Disjoint (span 128 1) (span 16 (1 + 29)) :=
    (span_disjoint (by decide) (by decide)).symm
  have opened := open_accepts_iff_sealed oneKey_live (by decide : (16 : Ptr) ≠ 0)
    (by decide : (128 : Ptr) ≠ 0) (by decide : (8 : Ptr) ≠ 0)
    (by decide : 1 ≤ 2 ^ 36 - 32) (le_refl 30) apart 0 .steady
  exact (opened.2 (opened.1 (Driver.steady_succeeds _) (by decide))).1

end GpuKvSeal.System
