import GpuKvSeal.Cpu.OpenSafety
import GpuKvSeal.Cpu.Streaming

/-!
# The CPU backend over a working library

With a library that implements GCM a seal writes the frame of the standard, and
an open takes it apart again or refuses it.
-/

namespace GpuKvSeal.Cpu

open BigEndian (Byte)
open Device (Ptr u64 advance advance_advance VERSION_LEN IV_LEN TAG_LEN HEADER_LEN
  FRAME_OVERHEAD)
open Standard (FrameParts)
open Standard.Gcm (aes gctr inc32 preCounter)
open TracedState.Traced (Ensures)

/-! ## Calls that do not fail -/

section Works

variable {library : Library} {s : ProcessState} {r : Request} {err : Int}
  {rest : Process Int} {post : Int → ProcessState → Prop}
  (good : (library s.history (r.call s.memory)).rc = 1)

include good

/-- A call that does not fail. -/
theorem require_works
    (continues : ∀ s' : ProcessState,
      s'.memory = fill s.memory r.buffer.1 r.buffer.2
        (library s.history (r.call s.memory)).output →
      s'.history = s.history ++ [⟨r.call s.memory, 1⟩] →
      rest.Ensures library s' fun value s'' _ => post value s'') :
    (require r err rest).Ensures library s fun value s' _ => post value s' := by
  refine require_spec (fun bad => absurd good bad) fun _ => continues _ rfl ?_
  rw [ProcessState.answered, good]

/-- A call that does not fail and has no output. -/
theorem require_works_silent (silent : r.buffer.2 = 0)
    (continues : ∀ s' : ProcessState, s'.memory = s.memory →
      s'.history = s.history ++ [⟨r.call s.memory, 1⟩] →
      rest.Ensures library s' fun value s'' _ => post value s'') :
    (require r err rest).Ensures library s fun value s' _ => post value s' := by
  refine require_works good fun s' memory history =>
    continues s' (memory.trans ?_) history
  rw [silent, fill_zero]

end Works

/-! ## The open -/

/-- What an open does over a working library. -/
structure OpenWorks (key : Vector Byte 16) (f : FrameParts) (dst : Ptr)
    (s : ProcessState) (rc : Int) (s' : ProcessState) : Prop where
  outside : ∀ q ∉ region dst f.cipher.length, s'.memory q = s.memory q
  version : f.version ≠ 1#8 → rc = -3 ∧ s'.memory = s.memory
  accepted : ∀ text, Standard.openFrame (aes key) f = some text →
    rc = 0 ∧ bytesAt s'.memory dst f.cipher.length = text
  refused : f.version = 1#8 → Standard.openFrame (aes key) f = none →
    rc = -11 ∧ ∀ q ∈ region dst f.cipher.length, s'.memory q = 0#8

theorem openFrame_right (ciph : Standard.Gcm.Block → Standard.Gcm.Block)
    {f : FrameParts} (version : f.version = 1#8) :
    Standard.openFrame ciph f =
      if Standard.Gcm.tag ciph f.iv [] f.cipher = f.tag then
        some (gctr ciph (inc32 (preCounter f.iv)) f.cipher) else none := by
  rw [Standard.openFrame, if_pos version, Standard.Gcm.authDecrypt]

theorem openText_works {library : Library} {limit : Nat}
    (gcm : ImplementsGcm library limit)
    {ciphertext dst : Ptr} {key : Vector Byte 16} {f : FrameParts}
    (version : f.version = 1#8) (small : f.cipher.length < 2 ^ 64)
    (admissible : f.cipher.length ≤ limit)
    (apart : Disjoint (region dst f.cipher.length)
      (region ciphertext f.cipher.length)) {s : ProcessState}
    (cipher : bytesAt s.memory ciphertext f.cipher.length = f.cipher)
    (holds : session s.history = .keyed .decrypt key f.iv f.tag []) :
    (openText ciphertext f.cipher.length dst).Ensures library s
      fun rc s' _ => OpenWorks key f dst s rc s' := by
  have opened := openFrame_right (aes key) version
  refine Ensures.bind (updateAll_whole gcm .decrypt (-30) (-31) small admissible apart
    holds cipher) fun rc middle _ ⟨code, history, output, outside⟩ => ?_
  refine Ensures.ite (fun failed => absurd code failed) fun _ => ?_
  let final : Request := .final .decrypt (advance dst f.cipher.length)
  let reply := library middle.history (final.call middle.memory)
  have verified := gcm.finalDecrypt middle.history key f.iv f.tag f.cipher history
  have same : (middle.answered final reply).memory = middle.memory :=
    answered_memory rfl reply
  refine Ensures.bind_eq (rfl : ask final library middle =
    ⟨reply, middle.answered final reply, [.ask final]⟩) ?_
  refine Ensures.ite (fun bad => ?_) fun good => ?_
  · rw [if_neg fun tag => bad (verified.mpr tag)] at opened
    refine Ensures.bind_eq rfl (Ensures.pure ⟨fun q out => ?_,
      fun wrong => absurd version wrong, fun text accepted => ?_, fun _ _ => ⟨rfl, ?_⟩⟩)
    · refine (fill_outside out fun _ => some 0#8).trans ?_
      rw [same]
      exact outside q out
    · rw [opened] at accepted
      cases accepted
    · exact cleansed _ dst small.le
  · rw [if_pos (verified.mp (Decidable.not_not.mp good))] at opened
    refine Ensures.pure ⟨fun q out => ?_, fun wrong => absurd version wrong,
      fun text accepted => ⟨rfl, ?_⟩, fun _ none => ?_⟩
    · rw [same]
      exact outside q out
    · rw [opened] at accepted
      rw [same, output]
      exact Option.some_inj.mp accepted
    · rw [opened] at none
      cases none

theorem length_framePartsAt (memory : Memory) (frame : Ptr) (plaintextLen : Nat) :
    (framePartsAt memory frame plaintextLen).cipher.length = plaintextLen :=
  length_bytesAt ..

/-- Buffers of an open: room for the text, which does not overlap the frame. -/
structure OpenBuffers (key frame : Ptr) (plaintextLen : Nat) (dst : Ptr)
    (dstLen : Nat) : Prop where
  keyNonnull : key ≠ 0
  frameNonnull : frame ≠ 0
  dstNonnull : dst ≠ 0
  room : plaintextLen ≤ dstLen
  apart : Disjoint (region dst plaintextLen) (region frame (plaintextLen + 29))

/-- What an open makes of a frame. -/
theorem open_works {library : Library} {limit : Nat}
    (gcm : ImplementsGcm library limit)
    {key frame dst : Ptr} {plaintextLen dstLen : Nat}
    (buffers : OpenBuffers key frame plaintextLen dst dstLen)
    (small : plaintextLen + 29 < 2 ^ 64) (admissible : plaintextLen ≤ limit)
    {s : ProcessState} (context : s.hasContext = true) :
    let o := lmcacheAes128gcmOpen key frame (plaintextLen + 29) dst dstLen library s
    OpenWorks (vectorAt s.memory key 16) (framePartsAt s.memory frame plaintextLen)
      dst s o.value o.state := by
  intro o
  have overhead : FRAME_OVERHEAD = 29 := rfl
  let f := framePartsAt s.memory frame plaintextLen
  let secret := vectorAt s.memory key 16
  have length : f.cipher.length = plaintextLen := length_framePartsAt ..
  suffices works : (lmcacheAes128gcmOpen key frame (plaintextLen + 29) dst
      dstLen).Ensures library s fun rc s' _ => OpenWorks secret f dst s rc s' from works
  have room := buffers.room
  rw [lmcacheAes128gcmOpen,
    if_neg (by simp [buffers.keyNonnull, buffers.frameNonnull, buffers.dstNonnull]),
    if_neg (by omega)]
  refine Ensures.bind_eq rfl (Ensures.ite (fun wrong => Ensures.pure ?_) fun right => ?_)
  · have none : Standard.openFrame (aes secret) f = none := if_neg wrong
    refine ⟨fun _ _ => rfl, fun _ => ⟨rfl, rfl⟩, fun text accepted => ?_,
      fun version => absurd version wrong⟩
    rw [none] at accepted
    cases accepted
  have version : f.version = 1#8 := Decidable.not_not.mp right
  rw [if_neg (by omega)]
  refine Ensures.bind_eq rfl ?_
  rw [if_neg (by simp [context]), show plaintextLen + 29 - FRAME_OVERHEAD =
    f.cipher.length by omega]
  refine require_works_silent (gcm.reset _) rfl fun s₁ memory₁ history₁ => ?_
  refine require_works_silent (gcm.initCipher _ _) rfl fun s₂ memory₂ history₂ => ?_
  have chosen₂ : session s₂.history = .chosen .decrypt := by
    rw [history₂, session_concat]
    rfl
  refine require_works_silent (gcm.setIvLen _ _ chosen₂) rfl
    fun s₃ memory₃ history₃ => ?_
  have chosen₃ : session s₃.history = .chosen .decrypt := by
    rw [history₃, session_concat, chosen₂]
    rfl
  refine require_works_silent (gcm.initKey _ _ _ _ chosen₃) rfl
    fun s₄ memory₄ history₄ => ?_
  have before₃ : s₃.memory = s.memory := memory₃.trans (memory₂.trans memory₁)
  have before₄ : s₄.memory = s.memory := memory₄.trans before₃
  have keyed₄ : session s₄.history = .keyed .decrypt secret f.iv [] [] := by
    rw [history₄, session_concat, chosen₃, before₃]
    rfl
  refine require_works_silent
    (gcm.setTag _ _ _ _ keyed₄ (length_bytesAt ..)) rfl fun s₅ memory₅ history₅ => ?_
  have before₅ : s₅.memory = s.memory := memory₅.trans before₄
  have installed : session s₅.history = .keyed .decrypt secret f.iv f.tag [] := by
    rw [history₅, session_concat, keyed₄, before₄, length]
    rfl
  have cipher : bytesAt s₅.memory (advance frame HEADER_LEN) f.cipher.length =
      f.cipher := by
    rw [before₅, length]
    rfl
  have clear : Disjoint (region dst f.cipher.length)
      (region (advance frame HEADER_LEN) f.cipher.length) := by
    rw [length]
    exact buffers.apart.mono_right (region_cipher frame plaintextLen)
  refine (openText_works gcm version (by omega) (by omega) clear cipher
    installed).mono
    fun rc s' steps works => ⟨fun q out => ?_, fun wrong => absurd version wrong,
      works.accepted, works.refused⟩
  rw [works.outside q out, before₅]

/-! ## The seal -/

theorem framePartsAt_bytes (memory : Memory) (frame : Ptr) (plaintextLen : Nat) :
    (framePartsAt memory frame plaintextLen).bytes =
      bytesAt memory frame (plaintextLen + 29) := by
  have split : plaintextLen + 29 = 1 + (12 + (plaintextLen + 16)) := by omega
  have first : bytesAt memory frame 1 = [memory (advance frame 0)] := rfl
  rw [split, bytesAt_add, bytesAt_add, bytesAt_add, first]
  simp only [framePartsAt, FrameParts.bytes, toList_vectorAt, advance_advance]

/-- The calls after the text of a seal: the tag lands behind the ciphertext. -/
theorem finishSeal_works {library : Library} {limit : Nat}
    (gcm : ImplementsGcm library limit) {tag : Ptr}
    {key : Vector Byte 16} {iv : Vector Byte 12} {installed text : List Byte}
    {s : ProcessState} (holds : session s.history = .keyed .encrypt key iv installed text) :
    (finishSeal tag).Ensures library s fun rc s' _ => rc = 0 ∧
      bytesAt s'.memory tag 16 = (Standard.Gcm.authEncrypt (aes key) iv text []).2 ∧
      ∀ q ∉ region tag 16, s'.memory q = s.memory q := by
  let final : Request := .final .encrypt tag
  let reply := library s.history (final.call s.memory)
  obtain ⟨rc, none⟩ : reply.rc = 1 ∧ reply.produced = 0 :=
    gcm.finalEncrypt s.history key iv installed text holds
  have history : (s.answered final reply).history =
      s.history ++ [⟨.final .encrypt, 1⟩] := by
    rw [← rc]
    rfl
  obtain ⟨got, computed⟩ := gcm.getTag s.history key iv installed text holds
  rw [← history] at got computed
  have memory : (s.answered final reply).memory = s.memory := answered_memory rfl reply
  refine Ensures.bind_eq (rfl : ask final library s =
    ⟨reply, s.answered final reply, [.ask final]⟩) ?_
  refine Ensures.ite (fun bad => absurd rc bad) fun _ => ?_
  refine Ensures.ite (fun bad => absurd none bad) fun _ => ?_
  refine require_works got fun s' written _ => Ensures.pure ⟨rfl, ?_, ?_⟩
  · rw [written]
    refine bytesAt_fill _ tag (by decide) (Standard.Gcm.length_tag ..) computed
  · intro q out
    rw [written]
    exact (fill_outside out _).trans (congrFun memory q)

/-- The version byte and the IV after they have been written. -/
theorem header_written {before after : Memory} {dst : Ptr}
    {output : Nat → Option Byte}
    (written : after = fill (Function.update before (advance dst 0) 1#8)
      (advance dst VERSION_LEN) IV_LEN output) :
    after (advance dst 0) = 1#8 ∧
    (∀ iv : Vector Byte 12, (∀ i < 12, output i = iv.toList[i]?) →
      vectorAt after (advance dst VERSION_LEN) IV_LEN = iv) ∧
    ∀ q ∉ region dst 13, after q = before q := by
  refine ⟨?_, fun iv yields => Vector.toList_inj.mp ?_, fun q out => ?_⟩
  · have versionPart : advance dst 0 ∈ region (advance dst 0) 1 := by
      rw [region_advance_zero]
      exact mem_region (by decide)
    have apart : advance dst 0 ∉ region (advance dst VERSION_LEN) IV_LEN :=
      Set.disjoint_left.mp (region_disjoint (by decide) (by decide)) versionPart
    rw [written, fill_outside apart, Function.update_self]
  · rw [toList_vectorAt, written]
    exact bytesAt_fill _ _ (by decide) (by simp) yields
  · have afterVersion : q ∉ region (advance dst VERSION_LEN) IV_LEN := fun inside =>
      out (region_advance (by decide) inside)
    rw [written, fill_outside afterVersion]
    exact Function.update_of_ne (fun same => out ⟨0, by decide, same⟩) ..

/-- Buffers of a seal: room for the frame, apart from the text and the key. -/
structure SealBuffers (key src : Ptr) (srcLen : Nat) (dst : Ptr) (dstLen : Nat) :
    Prop where
  keyNonnull : key ≠ 0
  srcNonnull : src ≠ 0
  dstNonnull : dst ≠ 0
  room : srcLen + 29 ≤ dstLen
  apartSrc : Disjoint (region dst (srcLen + 29)) (region src srcLen)
  apartKey : Disjoint (region dst (srcLen + 29)) (region key 16)

/-- A seal writes the frame of the standard under the IV that the library
yields, and nothing else. -/
theorem seal_works {library : Library} {limit : Nat}
    (gcm : ImplementsGcm library limit) {key src dst : Ptr} {srcLen dstLen : Nat}
    (buffers : SealBuffers key src srcLen dst dstLen) (small : srcLen + 29 < 2 ^ 64)
    (admissible : srcLen ≤ limit) {s : ProcessState} (context : s.hasContext = true) :
    (lmcacheAes128gcmSeal key src srcLen dst dstLen).Ensures library s
      fun rc s' _ => rc = 0 ∧
        (∃ iv, (∀ given, Yields library s.history given → iv = given) ∧
          bytesAt s'.memory dst (srcLen + 29) =
            Standard.sealFrame (aes (vectorAt s.memory key 16)) iv
              (bytesAt s.memory src srcLen)) ∧
        ∀ q ∉ region dst (srcLen + 29), s'.memory q = s.memory q := by
  have overhead : FRAME_OVERHEAD = 29 := rfl
  have header : HEADER_LEN = 13 := rfl
  obtain ⟨keyNonnull, srcNonnull, dstNonnull, room, apartSrc, apartKey⟩ := buffers
  have large : ¬ dstLen < u64 (srcLen + FRAME_OVERHEAD) := by
    unfold u64
    omega
  rw [lmcacheAes128gcmSeal, if_neg (by simp [keyNonnull, srcNonnull, dstNonnull]),
    if_neg large]
  refine Ensures.bind_eq rfl ?_
  rw [if_neg (by simp [context])]
  refine require_works_silent (gcm.reset _) rfl fun s₁ memory₁ history₁ => ?_
  refine Ensures.bind_eq rfl ?_
  refine require_works (gcm.randBytes _) fun s₂ memory₂ history₂ => ?_
  refine require_works_silent (gcm.initCipher _ _) rfl fun s₃ memory₃ history₃ => ?_
  have chosen₃ : session s₃.history = .chosen .encrypt := by
    rw [history₃, session_concat]
    rfl
  refine require_works_silent (gcm.setIvLen _ _ chosen₃) rfl
    fun s₄ memory₄ history₄ => ?_
  have chosen₄ : session s₄.history = .chosen .encrypt := by
    rw [history₄, session_concat, chosen₃]
    rfl
  refine require_works_silent (gcm.initKey _ _ _ _ chosen₄) rfl
    fun s₅ memory₅ history₅ => ?_
  obtain ⟨version, yielded, outside⟩ := header_written memory₂
  rw [memory₁] at outside
  let iv := vectorAt s₂.memory (advance dst VERSION_LEN) IV_LEN
  have before₄ : s₄.memory = s₂.memory := memory₄.trans memory₃
  have before₅ : s₅.memory = s₂.memory := memory₅.trans before₄
  have secret : vectorAt s₄.memory key 16 = vectorAt s.memory key 16 := by
    rw [before₄]
    refine vectorAt_congr fun q inside => outside q fun hit => ?_
    exact Set.disjoint_left.mp apartKey (region_mono (by omega) hit) inside
  have text : bytesAt s₅.memory src srcLen = bytesAt s.memory src srcLen := by
    rw [before₅]
    refine bytesAt_congr fun q inside => outside q fun hit => ?_
    exact Set.disjoint_left.mp apartSrc (region_mono (by omega) hit) inside
  have installed : session s₅.history =
      .keyed .encrypt (vectorAt s.memory key 16) iv [] [] := by
    have keyCall : Request.call s₄.memory
        (.initKey .encrypt key (advance dst VERSION_LEN)) =
          .initKey .encrypt (vectorAt s.memory key 16) iv := by
      rw [Request.call, secret, before₄]
    rw [history₅, keyCall, session_concat, chosen₄]
    rfl
  let cipher := advance dst HEADER_LEN
  let tag := advance cipher srcLen
  have cipherInside : region cipher srcLen ⊆ region dst (srcLen + 29) :=
    region_advance (by omega)
  have tagPlace : tag = advance dst (13 + srcLen) := advance_advance ..
  have tagInside : region tag 16 ⊆ region dst (srcLen + 29) := by
    rw [tagPlace]
    exact region_advance (by omega)
  refine Ensures.bind (updateAll_whole gcm .encrypt (-20) (-21) (by omega) admissible
    (apartSrc.mono_left cipherInside) installed text)
    fun rc s₆ _ ⟨code, history, encrypted, outside₆⟩ => ?_
  refine Ensures.ite (fun failed => absurd code failed) fun _ => ?_
  refine (finishSeal_works gcm history).mono fun rc s₇ _ ⟨zero, tagged, outside₇⟩ =>
    ⟨zero, ⟨iv, fun given yields => yielded given fun i below => ?_, ?_⟩,
      fun q out => ?_⟩
  · show (library s₁.history (.randBytes 12)).output i = _
    rw [history₁]
    exact yields i below
  · have headerKept : ∀ q ∈ region dst 13, s₇.memory q = s₂.memory q := by
      intro q inside
      rw [← region_advance_zero] at inside
      rw [outside₇ q, outside₆ q, before₅]
      · exact Set.disjoint_left.mp (region_disjoint (by omega) (by omega)) inside
      · rw [show advance (advance dst HEADER_LEN) srcLen = tag from rfl, tagPlace]
        exact Set.disjoint_left.mp (region_disjoint (by omega) (by omega)) inside
    have parts : framePartsAt s₇.memory dst srcLen = ⟨1#8, iv,
        (Standard.Gcm.authEncrypt (aes (vectorAt s.memory key 16)) iv
          (bytesAt s.memory src srcLen) []).1,
        (Standard.Gcm.authEncrypt (aes (vectorAt s.memory key 16)) iv
          (bytesAt s.memory src srcLen) []).2⟩ := by
      refine FrameParts.ext ?_ ?_ ?_ tagged
      · exact (headerKept _ (mem_region (by decide))).trans version
      · refine vectorAt_congr fun q inside => ?_
        exact headerKept q (region_advance (by decide) inside)
      · refine Eq.trans (bytesAt_congr fun q inside => outside₇ q fun hit => ?_)
          encrypted
        rw [show advance (advance dst HEADER_LEN) srcLen = tag from rfl, tagPlace] at hit
        exact Set.disjoint_left.mp (region_disjoint (by omega) (by omega)) inside hit
    rw [← framePartsAt_bytes, parts]
    rfl
  · rw [outside₇ q fun hit => out (tagInside hit),
      outside₆ q fun hit => out (cipherInside hit), before₅]
    exact outside q fun hit => out (region_mono (by omega) hit)

end GpuKvSeal.Cpu
