import GpuKvSeal.Cpu.Chunks
import GpuKvSeal.Cpu.Session

/-!
# A CPU open exposes no provisional plaintext

Nothing is written before the first update, and from then on every exit but the
last one wipes the whole destination.  The library may fail at any call; all
that is asked of it is that the final call verifies the tag.
-/

namespace GpuKvSeal.Cpu

open BigEndian (Byte)
open Device (Ptr advance advance_advance advance_inj VERSION_LEN IV_LEN TAG_LEN
  HEADER_LEN FRAME_OVERHEAD)
open Standard (FrameParts)
open Standard.Gcm (aes)
open TracedState.Traced (Ensures)

/-! ## Statement -/

/-- The parts of the frame at an address. -/
def framePartsAt (memory : Memory) (frame : Ptr) (plaintextLen : Nat) :
    FrameParts where
  version := memory (advance frame 0)
  iv := vectorAt memory (advance frame VERSION_LEN) IV_LEN
  cipher := bytesAt memory (advance frame HEADER_LEN) plaintextLen
  tag := bytesAt memory (advance (advance frame HEADER_LEN) plaintextLen) TAG_LEN

/-- The buffers whose data went to updates, in order. -/
def fedBuffers (steps : List Step) : List (Ptr × Nat) :=
  steps.filterMap fun
    | .ask (.update _ _ src n) => some (src, n)
    | _ => none

/-- The session in which the frame is verified. -/
def frameSession (memory : Memory) (key frame : Ptr) (plaintextLen : Nat) :
    Session :=
  let f := framePartsAt memory frame plaintextLen
  .keyed .decrypt (vectorAt memory key 16) f.iv f.tag f.cipher

/-- What has happened when an open returns zero: the version is right, the chunks
of the ciphertext went to the context, each once and in order, and the last call
verified the tag, as far as the library keeps its contract.  If the destination
does not overlap the frame the session it verified is that of the frame. -/
structure Accepted (library : Library) (key frame : Ptr) (plaintextLen : Nat)
    (dst : Ptr) (s s' : ProcessState) (steps : List Step) : Prop where
  version : s.memory (advance frame 0) = 1#8
  fed : fedBuffers steps = (chunks plaintextLen 0).map fun c =>
    (advance frame (HEADER_LEN + c.1), c.2)
  tiles : Tiles plaintextLen (chunks plaintextLen 0)
  verified : ∃ before, s'.history = before ++ [⟨.final .decrypt, 1⟩] ∧
    (FinalVerifies library → (session before).Verified) ∧
    (Disjoint (region dst plaintextLen) (region frame (plaintextLen + 29)) →
      session before = frameSession s.memory key frame plaintextLen)

/-- An open changes nothing but the text, and that only to wipe it or when it
accepts the frame. -/
structure OpenSafe (library : Library) (key frame : Ptr) (plaintextLen : Nat)
    (dst : Ptr) (s : ProcessState) (rc : Int) (s' : ProcessState) (steps : List Step) :
    Prop where
  outside : ∀ q ∉ region dst plaintextLen, s'.memory q = s.memory q
  refused : rc ≠ 0 →
    (∀ q ∈ region dst plaintextLen, s'.memory q = s.memory q) ∨
    ∀ q ∈ region dst plaintextLen, s'.memory q = 0#8
  accepted : rc = 0 → Accepted library key frame plaintextLen dst s s' steps

/-! ## The calls before the text -/

section Silent

variable {library : Library} {s : ProcessState} {r : Request} {err : Int}
  {rest : Process Int} {post : Int → ProcessState → List Step → Prop}

theorem answered_memory (silent : r.buffer.2 = 0) (reply : Reply) :
    (s.answered r reply).memory = s.memory := by
  rw [ProcessState.answered, silent]
  exact fill_zero ..

/-- A call without output that gives up without having changed the memory. -/
theorem require_silent (silent : r.buffer.2 = 0)
    (failed : ∀ s' : ProcessState, s'.memory = s.memory → post err s' [.ask r])
    (continues : ∀ s' : ProcessState, s'.memory = s.memory →
      s'.history = s.history ++ [⟨r.call s.memory, 1⟩] →
      rest.Ensures library s' fun value s'' steps =>
        post value s'' (.ask r :: steps)) :
    (require r err rest).Ensures library s post := by
  refine require_spec (fun _ => failed _ (answered_memory silent _)) fun good => ?_
  refine continues _ (answered_memory silent _) ?_
  rw [← good]
  rfl

end Silent

/-! ## The text -/

theorem fedBuffers_updates (direction : Direction) (src dst : Ptr)
    (list : List (Nat × Nat)) :
    fedBuffers (list.map (updateStep direction src dst)) =
      list.map fun c => (advance src c.1, c.2) := by
  induction list with
  | nil => rfl
  | cons c list ih => exact congrArg _ ih

theorem fedBuffers_append (first second : List Step) :
    fedBuffers (first ++ second) = fedBuffers first ++ fedBuffers second :=
  List.filterMap_append

/-- What the calls after the installation of the tag have done. -/
structure TextSafe (library : Library) (ciphertext : Ptr) (plaintextLen : Nat)
    (dst : Ptr) (s : ProcessState) (rc : Int) (s' : ProcessState) (steps : List Step) :
    Prop where
  outside : ∀ q ∉ region dst plaintextLen, s'.memory q = s.memory q
  refused : rc ≠ 0 → ∀ q ∈ region dst plaintextLen, s'.memory q = 0#8
  fed : rc = 0 → fedBuffers steps = (chunks plaintextLen 0).map fun c =>
    (advance ciphertext c.1, c.2)
  verified : rc = 0 → ∃ before, s'.history = before ++ [⟨.final .decrypt, 1⟩] ∧
    (FinalVerifies library → (session before).Verified) ∧
    (Disjoint (region dst plaintextLen) (region ciphertext plaintextLen) →
      session before = { session s.history with
        fed := (session s.history).fed ++ bytesAt s.memory ciphertext plaintextLen })

/-- A wiped buffer. -/
theorem cleansed (memory : Memory) (dst : Ptr) {n : Nat} (small : n ≤ 2 ^ 64) :
    ∀ q ∈ region dst n, fill memory dst n (fun _ => some 0#8) q = 0#8 := by
  rintro q ⟨i, below, rfl⟩
  exact fill_inside memory dst small below _

theorem openText_spec {library : Library} (ciphertext dst : Ptr)
    {plaintextLen : Nat} (small : plaintextLen < 2 ^ 64) {s : ProcessState}
    {key : Vector Byte 16} {iv : Vector Byte 12} {tag : List Byte}
    (installed : session s.history = .keyed .decrypt key iv tag []) :
    (openText ciphertext plaintextLen dst).Ensures library s
      (TextSafe library ciphertext plaintextLen dst s) := by
  refine Ensures.bind (updateAll_spec .decrypt (by decide) (by decide) ciphertext dst
    plaintextLen 0 s) fun rc middle updates looped => ?_
  refine Ensures.ite (fun failed => ?_) fun done => ?_
  · refine Ensures.bind_eq rfl (Ensures.pure ⟨fun q out => ?_, fun _ => ?_,
      fun zero => absurd zero failed, fun zero => absurd zero failed⟩)
    · exact (fill_outside out fun _ => some 0#8).trans (looped.memory q out)
    · exact cleansed middle.memory dst small.le
  · have zero : rc = 0 := Decidable.not_not.mp done
    let final : Request := .final .decrypt (advance dst plaintextLen)
    let reply := library middle.history (final.call middle.memory)
    have same : (middle.answered final reply).memory = middle.memory :=
      answered_memory rfl reply
    refine Ensures.bind_eq (rfl : ask final library middle =
      ⟨reply, middle.answered final reply, [.ask final]⟩) ?_
    refine Ensures.ite (fun bad => ?_) fun good => ?_
    · refine Ensures.bind_eq rfl (Ensures.pure ⟨fun q out => ?_, fun _ => ?_,
        fun zero => absurd zero (by decide), fun zero => absurd zero (by decide)⟩)
      · refine (fill_outside out fun _ => some 0#8).trans ?_
        rw [same]
        exact looped.memory q out
      · exact cleansed _ dst small.le
    · have answered : reply.rc = 1 := Decidable.not_not.mp good
      refine Ensures.pure ⟨fun q out => ?_, fun nonzero => absurd rfl nonzero,
        fun _ => ?_, fun _ => ⟨middle.history, ?_, fun verifies => ?_, fun apart => ?_⟩⟩
      · rw [same]
        exact looped.memory q out
      · obtain ⟨later, steps, all⟩ := looped.steps
        rw [all zero, List.append_nil] at steps
        rw [fedBuffers_append, ← steps, fedBuffers_updates]
        exact List.append_nil _
      · rw [← answered]
        rfl
      · obtain ⟨later, history, onlyUpdates⟩ := looped.updates
        obtain ⟨fed, holds⟩ := session_append_updates installed onlyUpdates
        rw [← history] at holds
        rw [holds, Session.verified_keyed]
        exact verifies middle.history key iv tag fed holds answered
      · rw [looped.history apart zero, session_updates, flatMap_chunks,
          bytesAt_advance_zero, Nat.sub_zero]

/-! ## The open -/

/-- A refusal before the first write. -/
theorem openSafe_unchanged {library : Library} {key frame dst : Ptr} {plaintextLen : Nat}
    {s s' : ProcessState} {rc : Int} {steps : List Step} (same : s'.memory = s.memory)
    (nonzero : rc ≠ 0) : OpenSafe library key frame plaintextLen dst s rc s' steps where
  outside q _ := congrFun same q
  refused _ := Or.inl fun q _ => congrFun same q
  accepted zero := absurd zero nonzero

/-- The parts of a frame lie in it. -/
theorem region_cipher (frame : Ptr) (plaintextLen : Nat) :
    region (advance frame HEADER_LEN) plaintextLen ⊆
      region frame (plaintextLen + 29) := by
  have header : HEADER_LEN = 13 := rfl
  exact region_advance (by omega)

theorem openFrame_spec {library : Library} (key frame dst : Ptr) {plaintextLen : Nat}
    (small : plaintextLen < 2 ^ 64) {s : ProcessState}
    (version : s.memory (advance frame 0) = 1#8) :
    (openFrame key frame plaintextLen dst).Ensures library s
      (OpenSafe library key frame plaintextLen dst s) := by
  refine require_silent rfl (fun _ same => openSafe_unchanged same (by decide))
    fun s₁ same₁ history₁ => ?_
  refine require_silent rfl
    (fun _ same => openSafe_unchanged (same.trans same₁) (by decide))
    fun s₂ same₂ history₂ => ?_
  have memory₂ := same₂.trans same₁
  refine require_silent rfl
    (fun _ same => openSafe_unchanged (same.trans memory₂) (by decide))
    fun s₃ same₃ history₃ => ?_
  have memory₃ := same₃.trans memory₂
  refine require_silent rfl
    (fun _ same => openSafe_unchanged (same.trans memory₃) (by decide))
    fun s₄ same₄ history₄ => ?_
  have memory₄ := same₄.trans memory₃
  refine require_silent rfl
    (fun _ same => openSafe_unchanged (same.trans memory₄) (by decide))
    fun s₅ same₅ history₅ => ?_
  have memory₅ := same₅.trans memory₄
  have installed : session s₅.history =
      .keyed .decrypt (vectorAt s.memory key 16)
        (vectorAt s.memory (advance frame VERSION_LEN) IV_LEN)
        (bytesAt s.memory (advance (advance frame HEADER_LEN) plaintextLen) TAG_LEN)
        [] := by
    rw [history₅, session_concat, history₄, session_concat, history₃, session_concat,
      history₂, session_concat, history₁, session_concat, memory₃, memory₄]
    rfl
  refine (openText_spec (advance frame HEADER_LEN) dst small installed).mono ?_
  intro rc s' steps safe
  refine ⟨fun q out => ?_, fun nonzero => Or.inr (safe.refused nonzero),
    fun zero => ⟨version, ?_, chunks_tiles plaintextLen, ?_⟩⟩
  · rw [safe.outside q out, memory₅]
  · refine (safe.fed zero).trans (List.map_congr_left fun c _ => ?_)
    rw [advance_advance]
  · obtain ⟨before, history, verified, fed⟩ := safe.verified zero
    refine ⟨before, history, verified, fun apart => ?_⟩
    rw [fed (apart.mono_right (region_cipher frame plaintextLen)), installed, memory₅]
    rfl

/-- An open is safe with any arguments. -/
theorem lmcacheAes128gcmOpen_safe (library : Library) (key frame dst : Ptr)
    {frameLen : Nat} (word : frameLen < 2 ^ 64) (dstLen : Nat) (s : ProcessState) :
    (lmcacheAes128gcmOpen key frame frameLen dst dstLen).Ensures library s
      (OpenSafe library key frame (frameLen - 29) dst s) := by
  have overhead : FRAME_OVERHEAD = 29 := rfl
  refine Ensures.ite (fun _ => Ensures.pure (openSafe_unchanged rfl (by decide)))
    fun _ => ?_
  refine Ensures.ite (fun _ => Ensures.pure (openSafe_unchanged rfl (by decide)))
    fun _ => ?_
  refine Ensures.bind_eq rfl (Ensures.ite
    (fun _ => Ensures.pure (openSafe_unchanged rfl (by decide))) fun right => ?_)
  refine Ensures.ite (fun _ => Ensures.pure (openSafe_unchanged rfl (by decide)))
    fun _ => ?_
  refine Ensures.bind_eq rfl (Ensures.ite
    (fun _ => Ensures.pure (openSafe_unchanged rfl (by decide))) fun _ => ?_)
  have fits : frameLen - 29 < 2 ^ 64 := by omega
  refine (openFrame_spec key frame dst fits
    (Decidable.not_not.mp right)).mono fun rc s' steps safe => ?_
  refine ⟨safe.outside, safe.refused, fun zero => ?_⟩
  have accepted := safe.accepted zero
  exact ⟨accepted.version, accepted.fed, accepted.tiles, accepted.verified⟩

/-- Whatever the library does before its final call, and whatever its context
held, an open exposes no text of a frame it does not accept.  It accepts only
after the tag has been verified over the whole ciphertext, and writes nothing
behind the text or in the frame. -/
theorem open_safe (library : Library) (key frame dst : Ptr) {frameLen : Nat}
    (word : frameLen < 2 ^ 64) (dstLen : Nat) (s : ProcessState) :
    let o := lmcacheAes128gcmOpen key frame frameLen dst dstLen library s
    OpenSafe library key frame (frameLen - 29) dst s o.value o.state o.events ∧
    (∀ i, frameLen - 29 ≤ i → i < 2 ^ 64 →
      o.state.memory (advance dst i) = s.memory (advance dst i)) ∧
    (Disjoint (region dst (frameLen - 29)) (region frame frameLen) →
      ∀ i < frameLen, o.state.memory (advance frame i) = s.memory (advance frame i)) := by
  intro o
  have safe := lmcacheAes128gcmOpen_safe library key frame dst word dstLen s
  refine ⟨safe, fun i behind small => ?_, fun apart i below => ?_⟩
  · refine safe.outside _ ?_
    rintro ⟨j, less, same⟩
    have equal := advance_inj small (by omega) same
    omega
  · exact safe.outside _ fun inside =>
      Set.disjoint_left.mp apart inside (mem_region below)

/-- A frame of a three-byte text and a library that works, on a context that an
earlier call left behind. -/
theorem open_safe_example :
    let library := gcmLibrary (Vector.replicate 12 0#8)
    let s : ProcessState := ⟨fun _ => 1#8, [⟨.final .decrypt, 0⟩], true⟩
    let o := lmcacheAes128gcmOpen 16 64 32 256 3 library s
    FinalVerifies library ∧
      OpenSafe library 16 64 3 256 s o.value o.state o.events :=
  ⟨gcmLibrary_finalVerifies _, (open_safe _ 16 64 256 (by decide : 32 < 2 ^ 64) 3 _).1⟩

end GpuKvSeal.Cpu
