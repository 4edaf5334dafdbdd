import GpuKvSeal.Cpu.Works
import GpuKvSeal.Serde.Native

/-!
# The native serde round-trips and fails cleanly

The wrapper recomputes the length of the frame from the text, so padding behind
a frame is never looked at.  A failure either happens before the backend is
called, or the backend has cleaned up.  The addresses are taken in a way that
needs writable buffers, also where they are only read.
-/

namespace GpuKvSeal.Serde

open BigEndian (Byte)
open Cpu
open Device (Ptr u64 advance FRAME_OVERHEAD)
open Standard.Gcm (aes)
open TracedState.Traced (Ensures)

/-! ## Statement -/

/-- The array of the key is new: apart from the buffers. -/
structure Fresh (holder : Ptr) (src dst : View) : Prop where
  nonnull : holder ≠ 0
  apartSrc : Disjoint (region holder 16) (region src.address src.length)
  apartDst : Disjoint (region holder 16) (region dst.address dst.length)

/-- A text of `n` bytes, and a buffer with room for its frame. -/
structure SerializeBuffers (n : Nat) (holder : Ptr) (src dst : View) : Prop where
  size : src.length = n
  room : n + 29 ≤ dst.length
  srcWritable : src.readonly = false
  dstWritable : dst.readonly = false
  fresh : Fresh holder src dst
  apart : Disjoint (region dst.address (n + 29)) (region src.address n)

/-- A buffer with the frame of `n` bytes and perhaps padding, and one for the
text. -/
structure DeserializeBuffers (n : Nat) (holder : Ptr) (src dst : View) : Prop where
  size : dst.length = n
  room : n + 29 ≤ src.length
  srcWritable : src.readonly = false
  dstWritable : dst.readonly = false
  fresh : Fresh holder src dst
  apart : Disjoint (region dst.address n) (region src.address (n + 29))

section Statement

variable {Salt Dtype : Type} (elementSize : Dtype → Nat) (keys : KeyProvider Salt)

/-- Over a library that implements GCM for texts of the size of the layout,
`serialize` writes a frame of the estimated size and nothing behind it, and
`deserialize` restores the text from any buffer that starts with this frame,
with any key of the same salt, later and in whatever state. -/
def RoundTrips : Prop :=
  ∀ library n, ImplementsGcm library n →
  ∀ layout : MemoryLayoutDesc Dtype, layout.shapes.length = layout.dtypes.length →
  totalBytes elementSize layout = n → 1 ≤ n →
  ∀ holder src dst, SerializeBuffers n holder src dst →
  ∀ (key : ObjectKey Salt) (s : ProcessState), s.hasContext = true →
  let o := NativeAesGcmSerializer.serialize keys holder src dst key library s
  o.value = .ok (n + 29) ∧
  estimateSerializedSize elementSize layout = .ok ((n + 29 : Nat) : Int) ∧
  (∀ q ∉ region dst.address (n + 29), q ∉ region holder 16 →
    o.state.memory q = s.memory q) ∧
  ∀ library', ImplementsGcm library' n →
  ∀ holder' src' dst', DeserializeBuffers n holder' src' dst' →
  ∀ (key' : ObjectKey Salt) (s' : ProcessState), s'.hasContext = true →
  key'.cacheSalt = key.cacheSalt →
  bytesAt s'.memory src'.address (n + 29) =
    bytesAt o.state.memory dst.address (n + 29) →
  let o' := NativeAesGcmDeserializer.deserialize keys holder' src' dst' key' library' s'
  o'.value = .ok () ∧
    bytesAt o'.state.memory dst'.address n = bytesAt s.memory src.address n

/-- Whatever the buffers, the key and the library are, a `deserialize` that raises
leaves its destination unchanged or all zero. -/
def DeserializesCleanly : Prop :=
  ∀ library holder (src dst : View) (key : ObjectKey Salt) (s : ProcessState),
  Disjoint (region holder 16) (region dst.address dst.length) →
  let o := NativeAesGcmDeserializer.deserialize keys holder src dst key library s
  ∀ e, o.value = .error e →
    (∀ q ∈ region dst.address dst.length, o.state.memory q = s.memory q) ∨
    ∀ q ∈ region dst.address dst.length, o.state.memory q = 0#8

/-- A `serialize` that raises before the native call leaves its destination as it
was. -/
def SerializesCleanly : Prop :=
  ∀ library holder (src dst : View) (key : ObjectKey Salt) (s : ProcessState),
  Disjoint (region holder 16) (region dst.address dst.length) →
  let o := NativeAesGcmSerializer.serialize keys holder src dst key library s
  ∀ e, (NativeAesGcmSerializer.prepare keys holder src dst key library s).value =
      .error e →
    o.value = .error e ∧
    ∀ q ∈ region dst.address dst.length, o.state.memory q = s.memory q

end Statement

/-! ## Before the native call -/

/-- What the preparation of a native call leaves: nothing but the copy of the key
has changed. -/
structure Prepared (holder : Ptr) (s s' : ProcessState) : Prop where
  outside : ∀ q ∉ region holder 16, s'.memory q = s.memory q
  context : s'.hasContext = s.hasContext

/-- The preparation succeeds with the key in place. -/
structure Ready (secret : Vector Byte 16) (holder : Ptr) (src dst : View)
    (s s' : ProcessState) (result : Except PyError NativeArguments) : Prop where
  prepared : Prepared holder s s'
  arguments : result = .ok ⟨holder, src.address, dst.address⟩
  held : vectorAt s'.memory holder 16 = secret

section Prepare

variable {Salt : Type} {keys : KeyProvider Salt} {holder : Ptr} {src dst : View}
  {key : ObjectKey Salt} {library : Library} {s : ProcessState}

theorem Prepared.refl : Prepared holder s s := ⟨fun _ _ => rfl, rfl⟩

/-- The copy of a key. -/
theorem keyPtr_prepared (library : Library) (s : ProcessState) {dek : List Byte}
    (length : dek.length = 16) :
    Prepared holder s (keyPtr holder dek library s).state := by
  refine ⟨fun q out => ?_, rfl⟩
  refine fill_outside ?_ fun i => dek[i]?
  rw [length]
  exact out

/-- An address is the one of the view. -/
theorem addressOf_eq {view : View} {p : Ptr} (found : addressOf view = .ok p) :
    p = view.address := by
  unfold addressOf at found
  split at found
  · cases found
  split at found
  · cases found
  · exact (Except.ok.inj found).symm

theorem nativeArguments_prepared :
    (nativeArguments keys holder src dst key).Ensures library s
      fun result s' _ => Prepared holder s s' ∧
        ∀ a, result = .ok a → a.dst = dst.address := by
  unfold nativeArguments
  cases keys key.cacheSalt with
  | error e => exact Ensures.pure ⟨.refl, fun a ok => by cases ok⟩
  | ok dek =>
      refine Ensures.ite (fun _ => Ensures.pure ⟨.refl, fun a ok => by cases ok⟩)
        fun good => ?_
      have length : dek.length = 16 := Decidable.not_not.mp good
      refine Ensures.bind_eq rfl (Ensures.pure ⟨keyPtr_prepared library s length, ?_⟩)
      intro a ok
      cases first : addressOf src with
      | error e =>
          rw [first] at ok
          cases ok
      | ok p =>
          cases second : addressOf dst with
          | error e =>
              rw [first, second] at ok
              cases ok
          | ok q =>
              rw [first, second] at ok
              cases ok
              exact addressOf_eq second

theorem addressOf_ok {view : View} (positive : view.length ≠ 0)
    (writable : view.readonly = false) : addressOf view = .ok view.address := by
  rw [addressOf, if_neg positive, if_neg (by rw [writable]; decide)]

theorem nativeArguments_ready {secret : Vector Byte 16}
    (returns : keys key.cacheSalt = .ok secret.toList) (srcPositive : src.length ≠ 0)
    (dstPositive : dst.length ≠ 0) (srcWritable : src.readonly = false)
    (dstWritable : dst.readonly = false) :
    (nativeArguments keys holder src dst key).Ensures library s
      fun result s' _ => Ready secret holder src dst s s' result := by
  have length : secret.toList.length = 16 := Vector.length_toList
  unfold nativeArguments
  rw [returns]
  refine Ensures.ite (fun bad => absurd length bad) fun _ => ?_
  refine Ensures.bind_eq rfl (Ensures.pure ⟨keyPtr_prepared library s length, ?_, ?_⟩)
  · rw [addressOf_ok srcPositive srcWritable, addressOf_ok dstPositive dstWritable]
    rfl
  · refine Vector.toList_inj.mp ?_
    rw [toList_vectorAt, length]
    exact bytesAt_fill s.memory holder (by decide) length fun _ _ => rfl

end Prepare

/-! ## Read-only sources -/

section Readonly

variable {Salt : Type} {keys : KeyProvider Salt} {src dst : View} {key : ObjectKey Salt}
  {secret : Vector Byte 16} (returns : keys key.cacheSalt = .ok secret.toList)
  (positive : src.length ≠ 0) (readonly : src.readonly = true) (holder : Ptr)
  (library : Library) (s : ProcessState)

include returns positive readonly

variable (dst) in
theorem nativeArguments_readonly :
    (nativeArguments keys holder src dst key library s).value =
      .error (.typeError "underlying buffer is not writable") := by
  have length : secret.toList.length = 16 := Vector.length_toList
  have raises : addressOf src =
      .error (.typeError "underlying buffer is not writable") := by
    rw [addressOf, if_neg positive, if_pos readonly]
  unfold nativeArguments
  rw [returns]
  dsimp only
  rw [if_neg (not_not_intro length), raises]
  rfl

theorem serialize_readonly (room : src.length + FRAME_OVERHEAD ≤ dst.length) :
    (NativeAesGcmSerializer.serialize keys holder src dst key library s).value =
      .error (.typeError "underlying buffer is not writable") := by
  have raises := nativeArguments_readonly dst returns positive readonly holder library s
  rw [NativeAesGcmSerializer.serialize, TracedState.Traced.bind_apply,
    NativeAesGcmSerializer.prepare, if_neg (by omega), raises]
  rfl

theorem deserialize_readonly (room : dst.length + FRAME_OVERHEAD ≤ src.length) :
    (NativeAesGcmDeserializer.deserialize keys holder src dst key library s).value =
      .error (.typeError "underlying buffer is not writable") := by
  have raises := nativeArguments_readonly dst returns positive readonly holder library s
  rw [NativeAesGcmDeserializer.deserialize, TracedState.Traced.bind_apply,
    NativeAesGcmDeserializer.prepare, if_neg (by omega), raises]
  rfl

end Readonly

/-! ## Failures -/

section Failures

variable {Salt : Type} (keys : KeyProvider Salt)

theorem serialize_cleanly : SerializesCleanly keys := by
  intro library holder src dst key s apart o e failed
  let before := NativeAesGcmSerializer.prepare keys holder src dst key library s
  have prepared : (NativeAesGcmSerializer.prepare keys holder src dst key).Ensures
      library s fun _ s' _ => Prepared holder s s' := by
    refine Ensures.ite (fun _ => Ensures.pure .refl) fun _ => ?_
    exact nativeArguments_prepared.mono fun _ _ _ facts => facts.1
  have run : NativeAesGcmSerializer.prepare keys holder src dst key library s =
      ⟨.error e, before.state, before.events⟩ := by
    rw [← failed]
  suffices clean : (NativeAesGcmSerializer.serialize keys holder src dst key).Ensures
      library s fun result s' _ => result = .error e ∧
        ∀ q ∈ region dst.address dst.length, s'.memory q = s.memory q from clean
  refine Ensures.bind_eq run (Ensures.pure ⟨rfl, fun q inside => ?_⟩)
  exact prepared.outside q fun hit => Set.disjoint_left.mp apart hit inside

theorem deserialize_cleanly : DeserializesCleanly keys := by
  intro library holder src dst key s apart
  have kept : ∀ s' : ProcessState, Prepared holder s s' →
      ∀ q ∈ region dst.address dst.length, s'.memory q = s.memory q :=
    fun s' prepared q inside =>
      prepared.outside q fun hit => Set.disjoint_left.mp apart hit inside
  suffices clean : (NativeAesGcmDeserializer.deserialize keys holder src dst
      key).Ensures library s fun result s' _ => ∀ e, result = .error e →
        (∀ q ∈ region dst.address dst.length, s'.memory q = s.memory q) ∨
        ∀ q ∈ region dst.address dst.length, s'.memory q = 0#8 from clean
  have prepare : (NativeAesGcmDeserializer.prepare keys holder src dst key).Ensures
      library s fun result s' _ => Prepared holder s s' ∧
        ∀ a, result = .ok a → a.dst = dst.address := by
    refine Ensures.ite (fun _ => Ensures.pure ⟨.refl, fun a ok => by cases ok⟩) ?_
    exact fun _ => nativeArguments_prepared
  refine Ensures.bind prepare fun result s₁ _ ⟨prepared, pointers⟩ => ?_
  cases result with
  | error e => exact Ensures.pure fun _ _ => Or.inl (kept s₁ prepared)
  | ok a =>
      have bound := dst.length_lt
      have overhead : FRAME_OVERHEAD = 29 := rfl
      have frameLen : u64 (dst.length + FRAME_OVERHEAD) - 29 = dst.length := by
        unfold u64
        omega
      have word : u64 (dst.length + FRAME_OVERHEAD) < 2 ^ 64 :=
        Nat.mod_lt _ (by decide)
      have opening := lmcacheAes128gcmOpen_safe library a.keyPtr a.src a.dst word
        (u64 dst.length) s₁
      rw [frameLen] at opening
      have place := pointers a rfl
      refine Ensures.bind opening fun rc s₂ _ opened => ?_
      have clean : rc ≠ 0 →
          (∀ q ∈ region dst.address dst.length, s₂.memory q = s.memory q) ∨
          ∀ q ∈ region dst.address dst.length, s₂.memory q = 0#8 := by
        intro nonzero
        rcases opened.refused nonzero with same | wiped
        · refine Or.inl fun q inside => ?_
          rw [same q (place ▸ inside), kept s₁ prepared q inside]
        · exact Or.inr fun q inside => wiped q (place ▸ inside)
      refine Ensures.ite (fun tag => Ensures.pure fun _ _ => clean ?_) fun _ => ?_
      · rw [tag]
        decide
      refine Ensures.ite (fun bad => Ensures.pure fun _ _ => clean bad) fun _ => ?_
      exact Ensures.pure fun e raised => by cases raised

end Failures

/-! ## The round trip -/

section RoundTrip

variable {Salt Dtype : Type} (elementSize : Dtype → Nat) {keys : KeyProvider Salt}

/-- Preparing a `serialize` succeeds. -/
theorem serialize_ready {n : Nat} {holder : Ptr} {src dst : View}
    (buffers : SerializeBuffers n holder src dst) (positive : 1 ≤ n)
    {key : ObjectKey Salt} {secret : Vector Byte 16}
    (returns : keys key.cacheSalt = .ok secret.toList) (library : Library)
    (s : ProcessState) :
    (NativeAesGcmSerializer.prepare keys holder src dst key).Ensures library s
      fun result s' _ => Ready secret holder src dst s s' result := by
  have overhead : FRAME_OVERHEAD = 29 := rfl
  have size := buffers.size
  have room := buffers.room
  rw [NativeAesGcmSerializer.prepare, if_neg (by omega)]
  exact nativeArguments_ready returns (by omega) (by omega) buffers.srcWritable
    buffers.dstWritable

/-- Preparing a `deserialize` succeeds. -/
theorem deserialize_ready {n : Nat} {holder : Ptr} {src dst : View}
    (buffers : DeserializeBuffers n holder src dst) (positive : 1 ≤ n)
    {key : ObjectKey Salt} {secret : Vector Byte 16}
    (returns : keys key.cacheSalt = .ok secret.toList) (library : Library)
    (s : ProcessState) :
    (NativeAesGcmDeserializer.prepare keys holder src dst key).Ensures library s
      fun result s' _ => Ready secret holder src dst s s' result := by
  have overhead : FRAME_OVERHEAD = 29 := rfl
  have size := buffers.size
  have room := buffers.room
  rw [NativeAesGcmDeserializer.prepare, if_neg (by omega)]
  exact nativeArguments_ready returns (by omega) (by omega) buffers.srcWritable
    buffers.dstWritable

/-- A `serialize` writes the frame of its text under some IV. -/
theorem serialize_works {library : Library} {n : Nat} (gcm : ImplementsGcm library n)
    (positive : 1 ≤ n) {holder : Ptr} {src dst : View}
    (buffers : SerializeBuffers n holder src dst) {key : ObjectKey Salt}
    {secret : Vector Byte 16} (returns : keys key.cacheSalt = .ok secret.toList)
    {s : ProcessState} (context : s.hasContext = true) :
    (NativeAesGcmSerializer.serialize keys holder src dst key).Ensures library s
      fun result s' _ => result = .ok (n + 29) ∧
        (∃ iv, bytesAt s'.memory dst.address (n + 29) =
          Standard.sealFrame (aes secret) iv (bytesAt s.memory src.address n)) ∧
        ∀ q ∉ region dst.address (n + 29), q ∉ region holder 16 →
          s'.memory q = s.memory q := by
  have overhead : FRAME_OVERHEAD = 29 := rfl
  obtain ⟨size, room, -, -, fresh, apart⟩ := id buffers
  have srcBound := src.length_lt
  have dstBound := dst.length_lt
  have srcWord : u64 src.length = n := by
    unfold u64
    omega
  have dstWord : u64 dst.length = dst.length := by
    unfold u64
    omega
  refine Ensures.bind (serialize_ready buffers positive returns library s)
    fun result s₁ _ ⟨prepared, arguments, held⟩ => ?_
  subst arguments
  have text : bytesAt s₁.memory src.address n = bytesAt s.memory src.address n := by
    refine bytesAt_congr fun q inside => prepared.outside q fun hit => ?_
    exact Set.disjoint_left.mp fresh.apartSrc hit (size ▸ inside)
  have sealing : SealBuffers holder src.address n dst.address dst.length :=
    ⟨fresh.nonnull, src.nonnull (by omega), dst.nonnull (by omega), room, apart,
      fresh.apartDst.symm.mono_left (region_mono room)⟩
  have works := seal_works gcm sealing (by omega) le_rfl
    (prepared.context.trans context)
  rw [held, text] at works
  dsimp only
  rw [srcWord, dstWord]
  refine Ensures.bind works fun rc s₂ _ ⟨code, ⟨iv, _, frame⟩, outside⟩ => ?_
  refine Ensures.ite (fun bad => absurd code bad) fun _ => Ensures.pure ⟨?_, ⟨iv, frame⟩,
    fun q out notKey => ?_⟩
  · rw [size, overhead]
  · rw [outside q out, prepared.outside q notKey]

/-- A `deserialize` restores the text of a frame. -/
theorem deserialize_works {library : Library} {n : Nat} (gcm : ImplementsGcm library n)
    (positive : 1 ≤ n) {holder : Ptr} {src dst : View}
    (buffers : DeserializeBuffers n holder src dst) {key : ObjectKey Salt}
    {secret : Vector Byte 16} (returns : keys key.cacheSalt = .ok secret.toList)
    {s : ProcessState} (context : s.hasContext = true) {iv : Vector Byte 12}
    {text : List Byte} (length : text.length = n)
    (frame : bytesAt s.memory src.address (n + 29) =
      Standard.sealFrame (aes secret) iv text) :
    (NativeAesGcmDeserializer.deserialize keys holder src dst key).Ensures library s
      fun result s' _ => result = .ok () ∧ bytesAt s'.memory dst.address n = text := by
  have overhead : FRAME_OVERHEAD = 29 := rfl
  obtain ⟨size, room, -, -, fresh, apart⟩ := id buffers
  have srcBound := src.length_lt
  have dstBound := dst.length_lt
  have frameWord : u64 (dst.length + FRAME_OVERHEAD) = n + 29 := by
    unfold u64
    omega
  have dstWord : u64 dst.length = dst.length := by
    unfold u64
    omega
  refine Ensures.bind (deserialize_ready buffers positive returns library s)
    fun result s₁ _ ⟨prepared, arguments, held⟩ => ?_
  subst arguments
  let f := framePartsAt s₁.memory src.address n
  have cipher : f.cipher.length = n := length_framePartsAt ..
  have bytes : f.bytes = Standard.sealFrame (aes secret) iv text := by
    rw [← frame, framePartsAt_bytes]
    refine bytesAt_congr fun q inside => prepared.outside q fun hit => ?_
    exact Set.disjoint_left.mp fresh.apartSrc hit (region_mono room inside)
  have opened := Standard.openFrame_of_bytes (length.trans cipher.symm) bytes
  have opening : OpenBuffers holder src.address n dst.address dst.length :=
    ⟨fresh.nonnull, src.nonnull (by omega), dst.nonnull (by omega), by omega, apart⟩
  have works := open_works gcm opening (by omega) le_rfl
    (prepared.context.trans context)
  rw [held] at works
  have accepted := works.accepted text opened
  rw [cipher] at accepted
  have restores : (lmcacheAes128gcmOpen holder src.address (n + 29) dst.address
      dst.length).Ensures library s₁ fun rc s' _ =>
        rc = 0 ∧ bytesAt s'.memory dst.address n = text := accepted
  dsimp only
  rw [frameWord, dstWord]
  refine Ensures.bind restores fun rc s₂ _ ⟨code, restored⟩ => ?_
  refine Ensures.ite (fun tag => ?_) fun _ => ?_
  · exact absurd (code.symm.trans tag) (by decide)
  refine Ensures.ite (fun bad => absurd code bad) fun _ => ?_
  exact Ensures.pure ⟨rfl, restored⟩

theorem estimateSerializedSize_eq {layout : MemoryLayoutDesc Dtype} {n : Nat}
    (equal : layout.shapes.length = layout.dtypes.length)
    (total : totalBytes elementSize layout = n) :
    estimateSerializedSize elementSize layout = .ok ((n + 29 : Nat) : Int) := by
  rw [estimateSerializedSize, plaintextBytes_eq elementSize equal, total]
  rfl

theorem round_trips
    (returns : ∀ salt, ∃ secret : Vector Byte 16, keys salt = .ok secret.toList) :
    RoundTrips elementSize keys := by
  intro library n gcm layout equal total positive holder src dst buffers key s context o
  obtain ⟨secret, returned⟩ := returns key.cacheSalt
  obtain ⟨value, ⟨iv, frame⟩, outside⟩ :=
    serialize_works gcm positive buffers returned context
  refine ⟨value, estimateSerializedSize_eq elementSize equal total, outside, ?_⟩
  intro library' gcm' holder' src' dst' buffers' key' s' context' salt same o'
  rw [← salt] at returned
  exact deserialize_works gcm' positive buffers' returned context' (length_bytesAt ..)
    (same.trans frame)

end RoundTrip

/-- The native serde round-trips with every provider that returns keys of sixteen
bytes, and fails cleanly with every provider. -/
theorem native_serde_correct {Salt Dtype : Type} (elementSize : Dtype → Nat)
    (keys : KeyProvider Salt) :
    ((∀ salt, ∃ secret : Vector Byte 16, keys salt = .ok secret.toList) →
      RoundTrips elementSize keys) ∧
    DeserializesCleanly keys ∧ SerializesCleanly keys :=
  ⟨round_trips elementSize, deserialize_cleanly keys, serialize_cleanly keys⟩

/-- Two tensors of seven elements together, in a buffer with padding. -/
theorem native_serde_correct_example :
    let keys : KeyProvider Unit := fun _ => .ok (Vector.replicate 16 0#8).toList
    let src : View := ⟨16, 14, false, by decide, by decide⟩
    let dst : View := ⟨64, 100, false, by decide, by decide⟩
    let s : ProcessState := ⟨fun q => BitVec.ofNat 8 q, [], true⟩
    (NativeAesGcmSerializer.serialize keys 256 src dst ⟨()⟩
      (gcmLibrary (Vector.replicate 12 0#8)) s).value = .ok 43 := by
  intro keys src dst s
  have sealing : SerializeBuffers 14 256 src dst := by
    refine ⟨rfl, by decide, rfl, rfl, ⟨by decide, ?_, ?_⟩, ?_⟩
    · exact (region_disjoint (by decide) (by decide) :
        Disjoint (region (advance 0 16) 14) (region (advance 0 256) 16)).symm
    · exact (region_disjoint (by decide) (by decide) :
        Disjoint (region (advance 0 64) 100) (region (advance 0 256) 16)).symm
    · exact (region_disjoint (by decide) (by decide) :
        Disjoint (region (advance 0 16) 14) (region (advance 0 64) 43)).symm
  have returns : ∀ salt, ∃ secret : Vector Byte 16, keys salt = .ok secret.toList :=
    fun _ => ⟨Vector.replicate 16 0#8, rfl⟩
  exact ((native_serde_correct (fun _ : Unit => 2) keys).1 returns _ 14
    (gcmLibrary_implements _ _) ⟨[[2, 2], [3]], [(), ()]⟩ rfl (by decide) (by decide) 256
    src dst sealing ⟨()⟩ s rfl).1

/-- Without the right to write to it a source is refused: the text of these two
tensors as well as their frame. -/
theorem readonly_source :
    let keys : KeyProvider Unit := fun _ => .ok (Vector.replicate 16 0#8).toList
    let text : Bool → View := fun readonly =>
      ⟨16, 14, readonly, by decide, by decide⟩
    let frame : Bool → View := fun readonly =>
      ⟨64, 100, readonly, by decide, by decide⟩
    let library := gcmLibrary (Vector.replicate 12 0#8)
    let s : ProcessState := ⟨fun q => BitVec.ofNat 8 q, [], true⟩
    let sealed := NativeAesGcmSerializer.serialize keys 256 (text false) (frame false)
      ⟨()⟩ library s
    estimateSerializedSize (fun _ : Unit => 2) ⟨[[2, 2], [3]], [(), ()]⟩ = .ok 43 ∧
    (NativeAesGcmSerializer.serialize keys 256 (text true) (frame false) ⟨()⟩ library
      s).value = .error (.typeError "underlying buffer is not writable") ∧
    (NativeAesGcmDeserializer.deserialize keys 256 (frame true) (text false) ⟨()⟩
      library sealed.state).value =
        .error (.typeError "underlying buffer is not writable") := by
  intro keys text frame library s sealed
  have returns : keys (⟨()⟩ : ObjectKey Unit).cacheSalt =
    .ok (Vector.replicate 16 0#8).toList := rfl
  refine ⟨rfl, ?_, ?_⟩
  · exact serialize_readonly returns (by decide : (text true).length ≠ 0) rfl 256 library s
      (by decide)
  · exact deserialize_readonly returns (by decide : (frame true).length ≠ 0) rfl 256
      library sealed.state (by decide)

end GpuKvSeal.Serde
