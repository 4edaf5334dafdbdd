import GpuKvSeal.Cpu.Process
import GpuKvSeal.Standard.Frame

/-!
# What a context holds

The calls that succeeded since the last reset determine what a context holds:
the direction, the key and the IV, the tag to compare with, and the data passed
to it.  The contracts of the library are stated over this session.
-/

namespace GpuKvSeal.Cpu

open BigEndian (Byte)
open Device (Ptr advance)
open Standard.Gcm (aes gctr inc32 preCounter)

/-- What a context holds. -/
structure Session where
  /-- Whether a cipher has been selected. -/
  selected : Bool
  direction : Option Direction
  ivLen : Nat
  secret : Option (Vector Byte 16 × Vector Byte 12)
  tag : List Byte
  fed : List Byte
  deriving DecidableEq, Repr

namespace Session

/-- A context after a reset; twelve is the length of an IV unless one sets it. -/
def blank : Session := ⟨false, none, 12, none, [], []⟩

/-- A context for which a cipher has been selected. -/
def chosen (direction : Direction) : Session :=
  ⟨true, some direction, 12, none, [], []⟩

/-- The effect of a successful call. -/
def after (s : Session) : Call → Session
  | .reset => blank
  | .initCipher direction => chosen direction
  | .setIvLen n => { s with ivLen := n }
  | .initKey direction key iv =>
      { s with direction := some direction, secret := some (key, iv), fed := [] }
  | .setTag tag => { s with tag := tag }
  | .update _ input => { s with fed := s.fed ++ input }
  | .final _ | .getTag _ | .randBytes _ => s

/-- A context ready for data in a direction, under a key and an IV. -/
def keyed (direction : Direction) (key : Vector Byte 16) (iv : Vector Byte 12)
    (tag fed : List Byte) : Session :=
  ⟨true, some direction, 12, some (key, iv), tag, fed⟩

/-- The data in the other form: encrypted or decrypted. -/
def text (s : Session) : List Byte :=
  match s.secret with
  | none => []
  | some (key, iv) => gctr (aes key) (inc32 (preCounter iv)) s.fed

/-- The tag of the data, which are plaintext or ciphertext. -/
def computedTag (s : Session) : List Byte :=
  match s.secret, s.direction with
  | some (key, iv), some .encrypt => Standard.Gcm.tag (aes key) iv [] s.text
  | some (key, iv), some .decrypt => Standard.Gcm.tag (aes key) iv [] s.fed
  | _, _ => []

/-- The installed tag matches all data passed to the context for decryption. -/
def Verified (s : Session) : Prop :=
  s.direction = some .decrypt ∧ s.secret.isSome ∧ s.computedTag = s.tag

instance (s : Session) : Decidable s.Verified := inferInstanceAs (Decidable (_ ∧ _))

theorem verified_keyed (key : Vector Byte 16) (iv : Vector Byte 12)
    (tag fed : List Byte) : (keyed .decrypt key iv tag fed).Verified ↔
      Standard.Gcm.tag (aes key) iv [] fed = tag :=
  ⟨fun verified => verified.2.2, fun same => ⟨rfl, rfl, same⟩⟩

end Session

/-- What the calls so far have left in the context. -/
def session (history : List Answered) : Session :=
  history.foldl (fun s a => if a.rc = 1 then s.after a.call else s) .blank

@[simp]
theorem session_concat (history : List Answered) (call : Call) :
    session (history ++ [⟨call, 1⟩]) = (session history).after call := by
  simp [session]

/-- Data passed on in several successful updates. -/
theorem session_updates {ι : Type} (history : List Answered) (direction : Direction)
    (list : List ι) (input : ι → List Byte) :
    session (history ++ list.map fun i => ⟨.update direction (input i), 1⟩) =
      { session history with fed := (session history).fed ++ list.flatMap input } := by
  induction list generalizing history with
  | nil => simp
  | cons i list ih =>
      have shift : history ++ (i :: list).map
            (fun i => (⟨.update direction (input i), 1⟩ : Answered)) =
          (history ++ [⟨.update direction (input i), 1⟩]) ++ list.map
            fun i => ⟨.update direction (input i), 1⟩ := by
        simp
      rw [shift, ih, session_concat, Session.after, List.flatMap_cons,
        ← List.append_assoc]

/-- Updates change nothing but the data, whether they succeed or not. -/
theorem session_append_updates {direction : Direction} {key : Vector Byte 16}
    {iv : Vector Byte 12} {tag fed : List Byte} {history later : List Answered}
    (holds : session history = .keyed direction key iv tag fed)
    (updates : ∀ a ∈ later, ∃ input, a.call = .update direction input) :
    ∃ fed', session (history ++ later) = .keyed direction key iv tag fed' := by
  induction later generalizing history fed with
  | nil => exact ⟨fed, by rw [List.append_nil, holds]⟩
  | cons a later ih =>
      obtain ⟨here, rest⟩ := List.forall_mem_cons.mp updates
      obtain ⟨input, call⟩ := here
      have next : ∃ fed', session (history ++ [a]) =
          .keyed direction key iv tag fed' := by
        rw [session, List.foldl_append, List.foldl_cons, List.foldl_nil, ← session, holds,
          call]
        split
        · exact ⟨fed ++ input, rfl⟩
        · exact ⟨fed, rfl⟩
      obtain ⟨fed', middle⟩ := next
      rw [List.append_cons]
      exact ih middle rest

/-! ## Streams -/

/-- The output for further data after some data have been passed on. -/
def streamed (key : Vector Byte 16) (iv : Vector Byte 12) (fed input : List Byte) :
    List Byte :=
  (gctr (aes key) (inc32 (preCounter iv)) (fed ++ input)).drop fed.length

@[simp]
theorem length_streamed (key : Vector Byte 16) (iv : Vector Byte 12)
    (fed input : List Byte) : (streamed key iv fed input).length = input.length := by
  simp [streamed]

theorem streamed_nil (key : Vector Byte 16) (iv : Vector Byte 12)
    (input : List Byte) :
    streamed key iv [] input = gctr (aes key) (inc32 (preCounter iv)) input := rfl

/-- Two inputs in a row have the output of one. -/
theorem streamed_append (key : Vector Byte 16) (iv : Vector Byte 12)
    (fed first second : List Byte) :
    streamed key iv fed (first ++ second) =
      streamed key iv fed first ++ streamed key iv (fed ++ first) second := by
  let whole := gctr (aes key) (inc32 (preCounter iv)) (fed ++ first ++ second)
  have beginning : gctr (aes key) (inc32 (preCounter iv)) (fed ++ first) =
      whole.take (fed ++ first).length := by
    show _ = (gctr _ _ _).take _
    rw [Standard.Gcm.inc32_preCounter, Standard.Gcm.take_gctr_append]
  have within : fed.length ≤ (whole.take (fed ++ first).length).length := by
    rw [← beginning, Standard.Gcm.length_gctr, List.length_append]
    exact Nat.le_add_right _ _
  calc
    streamed key iv fed (first ++ second) = whole.drop fed.length := by
      rw [streamed, ← List.append_assoc]
    _ = (whole.take (fed ++ first).length ++
        whole.drop (fed ++ first).length).drop fed.length := by
      rw [List.take_append_drop]
    _ = (whole.take (fed ++ first).length).drop fed.length ++
        whole.drop (fed ++ first).length := List.drop_append_of_le_length within
    _ = streamed key iv fed first ++ streamed key iv (fed ++ first) second := by
      rw [← beginning]
      rfl

/-! ## Contracts -/

/-- The final call of a decryption succeeds only if the tag matches. -/
def FinalVerifies (library : Library) : Prop :=
  ∀ history key iv tag fed, session history = .keyed .decrypt key iv tag fed →
    (library history (.final .decrypt)).rc = 1 →
    Standard.Gcm.tag (aes key) iv [] fed = tag

/-- The library implements GCM with streaming updates for texts up to a length.  On
a context that was prepared in the right order it fails only at the final call of a
decryption with a bad tag. -/
structure ImplementsGcm (library : Library) (limit : Nat) : Prop where
  reset : ∀ history, (library history .reset).rc = 1
  randBytes : ∀ history, (library history (.randBytes 12)).rc = 1
  initCipher : ∀ history direction, (library history (.initCipher direction)).rc = 1
  setIvLen : ∀ history direction, session history = .chosen direction →
    (library history (.setIvLen 12)).rc = 1
  initKey : ∀ history direction key iv, session history = .chosen direction →
    (library history (.initKey direction key iv)).rc = 1
  setTag : ∀ history key iv tag, session history = .keyed .decrypt key iv [] [] →
    tag.length = 16 → (library history (.setTag tag)).rc = 1
  update : ∀ history direction key iv tag fed input,
    session history = .keyed direction key iv tag fed →
    input.length < 2 ^ 31 → fed.length + input.length ≤ limit →
    (library history (.update direction input)).rc = 1 ∧
    (library history (.update direction input)).produced = input.length ∧
    ∀ i < input.length, (library history (.update direction input)).output i =
      (streamed key iv fed input)[i]?
  finalEncrypt : ∀ history key iv tag fed,
    session history = .keyed .encrypt key iv tag fed →
    (library history (.final .encrypt)).rc = 1 ∧
    (library history (.final .encrypt)).produced = 0
  getTag : ∀ history key iv tag fed,
    session history = .keyed .encrypt key iv tag fed →
    (library (history ++ [⟨.final .encrypt, 1⟩]) (.getTag 16)).rc = 1 ∧
    ∀ i < 16, (library (history ++ [⟨.final .encrypt, 1⟩]) (.getTag 16)).output i =
      (Standard.Gcm.authEncrypt (aes key) iv fed []).2[i]?
  finalDecrypt : ∀ history key iv tag fed,
    session history = .keyed .decrypt key iv tag fed →
    ((library history (.final .decrypt)).rc = 1 ↔
      Standard.Gcm.tag (aes key) iv [] fed = tag)

/-- The random bytes of the library are these in a seal that follows these calls. -/
def Yields (library : Library) (history : List Answered) (iv : Vector Byte 12) : Prop :=
  ∀ i < 12, (library (history ++ [⟨.reset, 1⟩]) (.randBytes 12)).output i =
    iv.toList[i]?

/-- A library that does what it should, for texts of any length. -/
def gcmLibrary (iv : Vector Byte 12) : Library := fun history call =>
  let s := session history
  match call with
  | .update direction input =>
      ⟨1, input.length, fun i =>
        ((s.after (.update direction input)).text.drop s.fed.length)[i]?⟩
  | .final .decrypt => ⟨if s.Verified then 1 else 0, 0, fun _ => none⟩
  | .getTag _ => ⟨1, 0, fun i => s.computedTag[i]?⟩
  | .randBytes _ => ⟨1, 0, fun i => iv.toList[i]?⟩
  | _ => ⟨1, 0, fun _ => none⟩

theorem gcmLibrary_implements (iv : Vector Byte 12) (limit : Nat) :
    ImplementsGcm (gcmLibrary iv) limit where
  reset _ := rfl
  randBytes _ := rfl
  initCipher _ _ := rfl
  setIvLen _ _ _ := rfl
  initKey _ _ _ _ _ := rfl
  setTag _ _ _ _ _ _ := rfl
  update history direction key iv tag fed input holds _ _ := by
    refine ⟨rfl, rfl, fun i _ => ?_⟩
    rw [gcmLibrary, holds]
    rfl
  finalEncrypt _ _ _ _ _ _ := ⟨rfl, rfl⟩
  getTag history key iv tag fed holds := by
    refine ⟨rfl, fun i _ => ?_⟩
    rw [gcmLibrary, session_concat, holds]
    rfl
  finalDecrypt history key iv tag fed holds := by
    rw [gcmLibrary, holds, ← Session.verified_keyed]
    simp

theorem gcmLibrary_yields (iv : Vector Byte 12) (history : List Answered) :
    Yields (gcmLibrary iv) history iv :=
  fun _ _ => rfl

theorem gcmLibrary_finalVerifies (iv : Vector Byte 12) :
    FinalVerifies (gcmLibrary iv) := fun history key iv' tag fed holds accepted =>
  ((gcmLibrary_implements iv 0).finalDecrypt history key iv' tag fed holds).mp accepted

end GpuKvSeal.Cpu
