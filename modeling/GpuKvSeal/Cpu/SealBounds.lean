import GpuKvSeal.Cpu.Chunks

/-!
# A CPU seal inside its buffers

The size check of a seal adds in 64 bits.  While the sum does not wrap, all that
the seal reads or writes, and all that it asks the library to read or write,
lies in its buffers.
-/

namespace GpuKvSeal.Cpu

open BigEndian (Byte)
open Device (Ptr u64 advance VERSION_LEN IV_LEN TAG_LEN HEADER_LEN FRAME_OVERHEAD)
open TracedState.Traced (Emits)

/-- The step keeps to the text, the key, the IV in the frame, and the frame. -/
structure Step.Inside (key src : Ptr) (srcLen : Nat) (dst : Ptr) (dstLen : Nat)
    (step : Step) : Prop where
  reads : step.reads ⊆
    region src srcLen ∪ region key 16 ∪ region (advance dst VERSION_LEN) IV_LEN
  writes : step.writes ⊆ region dst dstLen

/-- The library accepts all data and reports all of them as produced. -/
def UpdatesSucceed (library : Library) : Prop :=
  ∀ history input, (library history (.update .encrypt input)).rc = 1 ∧
    (library history (.update .encrypt input)).produced = input.length

/-- The update loop of a seal passes the text on in chunks that cover it, and
ends after as many rounds as there are chunks. -/
structure LoopTiles (srcLen : Nat) : Prop where
  tiles : Tiles srcLen (chunks srcLen 0)
  rounds : ∀ library s src dst, ∃ later,
    (chunks srcLen 0).map (updateStep .encrypt src dst) =
      (encryptUpdateAll src srcLen dst library s).events ++ later ∧
    ((encryptUpdateAll src srcLen dst library s).value = 0 → later = [])
  ends : ∀ library, UpdatesSucceed library → ∀ s src dst,
    (encryptUpdateAll src srcLen dst library s).value = 0 ∧
    (encryptUpdateAll src srcLen dst library s).events.length = chunkCount srcLen

/-- A seal that passes its size check has the room it needs, stays inside its
buffers and covers its text, whatever the library does. -/
def SealBounded (srcLen dstLen : Nat) : Prop :=
  ∀ library s key src dst, key ≠ 0 → src ≠ 0 → dst ≠ 0 →
    (lmcacheAes128gcmSeal key src srcLen dst dstLen library s).value ≠ -2 →
      srcLen + 29 ≤ dstLen ∧
      (∀ step ∈ (lmcacheAes128gcmSeal key src srcLen dst dstLen library s).events,
        step.Inside key src srcLen dst dstLen) ∧
      LoopTiles srcLen

/-! ## The loop -/

/-- A library that accepts everything lets the loop run to its end. -/
theorem updateAll_succeeds {library : Library} (succeeds : UpdatesSucceed library)
    (src dst : Ptr) (len done : Nat) (s : ProcessState) :
    (updateAll .encrypt (-20) (-21) src len dst done library s).value = 0 := by
  have positive : 0 < INT_MAX := by decide
  induction remaining : len - done using Nat.strongRecOn generalizing done s with
  | ind remaining ih =>
      rw [updateAll]
      split
      · rename_i more
        let r : Request := .update .encrypt (advance dst done) (advance src done)
          (min (len - done) INT_MAX)
        obtain ⟨rc, produced⟩ := succeeds s.history
          (bytesAt s.memory (advance src done) (min (len - done) INT_MAX))
        rw [length_bytesAt] at produced
        have reply : ask r library s = ⟨library s.history (r.call s.memory),
          s.answered r (library s.history (r.call s.memory)), [.ask r]⟩ := rfl
        have good : ¬ (library s.history (r.call s.memory)).rc ≠ 1 :=
          not_not.mpr rc
        have whole : ¬ (library s.history (r.call s.memory)).produced ≠
            (min (len - done) INT_MAX : Nat) := not_not.mpr produced
        rw [TracedState.Traced.bind_apply, reply]
        dsimp only
        rw [if_neg good, if_neg whole]
        exact ih _ (by omega) _ _ rfl
      · rfl

theorem loopTiles (srcLen : Nat) : LoopTiles srcLen where
  tiles := chunks_tiles srcLen
  rounds library s src dst :=
    (updateAll_spec .encrypt (by decide) (by decide) src dst srcLen 0 s).steps
  ends library succeeds s src dst := by
    have value := updateAll_succeeds succeeds src dst srcLen 0 s
    have looped : Looped .encrypt (-20) (-21) src dst srcLen 0 s
        (encryptUpdateAll src srcLen dst library s).value
        (encryptUpdateAll src srcLen dst library s).state
        (encryptUpdateAll src srcLen dst library s).events :=
      updateAll_spec .encrypt (by decide) (by decide) src dst srcLen 0 s
    obtain ⟨later, steps, all⟩ := looped.steps
    have count := congrArg List.length steps
    rw [List.length_map, all value, List.append_nil, (chunks_tiles srcLen).count]
      at count
    exact ⟨value, count.symm⟩

/-! ## The steps of a seal -/

section Inside

variable {P : Step → Prop}

theorem ask_emits {r : Request} (holds : P (.ask r)) : (ask r).Emits P := by
  intro library s step member
  rw [List.mem_singleton.mp member]
  exact holds

theorem require_emits {r : Request} {err : Int} {rest : Process Int}
    (holds : P (.ask r)) (after : rest.Emits P) : (require r err rest).Emits P :=
  (ask_emits holds).bind fun _ => .ite (fun _ => .pure _) fun _ => after

theorem updateAll_emits (direction : Direction) {errUpdate errProduced : Int}
    (updateNonzero : errUpdate ≠ 0) (producedNonzero : errProduced ≠ 0)
    (src dst : Ptr) (len : Nat)
    (holds : ∀ c ∈ chunks len 0, P (updateStep direction src dst c)) :
    (updateAll direction errUpdate errProduced src len dst 0).Emits P := by
  intro library s step member
  obtain ⟨later, steps, -⟩ := (updateAll_spec direction updateNonzero
    producedNonzero src dst len 0 s).steps
  have listed : step ∈ (chunks len 0).map (updateStep direction src dst) := by
    rw [steps]
    exact List.mem_append_left _ member
  obtain ⟨c, chunk, rfl⟩ := List.mem_map.mp listed
  exact holds c chunk

end Inside

/-- With room for the frame every step of a seal stays inside. -/
theorem seal_inside {key src dst : Ptr} {srcLen dstLen : Nat}
    (room : srcLen + 29 ≤ dstLen) :
    (lmcacheAes128gcmSeal key src srcLen dst dstLen).Emits
      (Step.Inside key src srcLen dst dstLen) := by
  have version : VERSION_LEN = 1 := rfl
  have ivLen : IV_LEN = 12 := rfl
  have tagLen : TAG_LEN = 16 := rfl
  have header : HEADER_LEN = 13 := rfl
  have silent : ∀ r : Request, r.reads = ∅ → r.buffer.2 = 0 →
      Step.Inside key src srcLen dst dstLen (.ask r) := by
    intro r reads writes
    refine ⟨?_, ?_⟩
    · rw [Step.reads, reads]
      exact Set.empty_subset _
    · rw [Step.writes, Request.writes, writes]
      rintro q ⟨i, below, -⟩
      omega
  have tag : ∀ r : Request, r.reads = ∅ →
      r.buffer = (advance (advance dst HEADER_LEN) srcLen, TAG_LEN) →
      Step.Inside key src srcLen dst dstLen (.ask r) := by
    intro r reads writes
    refine ⟨?_, ?_⟩
    · rw [Step.reads, reads]
      exact Set.empty_subset _
    · rw [Step.writes, Request.writes, writes, Device.advance_advance]
      exact region_advance (by omega)
  refine .ite (fun _ => .pure _) fun _ => .ite (fun _ => .pure _) fun _ =>
    .bind (.of_silent fun _ _ => rfl) fun _ => .ite (fun _ => .pure _) fun _ =>
      require_emits (silent _ rfl rfl) (.bind ?_ fun _ => ?_)
  · intro library s step member
    rw [List.mem_singleton.mp member]
    refine ⟨Set.empty_subset _, ?_⟩
    rintro q rfl
    exact mem_region (by omega)
  have ivRoom : region (advance dst VERSION_LEN) IV_LEN ⊆ region dst dstLen :=
    region_advance (by omega)
  refine require_emits ⟨Set.empty_subset _, ivRoom⟩
    (require_emits (silent _ rfl rfl) (require_emits (silent _ rfl rfl)
      (require_emits ⟨?_, ?_⟩ (.bind ?_ fun rc => .ite (fun _ => .pure _) fun _ =>
        .bind (ask_emits (silent _ rfl rfl)) fun final => .ite (fun _ => .pure _)
          fun _ => .ite (fun _ => .pure _) fun _ =>
            require_emits (tag _ rfl rfl) (.pure _)))))
  · rintro q (inKey | inIv)
    · exact Or.inl (Or.inr inKey)
    · exact Or.inr inIv
  · rintro q ⟨i, below, -⟩
    exact absurd below (Nat.not_lt_zero i)
  · refine updateAll_emits .encrypt (by decide) (by decide) src _ srcLen
      fun c chunk => ?_
    have within := chunks_inside srcLen 0 c chunk
    refine ⟨fun q read => Or.inl (Or.inl (region_advance within read)), ?_⟩
    show region (advance (advance dst HEADER_LEN) c.1) c.2 ⊆ _
    rw [Device.advance_advance]
    exact region_advance (by omega)

/-! ## The size check -/

/-- The condition under which the size check compares with the size it means, or
rejects the lengths anyway. -/
def CheckAdequate (srcLen dstLen : Nat) : Prop :=
  srcLen + 29 < 2 ^ 64 ∨ dstLen < srcLen + 29 - 2 ^ 64

theorem sealBounded_of_adequate {srcLen dstLen : Nat} (word : srcLen < 2 ^ 64)
    (adequate : CheckAdequate srcLen dstLen) : SealBounded srcLen dstLen := by
  intro library s key src dst hasKey hasSrc hasDst passed
  have overhead : FRAME_OVERHEAD = 29 := rfl
  have large : ¬ dstLen < u64 (srcLen + FRAME_OVERHEAD) := by
    intro small
    rw [lmcacheAes128gcmSeal, if_neg (by simp [hasKey, hasSrc, hasDst]),
      if_pos small] at passed
    exact passed rfl
  have room : srcLen + 29 ≤ dstLen := by
    unfold u64 at large
    rcases adequate with fits | rejected
    · omega
    · omega
  exact ⟨room, seal_inside room library s, loopTiles srcLen⟩

/-- A thread without a context, for which a seal returns right after its check. -/
def noContext : ProcessState := ⟨fun _ => 0#8, [], false⟩

/-- Where the sum wraps and the destination has the wrapped size, the check
passes although there is no room for the frame. -/
theorem not_sealBounded {srcLen dstLen : Nat} (word : dstLen < 2 ^ 64)
    (inadequate : ¬ CheckAdequate srcLen dstLen) : ¬ SealBounded srcLen dstLen := by
  intro bounded
  have overhead : FRAME_OVERHEAD = 29 := rfl
  unfold CheckAdequate at inadequate
  have wrapped : ¬ dstLen < u64 (srcLen + FRAME_OVERHEAD) := by
    unfold u64
    omega
  let library : Library := fun _ _ => ⟨1, 0, fun _ => none⟩
  have value : (lmcacheAes128gcmSeal 1 1 srcLen 1 dstLen library noContext).value =
      -3 := by
    rw [lmcacheAes128gcmSeal, if_neg (by decide), if_neg wrapped]
    rfl
  have passed := bounded library noContext 1 1 1 one_ne_zero one_ne_zero one_ne_zero
    (by rw [value]; decide)
  have room := passed.1
  omega

/-- A seal is bounded for exactly the lengths whose size check is adequate. -/
theorem sealBounded_iff {srcLen dstLen : Nat} (srcWord : srcLen < 2 ^ 64)
    (dstWord : dstLen < 2 ^ 64) :
    SealBounded srcLen dstLen ↔
      srcLen + 29 < 2 ^ 64 ∨ dstLen < srcLen + 29 - 2 ^ 64 := by
  refine ⟨fun bounded => ?_, sealBounded_of_adequate srcWord⟩
  by_contra inadequate
  exact not_sealBounded dstWord inadequate bounded

/-- More than two chunks of data, with room for the frame. -/
theorem sealBounded_iff_example : SealBounded (2 ^ 32) (2 ^ 33) :=
  (sealBounded_iff (by decide) (by decide)).mpr (Or.inl (by decide))

/-- With 2 ^ 64 - 29 bytes of data a destination without any room passes. -/
theorem wrapped_size_check :
    ¬ ∀ srcLen < 2 ^ 64, ∀ dstLen < 2 ^ 64, SealBounded srcLen dstLen := by
  intro bounded
  have inadequate : ¬ CheckAdequate (2 ^ 64 - 29) 0 := by
    unfold CheckAdequate
    omega
  exact not_sealBounded (by decide) inadequate
    (bounded (2 ^ 64 - 29) (by decide) 0 (by decide))

end GpuKvSeal.Cpu
