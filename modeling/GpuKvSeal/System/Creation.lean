import GpuKvSeal.Host.KeySteps
import GpuKvSeal.System.Tamper

/-!
# What a handle stands for that key creation returns

Key creation fills the tables of a key on the device that is current, and the
handle records the device that was asked for.  The two agree, and the table of
powers is filled, unless one of the two steps fails whose results are not
looked at.
-/

namespace GpuKvSeal.System

open BigEndian (Byte)
open Device
open Host
open Refinement
open Standard (Gcm.element)
open Standard.Gcm (aes)

/-- The buffers of a handle are on its device and hold the tables of the key:
the words of the key schedule, and the powers of the hash key. -/
structure Delivered (secret : Vector Byte 16) (s : HostState) (h : KeyHandle)
    (memory : Memory) : Prop where
  roundKeysPlaced : ⟨h.dRoundKeys, 176, h.device⟩ ∈ s.allocations
  powersPlaced : ⟨h.dHPow2, sizeofBlock128 * 64, h.device⟩ ∈ s.allocations
  roundKeys : ∀ word < 44, ∀ row : Fin 4,
    (memory (.roundKeys h.dRoundKeys))[4 * word + row.val]? =
      some (Standard.Aes.keyWord secret word row)
  powers : PowerTable memory h.dHPow2 (Gcm.element (aes secret 0#128))

/-- The expanded key is the key schedule of the standard, word by word. -/
theorem expandAes128Key_words (key : Vector Byte 16) {word : Nat}
    (below : word < 44) (row : Fin 4) :
    (expandAes128Key key)[4 * word + row.val]? =
      some (Standard.Aes.keyWord key word row) := by
  have entry := (expanded_initial key).expandLoop word row below
  have bound : 4 * word + row.val < 176 := by omega
  rw [← entry, expandAes128Key, Vector.getElem?_eq_getElem bound,
    Option.getD_some]

/-- No table is right for every key that has the same entries throughout. -/
theorem powersMemory_wrong (h : Standard.Gcm.Element) (hPow2 : Ptr) :
    ∃ x, ¬ PowerTable (powersMemory x) hPow2 h := by
  by_contra all
  have tables := fun x => not_not.mp (not_exists.mp all x)
  have zero : value ⟨0#64, 0#64⟩ = h := (tables ⟨0#64, 0#64⟩).first
  have one : value gfOne = h := (tables gfOne).first
  exact absurd (value_injective (zero.trans one.symm)) (by decide)

/-- The case in which key creation overlooks a failure: every step whose result
it looks at succeeds, but the switch to the device of the key or the launch
that fills the table of powers is refused. -/
def Overlooked (driver : Driver) (s : HostState) (device : Int) : Prop :=
  CreationSteps driver (s.calls + guardCalls s.device device) ∧
    (SwitchRefused driver s device ∨
      ¬ driver.Accepts (s.calls + guardCalls s.device device + 5))

/-- A handle that key creation returns is the one asked for, whatever was in
memory before and however the device schedules its threads, exactly if no
failure was overlooked. -/
theorem keyCreate_delivers_iff {driver : Driver}
    (reliable : driver.Succeeds {.getDevice}) (s : HostState)
    (secret : Vector Byte 16) (device : Int) {out : Ptr} (nonnull : out ≠ 0) :
    (∀ schedule memory,
      let o := lmcacheGpuAes128gcmKeyCreate (some secret) 16 device out driver s
      o.value = .ok →
      ∃ h, o.state.handles.lookup (o.state.outs out) = some h ∧
        h.device = device ∧
        Delivered secret o.state h (drain schedule o.events memory)) ↔
      ¬ Overlooked driver s device := by
  have spec := lmcacheGpuAes128gcmKeyCreate_filled driver reliable s secret device
    nonnull
  unfold TracedState.Traced.Ensures at spec
  generalize lmcacheGpuAes128gcmKeyCreate (some secret) 16 device out driver s = o
    at spec
  dsimp only
  constructor
  · rintro delivers ⟨steps, overlooked⟩
    have ok := spec.code.mpr steps
    obtain ⟨s₁, p, roundKeys, hPow2, current, counted, filled⟩ := spec.filled ok
    have found : o.state.handles.lookup (o.state.outs out) =
        some { device := device, dRoundKeys := roundKeys, dHPow2 := hPow2 } := by
      rw [filled.outs]
      exact filled.handle
    rcases overlooked with refused | rejected
    · -- The buffers are on the device that was current before.
      obtain ⟨h, live, -, delivered⟩ := delivers inOrder blankMemory ok
      obtain rfl := Option.some.inj (found.symm.trans live)
      have placed := delivered.roundKeysPlaced
      rw [if_pos refused] at current
      rw [filled.allocations, current] at placed
      simp only [List.mem_cons, Allocation.mk.injEq] at placed
      rcases placed with ⟨-, size, -⟩ | ⟨-, -, moved⟩ | old
      · exact absurd size (by decide)
      · exact refused.1 moved.symm
      · exact filled.fresh (List.mem_map_of_mem old)
    · -- Nothing has filled the table of powers.
      obtain ⟨x, wrong⟩ := powersMemory_wrong (Gcm.element (aes secret 0#128)) hPow2
      obtain ⟨h, live, -, delivered⟩ := delivers inOrder (powersMemory x) ok
      obtain rfl := Option.some.inj (found.symm.trans live)
      refine wrong (delivered.powers.congr fun i _ => ?_)
      have skipped : ¬ driver.Accepts (s₁.calls + 4) := by
        rw [counted]
        exact rejected
      rw [filled.events, accepted, if_neg skipped, accepted]
      simp only [launchEvents, List.map_nil, List.append_nil, List.cons_append,
        List.nil_append, drain_cons, drain_nil, Event.apply]
      rw [CellProgram.Store.update_of_ne _ _ (by simp),
        CellProgram.Store.update_of_ne _ _ (by simp)]
  · intro noticed schedule memory ok
    have steps := spec.code.mp ok
    obtain ⟨s₁, p, roundKeys, hPow2, current, counted, filled⟩ := spec.filled ok
    have switched : ¬ SwitchRefused driver s device :=
      fun refused => noticed ⟨steps, Or.inl refused⟩
    have launched : driver.Accepts (s₁.calls + 4) := by
      rw [counted]
      by_contra rejected
      exact noticed ⟨steps, Or.inr rejected⟩
    rw [if_neg switched] at current
    have events := filled.events
    rw [accepted, if_pos launched, accepted, current] at events
    have ready := created_ready schedule secret memory device roundKeys hPow2
    rw [← events] at ready
    refine ⟨{ device := device, dRoundKeys := roundKeys, dHPow2 := hPow2 }, ?_,
      rfl, ?_, ?_, fun word below row => ?_, ready.powers⟩
    · rw [filled.outs]
      exact filled.handle
    · rw [filled.allocations, current]
      exact List.mem_cons_of_mem _ (List.mem_cons_self ..)
    · rw [filled.allocations, current]
      exact List.mem_cons_self ..
    · rw [ready.roundKeys]
      exact expandAes128Key_words secret below row

/-- A driver that refuses every switch of devices. -/
def unswitchable : Driver := .counting fun kind _ =>
  if kind = .setDevice then 101 else cudaSuccess

/-- The creation of the zero key for a device, against a driver. -/
def createOn (device : Int) (driver : Driver) :
    TracedState.Outcome HostState Event ReturnCode :=
  lmcacheGpuAes128gcmKeyCreate (some (Vector.replicate 16 0#8)) 16 device 8
    driver .blank

/-- The first key of a thread.  With the launch rejected that fills the table of
powers, creation reports success and the table is empty.  With the switch to
device one refused, it reports success for a key of device one whose tables are
on device zero. -/
theorem overlooked_creation :
    ((createOn 0 (.rejecting 6)).value = .ok ∧
      ¬ ∃ h, (createOn 0 (.rejecting 6)).state.handles.lookup
          ((createOn 0 (.rejecting 6)).state.outs 8) = some h ∧ h.device = 0 ∧
        Delivered (Vector.replicate 16 0#8) (createOn 0 (.rejecting 6)).state h
          (drain inOrder (createOn 0 (.rejecting 6)).events blankMemory)) ∧
    (createOn 1 unswitchable).value = .ok ∧
    (createOn 1 unswitchable).state.handles.lookup
      ((createOn 1 unswitchable).state.outs 8) = some ⟨1, 1, 2, 0, 0, 0⟩ ∧
    (createOn 1 unswitchable).state.allocations =
      [⟨2, 1024, 0⟩, ⟨1, 176, 0⟩] := by
  refine ⟨⟨by decide, ?_⟩, by decide, by decide, by decide⟩
  rintro ⟨h, live, -, delivered⟩
  have found : h = ⟨0, 1, 2, 0, 0, 0⟩ :=
    Option.some.inj (live.symm.trans (by decide))
  have first := delivered.powers.first
  rw [found] at first
  have blank : value ⟨0#64, 0#64⟩ =
      Gcm.element (aes (Vector.replicate 16 0#8) 0#128) := first
  rw [value_zero] at blank
  exact zeroKey_hashKey (Standard.Gcm.element_eq_zero_iff.mp blank.symm)

/-- On a driver that refuses nothing the key is delivered. -/
theorem keyCreate_delivers_iff_example :
    ∃ h, (createOn 1 .steady).state.handles.lookup
        ((createOn 1 .steady).state.outs 8) = some h ∧ h.device = 1 ∧
      Delivered (Vector.replicate 16 0#8) (createOn 1 .steady).state h
        (drain inOrder (createOn 1 .steady).events blankMemory) := by
  have noticed : ¬ Overlooked .steady .blank 1 := by
    rintro ⟨-, refused | rejected⟩
    · exact refused.2 rfl
    · exact rejected rfl
  exact (keyCreate_delivers_iff (Driver.steady_succeeds _) .blank
    (Vector.replicate 16 0#8) 1 (by decide : (8 : Ptr) ≠ 0)).mpr noticed inOrder
      blankMemory (by decide)

end GpuKvSeal.System
