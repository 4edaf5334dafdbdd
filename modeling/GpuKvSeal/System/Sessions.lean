import GpuKvSeal.System.Frames

/-!
# Keys in use

A key is in use from a successful creation until it is destroyed.  Meanwhile
other calls run, whatever their outcome, and the rest of the program does what
it likes with its own memory and with the workspaces.  The tables of the key
survive all of it.
-/

namespace GpuKvSeal.System

open BigEndian (Byte)
open Device
open Host
open Refinement
open Standard (FrameParts)

/-- `p` is a handle that key creation returned for `secret` and that is still
live; the host state and the device memory are the current ones. -/
inductive Live (schedule : Schedule) (secret : Vector Byte 16) (p : Ptr) :
    HostState → Memory → Prop
  | created {start s : HostState} {calls : List ApiCall} (fresh : Fresh start)
      (run : Run (fun _ => True) start calls s) (memory : Memory)
      {driver : Driver}
      (reliable : driver.Succeeds {.getDevice, .setDevice, .launch})
      (device : Int) (out : Ptr)
      (ok : (lmcacheGpuAes128gcmKeyCreate (some secret) 16 device out driver
        s).value = .ok)
      (stored : (lmcacheGpuAes128gcmKeyCreate (some secret) 16 device out driver
        s).state.outs out = p) :
      Live schedule secret p
        (lmcacheGpuAes128gcmKeyCreate (some secret) 16 device out driver s).state
        (drain schedule (lmcacheGpuAes128gcmKeyCreate (some secret) 16 device out
          driver s).events memory)
  | call {s : HostState} {memory : Memory} (live : Live schedule secret p s memory)
      (driver : Driver) (c : ApiCall) (allowed : c.Allowed s)
      (undestroyed : c ≠ .keyDestroy p) :
      Live schedule secret p (c.perform driver s).state
        (drain schedule (c.perform driver s).events memory)
  | outside {s : HostState} {memory memory' : Memory}
      (live : Live schedule secret p s memory)
      (tables : ∀ cell, isTable cell → memory' cell = memory cell) :
      Live schedule secret p s memory'

/-- What a live handle offers: its buffers are accounted for, and its tables
are those of the key. -/
structure Usable (secret : Vector Byte 16) (p : Ptr) (s : HostState)
    (memory : Memory) (leaked : List Block) (h : KeyHandle) : Prop where
  accounted : Accounted s leaked
  live : s.handles.lookup p = some h
  ready : Ready secret memory h.device h.dRoundKeys h.dHPow2

/-- No event of a call touches tables that were in use before it. -/
theorem CallEvent.ready (schedule : Schedule) {s : HostState} {event : Event}
    (callEvent : CallEvent s event) {secret : Vector Byte 16} {memory : Memory}
    {device : Int} {roundKeys hPow2 : Ptr}
    (keysLive : roundKeys ∈ s.livePtrs) (powersLive : hPow2 ∈ s.livePtrs)
    (ready : Ready secret memory device roundKeys hPow2) :
    Ready secret (event.apply schedule memory) device roundKeys hPow2 := by
  cases callEvent with
  | creation creation =>
      cases creation with
      | memcpyToSymbol other =>
          refine ⟨?_, ?_, ready.powers.congr fun i _ => ?_⟩
          · by_cases same : device = other
            · subst same
              exact CellProgram.Store.update_self ..
            · rw [Event.apply, CellProgram.Store.update_of_ne _ _ (by simpa)]
              exact ready.sbox
          · rw [Event.apply, CellProgram.Store.update_of_ne _ _ (by simp)]
            exact ready.roundKeys
          · exact CellProgram.Store.update_of_ne _ _ (by simp)
      | @memcpy q bytes fresh =>
          have other : roundKeys ≠ q := fun same => fresh (same ▸ keysLive)
          refine ⟨?_, ?_, ready.powers.congr fun i _ => ?_⟩
          · rw [Event.apply, CellProgram.Store.update_of_ne _ _ (by simp)]
            exact ready.sbox
          · rw [Event.apply, CellProgram.Store.update_of_ne _ _ (by simpa)]
            exact ready.roundKeys
          · exact CellProgram.Store.update_of_ne _ _ (by simp)
      | @initHashKey other otherKeys otherPowers fresh =>
          refine ready.congr fun cell table => ?_
          refine Launch.run_frame schedule _ memory ?_
          rintro ⟨_, -, i, -, rfl⟩
          rcases table with (same | same) | ⟨j, -, same⟩
          · cases same
          · cases same
          · exact fresh ((Cell.hPow2.inj same).1 ▸ powersLive)
      | synchronize => exact ready
      | malloc q => exact ready
      | free q => exact ready
  | operation stream l other =>
      exact ready.congr fun cell table => l.run_frame schedule memory
        fun write => operational_writes other write (tableCells_isTable table)

theorem drain_ready (schedule : Schedule) {s : HostState} {events : List Event}
    (callEvents : ∀ event ∈ events, CallEvent s event) {secret : Vector Byte 16}
    {memory : Memory} {device : Int} {roundKeys hPow2 : Ptr}
    (keysLive : roundKeys ∈ s.livePtrs) (powersLive : hPow2 ∈ s.livePtrs)
    (ready : Ready secret memory device roundKeys hPow2) :
    Ready secret (drain schedule events memory) device roundKeys hPow2 := by
  induction events generalizing memory with
  | nil => exact ready
  | cons event rest ih =>
      exact ih (fun other member => callEvents other (List.mem_cons_of_mem _ member))
        (CallEvent.ready schedule (callEvents event (List.mem_cons_self ..))
          keysLive powersLive ready)

/-- The tables of a live handle are allocated. -/
theorem tables_live {s : HostState} {leaked : List Block} {p : Ptr}
    {h : KeyHandle} (accounted : Accounted s leaked)
    (live : s.handles.lookup p = some h) :
    h.dRoundKeys ∈ s.livePtrs ∧ h.dHPow2 ∈ s.livePtrs := by
  have holds := accounted.split live
  constructor
  · exact holds.live.mpr (by simp [KeyHandle.buffers, KeyHandle.tables])
  · exact holds.live.mpr (by simp [KeyHandle.buffers, KeyHandle.tables])

/-- A successful creation leaves the tables of its key. -/
theorem created_ready (schedule : Schedule) (secret : Vector Byte 16)
    (memory : Memory) (device : Int) (roundKeys hPow2 : Ptr) :
    Ready secret (drain schedule ([.memcpyToSymbol device HOST_SBOX,
        .malloc roundKeys, .malloc hPow2,
        .memcpy roundKeys (expandAes128Key secret)] ++
        launchEvents 0 [⟨device, .initHashKey roundKeys hPow2, 1, 1⟩] ++
        [.synchronize]) memory) device roundKeys hPow2 := by
  let m₁ := memory.update (.sbox device) HOST_SBOX
  let m₂ := m₁.update (.roundKeys roundKeys) (expandAes128Key secret)
  let l : Launch := ⟨device, .initHashKey roundKeys hPow2, 1, 1⟩
  show Ready secret (l.run schedule m₂) device roundKeys hPow2
  have sbox : m₂ (.sbox device) = HOST_SBOX := by
    rw [CellProgram.Store.update_of_ne _ _ (by simp)]
    exact CellProgram.Store.update_self ..
  have keys : m₂ (.roundKeys roundKeys) = expandAes128Key secret :=
    CellProgram.Store.update_self ..
  refine ⟨?_, ?_, initHashKey_run schedule device roundKeys hPow2 m₂ sbox keys⟩
  · rw [l.run_frame schedule m₂, sbox]
    rintro ⟨_, -, i, -, same⟩
    cases same
  · rw [l.run_frame schedule m₂, keys]
    rintro ⟨_, -, i, -, same⟩
    cases same

/-- A live handle is usable. -/
theorem Live.usable {schedule : Schedule} {secret : Vector Byte 16} {p : Ptr}
    {s : HostState} {memory : Memory} (live : Live schedule secret p s memory) :
    ∃ leaked h, Usable secret p s memory leaked h := by
  induction live with
  | @created start s calls fresh run memory driver reliable device out ok stored =>
      obtain ⟨leaked, accounted⟩ := run.accounted ⟨[], fresh.accounted⟩
      have nonnull : out ≠ 0 := by
        rintro rfl
        rw [lmcacheGpuAes128gcmKeyCreate_refused device (Or.inr (Or.inl rfl))] at ok
        cases ok
      have created := lmcacheGpuAes128gcmKeyCreate_spec driver secret device
        nonnull accounted
      obtain ⟨lost, accounted', -⟩ := created.accounted
      obtain ⟨roundKeys, hPow2, found, trace⟩ := created.of_ok ok reliable
      rw [stored] at found
      refine ⟨lost ++ leaked, _, accounted', found, ?_⟩
      rw [trace]
      exact created_ready schedule secret memory device roundKeys hPow2
  | call live driver c allowed undestroyed ih =>
      obtain ⟨leaked, h, usable⟩ := ih
      have effect := ApiCall.perform_spec driver usable.accounted c allowed
      obtain ⟨lost, accounted', -⟩ := effect.accounted
      obtain ⟨h', live', extends_⟩ := effect.kept p h usable.live undestroyed
      obtain ⟨keysLive, powersLive⟩ := tables_live usable.accounted usable.live
      refine ⟨lost ++ leaked, h', accounted', live', ?_⟩
      rw [extends_.device, extends_.roundKeys, extends_.hPow2]
      exact drain_ready schedule effect.events keysLive powersLive usable.ready
  | outside live tables ih =>
      obtain ⟨leaked, h, usable⟩ := ih
      exact ⟨leaked, h, usable.accounted, usable.live,
        usable.ready.congr fun cell table => tables cell (tableCells_isTable table)⟩

theorem Live.nonnull {schedule : Schedule} {secret : Vector Byte 16} {p : Ptr}
    {s : HostState} {memory : Memory} (live : Live schedule secret p s memory) :
    p ≠ 0 := by
  obtain ⟨leaked, h, usable⟩ := live.usable
  exact usable.accounted.keys p (AList.lookup_isSome.mp (by rw [usable.live]; rfl))

/-- The threads of a launch in the order of their indices. -/
def inOrder : Schedule where
  order l _ := List.range l.threadCount
  complete _ _ := List.Perm.refl _

/-- Memory in which every byte and every word is zero. -/
def blankMemory : Memory :=
  ⟨fun cell => match cell with
    | .byte _ => 0#8
    | .flag _ => (0 : Int)
    | .sbox _ => Vector.replicate 256 0#8
    | .roundKeys _ => Vector.replicate 176 0#8
    | .hPow2 _ _ => ⟨0#64, 0#64⟩
    | .node _ _ => ⟨⟨0#64, 0#64⟩, 0#64⟩⟩

/-- Memory in which all tables of powers hold one value. -/
def powersMemory (x : Block128) : Memory :=
  ⟨fun cell => match cell with
    | .hPow2 _ _ => x
    | cell => blankMemory cell⟩

/-- The memory of a thread that has created one key. -/
def oneKeyMemory : Memory :=
  drain inOrder (ApiCall.createZero.perform .steady .blank).events blankMemory

theorem oneKey_live :
    Live inOrder (Vector.replicate 16 0#8) 1 .oneKey oneKeyMemory :=
  .created HostState.blank_fresh .nil blankMemory (Driver.steady_succeeds _) 0 8
    (by decide) (by decide)

/-- Memory with a text of the caller at address one. -/
def holding (memory : Memory) (text : List Byte) : Memory :=
  ⟨fun cell => match cell with
    | .byte address => text.getD (address - 1) 0#8
    | .flag address => memory (.flag address)
    | .sbox device => memory (.sbox device)
    | .roundKeys buffer => memory (.roundKeys buffer)
    | .hPow2 buffer index => memory (.hPow2 buffer index)
    | .node buffer index => memory (.node buffer index)⟩

theorem bytesAt_holding (memory : Memory) {text : List Byte} {n : Nat}
    (size : text.length = n) (small : n + 1 < 2 ^ 64) :
    (bytesAt (holding memory text) 1 n).toList = text := by
  refine List.ext_getElem (by simp [size]) fun i _ inside => ?_
  have address : advance 1 i = 1 + i := Nat.mod_eq_of_lt (by omega)
  rw [Vector.getElem_toList, getElem_bytesAt, address]
  show text.getD (1 + i - 1) 0#8 = text[i]
  rw [Nat.add_sub_cancel_left, List.getD_eq_getElem?_getD,
    List.getElem?_eq_getElem inside, Option.getD_some]

/-- A text of the caller does not touch the tables. -/
theorem Live.holding {schedule : Schedule} {secret : Vector Byte 16} {p : Ptr}
    {s : HostState} {memory : Memory} (live : Live schedule secret p s memory)
    (text : List Byte) : Live schedule secret p s (holding memory text) := by
  refine .outside live ?_
  intro cell table
  cases cell with
  | byte => cases table
  | flag => cases table
  | node => cases table
  | sbox => rfl
  | roundKeys => rfl
  | hPow2 => rfl

end GpuKvSeal.System
