import Mathlib
import GpuKvSeal.Host.Errors
import GpuKvSeal.Host.Keys

/-!
# Runs of calls

A run is a sequence of calls from a state in which the library holds nothing.
Every call may meet a driver of its own, so any pattern of failures occurs in
some run; a handle that was destroyed is not used again.
-/

namespace GpuKvSeal.Host

open Device (Ptr Launch Kernel)
open BigEndian (Byte)
open TracedState.Traced (Ensures)

/-- A call of the interface with its arguments. -/
inductive ApiCall where
  | keyCreate (key : Option (Vector Byte 16)) (keyLen : Nat) (device : Int)
      (out : Ptr)
  | keyDestroy (key : Ptr)
  | reserve (key : Ptr) (maxPlaintextLen : Nat)
  | sealAsync (key src : Ptr) (plaintextLen : Nat) (dst : Ptr)
      (dstCapacity : Nat) (iv : Option (Vector Byte 12)) (stream : Ptr)
  | openAsync (key src : Ptr) (frameLen : Nat) (dst : Ptr) (plaintextLen : Nat)
      (authOk stream : Ptr)
  deriving DecidableEq

namespace ApiCall

/-- The computation of a call. -/
def perform : ApiCall → Cuda ReturnCode
  | .keyCreate key keyLen device out =>
      lmcacheGpuAes128gcmKeyCreate key keyLen device out
  | .keyDestroy key => lmcacheGpuAes128gcmKeyDestroy key
  | .reserve key maxPlaintextLen => lmcacheGpuAes128gcmReserve key maxPlaintextLen
  | .sealAsync key src plaintextLen dst dstCapacity iv stream =>
      lmcacheGpuAes128gcmSealAsync key src plaintextLen dst dstCapacity iv stream
  | .openAsync key src frameLen dst plaintextLen authOk stream =>
      lmcacheGpuAes128gcmOpenAsync key src frameLen dst plaintextLen authOk stream

/-- The handle a call is given. -/
def handle : ApiCall → Ptr
  | .keyCreate .. => 0
  | .keyDestroy key => key
  | .reserve key _ => key
  | .sealAsync key .. => key
  | .openAsync key .. => key

/-- The handle is null or live. -/
def Allowed (c : ApiCall) (s : HostState) : Prop :=
  c.handle = 0 ∨ c.handle ∈ s.handles

end ApiCall

/-- What any call may ask of the device. -/
inductive CallEvent (s : HostState) : Event → Prop
  | creation {event : Event} (creation : CreationEvent s event) :
      CallEvent s event
  | operation (stream : Ptr) (l : Launch)
      (other : ∀ roundKeys hPow2, l.kernel ≠ .initHashKey roundKeys hPow2) :
      CallEvent s (.launch stream l)

/-- What every call keeps. -/
structure CallEffect (driver : Driver) (s s' : HostState) (c : ApiCall)
    (leaked : List Block) (rc : ReturnCode) (events : List Event) : Prop where
  accounted : ∃ lost, Accounted s' (lost ++ leaked) ∧
    (driver.Succeeds {.free} → lost = [])
  kept : ∀ p h, s.handles.lookup p = some h → c ≠ .keyDestroy p →
    ∃ h', s'.handles.lookup p = some h' ∧ Extends h h'
  others : (∀ key keyLen device out, c ≠ .keyCreate key keyLen device out) →
    ∀ p ≠ c.handle, s'.handles.lookup p = s.handles.lookup p
  handles : rc = .errArgument ∨ rc = .errAlloc ∨ (c.handle = 0 ∧ rc ≠ .ok) →
    s'.handles = s.handles
  outs : c.handle ≠ 0 ∨ rc ≠ .ok → s'.outs = s.outs
  events : ∀ event ∈ events, CallEvent s event

/-- A call that does nothing. -/
theorem CallEffect.nothing {driver : Driver} {s : HostState} {leaked : List Block}
    (accounted : Accounted s leaked) (c : ApiCall) (rc : ReturnCode) :
    CallEffect driver s s c leaked rc [] where
  accounted := ⟨[], accounted, fun _ => rfl⟩
  kept := fun _ h live _ => ⟨h, live, Extends.refl h⟩
  others := fun _ _ _ => rfl
  handles := fun _ => rfl
  outs := fun _ => rfl
  events := by
    intro event member
    cases member

theorem Bookkeeping.callEvents {events : List Event}
    (bookkeeping : Bookkeeping events) (s : HostState) :
    ∀ event ∈ events, CallEvent s event := fun event member =>
  .creation (bookkeeping.creation s event member)

/-- A creation, from what it does in every case. -/
theorem Created.callEffect {driver : Driver} {s s' : HostState}
    {secret : Vector Byte 16} {device : Int} {out : Ptr} {leaked : List Block}
    {rc : ReturnCode} {events : List Event}
    (created : Created driver s s' secret device out leaked rc events) :
    CallEffect driver s s' (.keyCreate (some secret) 16 device out) leaked rc
      events where
  accounted := created.accounted
  kept := by
    intro p h live _
    refine ⟨h, ?_, Extends.refl h⟩
    cases created.result with
    | created q roundKeys hPow2 current launched _ fresh handles =>
        have other : p ≠ q := by
          rintro rfl
          exact fresh (AList.lookup_isSome.mp (by rw [live]; rfl))
        rw [handles, AList.lookup_insert_ne other]
        exact live
    | failed bad handles =>
        rw [handles]
        exact live
  others := fun other => absurd rfl (other _ _ _ _)
  handles := by
    intro failed
    cases created.result with
    | created => simp at failed
    | failed bad handles => exact handles
  outs := by
    intro failed
    cases created.result with
    | created => simp [ApiCall.handle] at failed
    | failed bad handles outs => exact outs
  events := fun event member => .creation (created.creation event member)

/-- A destruction, which touches no other handle. -/
theorem Destroyed.callEffect {driver : Driver} {s s' : HostState} {key : Ptr}
    {leaked : List Block} {rc : ReturnCode} {events : List Event}
    (destroyed : Destroyed driver s s' key leaked rc events) :
    CallEffect driver s s' (.keyDestroy key) leaked rc events where
  accounted := destroyed.accounted
  kept := by
    intro p h live other
    have different : p ≠ key := fun same => other (by rw [same])
    refine ⟨h, ?_, Extends.refl h⟩
    exact (congrArg (AList.lookup p) destroyed.handles).trans
      ((AList.lookup_erase_ne different).trans live)
  others := fun _ p different => (congrArg (AList.lookup p) destroyed.handles).trans
    (AList.lookup_erase_ne different)
  handles := by
    intro failed
    rw [destroyed.code] at failed
    simp at failed
  outs := fun _ => destroyed.outs
  events := destroyed.events.callEvents s

/-- An operation on a handle, from what its body does. -/
theorem GuardedEffect.callEffect {driver : Driver} {s s' : HostState}
    {key : Ptr} {h : KeyHandle} {leaked : List Block} {required : Nat}
    {body : HostState → KeyHandle → ReturnCode → HostState → List Event → Prop}
    {rc : ReturnCode} {events : List Event} (c : ApiCall) (nonnull : key ≠ 0)
    (handle : c.handle = key) (operation : c ≠ .keyDestroy key)
    (live : s.handles.lookup key = some h)
    (effect : GuardedEffect driver s s' key h leaked required body rc events)
    (codes : ∀ s₁ h' rc s₂ events, body s₁ h' rc s₂ events →
      rc = .ok ∨ rc = .errCuda)
    (launches : ∀ s₁ h' rc s₂ events, body s₁ h' rc s₂ events →
      ∀ event ∈ events, CallEvent s event) :
    CallEffect driver s s' c leaked rc events where
  accounted := effect.accounted
  outs := fun _ => effect.outs
  kept := by
    intro p g found _
    cases effect.result with
    | refused small handles =>
        rw [handles]
        exact ⟨g, found, Extends.refl g⟩
    | ran s₁ s₂ h' before after extends_ fits unchanged updated =>
        by_cases same : p = key
        · subst same
          rw [live] at found
          cases found
          exact ⟨h', updated.live, extends_⟩
        · exact ⟨g, (updated.others p same).trans found, Extends.refl g⟩
  others := by
    intro _ p different
    cases effect.result with
    | refused small handles => rw [handles]
    | ran s₁ s₂ h' before after extends_ fits unchanged updated =>
        exact updated.others p (handle ▸ different)
  handles := by
    intro failed
    cases effect.result with
    | refused small handles => exact handles
    | ran s₁ s₂ h' before after extends_ fits unchanged updated live bookkeeping
        done =>
        rcases codes _ _ _ _ _ done with rfl | rfl
        · rcases failed with bad | bad | ⟨-, bad⟩
          · cases bad
          · cases bad
          · exact absurd rfl bad
        · rcases failed with bad | bad | ⟨null, -⟩
          · cases bad
          · cases bad
          · exact absurd (handle.symm.trans null) nonnull
  events := by
    cases effect.result with
    | refused small handles error cause bookkeeping =>
        exact bookkeeping.callEvents s
    | ran s₁ s₂ h' before after extends_ fits unchanged updated live bookkeeping
        done =>
        intro event member
        rcases List.mem_append.mp member with early | late
        · exact bookkeeping.callEvents s event early
        · exact launches _ _ _ _ _ done event late

/-! ## Each call -/

/-- No launch of the list fills a key table. -/
def Operational (launches : List Launch) : Prop :=
  ∀ l ∈ launches, ∀ roundKeys hPow2, l.kernel ≠ .initHashKey roundKeys hPow2

theorem Operational.append {first second : List Launch}
    (left : Operational first) (right : Operational second) :
    Operational (first ++ second) := by
  intro l member
  rcases List.mem_append.mp member with inFirst | inSecond
  · exact left l inFirst
  · exact right l inSecond

theorem Operational.cons {l : Launch} {rest : List Launch}
    (head : ∀ roundKeys hPow2, l.kernel ≠ .initHashKey roundKeys hPow2)
    (tail : Operational rest) : Operational (l :: rest) := by
  intro other member
  rcases List.mem_cons.mp member with rfl | later
  · exact head
  · exact tail other later

theorem Operational.nil : Operational [] := by
  intro l member
  cases member

theorem reduceLaunches_operational (device : Int) (hPow2 : Ptr) (count : Nat) :
    ∀ input output,
      Operational (reduceLaunches device hPow2 input output count) := by
  intro input output l member
  obtain ⟨a, b, n, -, -, -, rfl⟩ := mem_reduceLaunches member
  simp

theorem ghashLaunches_operational (device : Int) (h : KeyHandle)
    (ciphertext : Ptr) (ciphertextLen : Nat) :
    Operational (ghashLaunches device h ciphertext ciphertextLen) :=
  .cons (fun _ _ => by simp) (reduceLaunches_operational _ _ _ _ _)

theorem ctrLaunches_operational (device : Int) (src dst : Ptr) (len : Nat)
    (iv roundKeys : Ptr) (authOk : Option Ptr) :
    Operational (ctrLaunches device src dst len iv roundKeys authOk) := by
  unfold ctrLaunches
  split
  · exact .cons (fun _ _ => by simp) .nil
  · exact .nil

theorem sealLaunches_operational (device : Int) (h : KeyHandle) (src : Ptr)
    (plaintextLen : Nat) (dst : Ptr) (iv : Vector Byte 12) :
    Operational (sealLaunches device h src plaintextLen dst iv) :=
  .cons (fun _ _ => by simp) ((ctrLaunches_operational _ _ _ _ _ _ _).append
    ((ghashLaunches_operational _ _ _ _).append
      (.cons (fun _ _ => by simp) .nil)))

theorem openLaunches_operational (device : Int) (h : KeyHandle) (src dst : Ptr)
    (plaintextLen : Nat) (authOk : Ptr) :
    Operational (openLaunches device h src dst plaintextLen authOk) :=
  (ghashLaunches_operational _ _ _ _).append (.cons
    (fun _ _ => by simp [verifyLaunch]) (ctrLaunches_operational _ _ _ _ _ _ _))

theorem Pipe.callEvents {driver : Driver} {s s' s₀ : HostState} {stream : Ptr}
    {launches : List Launch} {events : List Event}
    (pipe : Pipe driver s s' stream launches events)
    (operational : Operational launches) :
    ∀ event ∈ events, CallEvent s₀ event := by
  obtain ⟨part, inside, rfl⟩ := pipe.part
  intro event member
  obtain ⟨l, listed, rfl⟩ := List.mem_map.mp member
  exact .operation stream l (operational l (inside.subset listed))

theorem cudaRc_cases (rc : CudaError) :
    cudaRc rc = .ok ∨ cudaRc rc = .errCuda := by
  unfold cudaRc
  split
  · exact Or.inl rfl
  · exact Or.inr rfl

/-- A seal without an IV or with other arguments that it does not admit. -/
theorem lmcacheGpuAes128gcmSealAsync_unadmitted {key src dst : Ptr}
    {plaintextLen dstCapacity : Nat} {iv : Option (Vector Byte 12)} {stream : Ptr}
    (refused : ¬ (iv.isSome ∧ SealAdmits key src plaintextLen dst dstCapacity)) :
    lmcacheGpuAes128gcmSealAsync key src plaintextLen dst dstCapacity iv stream =
      pure .errArgument := by
  cases iv with
  | none => rfl
  | some iv =>
      exact lmcacheGpuAes128gcmSealAsync_refused
        (fun admits => refused ⟨rfl, admits⟩) _ _

/-- What every call does, whatever the driver. -/
theorem ApiCall.perform_spec (driver : Driver) {s : HostState}
    {leaked : List Block} (accounted : Accounted s leaked) (c : ApiCall)
    (allowed : c.Allowed s) :
    c.perform.Ensures driver s fun rc s' events =>
      CallEffect driver s s' c leaked rc events := by
  have found : ∀ {key : Ptr}, c.handle = key → key ≠ 0 →
      ∃ h, s.handles.lookup key = some h := by
    rintro key rfl nonnull
    have member := allowed.resolve_left nonnull
    exact Option.isSome_iff_exists.mp (AList.lookup_isSome.mpr member)
  cases c with
  | keyCreate key keyLen device out =>
      by_cases refused : key = none ∨ out = 0 ∨ keyLen ≠ 16
      · rw [ApiCall.perform, lmcacheGpuAes128gcmKeyCreate_refused device refused]
        exact Ensures.pure (.nothing accounted _ _)
      · obtain ⟨some, nonnull, rfl⟩ : key ≠ none ∧ out ≠ 0 ∧ keyLen = 16 := by
          simpa using refused
        obtain ⟨secret, rfl⟩ := Option.ne_none_iff_exists'.mp some
        exact (lmcacheGpuAes128gcmKeyCreate_spec driver secret device nonnull
          accounted).mono fun rc s' events created => created.callEffect
  | keyDestroy key =>
      by_cases null : key = 0
      · rw [ApiCall.perform, lmcacheGpuAes128gcmKeyDestroy, if_pos null]
        exact Ensures.pure (.nothing accounted _ _)
      · obtain ⟨h, live⟩ := found rfl null
        exact (lmcacheGpuAes128gcmKeyDestroy_spec driver accounted live).mono
          fun rc s' events destroyed => destroyed.callEffect
  | reserve key maxPlaintextLen =>
      by_cases null : key = 0
      · rw [ApiCall.perform, lmcacheGpuAes128gcmReserve, if_pos null]
        exact Ensures.pure (.nothing accounted _ _)
      · obtain ⟨h, live⟩ := found rfl null
        refine (lmcacheGpuAes128gcmReserve_spec driver accounted live null
          maxPlaintextLen).mono fun rc s' events effect =>
            effect.callEffect _ null rfl (by simp) live
              (fun _ _ _ _ _ done => Or.inl done.1)
              fun _ _ _ _ _ done event member => ?_
        rw [done.2] at member
        cases member
  | sealAsync key src plaintextLen dst dstCapacity iv stream =>
      by_cases admits : iv.isSome ∧ SealAdmits key src plaintextLen dst dstCapacity
      · obtain ⟨some, admits⟩ := admits
        obtain ⟨iv, rfl⟩ := Option.isSome_iff_exists.mp some
        obtain ⟨h, live⟩ := found rfl admits.key
        refine (lmcacheGpuAes128gcmSealAsync_spec driver accounted live admits iv
          stream).mono fun rc s' events effect =>
            effect.callEffect _ admits.key rfl (by simp) live
              (fun _ _ _ _ _ done => ?_) fun _ _ _ _ _ done => ?_
        · rw [done.2.1]
          exact cudaRc_cases _
        · exact done.1.callEvents (sealLaunches_operational _ _ _ _ _ _)
      · rw [ApiCall.perform, lmcacheGpuAes128gcmSealAsync_unadmitted admits]
        exact Ensures.pure (.nothing accounted _ _)
  | openAsync key src frameLen dst plaintextLen authOk stream =>
      by_cases admits : OpenAdmits key src frameLen dst plaintextLen authOk
      · obtain ⟨h, live⟩ := found rfl admits.key
        refine (lmcacheGpuAes128gcmOpenAsync_spec driver accounted live admits
          stream).mono fun rc s' events effect =>
            effect.callEffect _ admits.key rfl (by simp) live
              (fun _ _ _ _ _ done => ?_) fun _ _ _ _ _ done => ?_
        · rw [done.2.1]
          exact cudaRc_cases _
        · exact done.1.callEvents (openLaunches_operational _ _ _ _ _ _)
      · rw [ApiCall.perform, lmcacheGpuAes128gcmOpenAsync_refused admits]
        exact Ensures.pure (.nothing accounted _ _)

/-- An operation leaves the same handles live. -/
theorem CallEffect.members {driver : Driver} {s s' : HostState} {c : ApiCall}
    {leaked : List Block} {rc : ReturnCode} {events : List Event}
    (effect : CallEffect driver s s' c leaked rc events)
    (accounted : Accounted s leaked) (allowed : c.Allowed s)
    (creates : ∀ key keyLen device out, c ≠ .keyCreate key keyLen device out)
    (destroys : ∀ key ≠ 0, c ≠ .keyDestroy key) (p : Ptr) :
    p ∈ s'.handles ↔ p ∈ s.handles := by
  by_cases same : p = c.handle
  · subst same
    rcases allowed with null | live
    · obtain ⟨lost, accounted', -⟩ := effect.accounted
      rw [null]
      exact iff_of_false (fun member => accounted'.keys 0 member rfl)
        fun member => accounted.keys 0 member rfl
    · obtain ⟨h, found⟩ := Option.isSome_iff_exists.mp (AList.lookup_isSome.mpr live)
      obtain ⟨h', found', -⟩ :=
        effect.kept _ h found (destroys _ (accounted.keys _ live))
      exact iff_of_true (AList.lookup_isSome.mp (by rw [found']; rfl)) live
  · rw [← AList.lookup_isSome, ← AList.lookup_isSome, effect.others creates p same]

/-! ## Runs -/

/-- The library holds nothing, and no runtime call has failed. -/
structure Fresh (s : HostState) : Prop where
  allocations : s.allocations = []
  handles : s.handles = ∅
  invalidFrees : s.invalidFrees = 0
  failures : s.failures = []
  lastError : s.lastError = cudaSuccess

/-- Calls one after another, each against a driver of the given kind. -/
inductive Run (drivers : Driver → Prop) (start : HostState) :
    List ApiCall → HostState → Prop
  | nil : Run drivers start [] start
  | call {calls : List ApiCall} {s : HostState}
      (before : Run drivers start calls s) {driver : Driver}
      (usable : drivers driver) (c : ApiCall) (allowed : c.Allowed s) :
      Run drivers start (calls ++ [c]) (c.perform driver s).state

theorem Fresh.accounted {s : HostState} (fresh : Fresh s) : Accounted s [] where
  holds := by
    have none : s.owned = [] := by
      rw [HostState.owned, fresh.handles]
      rfl
    have nothing : s.blocks = [] := by
      rw [HostState.blocks, fresh.allocations]
      rfl
    refine ⟨?_, ?_, ?_, fresh.invalidFrees⟩
    · rw [none, nothing]
      exact List.Perm.refl _
    · rw [none]
      exact List.nodup_nil
    · rw [none]
      simp
  empty := by
    intro key h found
    rw [fresh.handles, AList.lookup_empty] at found
    cases found
  keys := by
    intro key member
    rw [fresh.handles] at member
    exact absurd member (AList.notMem_empty key)

theorem Fresh.faithful {s : HostState} (fresh : Fresh s) : Faithful s :=
  ⟨fun _ => fresh.failures, fun _ => fresh.lastError⟩

/-- A driver that numbers addresses upwards; which calls fail is a parameter. -/
def Driver.counting (outcome : RuntimeCall → Nat → CudaError) : Driver where
  outcome := outcome
  address live _ := live.foldr max 0 + 1
  object live _ := live.foldr max 0 + 1
  address_ne_null _ _ := Nat.succ_ne_zero _
  object_ne_null _ _ := Nat.succ_ne_zero _
  address_fresh _ _ member := Nat.not_succ_le_self _
    (List.le_max_of_le' 0 member (le_refl _))
  object_fresh _ _ member := Nat.not_succ_le_self _
    (List.le_max_of_le' 0 member (le_refl _))

/-- Nothing fails. -/
def Driver.steady : Driver := .counting fun _ _ => cudaSuccess

/-- From one call on no allocation succeeds. -/
def Driver.exhausted (first : Nat) : Driver := .counting fun kind i =>
  if kind = .malloc ∧ first ≤ i then 2 else cudaSuccess

/-- Only the launch with one call number is rejected. -/
def Driver.rejecting (i : Nat) : Driver := .counting fun kind j =>
  if kind = .launch ∧ j = i then 719 else cudaSuccess

theorem Driver.rejecting_succeeds (i : Nat) {kinds : Set RuntimeCall}
    (others : .launch ∉ kinds) : (Driver.rejecting i).Succeeds kinds := by
  intro kind member j
  have other : kind ≠ .launch := fun same => others (same ▸ member)
  simp [Driver.rejecting, Driver.counting, other]

theorem Driver.steady_succeeds (kinds : Set RuntimeCall) :
    Driver.steady.Succeeds kinds := fun _ _ _ => rfl

theorem Driver.exhausted_succeeds (first : Nat) {kinds : Set RuntimeCall}
    (others : .malloc ∉ kinds) : (Driver.exhausted first).Succeeds kinds := by
  intro kind member i
  have other : kind ≠ .malloc := fun same => others (same ▸ member)
  simp [Driver.exhausted, Driver.counting, other]

/-- A thread that has not called the library yet. -/
def HostState.blank : HostState :=
  ⟨0, cudaSuccess, 0, [], [], ∅, fun _ => 0, 0⟩

theorem HostState.blank_fresh : Fresh .blank := ⟨rfl, rfl, rfl, rfl, rfl⟩

/-- The creation of a key with all bytes zero. -/
def ApiCall.createZero : ApiCall :=
  .keyCreate (some (Vector.replicate 16 0#8)) 16 0 8

/-- A thread that has created one key, at address one. -/
def HostState.oneKey : HostState :=
  (ApiCall.createZero.perform .steady .blank).state

theorem HostState.oneKey_run {drivers : Driver → Prop}
    (usable : drivers .steady) :
    Run drivers .blank [.createZero] .oneKey :=
  .call .nil usable .createZero (Or.inl rfl)

section Runs

variable {drivers : Driver → Prop} {start s : HostState}
  {calls : List ApiCall}

/-- In every run the allocations stay accounted for, up to what failed
releases leave behind. -/
theorem Run.accounted (run : Run drivers start calls s)
    (initial : ∃ leaked, Accounted start leaked) :
    ∃ leaked, Accounted s leaked := by
  induction run with
  | nil => exact initial
  | @call calls s _ driver _ c allowed ih =>
      obtain ⟨leaked, accounted⟩ := ih
      have effect := ApiCall.perform_spec driver accounted c allowed
      obtain ⟨lost, accounted', -⟩ := effect.accounted
      exact ⟨lost ++ leaked, accounted'⟩

/-- While no release fails nothing is left behind. -/
theorem Run.accounted_nil (run : Run drivers start calls s)
    (releases : ∀ driver, drivers driver → driver.Succeeds {.free})
    (initial : Accounted start []) : Accounted s [] := by
  induction run with
  | nil => exact initial
  | @call calls s _ driver usable c allowed ih =>
      have effect := ApiCall.perform_spec driver ih c allowed
      obtain ⟨lost, accounted, none⟩ := effect.accounted
      rw [none (releases driver usable)] at accounted
      exact accounted

/-- A handle that is not destroyed keeps its tables, and its workspace never
shrinks. -/
theorem Run.kept (run : Run drivers start calls s)
    (initial : ∃ leaked, Accounted start leaked) {p : Ptr} {h : KeyHandle}
    (live : start.handles.lookup p = some h)
    (undestroyed : ApiCall.keyDestroy p ∉ calls) :
    ∃ h', s.handles.lookup p = some h' ∧ Extends h h' := by
  induction run with
  | nil => exact ⟨h, live, Extends.refl h⟩
  | @call calls s before driver _ c allowed ih =>
      rw [List.mem_append, List.mem_singleton, not_or] at undestroyed
      obtain ⟨g, found, extends_⟩ := ih undestroyed.1
      obtain ⟨leaked, accounted⟩ := before.accounted initial
      have effect := ApiCall.perform_spec driver accounted c allowed
      obtain ⟨h', found', extends'⟩ :=
        effect.kept p g found (Ne.symm undestroyed.2)
      exact ⟨h', found', extends_.trans extends'⟩

end Runs

/-- What a call does to the handles and to the allocations, when no release fails. -/
structure CallAccounts (s : HostState) (c : ApiCall)
    (o : TracedState.Outcome HostState Event ReturnCode) : Prop where
  growthFailed : o.value = .errAlloc → o.state.handles = s.handles
  creationFailed : ∀ key keyLen device out, c = .keyCreate key keyLen device out →
    o.value ≠ .ok → o.state.outs = s.outs ∧ o.state.handles = s.handles ∧
      o.state.blocks.Perm s.blocks
  creation : ∀ key keyLen device out, c = .keyCreate key keyLen device out →
    o.value = .ok → ∃ h, o.state.outs out ≠ 0 ∧ o.state.outs out ∉ s.handles ∧
      o.state.handles = s.handles.insert (o.state.outs out) h ∧ h.nodeCapacity = 0 ∧
      o.state.blocks.Perm (h.buffers ++ s.blocks)
  destruction : ∀ key h, c = .keyDestroy key → s.handles.lookup key = some h →
    o.value = .ok ∧ o.state.handles = s.handles.erase key ∧
      s.blocks.Perm (h.buffers ++ o.state.blocks)
  operation : (∀ key keyLen device out, c ≠ .keyCreate key keyLen device out) →
    (∀ key ≠ 0, c ≠ .keyDestroy key) → (∀ p, p ∈ o.state.handles ↔ p ∈ s.handles) ∧
      ∀ p ≠ c.handle, o.state.handles.lookup p = s.handles.lookup p

/-- With nothing left behind the allocations are the buffers of the handles. -/
theorem Accounted.blocks {s : HostState} (accounted : Accounted s []) :
    s.blocks.Perm s.owned := by
  simpa using accounted.holds.exactly

/-- A successful creation adds the buffers of its handle. -/
theorem Created.blocks {driver : Driver} {s s' : HostState} {key : Vector Byte 16}
    {device : Int} {out : Ptr} {rc : ReturnCode} {events : List Event}
    (created : Created driver s s' key device out [] rc events) (ok : rc = .ok)
    (accounted : Accounted s []) (accounted' : Accounted s' []) :
    ∃ h, s'.outs out ≠ 0 ∧ s'.outs out ∉ s.handles ∧
      s'.handles = s.handles.insert (s'.outs out) h ∧ h.nodeCapacity = 0 ∧
      s'.blocks.Perm (h.buffers ++ s.blocks) := by
  cases created.result with
  | created p roundKeys hPow2 current launched nonnull fresh handles outs =>
      have stored : s'.outs out = p := by rw [outs, Function.update_self]
      rw [stored]
      refine ⟨_, nonnull, fresh, handles, rfl, accounted'.blocks.trans ?_⟩
      let h : KeyHandle :=
        { device := device, dRoundKeys := roundKeys, dHPow2 := hPow2 }
      have same : s'.owned = h.buffers ++ s.ownedExcept p := by
        rw [HostState.owned, handles]
        exact owned_insert s p h
      have absent : s.ownedExcept p = s.owned := by
        rw [HostState.ownedExcept, AList.erase, HostState.owned]
        exact congrArg (List.flatMap _) (List.kerase_of_notMem_keys fresh)
      rw [same, absent]
      exact accounted.blocks.symm.append_left _
  | failed bad => exact absurd ok bad

/-- A destruction takes away the buffers of its handle. -/
theorem Destroyed.blocks {driver : Driver} {s s' : HostState} {key : Ptr}
    {rc : ReturnCode} {events : List Event}
    (destroyed : Destroyed driver s s' key [] rc events) {h : KeyHandle}
    (live : s.handles.lookup key = some h) (accounted : Accounted s [])
    (accounted' : Accounted s' []) : s.blocks.Perm (h.buffers ++ s'.blocks) := by
  have owned : s'.owned = s.ownedExcept key := by
    rw [HostState.owned, destroyed.handles]
    rfl
  refine accounted.blocks.trans ((owned_of_lookup live).trans ?_)
  rw [← owned]
  exact accounted'.blocks.symm.append_left _

/-- In every run in which no release fails, between any two calls, the live
allocations are the buffers of the live handles.  A creation adds its handle and the
buffers of it or nothing, a destruction takes away its handle and the buffers of it,
a failed growth changes no handle, and no workspace shrinks. -/
theorem allocations_are_buffers {drivers : Driver → Prop}
    (releases : ∀ driver, drivers driver → driver.Succeeds {.free})
    {start s : HostState} {calls : List ApiCall} (fresh : Fresh start)
    (run : Run drivers start calls s) :
    (s.blocks.Perm s.owned ∧ (s.owned.map Prod.fst).Nodup ∧
      s.invalidFrees = 0) ∧
    (∀ driver, drivers driver → ∀ c : ApiCall, c.Allowed s →
      CallAccounts s c (c.perform driver s)) ∧
    (∀ later s', Run drivers s later s' → ∀ p h,
      s.handles.lookup p = some h → .keyDestroy p ∉ later →
      ∃ h', s'.handles.lookup p = some h' ∧
        h.nodeCapacity ≤ h'.nodeCapacity) := by
  have accounted := run.accounted_nil releases fresh.accounted
  refine ⟨⟨accounted.blocks, ?_, accounted.holds.frees⟩, ?_, ?_⟩
  · simpa using accounted.holds.distinct
  · intro driver usable c allowed
    have effect := ApiCall.perform_spec driver accounted c allowed
    obtain ⟨lost, accounted', none⟩ := effect.accounted
    rw [none (releases driver usable)] at accounted'
    constructor
    · exact fun failed => effect.handles (Or.inr (Or.inl failed))
    · rintro key keyLen device out rfl failed
      have handles := effect.handles (Or.inr (Or.inr ⟨rfl, failed⟩))
      refine ⟨effect.outs (Or.inr failed), handles, accounted'.blocks.trans ?_⟩
      rw [HostState.owned, handles]
      exact accounted.blocks.symm
    · rintro key keyLen device out rfl ok
      by_cases refused : key = Option.none ∨ out = 0 ∨ keyLen ≠ 16
      · rw [ApiCall.perform, lmcacheGpuAes128gcmKeyCreate_refused device refused] at ok
        cases ok
      · rw [not_or, not_or, Decidable.not_not] at refused
        obtain ⟨given, nonnull, rfl⟩ := refused
        obtain ⟨secret, rfl⟩ := Option.ne_none_iff_exists'.mp given
        exact Created.blocks (lmcacheGpuAes128gcmKeyCreate_spec driver secret device
          nonnull accounted) ok accounted accounted'
    · rintro key h rfl live
      have destroyed := lmcacheGpuAes128gcmKeyDestroy_spec driver accounted live
      exact ⟨destroyed.code, destroyed.handles,
        Destroyed.blocks destroyed live accounted accounted'⟩
    · exact fun creates destroys => ⟨effect.members accounted allowed creates destroys,
        effect.others creates⟩
  · intro later s' onward p h live undestroyed
    obtain ⟨h', found, extends_⟩ :=
      onward.kept ⟨[], accounted⟩ live undestroyed
    exact ⟨h', found, extends_.capacity⟩

/-- The second allocation of the first workspace fails, and then the key is destroyed. -/
theorem allocations_are_buffers_example :
    let s := ((ApiCall.reserve 1 0).perform (.exhausted 10) .oneKey).state
    let o := (ApiCall.keyDestroy 1).perform (.exhausted 10) s
    s.blocks.Perm [(1, 176), (2, 1024)] ∧
      o.state.handles = s.handles.erase 1 ∧ o.state.blocks = [] := by
  intro s o
  have releases : (Driver.exhausted 10).Succeeds {.free} :=
    Driver.exhausted_succeeds 10 fun same : RuntimeCall.malloc = .free => by
      cases same
  have run : Run (fun driver => driver.Succeeds {.free}) .blank _ s :=
    .call (HostState.oneKey_run (Driver.steady_succeeds _))
      releases (.reserve 1 0)
      (Or.inr (by decide))
  have destroyed : Run (fun driver => driver.Succeeds {.free}) .blank _ o.state :=
    run.call releases (.keyDestroy 1) (Or.inr (by decide))
  obtain ⟨⟨before, -⟩, calls, -⟩ :=
    allocations_are_buffers (fun _ usable => usable) HostState.blank_fresh run
  obtain ⟨⟨after, -⟩, -⟩ :=
    allocations_are_buffers (fun _ usable => usable) HostState.blank_fresh destroyed
  refine ⟨before, ?_, List.perm_nil.mp after⟩
  exact ((calls _ releases (.keyDestroy 1) (Or.inr (by decide))).destruction 1
    ⟨0, 1, 2, 0, 0, 0⟩ rfl (by decide)).2.1

end GpuKvSeal.Host
